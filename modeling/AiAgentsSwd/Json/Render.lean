import AiAgentsSwd.Json.Loads
import Mathlib.Data.String.Basic

/-!
# Json.Render — documents as texts, in one style or another

`json.dumps` prints a document with or without a space after a comma and a colon, and escapes
more or fewer of the characters of a string. A `Style` says which; its field `decodes` says that
an escaped character reads back as itself. Whatever the style, `render` identifies no two
documents (`render_inj`).
-/

namespace Json

/-! ## Printing -/

def hexChar (n : Nat) : Char := Nat.digitChar (n % 16)

/-- `int.__repr__`. -/
def intText (i : Int) : List Char :=
  if i < 0 then '-' :: Nat.toDigits 10 i.natAbs else Nat.toDigits 10 i.natAbs

/-- How a document is printed. -/
structure Style where
  /-- What follows a comma and a colon. -/
  gap : List Char
  /-- How a character stands in a string. -/
  escape : Char → List Char
  decodes : ∀ c rest, stringChar (escape c ++ rest) = some (c, rest)

variable (st : Style)

/-- What follows the opening quote of a string. -/
def renderRest : List Char → List Char
  | [] => ['"']
  | c :: cs => st.escape c ++ renderRest cs

def renderQuote (s : String) : List Char := '"' :: renderRest st s.toList

mutual

/-- Print a document, members in the order they have. -/
def render : Value → List Char
  | .null => ['n', 'u', 'l', 'l']
  | .bool true => ['t', 'r', 'u', 'e']
  | .bool false => ['f', 'a', 'l', 's', 'e']
  | .int i => intText i
  | .float x => x.text.toList
  | .str s => renderQuote st s
  | .arr [] => ['[', ']']
  | .arr (v :: vs) => '[' :: (render v ++ renderItems vs)
  | .obj [] => ['{', '}']
  | .obj ((k, v) :: ms) =>
    '{' :: (renderQuote st k ++ ':' :: (st.gap ++ (render v ++ renderMembers ms)))

/-- The items after the first. -/
def renderItems : List Value → List Char
  | [] => [']']
  | v :: vs => ',' :: (st.gap ++ (render v ++ renderItems vs))

/-- The members after the first. -/
def renderMembers : List (String × Value) → List Char
  | [] => ['}']
  | (k, v) :: ms =>
    ',' :: (st.gap ++ (renderQuote st k ++ ':' :: (st.gap ++ (render v ++ renderMembers ms))))

end

/-! ## Printing is injective -/

attribute [local simp] render

variable {st}

/-- A character of a number or a constant. -/
def tokenChar (c : Char) : Bool := floatChar c || ['r', 'u', 'l', 's'].contains c

/-- What may follow a value: nothing, or a character no token contains. -/
def Ends (r : List Char) : Prop := ∀ c ∈ r.head?, tokenChar c = false

/-- A token ends where the first other character stands. -/
theorem token_append_inj {a b r r' : List Char} (ha : ∀ c ∈ a, tokenChar c = true)
    (hb : ∀ c ∈ b, tokenChar c = true) (hr : Ends r) (hr' : Ends r') (h : a ++ r = b ++ r') :
    a = b ∧ r = r' := by
  induction a generalizing b with
  | nil =>
    cases b with
    | nil => exact ⟨rfl, h⟩
    | cons d b =>
      have hhead : r.head? = some d := by
        rw [List.nil_append] at h
        rw [h]
        rfl
      have hd := hb d List.mem_cons_self
      rw [hr d hhead] at hd
      cases hd
  | cons c a ih =>
    cases b with
    | nil =>
      have hhead : r'.head? = some c := by
        rw [List.nil_append] at h
        rw [← h]
        rfl
      have hc := ha c List.mem_cons_self
      rw [hr' c hhead] at hc
      cases hc
    | cons d b =>
      simp only [List.cons_append, List.cons.injEq] at h
      obtain ⟨rfl, h⟩ := h
      obtain ⟨rfl, hr⟩ := ih (fun x hx => ha x (List.mem_cons_of_mem _ hx))
        (fun x hx => hb x (List.mem_cons_of_mem _ hx)) h
      exact ⟨rfl, hr⟩

theorem intChar_of_mem_intText {i : Int} {c : Char} (hc : c ∈ intText i) : intChar c = true := by
  have hdigit : ∀ c ∈ Nat.toDigits 10 i.natAbs, intChar c = true := by
    intro c hc
    have h := Nat.isDigit_of_mem_toDigits (by omega) (by omega) hc
    simp [intChar, h]
  unfold intText at hc
  split at hc
  · rcases List.mem_cons.mp hc with rfl | hc
    · decide
    · exact hdigit c hc
  · exact hdigit c hc

theorem intText_inj {i j : Int} (h : intText i = intText j) : i = j := by
  have hnat : ∀ {m n : Nat}, Nat.toDigits 10 m = Nat.toDigits 10 n → m = n := by
    intro m n hmn
    have hm := Nat.ofDigitChars_ten_toDigits (n := m)
    rw [hmn, Nat.ofDigitChars_ten_toDigits] at hm
    exact hm.symm
  have hminus : ∀ m : Nat, '-' ∉ Nat.toDigits 10 m := by
    intro m hm
    have hd := Nat.isDigit_of_mem_toDigits (by omega) (by omega) hm
    revert hd
    decide
  unfold intText at h
  split at h
  · split at h
    · have hmn := hnat (List.cons.inj h).2
      omega
    · exact absurd (h ▸ List.mem_cons_self) (hminus j.natAbs)
  · split at h
    · exact absurd (h ▸ List.mem_cons_self) (hminus i.natAbs)
    · have hmn := hnat h
      omega

theorem tokenChar_of_floatChar {c : Char} (h : floatChar c = true) : tokenChar c = true := by
  simp [tokenChar, h]

theorem tokenChar_of_intChar {c : Char} (h : intChar c = true) : tokenChar c = true := by
  simp only [intChar, Bool.or_eq_true, decide_eq_true_eq] at h
  rcases h with h | rfl
  · simp [tokenChar, floatChar, h]
  · decide

/-- A value printed as a token: a constant or a number. -/
def Value.isToken : Value → Bool
  | .null | .bool _ | .int _ | .float _ => true
  | _ => false

theorem tokenChar_of_mem_render {v : Value} (hv : v.isToken = true) {c : Char}
    (hc : c ∈ render st v) : tokenChar c = true := by
  cases v with
  | null =>
    have hall : ∀ c ∈ render st .null, tokenChar c = true := by
      simp [render, tokenChar, floatChar]
    exact hall c hc
  | bool b =>
    have hall : ∀ c ∈ render st (.bool b), tokenChar c = true := by
      cases b <;> simp [render, tokenChar, floatChar]
    exact hall c hc
  | int i => exact tokenChar_of_intChar (intChar_of_mem_intText (by simpa [render] using hc))
  | float x =>
    have hall := List.all_eq_true.mp x.chars
    exact tokenChar_of_floatChar (hall c (by simpa [render] using hc))
  | str s => cases hv
  | arr vs => cases hv
  | obj ms => cases hv

theorem render_token_ne_nil {v : Value} (hv : v.isToken = true) : render st v ≠ [] := by
  cases v with
  | null => simp [render]
  | bool b => cases b <;> simp [render]
  | int i =>
    simp only [render, intText]
    split
    · simp
    · exact Nat.toDigits_ne_nil
  | float x =>
    intro h
    have hn := x.notInt
    simp only [render] at h
    rw [h] at hn
    cases hn
  | str s => cases hv
  | arr vs => cases hv
  | obj ms => cases hv

/-- A character that occurs in one text and cannot occur in the other tells them apart. -/
theorem ne_of_mem {a b : List Char} {p : Char → Bool} {c : Char} (hc : c ∈ a)
    (hp : p c = false) (hb : ∀ d ∈ b, p d = true) : a ≠ b := by
  rintro rfl
  have h := hb c hc
  rw [hp] at h
  cases h

theorem intText_ne_float (i : Int) (x : FloatText) : x.text.toList ≠ intText i := by
  obtain ⟨c, hc, hn⟩ := List.any_eq_true.mp x.notInt
  exact ne_of_mem (p := intChar) hc (by simpa using hn) fun d hd => intChar_of_mem_intText hd

theorem render_token_inj {v w : Value} (hv : v.isToken = true) (hw : w.isToken = true)
    (h : render st v = render st w) : v = w := by
  -- a constant has a letter that no number has
  have hint : ∀ (i : Int) (d : Char), d ∈ intText i → intChar d = true :=
    fun i d hd => intChar_of_mem_intText hd
  have hfloat : ∀ (x : FloatText) (d : Char), d ∈ x.text.toList → floatChar d = true :=
    fun x d hd => List.all_eq_true.mp x.chars d hd
  have hnull : 'u' ∈ render st .null := by simp [render]
  have hbool : ∀ b, 'e' ∈ render st (.bool b) := by intro b; cases b <;> simp [render]
  have hbool' : ∀ b, 'r' ∈ render st (.bool b) ∨ 'l' ∈ render st (.bool b) := by
    intro b; cases b <;> simp [render]
  have hboolf : ∀ b (x : FloatText), render st (.bool b) ≠ x.text.toList := by
    intro b x
    rcases hbool' b with h | h
    · exact ne_of_mem h (by decide) (hfloat x)
    · exact ne_of_mem h (by decide) (hfloat x)
  cases v <;> cases w <;> first | cases hv; done | cases hw; done | skip
  case null.null => rfl
  case null.bool b => cases b <;> simp [render] at h
  case null.int i =>
    exact absurd h
      (ne_of_mem (p := intChar) hnull (by decide) (by simpa [render] using hint i))
  case null.float x =>
    exact absurd h
      (ne_of_mem (p := floatChar) hnull (by decide) (by simpa [render] using hfloat x))
  case bool.null b => cases b <;> simp [render] at h
  case bool.bool b c => cases b <;> cases c <;> simp [render] at h <;> rfl
  case bool.int b i =>
    exact absurd h
      (ne_of_mem (p := intChar) (hbool b) (by decide) (by simpa [render] using hint i))
  case bool.float b x => exact absurd (by simpa [render] using h) (hboolf b x)
  case int.null i =>
    exact absurd h.symm
      (ne_of_mem (p := intChar) hnull (by decide) (by simpa [render] using hint i))
  case int.bool i b =>
    exact absurd h.symm
      (ne_of_mem (p := intChar) (hbool b) (by decide) (by simpa [render] using hint i))
  case int.int i j =>
    simp only [render] at h
    rw [intText_inj h]
  case int.float i x =>
    simp only [render] at h
    exact absurd h.symm (intText_ne_float i x)
  case float.null x =>
    exact absurd h.symm
      (ne_of_mem (p := floatChar) hnull (by decide) (by simpa [render] using hfloat x))
  case float.bool x b => exact absurd (by simpa [render] using h.symm) (hboolf b x)
  case float.int x i =>
    simp only [render] at h
    exact absurd h (intText_ne_float i x)
  case float.float x y =>
    simp only [render, String.toList_inj] at h
    rcases x with ⟨t, _, _⟩
    rcases y with ⟨t', _, _⟩
    obtain rfl : t = t' := h
    rfl

/-! ### Strings -/

theorem hexDigit?_hexChar (n : Nat) : hexDigit? (hexChar n) = some (n % 16) := by
  have hall : ∀ k < 16, hexDigit? (Nat.digitChar k) = some k := by decide
  exact hall (n % 16) (Nat.mod_lt _ (by omega))

theorem renderRest_append_inj {cs ds r r' : List Char}
    (h : renderRest st cs ++ r = renderRest st ds ++ r') : cs = ds ∧ r = r' := by
  have hquote : ∀ rest, stringChar ('"' :: rest) = none := by
    intro rest
    rfl
  induction cs generalizing ds with
  | nil =>
    cases ds with
    | nil => exact ⟨rfl, List.append_cancel_left h⟩
    | cons d ds =>
      have hs := congrArg stringChar h
      simp only [renderRest, List.append_assoc, st.decodes, List.cons_append,
        hquote] at hs
      cases hs
  | cons c cs ih =>
    cases ds with
    | nil =>
      have hs := congrArg stringChar h
      simp only [renderRest, List.append_assoc, st.decodes, List.cons_append,
        hquote] at hs
      cases hs
    | cons d ds =>
      have hs := congrArg stringChar h
      simp only [renderRest, List.append_assoc, st.decodes, Option.some.injEq,
        Prod.mk.injEq] at hs
      obtain ⟨rfl, hs⟩ := hs
      obtain ⟨rfl, hr⟩ := ih hs
      exact ⟨rfl, hr⟩

theorem renderQuote_append_inj {s t : String} {r r' : List Char} (h : renderQuote st s ++ r = renderQuote st t ++ r') :
    s = t ∧ r = r' := by
  simp only [renderQuote, List.cons_append, List.cons.injEq, true_and] at h
  obtain ⟨hst, hr⟩ := renderRest_append_inj h
  exact ⟨String.toList_inj.mp hst, hr⟩

/-! ### Documents -/

theorem ends_cons {c : Char} {r : List Char} (h : tokenChar c = false) : Ends (c :: r) := by
  intro d hd
  obtain rfl := Option.some.inj hd
  exact h

theorem ends_renderItems (vs : List Value) (r : List Char) : Ends (renderItems st vs ++ r) := by
  cases vs <;> exact ends_cons (by decide)

theorem ends_renderMembers (ms : List (String × Value)) (r : List Char) :
    Ends (renderMembers st ms ++ r) := by
  rcases ms with _ | ⟨⟨k, v⟩, ms⟩ <;> exact ends_cons (by decide)

theorem render_arr_open (vs : List Value) (r : List Char) :
    ∃ rest, render st (.arr vs) ++ r = '[' :: rest := by
  cases vs <;> exact ⟨_, rfl⟩

theorem render_obj_open (ms : List (String × Value)) (r : List Char) :
    ∃ rest, render st (.obj ms) ++ r = '{' :: rest := by
  rcases ms with _ | ⟨⟨k, v⟩, ms⟩ <;> exact ⟨_, rfl⟩

/-- A text that does not start with a token is a string, an array or an object, as its
first character says. -/
theorem render_open {v : Value} {c : Char} {r rest : List Char} (hc : tokenChar c = false)
    (h : render st v ++ r = c :: rest) :
    (c = '"' ∧ ∃ s, v = .str s) ∨ (c = '[' ∧ ∃ vs, v = .arr vs) ∨
      (c = '{' ∧ ∃ ms, v = .obj ms) := by
  by_cases hv : v.isToken = true
  · cases hp : render st v with
    | nil => exact absurd hp (render_token_ne_nil hv)
    | cons d ds =>
      rw [hp, List.cons_append] at h
      have hd := tokenChar_of_mem_render hv (hp ▸ List.mem_cons_self)
      rw [(List.cons.inj h).1, hc] at hd
      cases hd
  · cases v with
    | str s =>
      simp only [render, renderQuote, List.cons_append] at h
      exact Or.inl ⟨(List.cons.inj h).1.symm, s, rfl⟩
    | arr vs =>
      obtain ⟨rest', hrest⟩ := render_arr_open vs r
      have hhead : c = '[' := (List.cons.inj (h.symm.trans hrest)).1
      exact Or.inr (Or.inl ⟨hhead, vs, rfl⟩)
    | obj ms =>
      obtain ⟨rest', hrest⟩ := render_obj_open ms r
      have hhead : c = '{' := (List.cons.inj (h.symm.trans hrest)).1
      exact Or.inr (Or.inr ⟨hhead, ms, rfl⟩)
    | null => exact absurd rfl hv
    | bool b => exact absurd rfl hv
    | int i => exact absurd rfl hv
    | float x => exact absurd rfl hv

theorem render_ne_closing (v : Value) (r rest : List Char) : render st v ++ r ≠ ']' :: rest := by
  intro h
  rcases render_open (by decide) h with ⟨hc, -⟩ | ⟨hc, -⟩ | ⟨hc, -⟩ <;> revert hc <;> decide

theorem eq_str_of_render {v : Value} {r rest : List Char} (h : render st v ++ r = '"' :: rest) :
    ∃ s, v = .str s := by
  rcases render_open (by decide) h with ⟨-, hv⟩ | ⟨hc, -⟩ | ⟨hc, -⟩
  · exact hv
  · exact absurd hc (by decide)
  · exact absurd hc (by decide)

theorem eq_arr_of_render {v : Value} {r rest : List Char} (h : render st v ++ r = '[' :: rest) :
    ∃ vs, v = .arr vs := by
  rcases render_open (by decide) h with ⟨hc, -⟩ | ⟨-, hv⟩ | ⟨hc, -⟩
  · exact absurd hc (by decide)
  · exact hv
  · exact absurd hc (by decide)

theorem eq_obj_of_render {v : Value} {r rest : List Char} (h : render st v ++ r = '{' :: rest) :
    ∃ ms, v = .obj ms := by
  rcases render_open (by decide) h with ⟨hc, -⟩ | ⟨hc, -⟩ | ⟨-, hv⟩
  · exact absurd hc (by decide)
  · exact absurd hc (by decide)
  · exact hv

theorem render_append_inj_of_token {v w : Value} {r r' : List Char} (hv : v.isToken = true)
    (hr : Ends r) (hr' : Ends r') (h : render st v ++ r = render st w ++ r') : v = w ∧ r = r' := by
  by_cases hw : w.isToken = true
  · obtain ⟨hp, hrr⟩ := token_append_inj (fun _ hc => tokenChar_of_mem_render hv hc)
      (fun _ hc => tokenChar_of_mem_render hw hc) hr hr' h
    exact ⟨render_token_inj hv hw hp, hrr⟩
  · -- the other text opens with a character that no token contains
    have hopen : ∃ c rest, render st w ++ r' = c :: rest ∧ tokenChar c = false := by
      cases w with
      | str s => exact ⟨'"', _, rfl, by decide⟩
      | arr vs =>
        obtain ⟨rest, hrest⟩ := render_arr_open vs r'
        exact ⟨'[', rest, hrest, by decide⟩
      | obj ms =>
        obtain ⟨rest, hrest⟩ := render_obj_open ms r'
        exact ⟨'{', rest, hrest, by decide⟩
      | null => exact absurd rfl hw
      | bool b => exact absurd rfl hw
      | int i => exact absurd rfl hw
      | float x => exact absurd rfl hw
    obtain ⟨c, rest, hc, htok⟩ := hopen
    rcases render_open htok (h.trans hc) with ⟨-, s, rfl⟩ | ⟨-, vs, rfl⟩ | ⟨-, ms, rfl⟩ <;> cases hv

mutual

theorem render_append_inj : ∀ {v w : Value} {r r' : List Char}, Ends r → Ends r' →
    render st v ++ r = render st w ++ r' → v = w ∧ r = r'
  | .null, _, _, _, hr, hr', h => render_append_inj_of_token rfl hr hr' h
  | .bool _, _, _, _, hr, hr', h => render_append_inj_of_token rfl hr hr' h
  | .int _, _, _, _, hr, hr', h => render_append_inj_of_token rfl hr hr' h
  | .float _, _, _, _, hr, hr', h => render_append_inj_of_token rfl hr hr' h
  | .str s, w, r, r', _, _, h => by
    obtain ⟨t, rfl⟩ := eq_str_of_render h.symm
    simp only [render] at h
    obtain ⟨rfl, hr⟩ := renderQuote_append_inj h
    exact ⟨rfl, hr⟩
  | .arr [], w, r, r', _, _, h => by
    obtain ⟨ws, rfl⟩ := eq_arr_of_render h.symm
    cases ws with
    | nil =>
      simp only [render, List.cons_append, List.nil_append, List.cons.injEq, true_and] at h
      exact ⟨rfl, h⟩
    | cons w ws =>
      simp only [render, List.cons_append, List.nil_append, List.cons.injEq, true_and,
        List.append_assoc] at h
      exact absurd h.symm (render_ne_closing w _ _)
  | .arr (v :: vs), w, r, r', _, _, h => by
    obtain ⟨rest, hrest⟩ := render_arr_open (v :: vs) r
    obtain ⟨ws, rfl⟩ := eq_arr_of_render (h.symm.trans hrest)
    cases ws with
    | nil =>
      simp only [render, List.cons_append, List.nil_append, List.cons.injEq, true_and,
        List.append_assoc] at h
      exact absurd h (render_ne_closing v _ _)
    | cons w ws =>
      simp only [render, List.cons_append, List.cons.injEq, true_and, List.append_assoc] at h
      obtain ⟨rfl, h₁⟩ := render_append_inj (ends_renderItems vs r) (ends_renderItems ws r') h
      obtain ⟨rfl, h₂⟩ := renderItems_append_inj h₁
      exact ⟨rfl, h₂⟩
  | .obj [], w, r, r', _, _, h => by
    obtain ⟨ns, rfl⟩ := eq_obj_of_render h.symm
    cases ns with
    | nil =>
      simp only [render, List.cons_append, List.nil_append, List.cons.injEq, true_and] at h
      exact ⟨rfl, h⟩
    | cons n ns => simp [render, renderQuote] at h
  | .obj ((k, v) :: ms), w, r, r', _, _, h => by
    obtain ⟨rest, hrest⟩ := render_obj_open ((k, v) :: ms) r
    obtain ⟨ns, rfl⟩ := eq_obj_of_render (h.symm.trans hrest)
    cases ns with
    | nil => simp [render, renderQuote] at h
    | cons n ns =>
      simp only [render, List.cons_append, List.cons.injEq, true_and, List.append_assoc] at h
      obtain ⟨hk, h₁⟩ := renderQuote_append_inj h
      obtain ⟨hv, h₂⟩ := render_append_inj (ends_renderMembers ms r) (ends_renderMembers ns r')
        (List.append_cancel_left (List.cons.inj h₁).2)
      obtain ⟨rfl, h₃⟩ := renderMembers_append_inj h₂
      refine ⟨?_, h₃⟩
      rw [hk, hv]

theorem renderItems_append_inj : ∀ {vs ws : List Value} {r r' : List Char},
    renderItems st vs ++ r = renderItems st ws ++ r' → vs = ws ∧ r = r'
  | [], [], r, r', h => by
    simp only [renderItems, List.cons_append, List.nil_append, List.cons.injEq, true_and] at h
    exact ⟨rfl, h⟩
  | [], _ :: _, r, r', h => by simp [renderItems] at h
  | _ :: _, [], r, r', h => by simp [renderItems] at h
  | v :: vs, w :: ws, r, r', h => by
    simp only [renderItems, List.cons_append, List.cons.injEq, true_and, List.append_assoc] at h
    obtain ⟨rfl, h₁⟩ := render_append_inj (ends_renderItems vs r) (ends_renderItems ws r')
      (List.append_cancel_left h)
    obtain ⟨rfl, h₂⟩ := renderItems_append_inj h₁
    exact ⟨rfl, h₂⟩

theorem renderMembers_append_inj : ∀ {ms ns : List (String × Value)} {r r' : List Char},
    renderMembers st ms ++ r = renderMembers st ns ++ r' → ms = ns ∧ r = r'
  | [], [], r, r', h => by
    simp only [renderMembers, List.cons_append, List.nil_append, List.cons.injEq, true_and] at h
    exact ⟨rfl, h⟩
  | [], (_, _) :: _, r, r', h => by simp [renderMembers] at h
  | (_, _) :: _, [], r, r', h => by simp [renderMembers] at h
  | (k, v) :: ms, (k', w) :: ns, r, r', h => by
    simp only [renderMembers, List.cons_append, List.cons.injEq, true_and, List.append_assoc] at h
    obtain ⟨hk, h₁⟩ := renderQuote_append_inj (List.append_cancel_left h)
    obtain ⟨hv, h₂⟩ := render_append_inj (ends_renderMembers ms r) (ends_renderMembers ns r')
      (List.append_cancel_left (List.cons.inj h₁).2)
    obtain ⟨rfl, h₃⟩ := renderMembers_append_inj h₂
    refine ⟨?_, h₃⟩
    rw [hk, hv]

end

/-- **Printing identifies no two documents.** -/
theorem render_inj {v w : Value} (h : render st v = render st w) : v = w := by
  have hnil : Ends [] := by
    intro c hc
    cases hc
  have happ : render st v ++ [] = render st w ++ [] := by rw [h]
  exact (render_append_inj hnil hnil happ).1

end Json
