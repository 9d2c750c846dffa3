import AiAgentsSwd.Python.Values

/-!
# CodeGen.Template — texts of Python with places for the values of a request

A template alternates literals and code, and has places that a request fills: in code only the
slug, in literals texts as they are, or their `repr`. Of a template that passes `check` it is known
which literals a request can break: the ones in which the task id or the description stands as it
is (`filled_iff`).
-/

namespace AiAgentsSwd.CodeGen

open Python

/-- What a request fills in. -/
inductive Hole where
  | taskId
  | requestType
  | slug
  | described
deriving Repr, DecidableEq

abbrev Env := Hole → List Char

inductive Piece where
  | text (s : String)
  | hole (h : Hole)
deriving Repr, DecidableEq

/-- A literal between triple quotes, one between double quotes, or the `repr` of a value. -/
inductive Lit where
  | doc (pieces : List Piece)
  | quoted (pieces : List Piece)
  | repr (h : Hole)
deriving Repr, DecidableEq

/-- Literals, each with the code after it. -/
abbrev Template := List (Lit × List Piece)

def Piece.fill (env : Env) : Piece → List Char
  | .text s => s.toList
  | .hole h => env h

def fillAll (env : Env) (pieces : List Piece) : List Char := pieces.flatMap (Piece.fill env)

section Fill

variable (printable : Char → Bool) (env : Env)

def Lit.fill : Lit → Literal
  | .doc pieces => ⟨true, doubleQuote, fillAll env pieces⟩
  | .quoted pieces => ⟨false, doubleQuote, fillAll env pieces⟩
  | .repr h => Python.repr printable (env h)

/-- The source that a template becomes. -/
def sourceOf (t : Template) : Source where
  head := []
  parts := t.map fun p => (p.1.fill printable env, fillAll env p.2)

end Fill

/-! ## What a template is made of -/

/-- A character that a literal holds as it is, on one line. -/
def tame (c : Char) : Bool :=
  !isQuote c && c != '\\' && c != '\n' && c != '\r' && c != nul && c != '}'

/-- The same over several lines. -/
def tameLines (c : Char) : Bool := tame c || c == '\n'

def Piece.tame (p : Char → Bool) : Piece → Bool
  | .text s => s.toList.all p
  | .hole h => h == .slug

def Piece.plain : Piece → Bool
  | .text s => s.toList.all Python.plain
  | .hole h => h == .slug

def Piece.solid : Piece → Bool
  | .text s => s.toList != []
  | .hole _ => false

/-- No request breaks the literal. -/
def Lit.tame : Lit → Bool
  | .doc pieces => pieces.all (Piece.tame tameLines)
  | .quoted pieces => pieces.all (Piece.tame CodeGen.tame)
  | .repr _ => true

/-- The literal has the task id in it, and a backquote after it. -/
def Lit.titled : Lit → Bool
  | .doc (before :: .hole .taskId :: .text s :: rest) =>
    Piece.tame tameLines before && s.toList.head? == some '`' && s.toList.all tameLines &&
      rest.all (Piece.tame tameLines)
  | _ => false

/-- The literal is the description. -/
def Lit.describes (l : Lit) : Bool := l == .doc [.hole .described]

def Template.check (t : Template) : Bool :=
  t.all fun p => (p.1.tame || p.1.titled || p.1.describes) && p.2.all Piece.plain &&
    p.2.any Piece.solid

/-! ## Which requests a template takes -/

section Requests

variable (names : List Char → Option Nat)

/-- The literal ends where it should, and has a value. -/
def Sound (l : Literal) : Prop := l.Reads ∧ (decode names l.universal.body).isSome

/-- A text may stand in a literal between triple quotes, a backquote after it: it holds no NUL, no
three double quotes in a row that are not escaped, and every escape in it is complete and known. -/
def Enclosable (s : List Char) : Prop :=
  nul ∉ s ∧ (Within.after true doubleQuote (.quotes 0) (universal s)).isSome ∧
    (decode names (universal s ++ ['`'])).isSome

/-- A text may stand between triple quotes: besides, its last character is no double quote and no
backslash that is not escaped. -/
def Spliceable (s : List Char) : Prop :=
  nul ∉ s ∧ Within.after true doubleQuote (.quotes 0) (universal s) = some (.quotes 0) ∧
    (decode names (universal s)).isSome

end Requests

/-! ## What a request can break -/

section Parts

variable {names : List Char → Option Nat} {printable : Char → Bool} {env : Env}

/-- The slug, wherever it stands, is like the text around it. -/
def SlugOk (env : Env) : Prop := ∀ c ∈ env .slug, tame c ∧ Python.plain c

theorem tameLines_of_tame {c : Char} (h : tame c) : tameLines c := by
  rw [tameLines, h]
  rfl

theorem fill_tame {p : Char → Bool} (hp : ∀ c, tame c → p c) (hslug : SlugOk env) {piece : Piece}
    (h : piece.tame p) : ∀ c ∈ piece.fill env, p c := by
  cases piece with
  | text s => exact List.all_eq_true.1 h
  | hole hole =>
    have hhole : hole = .slug := by simpa [Piece.tame] using h
    rw [hhole]
    exact fun c hc => hp c (hslug c hc).1

theorem fillAll_tame {p : Char → Bool} (hp : ∀ c, tame c → p c) (hslug : SlugOk env)
    {pieces : List Piece} (h : pieces.all (Piece.tame p)) : ∀ c ∈ fillAll env pieces, p c := by
  intro c hc
  rcases List.mem_flatMap.1 hc with ⟨piece, hpiece, hfill⟩
  exact fill_tame hp hslug (List.all_eq_true.1 h piece hpiece) c hfill

theorem fillAll_plain (hslug : SlugOk env) {pieces : List Piece} (h : pieces.all Piece.plain) :
    ∀ c ∈ fillAll env pieces, Python.plain c := by
  intro c hc
  rcases List.mem_flatMap.1 hc with ⟨piece, hpiece, hfill⟩
  have hplain := List.all_eq_true.1 h piece hpiece
  cases piece with
  | text s => exact List.all_eq_true.1 hplain c hfill
  | hole hole =>
    have hhole : hole = .slug := by simpa [Piece.plain] using hplain
    rw [hhole] at hfill
    exact (hslug c hfill).2

/-- What a tame text lacks. -/
theorem tameLines_spec {s : List Char} (h : ∀ c ∈ s, tameLines c) :
    nul ∉ s ∧ '\r' ∉ s ∧ '\\' ∉ s ∧ '}' ∉ s := by
  refine ⟨?_, ?_, ?_, ?_⟩
  all_goals
    intro hc
    exact absurd (h _ hc) (by decide)

theorem step_tameLines {c : Char} (h : tameLines c) (k : Nat) :
    Within.step true doubleQuote (.quotes k) c = some (.quotes 0) := by
  have hslash : c ≠ '\\' := by
    intro hc
    rw [hc] at h
    exact absurd h (by decide)
  have hquote : c ≠ doubleQuote := by
    intro hc
    rw [hc] at h
    exact absurd h (by decide)
  simp [Within.step, hslash, hquote]

theorem after_tameLines {s : List Char} (h : ∀ c ∈ s, tameLines c) :
    Within.after true doubleQuote (.quotes 0) s = some (.quotes 0) := by
  induction s with
  | nil => rfl
  | cons c s ih =>
    rw [Within.after, List.foldlM_cons, step_tameLines (h c List.mem_cons_self)]
    exact ih fun d hd => h d (List.mem_cons_of_mem _ hd)

theorem after_tame {s : List Char} (h : ∀ c ∈ s, tame c) :
    Within.after false doubleQuote (.quotes 0) s = some (.quotes 0) := by
  apply after_ordinary
  intro c hc
  have htame := h c hc
  refine ⟨?_, ?_, ?_, ?_, ?_⟩
  all_goals
    intro hd
    rw [hd] at htame
    exact absurd htame (by decide)

theorem sound_tame (hslug : SlugOk env) {l : Lit} (h : l.tame) :
    Sound names (l.fill printable env) := by
  cases l with
  | doc pieces =>
    have htame := fillAll_tame (fun c hc => tameLines_of_tame hc) hslug h
    rcases tameLines_spec htame with ⟨hnul, hreturn, hslash, -⟩
    refine ⟨⟨hnul, ?_⟩, ?_⟩
    · show Within.after true doubleQuote (.quotes 0) (universal (fillAll env pieces)) = _
      rw [universal_of_no_return hreturn]
      exact after_tameLines htame
    · show (decode names (universal (fillAll env pieces))).isSome
      rw [universal_of_no_return hreturn, decode_of_no_backslash hslash]
      rfl
  | quoted pieces =>
    have htame := fillAll_tame (fun c hc => hc) hslug h
    rcases tameLines_spec (fun c hc => tameLines_of_tame (htame c hc))
      with ⟨hnul, hreturn, hslash, -⟩
    refine ⟨⟨hnul, ?_⟩, ?_⟩
    · show Within.after false doubleQuote (.quotes 0) (universal (fillAll env pieces)) = _
      rw [universal_of_no_return hreturn]
      exact after_tame htame
    · show (decode names (universal (fillAll env pieces))).isSome
      rw [universal_of_no_return hreturn, decode_of_no_backslash hslash]
      rfl
  | repr hole =>
    refine ⟨reads_repr (env hole), ?_⟩
    show (decode names (Python.repr printable (env hole)).universal.body).isSome
    rw [universal_repr, decode_repr]
    rfl

/-- A text between tame ones, a backquote after it. -/
theorem sound_enclosed_iff {before s rest : List Char} (hbefore : ∀ c ∈ before, tameLines c)
    (hafter : ∀ c ∈ rest, tameLines c) :
    Sound names ⟨true, doubleQuote, before ++ (s ++ '`' :: rest)⟩ ↔ Enclosable names s := by
  rcases tameLines_spec hbefore with ⟨hnul, hreturn, hslash, -⟩
  rcases tameLines_spec hafter with ⟨hnul', hreturn', hslash', hbrace'⟩
  have hreturn'' : '\r' ∉ '`' :: rest := by
    intro h
    rcases List.mem_cons.1 h with h | h
    · exact absurd h (by decide)
    · exact hreturn' h
  have hbody : universal (before ++ (s ++ '`' :: rest)) =
      before ++ (universal s ++ '`' :: rest) := by
    rw [universal_append_of_no_return hreturn,
      universal_append (by rw [List.head?_cons]; decide), universal_of_no_return hreturn'']
  have hnuls : nul ∉ before ++ (s ++ '`' :: rest) ↔ nul ∉ s := by
    have hquote : nul ≠ '`' := by decide
    simp [hnul, hnul', hquote]
  have hfits : Within.after true doubleQuote (.quotes 0) (before ++ (universal s ++ '`' :: rest)) =
      some (.quotes 0) ↔ (Within.after true doubleQuote (.quotes 0) (universal s)).isSome := by
    rw [Within.after_append, after_tameLines hbefore, Option.bind_some, Within.after_append]
    cases hw : Within.after true doubleQuote (.quotes 0) (universal s) with
    | none => simp
    | some w =>
      -- the backquote ends whatever the text left open
      have hstep : Within.step true doubleQuote w '`' = some (.quotes 0) := by
        cases w with
        | escaped => rfl
        | quotes k => exact step_tameLines (by decide) k
      rw [Option.bind_some, Within.after, List.foldlM_cons, hstep]
      exact ⟨fun _ => rfl, fun _ => after_tameLines hafter⟩
  have hvalue : (decode names (before ++ (universal s ++ '`' :: rest))).isSome ↔
      (decode names (universal s ++ ['`'])).isSome := by
    rw [decode, Text.Transducer.read_append _ (run_text hslash), Option.isSome_map]
    exact isSome_decode_append (universal s) hslash' hbrace'
  unfold Sound Literal.Reads Literal.Fits Literal.universal Enclosable
  dsimp only
  rw [hbody, hnuls, hfits, hvalue, and_assoc]

theorem sound_titled_iff (hslug : SlugOk env) {l : Lit} (h : l.titled) :
    Sound names (l.fill printable env) ↔ Enclosable names (env .taskId) := by
  unfold Lit.titled at h
  split at h
  · next before s rest =>
    simp only [Bool.and_eq_true, beq_iff_eq] at h
    rcases h with ⟨⟨⟨hbefore, hhead⟩, hs⟩, hrest⟩
    have hbefore' := fill_tame (fun c hc => tameLines_of_tame hc) hslug hbefore
    have hrest' := fillAll_tame (fun c hc => tameLines_of_tame hc) hslug hrest
    cases hcons : s.toList with
    | nil => rw [hcons] at hhead; cases hhead
    | cons c tail =>
      rw [hcons, List.head?_cons, Option.some.injEq] at hhead
      have htail : ∀ d ∈ tail ++ fillAll env rest, tameLines d := by
        intro d hd
        rcases List.mem_append.1 hd with hd | hd
        · exact List.all_eq_true.1 hs d (by rw [hcons]; exact List.mem_cons_of_mem _ hd)
        · exact hrest' d hd
      have hbody : (Lit.doc (before :: .hole .taskId :: .text s :: rest)).fill printable env =
          ⟨true, doubleQuote,
            before.fill env ++ (env .taskId ++ '`' :: (tail ++ fillAll env rest))⟩ := by
        simp only [Lit.fill, fillAll, List.flatMap_cons, Piece.fill, hcons, hhead,
          List.cons_append]
      rw [hbody]
      exact sound_enclosed_iff hbefore' htail
  · cases h

theorem sound_describes_iff {l : Lit} (h : l.describes) :
    Sound names (l.fill printable env) ↔ Spliceable names (env .described) := by
  have hl : l = .doc [.hole .described] := by simpa [Lit.describes] using h
  have hfill : l.fill printable env = ⟨true, doubleQuote, env .described⟩ := by
    rw [hl]
    simp [Lit.fill, fillAll, Piece.fill]
  rw [hfill]
  exact and_assoc

theorem plain_sourceOf (hslug : SlugOk env) {t : Template} (h : t.check) :
    (sourceOf printable env t).Plain := by
  have hcheck := List.all_eq_true.1 h
  refine ⟨by simp [sourceOf], ?_, ?_⟩
  · intro p hp
    rcases List.mem_map.1 hp with ⟨p', hp', hpp⟩
    have hparts := hcheck p' hp'
    simp only [Bool.and_eq_true] at hparts
    rw [← hpp]
    refine ⟨?_, fillAll_plain hslug hparts.1.2⟩
    intro hempty
    rcases List.any_eq_true.1 hparts.2 with ⟨piece, hpiece, hne⟩
    cases piece with
    | text s =>
      have hnil : s.toList = [] := List.flatMap_eq_nil_iff.1 hempty (.text s) hpiece
      simp [Piece.solid, hnil] at hne
    | hole hole => cases hne
  · intro p hp
    rcases List.mem_map.1 hp with ⟨p', hp', hpp⟩
    rw [← hpp]
    cases p'.1 with
    | doc pieces => rfl
    | quoted pieces => rfl
    | repr hole => exact isQuote_reprQuote (env hole)

theorem literals_sourceOf (t : Template) :
    (sourceOf printable env t).literals = t.map fun p => p.1.fill printable env := by
  simp [sourceOf, Source.literals]

/-- A filled template is read as it was put together and all its literals have values, exactly when
the task id and the description may stand where they stand as they are. -/
theorem filled_iff (names : List Char → Option Nat) (printable : Char → Bool)
    (hslug : SlugOk env) {t : Template} (h : t.check) :
    (lexSource (sourceOf printable env t).render =
        some (sourceOf printable env t).universal.tokens ∧
      ∀ l ∈ (sourceOf printable env t).literals, (decode names l.universal.body).isSome) ↔
      (t.any (fun p => p.1.titled) → Enclosable names (env .taskId)) ∧
        (t.any (fun p => p.1.describes) → Spliceable names (env .described)) := by
  have hcheck := List.all_eq_true.1 h
  rw [lexSource_render_iff (plain_sourceOf hslug h)]
  have hsound : (∀ l ∈ (sourceOf printable env t).literals, l.Reads) ∧
      (∀ l ∈ (sourceOf printable env t).literals, (decode names l.universal.body).isSome) ↔
        ∀ p ∈ t, Sound names (p.1.fill printable env) := by
    rw [literals_sourceOf, List.forall_mem_map, List.forall_mem_map, ← forall₂_and]
    rfl
  rw [hsound]
  constructor
  · intro hall
    constructor
    · intro htitled
      rcases List.any_eq_true.1 htitled with ⟨p, hp, hl⟩
      exact (sound_titled_iff hslug hl).1 (hall p hp)
    · intro hdescribes
      rcases List.any_eq_true.1 hdescribes with ⟨p, hp, hl⟩
      exact (sound_describes_iff hl).1 (hall p hp)
  · intro hok p hp
    have hparts := hcheck p hp
    simp only [Bool.and_eq_true, Bool.or_eq_true] at hparts
    rcases hparts.1.1 with (htame | htitled) | hdescribes
    · exact sound_tame hslug htame
    · exact (sound_titled_iff hslug htitled).2 (hok.1 (List.any_eq_true.2 ⟨p, hp, htitled⟩))
    · exact (sound_describes_iff hdescribes).2 (hok.2 (List.any_eq_true.2 ⟨p, hp, hdescribes⟩))

end Parts

end AiAgentsSwd.CodeGen
