import AiAgentsSwd.Json.Render
import Mathlib.Data.List.Sort

/-!
# Json.Dumps — `json.dumps` with sorted names

`dumps` is `json.dumps(…, sort_keys=True, ensure_ascii=False, separators=(",", ":"))`, and
`plainDumps` is `json.dumps(…, sort_keys=True)`, with spaces and in ASCII.
Main results, for documents whose objects have distinct names (`Value.Distinct`):

- `sortKeys_eq_iff`: sorting the names identifies exactly the documents that are the same
  up to the order of members (`Same`);
- `print_inj`: printing identifies no two documents;
- `dumps_eq_iff`, `plainDumps_eq_iff`: so two documents have one text exactly when they are the
  same.
-/

namespace Json

/-! ## Sorting the names -/

mutual

/-- `sort_keys=True`, at every depth. -/
def sortKeys : Value → Value
  | .arr items => .arr (sortItems items)
  | .obj members => .obj ((sortMembers members).insertionSort fun m n => m.1 ≤ n.1)
  | v => v

def sortItems : List Value → List Value
  | [] => []
  | v :: vs => sortKeys v :: sortItems vs

def sortMembers : List (String × Value) → List (String × Value)
  | [] => []
  | (k, v) :: ms => (k, sortKeys v) :: sortMembers ms

end

theorem sortMembers_eq_map (ms : List (String × Value)) :
    sortMembers ms = ms.map fun m => (m.1, sortKeys m.2) := by
  induction ms with
  | nil => simp [sortMembers]
  | cons m ms ih => simp [sortMembers, ih]

@[simp] theorem map_fst_sortMembers (ms : List (String × Value)) :
    (sortMembers ms).map Prod.fst = ms.map Prod.fst := by
  rw [sortMembers_eq_map, List.map_map]
  rfl

mutual

/-- The same document up to the order of members. -/
def Same : Value → Value → Prop
  | .null, .null => True
  | .bool b, .bool c => b = c
  | .int i, .int j => i = j
  | .float x, .float y => x = y
  | .str s, .str t => s = t
  | .arr vs, .arr ws => SameItems vs ws
  | .obj ms, .obj ns => SameMembers ms ns ∧ ms.length = ns.length
  | _, _ => False

def SameItems : List Value → List Value → Prop
  | [], [] => True
  | v :: vs, w :: ws => Same v w ∧ SameItems vs ws
  | _, _ => False

/-- Every member of the first object has its like in the second. -/
def SameMembers : List (String × Value) → List (String × Value) → Prop
  | [], _ => True
  | (k, v) :: ms, ns => (∃ w, (k, w) ∈ ns ∧ Same v w) ∧ SameMembers ms ns

end

/-- Sorting by name forgets the order of members and nothing else. -/
theorem insertionSort_eq_iff_perm {ms ns : List (String × Value)} (hm : (ms.map Prod.fst).Nodup) :
    (ms.insertionSort fun m n => m.1 ≤ n.1) = (ns.insertionSort fun m n => m.1 ≤ n.1) ↔
      ms.Perm ns := by
  constructor
  · intro h
    have h₁ := List.perm_insertionSort (fun m n : String × Value => m.1 ≤ n.1) ms
    have h₂ := List.perm_insertionSort (fun m n : String × Value => m.1 ≤ n.1) ns
    exact h₁.symm.trans (h ▸ h₂)
  · intro h
    have h₁ := List.perm_insertionSort (fun m n : String × Value => m.1 ≤ n.1) ms
    have h₂ := List.perm_insertionSort (fun m n : String × Value => m.1 ≤ n.1) ns
    refine List.Perm.eq_of_pairwise ?_ (List.pairwise_insertionSort _ ms)
      (List.pairwise_insertionSort _ ns) (h₁.trans (h.trans h₂.symm))
    -- two members of one name are one member
    intro a b ha hb hab hba
    have ha' : a ∈ ms := h₁.mem_iff.mp ha
    have hb' : b ∈ ms := h.mem_iff.mpr (h₂.mem_iff.mp hb)
    exact List.inj_on_of_nodup_map hm ha' hb' (le_antisymm hab hba)

/-- Two objects with distinct names have the same members when one has those of the other
and they are equally many. -/
theorem perm_iff_subset {ms ns : List (String × Value)} (hm : (ms.map Prod.fst).Nodup) :
    ms.Perm ns ↔ (∀ m ∈ ms, m ∈ ns) ∧ ms.length = ns.length := by
  constructor
  · intro h
    exact ⟨fun m hmem => h.mem_iff.mp hmem, h.length_eq⟩
  · rintro ⟨hsub, hlen⟩
    have hnd : ms.Nodup := hm.of_map
    exact (List.subperm_of_subset hnd hsub).perm_of_length_le hlen.ge

mutual

theorem sortKeys_eq_iff : ∀ {v w : Value}, v.Distinct → w.Distinct →
    (sortKeys v = sortKeys w ↔ Same v w)
  | .arr vs, .arr ws, hv, hw => by
    simp only [sortKeys, Value.arr.injEq, Same]
    exact sortItems_eq_iff hv hw
  | .obj ms, .obj ns, ⟨hm, hms⟩, ⟨hn, hns⟩ => by
    have hm' : ((sortMembers ms).map Prod.fst).Nodup := by
      rw [map_fst_sortMembers]
      exact hm
    have hlen : (sortMembers ms).length = (sortMembers ns).length ↔ ms.length = ns.length := by
      simp [sortMembers_eq_map]
    simp only [sortKeys, Value.obj.injEq, Same]
    rw [insertionSort_eq_iff_perm hm', perm_iff_subset hm', hlen,
      sortMembers_subset_iff hms hns]
  | .null, w, _, _ => by cases w <;> simp [sortKeys, Same]
  | .bool b, w, _, _ => by cases w <;> simp [sortKeys, Same]
  | .int i, w, _, _ => by cases w <;> simp [sortKeys, Same]
  | .float x, w, _, _ => by cases w <;> simp [sortKeys, Same]
  | .str s, w, _, _ => by cases w <;> simp [sortKeys, Same]
  | .arr vs, .null, _, _ => by simp [sortKeys, Same]
  | .arr vs, .bool _, _, _ => by simp [sortKeys, Same]
  | .arr vs, .int _, _, _ => by simp [sortKeys, Same]
  | .arr vs, .float _, _, _ => by simp [sortKeys, Same]
  | .arr vs, .str _, _, _ => by simp [sortKeys, Same]
  | .arr vs, .obj _, _, _ => by simp [sortKeys, Same]
  | .obj ms, .null, _, _ => by simp [sortKeys, Same]
  | .obj ms, .bool _, _, _ => by simp [sortKeys, Same]
  | .obj ms, .int _, _, _ => by simp [sortKeys, Same]
  | .obj ms, .float _, _, _ => by simp [sortKeys, Same]
  | .obj ms, .str _, _, _ => by simp [sortKeys, Same]
  | .obj ms, .arr _, _, _ => by simp [sortKeys, Same]

theorem sortItems_eq_iff : ∀ {vs ws : List Value}, DistinctItems vs → DistinctItems ws →
    (sortItems vs = sortItems ws ↔ SameItems vs ws)
  | [], [], _, _ => by simp [sortItems, SameItems]
  | [], _ :: _, _, _ => by simp [sortItems, SameItems]
  | _ :: _, [], _, _ => by simp [sortItems, SameItems]
  | v :: vs, w :: ws, ⟨hv, hvs⟩, ⟨hw, hws⟩ => by
    simp only [sortItems, SameItems, List.cons.injEq]
    rw [sortKeys_eq_iff hv hw, sortItems_eq_iff hvs hws]

theorem sortMembers_subset_iff : ∀ {ms ns : List (String × Value)}, DistinctMembers ms →
    DistinctMembers ns →
    ((∀ m ∈ sortMembers ms, m ∈ sortMembers ns) ↔ SameMembers ms ns)
  | [], _, _, _ => by simp [sortMembers, SameMembers]
  | (k, v) :: ms, ns, ⟨hv, hms⟩, hns => by
    have hhead : (k, sortKeys v) ∈ sortMembers ns ↔ ∃ w, (k, w) ∈ ns ∧ Same v w := by
      rw [sortMembers_eq_map, List.mem_map]
      constructor
      · rintro ⟨⟨k', w⟩, hmem, heq⟩
        obtain ⟨rfl, hw⟩ := Prod.mk.inj heq
        have hd := distinctMembers_iff.mp hns _ hmem
        exact ⟨w, hmem, (sortKeys_eq_iff hv hd).mp hw.symm⟩
      · rintro ⟨w, hmem, hs⟩
        have hd := distinctMembers_iff.mp hns _ hmem
        exact ⟨(k, w), hmem, by rw [(sortKeys_eq_iff hv hd).mpr hs]⟩
    simp only [sortMembers, SameMembers, List.forall_mem_cons]
    rw [hhead, sortMembers_subset_iff hms hns]

end

mutual

theorem distinct_sortKeys : ∀ {v : Value}, v.Distinct → (sortKeys v).Distinct
  | .arr vs, h => by
    simp only [sortKeys, Value.Distinct]
    exact distinct_sortItems h
  | .obj ms, ⟨hnd, hms⟩ => by
    have hperm := List.perm_insertionSort (fun m n : String × Value => m.1 ≤ n.1) (sortMembers ms)
    simp only [sortKeys, Value.Distinct]
    refine ⟨?_, distinctMembers_iff.mpr fun m hm => ?_⟩
    · rw [(hperm.map Prod.fst).nodup_iff, map_fst_sortMembers]
      exact hnd
    · exact distinct_sortMembers hms m (hperm.mem_iff.mp hm)
  | .null, _ => trivial
  | .bool _, _ => trivial
  | .int _, _ => trivial
  | .float _, _ => trivial
  | .str _, _ => trivial

theorem distinct_sortItems : ∀ {vs : List Value}, DistinctItems vs → DistinctItems (sortItems vs)
  | [], _ => trivial
  | _ :: _, ⟨hv, hvs⟩ => ⟨distinct_sortKeys hv, distinct_sortItems hvs⟩

theorem distinct_sortMembers : ∀ {ms : List (String × Value)}, DistinctMembers ms →
    ∀ m ∈ sortMembers ms, m.2.Distinct
  | [], _, m, hm => by cases hm
  | (k, v) :: ms, ⟨hv, hms⟩, m, hm => by
    rcases List.mem_cons.mp hm with rfl | hm
    · exact distinct_sortKeys hv
    · exact distinct_sortMembers hms m hm

end

mutual

/-- Sorting twice is sorting once. -/
theorem sortKeys_sortKeys : ∀ v : Value, sortKeys (sortKeys v) = sortKeys v
  | .arr vs => by
    simp only [sortKeys]
    rw [sortItems_sortItems vs]
  | .obj ms => by
    have hperm := List.perm_insertionSort (fun m n : String × Value => m.1 ≤ n.1) (sortMembers ms)
    have hmap : sortMembers ((sortMembers ms).insertionSort fun m n => m.1 ≤ n.1) =
        (sortMembers ms).insertionSort fun m n => m.1 ≤ n.1 := by
      rw [sortMembers_eq_map]
      refine (List.map_congr_left fun m hm => ?_).trans (List.map_id _)
      have hm' := sortKeys_of_mem_sortMembers ms m (hperm.mem_iff.mp hm)
      rw [hm']
      rfl
    simp only [sortKeys]
    rw [hmap]
    exact congrArg _ (List.pairwise_insertionSort _ _).insertionSort_eq
  | .null => by simp only [sortKeys]
  | .bool _ => by simp only [sortKeys]
  | .int _ => by simp only [sortKeys]
  | .float _ => by simp only [sortKeys]
  | .str _ => by simp only [sortKeys]

theorem sortItems_sortItems : ∀ vs : List Value, sortItems (sortItems vs) = sortItems vs
  | [] => by simp only [sortItems]
  | v :: vs => by
    simp only [sortItems]
    rw [sortKeys_sortKeys v, sortItems_sortItems vs]

theorem sortKeys_of_mem_sortMembers : ∀ (ms : List (String × Value)) (m : String × Value),
    m ∈ sortMembers ms → sortKeys m.2 = m.2
  | [], m, hm => by cases hm
  | (k, v) :: ms, m, hm => by
    rcases List.mem_cons.mp hm with rfl | hm
    · exact sortKeys_sortKeys v
    · exact sortKeys_of_mem_sortMembers ms m hm

end

theorem same_sortKeys_iff {v w : Value} (hv : v.Distinct) (hw : w.Distinct) :
    Same (sortKeys v) (sortKeys w) ↔ Same v w := by
  rw [← sortKeys_eq_iff hv hw, ← sortKeys_eq_iff (distinct_sortKeys hv) (distinct_sortKeys hw),
    sortKeys_sortKeys, sortKeys_sortKeys]

/-- A member whose name the first object lacks does not matter. -/
theorem sameMembers_cons_right {ms ns : List (String × Value)} {k : String} {w : Value}
    (hk : k ∉ ms.map Prod.fst) : SameMembers ms ((k, w) :: ns) ↔ SameMembers ms ns := by
  induction ms with
  | nil => simp only [SameMembers]
  | cons m ms ih =>
    rcases m with ⟨k', v⟩
    simp only [List.map_cons, List.mem_cons, not_or] at hk
    have hmem : ∀ w', (k', w') ∈ (k, w) :: ns ↔ (k', w') ∈ ns := by
      intro w'
      rw [List.mem_cons, Prod.mk.injEq]
      constructor
      · rintro (⟨h, -⟩ | h)
        · exact absurd h.symm hk.1
        · exact h
      · exact Or.inr
    simp only [SameMembers, hmem, ih hk.2]

/-- Two objects that start with one name. -/
theorem sameMembers_cons_iff {ms ns : List (String × Value)} {k : String} {v w : Value}
    (hm : k ∉ ms.map Prod.fst) (hn : k ∉ ns.map Prod.fst) :
    SameMembers ((k, v) :: ms) ((k, w) :: ns) ↔ Same v w ∧ SameMembers ms ns := by
  simp only [SameMembers]
  rw [sameMembers_cons_right hm]
  refine and_congr_left fun _ => ?_
  constructor
  · rintro ⟨w', hmem, hs⟩
    rcases List.mem_cons.mp hmem with h | h
    · obtain ⟨-, rfl⟩ := Prod.mk.inj h
      exact hs
    · exact absurd (List.mem_map_of_mem h) hn
  · intro hs
    exact ⟨w, List.mem_cons_self, hs⟩

/-! ## Printing -/

/-- `ESCAPE_DCT`: quotes, backslashes and control characters are escaped. -/
def escapeChar (c : Char) : List Char :=
  if c = '"' then ['\\', '"']
  else if c = '\\' then ['\\', '\\']
  else if c = '\n' then ['\\', 'n']
  else if c = '\r' then ['\\', 'r']
  else if c = '\t' then ['\\', 't']
  else if c.toNat = 12 then ['\\', 'f']
  else if c.toNat = 8 then ['\\', 'b']
  else if c.toNat < 0x20 then ['\\', 'u', '0', '0', hexChar (c.toNat / 16), hexChar c.toNat]
  else [c]

/-- What follows the opening quote of a string. -/
def quoteRest : List Char → List Char
  | [] => ['"']
  | c :: cs => escapeChar c ++ quoteRest cs

def quote (s : String) : List Char := '"' :: quoteRest s.toList

mutual

/-- Print a document, members in the order they have. -/
def print : Value → List Char
  | .null => ['n', 'u', 'l', 'l']
  | .bool true => ['t', 'r', 'u', 'e']
  | .bool false => ['f', 'a', 'l', 's', 'e']
  | .int i => intText i
  | .float x => x.text.toList
  | .str s => quote s
  | .arr [] => ['[', ']']
  | .arr (v :: vs) => '[' :: (print v ++ printItems vs)
  | .obj [] => ['{', '}']
  | .obj ((k, v) :: ms) => '{' :: (quote k ++ ':' :: (print v ++ printMembers ms))

/-- The items after the first. -/
def printItems : List Value → List Char
  | [] => [']']
  | v :: vs => ',' :: (print v ++ printItems vs)

/-- The members after the first. -/
def printMembers : List (String × Value) → List Char
  | [] => ['}']
  | (k, v) :: ms => ',' :: (quote k ++ ':' :: (print v ++ printMembers ms))

end

/-- `json.dumps(v, sort_keys=True, ensure_ascii=False, separators=(",", ":"))`. -/
def dumps (v : Value) : String := String.ofList (print (sortKeys v))

/-! ## Printing is injective -/

/-- Reading an escaped character back. -/
theorem stringChar_escapeChar (c : Char) (rest : List Char) :
    stringChar (escapeChar c ++ rest) = some (c, rest) := by
  unfold escapeChar
  split
  · subst_vars; rfl
  split
  · subst_vars; rfl
  split
  · subst_vars; rfl
  split
  · subst_vars; rfl
  split
  · subst_vars; rfl
  split
  · next h =>
    have hc : c = Char.ofNat 12 := by rw [← h, Char.ofNat_toNat]
    subst hc
    rfl
  split
  · next h =>
    have hc : c = Char.ofNat 8 := by rw [← h, Char.ofNat_toNat]
    subst hc
    rfl
  split
  · next h =>
    have h0 : hexDigit? '0' = some 0 := by decide
    have h1 : c.toNat / 16 % 16 = c.toNat / 16 := by omega
    have h2 : ((0 * 16 + 0) * 16 + c.toNat / 16 % 16) * 16 + c.toNat % 16 = c.toNat := by omega
    simp only [List.cons_append, List.nil_append, stringChar, unicodeEscape, codeUnit?, h0,
      hexDigit?_hexChar, Option.bind_eq_bind, Option.bind_some, h2]
    rw [if_neg (by omega), if_neg (by omega), Char.ofNat_toNat]
  · next h₁ h₂ _ _ _ _ _ h₃ =>
    simp only [List.cons_append, List.nil_append]
    unfold stringChar
    split
    · next heq => exact absurd (List.cons.inj heq).1 h₂
    · next heq => exact absurd (List.cons.inj heq).1 h₂
    · next heq =>
      obtain ⟨rfl, rfl⟩ := List.cons.inj heq
      rw [if_neg (by simp only [h₁, h₂, h₃, or_self, not_false_eq_true])]
    · next heq => cases heq

/-- Commas and colons without a space, and the characters of a string as they are. -/
def compact : Style := ⟨[], escapeChar, stringChar_escapeChar⟩

theorem quoteRest_eq_renderRest (cs : List Char) : quoteRest cs = renderRest compact cs := by
  induction cs with
  | nil => rfl
  | cons c cs ih => rw [quoteRest, renderRest, ih, compact]

theorem quote_eq_renderQuote (s : String) : quote s = renderQuote compact s := by
  rw [quote, renderQuote, quoteRest_eq_renderRest]

mutual

theorem print_eq_render : ∀ v : Value, print v = render compact v
  | .null => rfl
  | .bool true => rfl
  | .bool false => rfl
  | .int _ => rfl
  | .float _ => rfl
  | .str s => quote_eq_renderQuote s
  | .arr [] => rfl
  | .arr (v :: vs) => by
    rw [print, render, print_eq_render v, printItems_eq_renderItems vs]
  | .obj [] => rfl
  | .obj ((k, v) :: ms) => by
    rw [print, render, quote_eq_renderQuote, print_eq_render v, printMembers_eq_renderMembers ms]
    rfl

theorem printItems_eq_renderItems : ∀ vs : List Value, printItems vs = renderItems compact vs
  | [] => rfl
  | v :: vs => by
    rw [printItems, renderItems, print_eq_render v, printItems_eq_renderItems vs]
    rfl

theorem printMembers_eq_renderMembers :
    ∀ ms : List (String × Value), printMembers ms = renderMembers compact ms
  | [] => rfl
  | (k, v) :: ms => by
    rw [printMembers, renderMembers, quote_eq_renderQuote, print_eq_render v,
      printMembers_eq_renderMembers ms]
    rfl

end

/-- **Printing identifies no two documents.** -/
theorem print_inj {v w : Value} (h : print v = print w) : v = w := by
  rw [print_eq_render, print_eq_render] at h
  exact render_inj h

/-- **Two documents have one text exactly when they are the same up to the order of
members.** -/
theorem dumps_eq_iff {v w : Value} (hv : v.Distinct) (hw : w.Distinct) :
    dumps v = dumps w ↔ Same v w := by
  rw [← sortKeys_eq_iff hv hw]
  constructor
  · intro h
    exact print_inj (String.ofList_inj.mp h)
  · intro h
    unfold dumps
    rw [h]

/-! ## The default style -/

/-- `{0:04x}` -/
def hex4 (n : Nat) : List Char :=
  [hexChar (n / 4096), hexChar (n / 256), hexChar (n / 16), hexChar n]

/-- `ensure_ascii=True`: what is not a printable character of ASCII is escaped by its code
units. -/
def escapeAscii (c : Char) : List Char :=
  if c = '"' then ['\\', '"']
  else if c = '\\' then ['\\', '\\']
  else if c = '\n' then ['\\', 'n']
  else if c = '\r' then ['\\', 'r']
  else if c = '\t' then ['\\', 't']
  else if c.toNat = 12 then ['\\', 'f']
  else if c.toNat = 8 then ['\\', 'b']
  else if 0x20 ≤ c.toNat ∧ c.toNat < 0x7f then [c]
  else if c.toNat < 0x10000 then '\\' :: 'u' :: hex4 c.toNat
  else
    '\\' :: 'u' :: hex4 (0xd800 + (c.toNat - 0x10000) / 0x400) ++
      '\\' :: 'u' :: hex4 (0xdc00 + (c.toNat - 0x10000) % 0x400)

theorem codeUnit?_hex4 {n : Nat} (hn : n < 0x10000) (rest : List Char) :
    codeUnit? (hex4 n ++ rest) = some (n, rest) := by
  have hvalue : ((n / 4096 % 16 * 16 + n / 256 % 16) * 16 + n / 16 % 16) * 16 + n % 16 = n := by
    omega
  simp only [hex4, List.cons_append, List.nil_append, codeUnit?, hexDigit?_hexChar,
    Option.bind_eq_bind, Option.bind_some, hvalue]

theorem stringChar_codeUnit {c : Char} (h : c.toNat < 0x10000) (rest : List Char) :
    stringChar ('\\' :: 'u' :: hex4 c.toNat ++ rest) = some (c, rest) := by
  have hvalid : c.toNat < 0xd800 ∨ 0xdfff < c.toNat ∧ c.toNat < 0x110000 := c.valid
  simp only [List.cons_append, stringChar, unicodeEscape, codeUnit?_hex4 h]
  rw [if_neg (by omega), if_neg (by omega), Char.ofNat_toNat]

theorem stringChar_pair {u v : Nat} (hu : 0xD800 ≤ u ∧ u < 0xDC00) (hv : 0xDC00 ≤ v ∧ v < 0xE000)
    (rest : List Char) :
    stringChar ('\\' :: 'u' :: (hex4 u ++ '\\' :: 'u' :: (hex4 v ++ rest))) =
      some (Char.ofNat (0x10000 + (u - 0xD800) * 0x400 + (v - 0xDC00)), rest) := by
  have hu' : u < 0x10000 := by omega
  have hv' : v < 0x10000 := by omega
  simp only [stringChar, unicodeEscape, codeUnit?_hex4 hu', codeUnit?_hex4 hv', if_pos hu,
    if_pos hv]

theorem stringChar_surrogates {c : Char} (h : ¬c.toNat < 0x10000) (rest : List Char) :
    stringChar ('\\' :: 'u' :: hex4 (0xd800 + (c.toNat - 0x10000) / 0x400) ++
      '\\' :: 'u' :: hex4 (0xdc00 + (c.toNat - 0x10000) % 0x400) ++ rest) = some (c, rest) := by
  have hvalid : c.toNat < 0xd800 ∨ 0xdfff < c.toNat ∧ c.toNat < 0x110000 := c.valid
  generalize hn : c.toNat = n at h hvalid
  have hsum : 0x10000 + (0xd800 + (n - 0x10000) / 0x400 - 0xd800) * 0x400 +
      (0xdc00 + (n - 0x10000) % 0x400 - 0xdc00) = n := by omega
  have hpair := @stringChar_pair (0xd800 + (n - 0x10000) / 0x400) (0xdc00 + (n - 0x10000) % 0x400)
    (by omega) (by omega) rest
  rw [hsum, ← hn, Char.ofNat_toNat] at hpair
  rw [List.append_assoc, List.cons_append, List.cons_append, List.cons_append, List.cons_append,
    ← hn]
  exact hpair

/-- Reading an escaped character back. -/
theorem stringChar_escapeAscii (c : Char) (rest : List Char) :
    stringChar (escapeAscii c ++ rest) = some (c, rest) := by
  unfold escapeAscii
  split
  · subst_vars; rfl
  split
  · subst_vars; rfl
  split
  · subst_vars; rfl
  split
  · subst_vars; rfl
  split
  · subst_vars; rfl
  split
  · next h =>
    have hc : c = Char.ofNat 12 := by rw [← h, Char.ofNat_toNat]
    subst hc
    rfl
  split
  · next h =>
    have hc : c = Char.ofNat 8 := by rw [← h, Char.ofNat_toNat]
    subst hc
    rfl
  split
  · next h₁ h₂ _ _ _ _ _ h₃ =>
    have hcontrol : ¬c.toNat < 0x20 := by omega
    simp only [List.cons_append, List.nil_append]
    unfold stringChar
    split
    · next heq => exact absurd (List.cons.inj heq).1 h₂
    · next heq => exact absurd (List.cons.inj heq).1 h₂
    · next heq =>
      obtain ⟨rfl, rfl⟩ := List.cons.inj heq
      rw [if_neg (by simp only [h₁, h₂, hcontrol, or_self, not_false_eq_true])]
    · next heq => cases heq
  split
  · next h => exact stringChar_codeUnit h rest
  · next h => exact stringChar_surrogates h rest

/-- A space after commas and colons, and only printable characters of ASCII. -/
def plain : Style := ⟨[' '], escapeAscii, stringChar_escapeAscii⟩

/-- `json.dumps(v, sort_keys=True)`. -/
def plainDumps (v : Value) : String := String.ofList (render plain (sortKeys v))

theorem plainDumps_eq_iff {v w : Value} (hv : v.Distinct) (hw : w.Distinct) :
    plainDumps v = plainDumps w ↔ Same v w := by
  rw [← sortKeys_eq_iff hv hw]
  constructor
  · intro h
    exact render_inj (String.ofList_inj.mp h)
  · intro h
    unfold plainDumps
    rw [h]

end Json
