import Mathlib.Data.Bool.AllAny
import AiAgentsSwd.Text.Segments
import AiAgentsSwd.Workspace.PathSafety

/-!
# Workspace.RelativePath — what `is_disallowed_relpath` lets pass

The check reads the relative path with other separators, without the space around it and in
lower case. A text that is read as it stands, whatever surrounds it, is `Legible`; every
forbidden name is, so that what is let pass (`Passed`) has none among its own names either.
-/

namespace AiAgentsSwd.Workspace

open ApprovalPolicy (slashes strip segments isSpace)
open Text (EndsAt StartsAt)

/-! ## Segments that name something -/

/-- The segment names something. -/
def proper (p : List Char) : Bool := !(p == [] || p == ['.'])

/-- The segments that name something. -/
def parts (s : List Char) : List (List Char) := (segments s).filter proper

theorem parts_append_slash (u v : List Char) : parts (u ++ '/' :: v) = parts u ++ parts v := by
  unfold parts segments
  rw [List.splitOn_append_cons_self, List.filter_append]

theorem mem_parts {s p : List Char} (h : p ∈ parts s) : p ∈ segments s ∧ p ≠ [] ∧ p ≠ ['.'] := by
  unfold parts at h
  rw [List.mem_filter] at h
  simpa [proper] using h

/-- The last segment that names something, with what stands around it. -/
theorem exists_of_getLast?_parts {s p : List Char} (h : (parts s).getLast? = some p) :
    ∃ a b, s = a ++ p ++ b ∧ EndsAt '/' a ∧ (b = [] ∨ ∃ b', b = '/' :: b' ∧ parts b' = []) := by
  induction s using Text.split_induction (x := '/') with
  | last s hs =>
    have hmem := (mem_parts (List.mem_of_getLast? h)).1
    unfold segments at hmem
    rw [List.splitOn_eq_singleton hs, List.mem_singleton] at hmem
    exact ⟨[], [], by simp [hmem], Or.inl rfl, Or.inl rfl⟩
  | first u v hu ih =>
    rw [parts_append_slash] at h
    by_cases hv : parts v = []
    · rw [hv, List.append_nil] at h
      have hmem := (mem_parts (List.mem_of_getLast? h)).1
      unfold segments at hmem
      rw [List.splitOn_eq_singleton hu, List.mem_singleton] at hmem
      exact ⟨[], '/' :: v, by simp [hmem], Or.inl rfl, Or.inr ⟨v, rfl, hv⟩⟩
    · rw [List.getLast?_append_of_ne_nil _ hv] at h
      rcases ih h with ⟨a, b, heq, ha, hb⟩
      refine ⟨u ++ '/' :: a, b, by simp [heq], ?_, hb⟩
      rcases ha with rfl | ⟨a', rfl⟩
      · exact Or.inr ⟨u, rfl⟩
      · exact Or.inr ⟨u ++ '/' :: a', by simp⟩

theorem eq_of_parts_eq_nil {s : List Char} (hs : '/' ∉ s) (h : parts s = []) :
    s = [] ∨ s = ['.'] := by
  unfold parts segments at h
  rw [List.splitOn_eq_singleton hs] at h
  by_contra hneither
  simp [not_or, proper] at h hneither
  exact hneither.2 (h hneither.1)

/-- A path that names nothing is made of dots and slashes. -/
theorem dull_of_parts {s : List Char} (h : parts s = []) : ∀ c ∈ s, c = '/' ∨ c = '.' := by
  induction s using Text.split_induction (x := '/') with
  | last s hs =>
    rcases eq_of_parts_eq_nil hs h with rfl | rfl
    · exact fun c hc => absurd hc List.not_mem_nil
    · exact fun c hc => Or.inr (List.mem_singleton.mp hc)
  | first u v hu ih =>
    rw [parts_append_slash, List.append_eq_nil_iff] at h
    intro c hc
    rcases List.mem_append.mp hc with hc | hc
    · rcases eq_of_parts_eq_nil hu h.1 with rfl | rfl
      · exact absurd hc List.not_mem_nil
      · exact Or.inr (List.mem_singleton.mp hc)
    · rcases List.mem_cons.mp hc with rfl | hc
      · exact Or.inl rfl
      · exact ih h.2 c hc

/-! ## Space -/

theorem dropWhile_append_of_not {p : Char → Bool} (a : List Char) {s : List Char}
    (hne : s ≠ []) (hs : ∀ c ∈ s, p c = false) (b : List Char) :
    (a ++ s ++ b).dropWhile p = a.dropWhile p ++ s ++ b := by
  induction a with
  | nil =>
    rcases List.exists_cons_of_ne_nil hne with ⟨c, t, rfl⟩
    simp [hs c List.mem_cons_self]
  | cons c a ih =>
    simp only [List.cons_append, List.dropWhile_cons] at ih ⊢
    split
    · exact ih
    · rfl

/-- Space is only taken from the ends. -/
theorem strip_append (a : List Char) {s : List Char} (hne : s ≠ [])
    (hs : ∀ c ∈ s, isSpace c = false) (b : List Char) :
    strip (a ++ s ++ b) =
      a.dropWhile isSpace ++ s ++ (b.reverse.dropWhile isSpace).reverse := by
  unfold strip
  rw [dropWhile_append_of_not a hne hs, List.reverse_append, List.reverse_append,
    ← List.append_assoc, dropWhile_append_of_not b.reverse (by simpa using hne)
      (fun c hc => hs c (List.mem_reverse.mp hc))]
  simp

theorem isSpace_slash : ∀ c ∈ ['/'], isSpace c = false :=
  List.all_iff_forall_prop.mp (by decide)

theorem endsAt_dropWhile {a : List Char} (h : EndsAt '/' a) : EndsAt '/' (a.dropWhile isSpace) := by
  rcases h with rfl | ⟨a', rfl⟩
  · exact Or.inl rfl
  · have hdrop := dropWhile_append_of_not a' (List.cons_ne_nil '/' []) isSpace_slash []
    rw [List.append_nil, List.append_nil] at hdrop
    exact Or.inr ⟨_, hdrop⟩

theorem startsAt_rstrip {b : List Char} (h : StartsAt '/' b) :
    StartsAt '/' (b.reverse.dropWhile isSpace).reverse := by
  rcases h with rfl | ⟨b', rfl⟩
  · exact Or.inl rfl
  · have hends : EndsAt '/' (b'.reverse ++ ['/']) := Or.inr ⟨_, rfl⟩
    rw [List.reverse_cons]
    rcases endsAt_dropWhile hends with hnil | ⟨a, ha⟩
    · exact Or.inl (by rw [hnil, List.reverse_nil])
    · exact Or.inr ⟨a.reverse, by rw [ha, List.reverse_append]; rfl⟩

/-! ## Lower case -/

/-- Characters that `str.lower` leaves as they are, wherever they stand. -/
def LowerCase (s : List Char) : Prop := ∀ c ∈ s, c.toNat < 128 ∧ c.toLower = c

theorem lowerAfter_of_lowerCase {table : LowerTable} {s : List Char} (hs : LowerCase s)
    (before : List Char) : lowerAfter table before s = s := by
  induction s generalizing before with
  | nil => rfl
  | cons c s ih =>
    have hc := hs c List.mem_cons_self
    rw [lowerAfter, if_pos hc.1, hc.2, ih fun c' h' => hs c' (List.mem_cons_of_mem _ h')]
    rfl

theorem lowerAfter_append {table : LowerTable} (before a s : List Char) :
    ∃ a', lowerAfter table before (a ++ s) =
      a' ++ lowerAfter table (a.reverse ++ before) s := by
  induction a generalizing before with
  | nil => exact ⟨[], rfl⟩
  | cons c a ih =>
    rcases ih (c :: before) with ⟨a', ha'⟩
    rw [List.cons_append, lowerAfter, ha', List.reverse_cons, List.append_assoc,
      List.singleton_append]
    exact ⟨_, (List.append_assoc _ _ _).symm⟩

theorem suffix_lower {table : LowerTable} {s : List Char} (hs : LowerCase s) (a : List Char) :
    s <:+ lower table (a ++ s) := by
  rcases @lowerAfter_append table [] a s with ⟨a', ha'⟩
  unfold lower
  rw [ha', lowerAfter_of_lowerCase hs]
  exact List.suffix_append _ _

/-! ## What the check lets pass -/

/-- A text that is read as it stands, whatever surrounds it. -/
structure Legible (s : List Char) : Prop where
  length : 2 ≤ s.length
  slash : '/' ∉ s
  backslash : '\\' ∉ s
  space : ∀ c ∈ s, isSpace c = false
  lower : LowerCase s

theorem legible_dots : Legible ['.', '.'] :=
  ⟨by decide, by decide, by decide, List.all_iff_forall_prop.mp (by decide),
    List.all_iff_forall_prop.mp (by decide)⟩

theorem legible_disallowed : ∀ s ∈ disallowedSegments ++ disallowedNames ++ disallowedSuffixes,
    Legible s := by
  have h : ∀ s ∈ disallowedSegments ++ disallowedNames ++ disallowedSuffixes, 2 ≤ s.length ∧
      '/' ∉ s ∧ '\\' ∉ s ∧ s.all (fun c => isSpace c = false) ∧
      s.all fun c => c.toNat < 128 ∧ c.toLower = c := by decide
  intro s hs
  rcases h s hs with ⟨hlength, hslash, hbackslash, hspace, hlower⟩
  exact ⟨hlength, hslash, hbackslash, List.all_iff_forall_prop.mp hspace,
    List.all_iff_forall_prop.mp hlower⟩

/-- `relative_path.replace("\\", "/")` on a list. -/
def slashed (s : List Char) : List Char := slashes (String.ofList s)

theorem slashed_eq (s : List Char) : slashed s = s.map fun c => if c = '\\' then '/' else c := by
  unfold slashed slashes
  rw [String.toList_ofList]

theorem slashed_append (s t : List Char) : slashed (s ++ t) = slashed s ++ slashed t := by
  simp only [slashed_eq, List.map_append]

theorem slashed_of_not_mem {s : List Char} (h : '\\' ∉ s) : slashed s = s := by
  rw [slashed_eq]
  conv_rhs => rw [← List.map_id s]
  refine List.map_congr_left fun c hc => ?_
  have hne : c ≠ '\\' := by
    rintro rfl
    exact h hc
  rw [if_neg hne, id_eq]

theorem endsAt_slashed {a : List Char} (h : EndsAt '/' a) : EndsAt '/' (slashed a) := by
  rcases h with rfl | ⟨a', rfl⟩
  · exact Or.inl rfl
  · rw [slashed_append]
    exact Or.inr ⟨slashed a', rfl⟩

theorem startsAt_slashed {b : List Char} (h : StartsAt '/' b) : StartsAt '/' (slashed b) := by
  rcases h with rfl | ⟨b', rfl⟩
  · exact Or.inl rfl
  · exact Or.inr ⟨slashed b', by rw [← List.singleton_append, slashed_append]; rfl⟩

/-- The text that `is_disallowed_relpath` reads. -/
def tested (s : List Char) : List Char := strip (slashed s)

/-- A legible segment of a path is a segment of the text that is tested. -/
theorem mem_segments_tested {s p : List Char} (h : p ∈ segments s) (hp : Legible p) :
    p ∈ segments (tested s) := by
  rcases Text.exists_of_mem_splitOn h with ⟨a, b, rfl, ha, hb⟩
  have hne : p ≠ [] := by
    rintro rfl
    exact absurd hp.length (by decide)
  unfold tested
  rw [slashed_append, slashed_append, slashed_of_not_mem hp.backslash,
    strip_append _ hne hp.space]
  exact Text.mem_splitOn hp.slash (endsAt_dropWhile (endsAt_slashed ha))
    (startsAt_rstrip (startsAt_slashed hb))

/-- What a path ends with, but for what names nothing, the text that is tested ends with too. -/
theorem last_tested {a p b : List Char} (hp : Legible p)
    (hb : b = [] ∨ ∃ b', b = '/' :: b' ∧ parts b' = []) :
    ∃ z, (parts (tested (a ++ p ++ b))).getLast? = some (z ++ p) ∧
      (EndsAt '/' a → z = []) := by
  have hlen := hp.length
  have hne : p ≠ [] := by
    rintro rfl
    exact absurd hlen (by decide)
  have hdull : ∀ c ∈ b, c = '/' ∨ c = '.' := by
    rcases hb with rfl | ⟨b', rfl, hb'⟩
    · exact fun c hc => absurd hc List.not_mem_nil
    · intro c hc
      rcases List.mem_cons.mp hc with rfl | hc
      · exact Or.inl rfl
      · exact dull_of_parts hb' c hc
  have hbslashed : slashed b = b := by
    refine slashed_of_not_mem fun hc => ?_
    rcases hdull _ hc with h | h <;> exact absurd h (by decide)
  have hspace : ∀ c ∈ p ++ b, isSpace c = false := by
    intro c hc
    rcases List.mem_append.mp hc with hc | hc
    · exact hp.space c hc
    · rcases hdull c hc with rfl | rfl <;> decide
  have htested : tested (a ++ p ++ b) = (slashed a).dropWhile isSpace ++ p ++ b := by
    have hstrip := strip_append (slashed a) (List.append_ne_nil_of_left_ne_nil hne b) hspace []
    unfold tested
    rw [slashed_append, slashed_append, slashed_of_not_mem hp.backslash, hbslashed]
    rw [List.append_nil, ← List.append_assoc] at hstrip
    rw [hstrip]
    simp
  rcases Text.splitOn_append_of_not_mem ((slashed a).dropWhile isSpace) hp.slash with
    ⟨init, z, ha, hap⟩
  refine ⟨z, ?_, fun hends => ?_⟩
  · have hleft : (parts ((slashed a).dropWhile isSpace ++ p)).getLast? = some (z ++ p) := by
      have hlong : proper (z ++ p) = true := by
        have hlength : (z ++ p).length = z.length + p.length := List.length_append
        simp only [proper, Bool.not_eq_true', Bool.or_eq_false_iff, beq_eq_false_iff_ne]
        constructor
        · intro heq
          rw [heq, List.length_nil] at hlength
          omega
        · intro heq
          rw [heq, List.length_singleton] at hlength
          omega
      unfold parts segments
      rw [hap, List.filter_append, List.filter_cons_of_pos hlong, List.filter_nil,
        List.getLast?_concat]
    rw [htested]
    rcases hb with rfl | ⟨b', rfl, hb'⟩
    · rwa [List.append_nil]
    · rwa [parts_append_slash, hb', List.append_nil]
  · rcases endsAt_dropWhile (endsAt_slashed hends) with hnil | ⟨a', ha'⟩
    · rw [hnil] at ha
      have hlast := congrArg List.getLast? ha
      rw [List.getLast?_concat] at hlast
      exact (Option.some.inj hlast).symm
    · rw [ha', List.splitOn_append_cons_self] at ha
      have hlast := congrArg List.getLast? ha
      rw [List.getLast?_concat] at hlast
      simpa using hlast.symm

/-- What a relative path that is let pass is known to satisfy. -/
structure Passed (s : List Char) : Prop where
  relative : isAbs s = false
  down : ['.', '.'] ∉ segments s
  segments : ∀ p ∈ parts s, p ∉ disallowedSegments
  names : ∀ p, (parts s).getLast? = some p → p ∉ disallowedNames
  suffixes : ∀ p, (parts s).getLast? = some p → ∀ suffix ∈ disallowedSuffixes, ¬suffix <:+ p

theorem passed_of_isDisallowedRelpath {w : Surroundings} {s : List Char}
    (h : w.isDisallowedRelpath s = false) : Passed s := by
  unfold Surroundings.isDisallowedRelpath at h
  change (if tested s = [] then true
    else if (tested s).head? = some '/' ∨ (tested s).head? = some '~' then true
    else if (parts (tested s)).any (· == ['.', '.']) then true
    else if disallowedSegments.any ((parts (tested s)).map (lower w.table)).contains then true
    else disallowedNames.contains (((parts (tested s)).map (lower w.table)).getLastD []) ||
      disallowedSuffixes.any
        (·.isSuffixOf (((parts (tested s)).map (lower w.table)).getLastD []))) = false at h
  by_cases hnil : tested s = []
  · rw [if_pos hnil] at h
    cases h
  rw [if_neg hnil] at h
  by_cases hhead : (tested s).head? = some '/' ∨ (tested s).head? = some '~'
  · rw [if_pos hhead] at h
    cases h
  rw [if_neg hhead] at h
  by_cases hup : (parts (tested s)).any (· == ['.', '.']) = true
  · rw [if_pos hup] at h
    cases h
  rw [if_neg hup] at h
  by_cases hseg : disallowedSegments.any ((parts (tested s)).map (lower w.table)).contains = true
  · rw [if_pos hseg] at h
    cases h
  rw [if_neg hseg, Bool.or_eq_false_iff] at h
  have hmem : ∀ p, Legible p → p ∈ segments s → p ∈ parts (tested s) := by
    intro p hp hps
    have hlen := hp.length
    unfold parts
    refine List.mem_filter.mpr ⟨mem_segments_tested hps hp, ?_⟩
    simp only [proper, Bool.not_eq_true', Bool.or_eq_false_iff, beq_eq_false_iff_ne]
    constructor
    · rintro rfl
      exact absurd hlen (by decide)
    · rintro rfl
      exact absurd hlen (by decide)
  -- what the tested text ends with, in lower case
  have hlast : ∀ a p b, Legible p → s = a ++ p ++ b →
      (b = [] ∨ ∃ b', b = '/' :: b' ∧ parts b' = []) →
      ∃ z, ((parts (tested s)).map (lower w.table)).getLastD [] = lower w.table (z ++ p) ∧
        (EndsAt '/' a → z = []) := by
    intro a p b hp heq hb
    rcases last_tested (a := a) hp hb with ⟨z, hz, hends⟩
    rw [← heq] at hz
    exact ⟨z, by rw [List.getLastD_eq_getLast?, List.getLast?_map, hz]; rfl, hends⟩
  refine ⟨?_, fun hin => ?_, fun p hp hdis => ?_, fun p hp hdis => ?_,
    fun p hp suffix hdis hsuffix => ?_⟩
  · -- the tested text would begin with the slash too
    by_contra habs
    rw [Bool.not_eq_false] at habs
    unfold isAbs at habs
    rw [beq_iff_eq] at habs
    rcases List.head?_eq_some_iff.mp habs with ⟨t, rfl⟩
    have hstrip := strip_append [] (List.cons_ne_nil '/' []) isSpace_slash (slashed t)
    refine hhead (Or.inl ?_)
    unfold tested
    rw [← List.singleton_append, slashed_append]
    rw [List.nil_append] at hstrip
    have hslash : slashed ['/'] = ['/'] := rfl
    rw [hslash, hstrip]
    rfl
  · refine hup (List.any_eq_true.mpr ⟨['.', '.'], hmem _ legible_dots hin, ?_⟩)
    rw [beq_self_eq_true]
  · have hlegible := legible_disallowed p (by simp [hdis])
    refine hseg (List.any_eq_true.mpr ⟨p, hdis, ?_⟩)
    rw [List.contains_iff_mem]
    refine List.mem_map.mpr ⟨p, hmem p hlegible (mem_parts hp).1, ?_⟩
    exact lowerAfter_of_lowerCase hlegible.lower []
  · have hlegible := legible_disallowed p (by simp [hdis])
    rcases exists_of_getLast?_parts hp with ⟨a, b, heq, ha, hb⟩
    rcases hlast a p b hlegible heq hb with ⟨z, hz, hends⟩
    rw [hends ha, List.nil_append] at hz
    have hlower : lower w.table p = p := lowerAfter_of_lowerCase hlegible.lower []
    rw [hz, hlower, List.contains_eq_mem, decide_eq_false_iff_not] at h
    exact h.1 hdis
  · have hlegible := legible_disallowed suffix (by simp [hdis])
    rcases exists_of_getLast?_parts hp with ⟨a, b, heq, ha, hb⟩
    rcases hsuffix with ⟨y, rfl⟩
    rw [← List.append_assoc] at heq
    rcases hlast (a ++ y) suffix b hlegible heq hb with ⟨z, hz, -⟩
    have hany := List.any_eq_false.mp h.2 suffix hdis
    rw [hz, List.isSuffixOf_iff_suffix] at hany
    exact hany (suffix_lower hlegible.lower z)

end AiAgentsSwd.Workspace
