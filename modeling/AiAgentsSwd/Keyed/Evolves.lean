import AiAgentsSwd.Keyed.Table

/-!
# Keyed.Evolves — how a table may change under row locks

`Evolves lock same l s t` says what a transaction that took the locks `l` may have done to
a table: rows are never deleted, a changed row is still the `same` one and its lock is in
`l`, and so is the lock of every new row. The lemmas give it for the writes of a table
and compose it; `eq_of_not_mem` is what a holder of the lock gets out of it.

`Entered e p l s t` is the same for an index entry: a row with the property `p` is new, or
newly has it, only where `l` has the lock `e`.
-/

namespace Keyed

variable {K R κ : Type} [DecidableEq K]

/-- What the locks `l` allow to happen to a table. -/
structure Evolves (lock : K → κ) (same : R → R → Prop) (l : List κ) (s t : Table K R) : Prop where
  keeps : ∀ k x, s.find? k = some x → ∃ y, t.find? k = some y ∧ same x y ∧ (y = x ∨ lock k ∈ l)
  locks : ∀ k y, s.find? k = none → t.find? k = some y → lock k ∈ l

namespace Evolves

variable {lock : K → κ} {same : R → R → Prop} {l : List κ} {s t u : Table K R}

theorem refl (hr : ∀ x, same x x) : Evolves lock same l s s where
  keeps := fun _ x hx => ⟨x, hx, hr x, Or.inl rfl⟩
  locks := fun k y hn hy => by
    rw [hn] at hy
    cases hy

theorem of_eq (hr : ∀ x, same x x) (h : t = s) : Evolves lock same l s t := by
  subst h
  exact refl hr

theorem insert {k : K} {r : R} (hr : ∀ x, same x x) (hn : s.find? k = none) (hl : lock k ∈ l) :
    Evolves lock same l s (s.insert k r) where
  keeps := by
    intro j x hx
    have hj : j ≠ k := by
      rintro rfl
      rw [hn] at hx
      cases hx
    exact ⟨x, by rw [Table.find?_insert_of_ne _ _ hj, hx], hr x, Or.inl rfl⟩
  locks := by
    intro j y hs ht
    by_cases hj : j = k
    · subst hj
      exact hl
    · rw [Table.find?_insert_of_ne _ _ hj, hs] at ht
      cases ht

theorem modify {k : K} {f : R → R} (hr : ∀ x, same x x)
    (hf : ∀ x, s.find? k = some x → same x (f x)) (hl : lock k ∈ l) :
    Evolves lock same l s (s.modify k f) where
  keeps := by
    intro j x hx
    by_cases hj : j = k
    · subst hj
      exact ⟨f x, by simp [hx], hf x hx, Or.inr hl⟩
    · exact ⟨x, by rw [Table.find?_modify_of_ne _ _ hj, hx], hr x, Or.inl rfl⟩
  locks := by
    intro j y hs ht
    rcases Table.exists_of_find?_modify ht with ⟨r₀, h₀, -⟩
    rw [hs] at h₀
    cases h₀

theorem trans (hsame : ∀ x y z, same x y → same y z → same x z)
    (h : Evolves lock same l s t) (h' : Evolves lock same l t u) : Evolves lock same l s u where
  keeps := by
    intro k x hx
    rcases h.keeps k x hx with ⟨y, hy, hxy, hch⟩
    rcases h'.keeps k y hy with ⟨z, hz, hyz, hch'⟩
    refine ⟨z, hz, hsame x y z hxy hyz, ?_⟩
    rcases hch with rfl | hl
    · exact hch'
    · exact Or.inr hl
  locks := by
    intro k z hs hz
    cases ht : t.find? k with
    | none => exact h'.locks k z ht hz
    | some y => exact h.locks k y hs ht

theorem mono {l' : List κ} (hl : l ⊆ l') (h : Evolves lock same l s t) :
    Evolves lock same l' s t where
  keeps := by
    intro k x hx
    rcases h.keeps k x hx with ⟨y, hy, hxy, hch⟩
    exact ⟨y, hy, hxy, hch.imp_right fun hk => hl hk⟩
  locks := fun k y hs hy => hl (h.locks k y hs hy)

theorem imp {same' : R → R → Prop} (hs : ∀ x y, same x y → same' x y)
    (h : Evolves lock same l s t) : Evolves lock same' l s t where
  keeps := by
    intro k x hx
    rcases h.keeps k x hx with ⟨y, hy, hxy, hch⟩
    exact ⟨y, hy, hs x y hxy, hch⟩
  locks := h.locks

/-- A row whose lock was not taken is as it was, present or absent. -/
theorem eq_of_not_mem (h : Evolves lock same l s t) {k : K} (hk : lock k ∉ l) :
    t.find? k = s.find? k := by
  cases hs : s.find? k with
  | some x =>
    rcases h.keeps k x hs with ⟨y, hy, -, rfl | hl⟩
    · exact hy
    · exact absurd hl hk
  | none =>
    cases ht : t.find? k with
    | none => rfl
    | some y => exact absurd (h.locks k y hs ht) hk

/-- A row stays, as the same one. -/
theorem find_same (h : Evolves lock same l s t) {k : K} {x : R} (hx : s.find? k = some x) :
    ∃ y, t.find? k = some y ∧ same x y := by
  rcases h.keeps k x hx with ⟨y, hy, hxy, -⟩
  exact ⟨y, hy, hxy⟩

/-- A row missing later was missing before. -/
theorem find_none (h : Evolves lock same l s t) {k : K} (hk : t.find? k = none) :
    s.find? k = none := by
  cases hs : s.find? k with
  | none => rfl
  | some x =>
    rcases h.find_same hs with ⟨y, hy, -⟩
    rw [hk] at hy
    cases hy

/-- When no row changes, every row stays. -/
theorem find_eq (h : Evolves lock (fun x y => y = x) l s t) {k : K} {x : R}
    (hx : s.find? k = some x) : t.find? k = some x := by
  rcases h.find_same hx with ⟨y, hy, rfl⟩
  exact hy

end Evolves

/-! ## Entries of an index -/

/-- A row with the property `p` had it before, or `e` is in `l`. -/
def Entered (e : κ) (p : R → Prop) (l : List κ) (s t : Table K R) : Prop :=
  ∀ k y, t.find? k = some y → p y → e ∈ l ∨ ∃ x, s.find? k = some x ∧ p x

namespace Entered

variable {e : κ} {p : R → Prop} {l : List κ} {s t u : Table K R}

theorem refl : Entered e p l s s := fun _ y hy hp => Or.inr ⟨y, hy, hp⟩

theorem insert {k : K} {r : R} (hp : p r → e ∈ l) : Entered e p l s (s.insert k r) := by
  intro j y hy hpy
  by_cases hj : j = k
  · subst hj
    rw [Table.find?_insert_self, Option.some.injEq] at hy
    subst hy
    exact Or.inl (hp hpy)
  · rw [Table.find?_insert_of_ne _ _ hj] at hy
    exact Or.inr ⟨y, hy, hpy⟩

theorem modify {k : K} {f : R → R} (hp : ∀ x, s.find? k = some x → p (f x) → e ∈ l ∨ p x) :
    Entered e p l s (s.modify k f) := by
  intro j y hy hpy
  rcases Table.exists_of_find?_modify hy with ⟨x, hx, rfl⟩
  by_cases hj : j = k
  · subst hj
    simp only [if_true] at hpy
    exact (hp x hx hpy).imp_right fun h => ⟨x, hx, h⟩
  · simp only [hj, if_false] at hpy
    exact Or.inr ⟨x, hx, hpy⟩

theorem trans (h : Entered e p l s t) (h' : Entered e p l t u) : Entered e p l s u := by
  intro k z hz hp
  rcases h' k z hz hp with he | ⟨y, hy, hpy⟩
  · exact Or.inl he
  · exact h k y hy hpy

theorem mono {l' : List κ} (hl : l ⊆ l') (h : Entered e p l s t) : Entered e p l' s t :=
  fun k y hy hp => (h k y hy hp).imp_left fun he => hl he

end Entered

end Keyed
