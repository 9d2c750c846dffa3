import AiAgentsSwd.Keyed.Table

/-!
# Keyed.Holds — rows that hold something for themselves

`held` says what a row holds, a lock or a claim, if it holds anything. `Exclusive` says that no
two rows hold the same. It is kept by every write of a row that takes nothing another one holds.
-/

namespace Keyed.Table

variable {K R α : Type} [DecidableEq K] {held : R → Option α} {t u : Table K R} {k : K} {r : R}
  {x : α}

/-- No row but that of `k` holds `x`. -/
def Alone (held : R → Option α) (t : Table K R) (k : K) (x : α) : Prop :=
  ∀ j r, j ≠ k → t.find? j = some r → held r ≠ some x

/-- No two rows hold the same. -/
def Exclusive (held : R → Option α) (t : Table K R) : Prop :=
  ∀ k r x, t.find? k = some r → held r = some x → t.Alone held k x

/-- Some row holds `x`. -/
def holds [DecidableEq α] (held : R → Option α) (t : Table K R) (x : α) : Bool :=
  t.rows.any fun e => held e.2 == some x

theorem exclusive_empty : (empty : Table K R).Exclusive held := by
  intro k r x h
  rw [find?_empty] at h
  cases h

theorem holds_eq_false [DecidableEq α] :
    t.holds held x = false ↔ ∀ k r, t.find? k = some r → held r ≠ some x := by
  unfold holds
  rw [any_rows_eq_false]
  simp only [beq_eq_false_iff_ne]

theorem alone_of_holds [DecidableEq α] (h : t.holds held x = false) (k : K) :
    t.Alone held k x :=
  fun j r _ hj => holds_eq_false.mp h j r hj

/-- A row is written that takes nothing from the others. -/
theorem Exclusive.puts (h : t.Exclusive held) (hput : t.Puts u k r)
    (hnew : ∀ x, held r = some x → t.Alone held k x) : u.Exclusive held := by
  intro k₁ r₁ x hk₁ hx₁ k₂ r₂ hne hk₂ hx₂
  rcases hput.find hk₁ with ⟨rfl, rfl⟩ | ⟨hne₁, hold₁⟩
  · rcases hput.find hk₂ with ⟨heq, -⟩ | ⟨-, hold₂⟩
    · exact hne heq
    · exact hnew x hx₁ k₂ r₂ hne hold₂ hx₂
  · rcases hput.find hk₂ with ⟨rfl, rfl⟩ | ⟨-, hold₂⟩
    · exact hnew x hx₂ k₁ r₁ hne₁ hold₁ hx₁
    · exact h k₁ r₁ x hold₁ hx₁ k₂ r₂ hne hold₂ hx₂

end Keyed.Table
