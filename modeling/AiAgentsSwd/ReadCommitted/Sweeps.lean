import AiAgentsSwd.Keyed.Sweep
import AiAgentsSwd.ReadCommitted.Statements

/-!
# ReadCommitted.Sweeps — a sweep as one statement

An `UPDATE` of the rows that an inner `SELECT … LIMIT` takes is one pass of a sweep
(`Keyed.Sweep`): it raises exactly when the pass fails, and else it leaves what the pass
leaves.

Main results: `exec_updateEach` and `exec_sweep`.
-/

namespace ReadCommitted

open Keyed (Table Sweep)
open Txn

variable {σ κ ε K R P : Type} [DecidableEq K] {T : TableAt σ κ K R}

namespace TableAt

variable {k : K} {cond check : R → Bool} {f : R → R} {violation : ε} {s t : σ}

/-- An update, run alone. -/
theorem exec_update_ok {o : Outcome σ κ (Option R)} :
    exec (T.update k cond f check violation : Txn σ κ ε (Option R)) s = .ok o ↔
      (∃ x, (T.get s).find? k = some x ∧ cond x = true ∧ check (f x) = true ∧
        o = ⟨some (f x), T.modify k f s, [T.lock k]⟩) ∨
      (∀ x, (T.get s).find? k = some x → cond x = false) ∧ o = ⟨none, s, []⟩ := by
  unfold update selectForUpdate
  simp only [query_bind, exec_query]
  cases hx : (T.get s).find? k with
  | none =>
    simp
    exact eq_comm
  | some x =>
    cases hc : cond x with
    | false =>
      simp [hc]
      exact eq_comm
    | true =>
      simp only [Option.any_some, hc, if_true, lock_bind, query_bind, done_bind, exec_lock_ok,
        exec_query, hx, Option.filter_some, Option.some.injEq, exists_eq_left', true_and,
        forall_eq', Bool.true_eq_false, false_and, or_false]
      cases hck : check (f x) with
      | false => simp
      | true => simp [exec]

/-- What a statement leaves that updates the rows of `ks`. -/
theorem exec_updateEach {ks : List K} (hnd : ks.Nodup) :
    (∃ o, exec (T.updateEach cond f check violation ks : Txn σ κ ε Nat) s = .ok o ∧
        o.state = t) ↔
      (∀ k ∈ ks, ∀ x, (T.get s).find? k = some x → cond x = true → check (f x) = true) ∧
        t = T.modifyAll (ks.filter fun k => ((T.get s).find? k).any cond) f s := by
  induction ks generalizing s with
  | nil =>
    simp [updateEach]
    exact eq_comm
  | cons k ks ih =>
    rw [List.nodup_cons] at hnd
    -- the rest of the statement, from the state that the first update leaves
    have hrest : ∀ u, (∃ o, exec (T.updateEach cond f check violation (k :: ks) :
        Txn σ κ ε Nat) s = .ok o ∧ o.state = u) ↔
        ∃ o₁, exec (T.update k cond f check violation : Txn σ κ ε (Option R)) s = .ok o₁ ∧
          ∃ o₂, exec (T.updateEach cond f check violation ks : Txn σ κ ε Nat) o₁.state = .ok o₂ ∧
            o₂.state = u := by
      intro u
      simp only [updateEach, exec_bind_ok, exec_done, Except.ok.injEq]
      constructor
      · rintro ⟨o, ⟨o₁, o₂, h₁, ⟨o₃, o₄, h₃, rfl, rfl⟩, rfl⟩, rfl⟩
        exact ⟨o₁, h₁, o₃, h₃, rfl⟩
      · rintro ⟨o₁, h₁, o₃, h₃, rfl⟩
        exact ⟨_, ⟨o₁, _, h₁, ⟨o₃, _, h₃, rfl, rfl⟩, rfl⟩, rfl⟩
    rw [hrest]
    simp only [exec_update_ok, List.mem_cons, forall_eq_or_imp]
    -- the first update leaves the other rows as they were
    have hother : ∀ j ∈ ks, (T.get (T.modify k f s)).find? j = (T.get s).find? j := by
      intro j hj
      have hne : j ≠ k := fun h => hnd.1 (h ▸ hj)
      rw [get_modify, Table.find?_modify_of_ne _ _ hne]
    cases hx : (T.get s).find? k with
    | none =>
      simp [ih hnd.2, hx]
    | some x =>
      cases hc : cond x with
      | false => simp [ih hnd.2, hx, hc]
      | true =>
        have hfilter : ks.filter (fun j => ((T.get (T.modify k f s)).find? j).any cond) =
            ks.filter fun j => ((T.get s).find? j).any cond :=
          List.filter_congr fun j hj => by rw [hother j hj]
        simp only [Option.some.injEq, exists_eq_left', hc, true_and, forall_eq',
          Bool.true_eq_false, false_and, or_false, List.filter_cons, hx, Option.any_some, if_true,
          modifyAll_cons]
        constructor
        · rintro ⟨o₁, ⟨hck, rfl⟩, hks⟩
          rcases (ih hnd.2).mp hks with ⟨hall, rfl⟩
          rw [hfilter]
          refine ⟨⟨fun _ => hck, fun j hj y hy => ?_⟩, rfl⟩
          exact hall j hj y (by rw [hother j hj]; exact hy)
        · rintro ⟨⟨hck, hall⟩, rfl⟩
          refine ⟨_, ⟨hck trivial, rfl⟩, (ih hnd.2).mpr ⟨fun j hj y hy => ?_, by rw [hfilter]⟩⟩
          rw [hother j hj] at hy
          exact hall j hj y hy

theorem get_modifyAll (ks : List K) (f : R → R) (s : σ) :
    T.get (T.modifyAll ks f s) = (T.get s).modifyAll f ks := by
  induction ks generalizing s with
  | nil => rfl
  | cons k ks ih =>
    rw [modifyAll_cons, ih, get_modify]
    rfl

/-- The rows that a pass of a sweep sets. -/
def swept (T : TableAt σ κ K R) (w : Sweep R P) (limit : Nat) (rank : K → Nat) (s : σ) : List K :=
  (T.selectLimit w.candidate rank limit s).filter fun k => ((T.get s).find? k).any w.due

variable {w : Sweep R P} {limit : Nat} {rank : K → Nat} {p : P}

/-- **One pass**: the statement leaves exactly what the pass leaves, and touches no other part
of the state. -/
theorem exec_sweep : (∃ o, exec (T.updateEach w.due (w.set p) w.check violation
      (T.selectLimit w.candidate rank limit s) : Txn σ κ ε Nat) s = .ok o ∧ o.state = t) ↔
    t = T.modifyAll (T.swept w limit rank s) (w.set p) s ∧
      w.pass limit rank p (T.get s) = some (T.get t) := by
  have hsel : T.selectLimit w.candidate rank limit s =
      (T.get s).selectLimit w.candidate rank limit := rfl
  rw [exec_updateEach (nodup_selectLimit _ _ _ _)]
  unfold Sweep.pass swept
  constructor
  · rintro ⟨hall, rfl⟩
    refine ⟨rfl, ?_⟩
    rw [get_modifyAll, hsel, if_pos]
    rw [List.all_eq_true]
    intro k hk
    cases hx : (T.get s).find? k with
    | none => rfl
    | some x =>
      rw [Option.all_some, Sweep.fits_iff]
      intro hdue q
      rw [w.check_set q p]
      exact hall k hk x hx hdue
  · rintro ⟨rfl, hpass⟩
    refine ⟨fun k hk x hx hdue => ?_, rfl⟩
    simp only [Option.ite_none_right_eq_some, List.all_eq_true] at hpass
    have hfits := hpass.1 k hk
    rw [hx, Option.all_some, Sweep.fits_iff] at hfits
    exact hfits hdue p

/-- A pass that succeeds is a run of the statement. -/
theorem exec_of_pass {u : Table K R} (h : w.pass limit rank p (T.get s) = some u) :
    ∃ o, exec (T.updateEach w.due (w.set p) w.check violation
      (T.selectLimit w.candidate rank limit s) : Txn σ κ ε Nat) s = .ok o ∧
        o.state = T.modifyAll (T.swept w limit rank s) (w.set p) s ∧ T.get o.state = u := by
  have hget : T.get (T.modifyAll (T.swept w limit rank s) (w.set p) s) = u := by
    unfold Sweep.pass at h
    simp only [Option.ite_none_right_eq_some, Option.some.injEq] at h
    rw [get_modifyAll, ← h.2]
    rfl
  have hpass : w.pass limit rank p (T.get s) =
      some (T.get (T.modifyAll (T.swept w limit rank s) (w.set p) s)) := by
    rw [hget]
    exact h
  rcases exec_sweep.mpr ⟨rfl, hpass⟩ with ⟨o, ho, hstate⟩
  exact ⟨o, ho, hstate, by rw [hstate, hget]⟩

end TableAt

end ReadCommitted
