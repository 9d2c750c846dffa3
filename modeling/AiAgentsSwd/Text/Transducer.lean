import Mathlib.Data.List.Basic
import Mathlib.Tactic.Common

/-!
# Text.Transducer — reading a text letter by letter

A reader that keeps a state, puts out what it has recognized and may refuse a letter, and may
refuse to end where it stands. Two texts that stand one after the other are read one after the
other (`run_append`), so a long text is read part by part; what holds of the output and the state
at every letter holds of the whole (`run_inv`).
-/

namespace AiAgentsSwd.Text

structure Transducer (σ α β : Type) where
  /-- One letter: what is put out, and the next state. -/
  step : σ → α → Option (List β × σ)
  /-- The end of the text. -/
  finish : σ → Option (List β)

namespace Transducer

variable {σ α β : Type} (T : Transducer σ α β)

def run : σ → List α → Option (List β × σ)
  | st, [] => some ([], st)
  | st, a :: s =>
    match T.step st a with
    | none => none
    | some (out, st') => (run st' s).map fun r => (out ++ r.1, r.2)

/-- The output for a whole text. -/
def read (st : σ) (s : List α) : Option (List β) :=
  (T.run st s).bind fun r => (T.finish r.2).map (r.1 ++ ·)

@[simp] theorem run_nil (st : σ) : T.run st [] = some ([], st) := rfl

theorem run_cons {st st' : σ} {a : α} {out : List β} (h : T.step st a = some (out, st'))
    (s : List α) : T.run st (a :: s) = (T.run st' s).map fun r => (out ++ r.1, r.2) := by
  rw [run, h]

theorem run_cons_none {st : σ} {a : α} (h : T.step st a = none) (s : List α) :
    T.run st (a :: s) = none := by
  rw [run, h]

/-- A letter that puts nothing out. -/
theorem run_silent {st st' : σ} {a : α} (h : T.step st a = some ([], st')) (s : List α) :
    T.run st (a :: s) = T.run st' s := by
  rw [T.run_cons h]
  cases T.run st' s with
  | none => rfl
  | some r => rfl

theorem run_append {st st' : σ} {s : List α} {out : List β} (h : T.run st s = some (out, st'))
    (t : List α) : T.run st (s ++ t) = (T.run st' t).map fun r => (out ++ r.1, r.2) := by
  induction s generalizing st out with
  | nil =>
    simp only [run_nil, Option.some.injEq, Prod.mk.injEq] at h
    rw [← h.1, ← h.2, List.nil_append]
    cases T.run st t with
    | none => rfl
    | some r => rfl
  | cons a s ih =>
    rw [List.cons_append]
    cases hstep : T.step st a with
    | none => rw [T.run_cons_none hstep] at h; cases h
    | some r =>
      rw [T.run_cons hstep] at h ⊢
      cases hrest : T.run r.2 s with
      | none => rw [hrest] at h; cases h
      | some last =>
        rw [hrest, Option.map_some, Option.some.injEq, Prod.mk.injEq] at h
        have hlast : T.run r.2 s = some (last.1, st') := by rw [hrest, ← h.2]
        rw [ih hlast, ← h.1]
        cases T.run st' t with
        | none => rfl
        | some q => rw [Option.map_some, Option.map_some, Option.map_some, List.append_assoc]

theorem run_append_none {st : σ} {s : List α} (h : T.run st s = none) (t : List α) :
    T.run st (s ++ t) = none := by
  induction s generalizing st with
  | nil => cases h
  | cons a s ih =>
    rw [List.cons_append]
    cases hstep : T.step st a with
    | none => rw [T.run_cons_none hstep]
    | some r =>
      rw [T.run_cons hstep, Option.map_eq_none_iff] at h ⊢
      exact ih h

theorem read_append {st st' : σ} {s : List α} {out : List β} (h : T.run st s = some (out, st'))
    (t : List α) : T.read st (s ++ t) = (T.read st' t).map (out ++ ·) := by
  rw [read, read, T.run_append h]
  cases T.run st' t with
  | none => rfl
  | some r =>
    rw [Option.map_some, Option.bind_some, Option.bind_some]
    cases T.finish r.2 with
    | none => rfl
    | some last => rw [Option.map_some, Option.map_some, Option.map_some, List.append_assoc]

theorem read_append_none {st : σ} {s : List α} (h : T.run st s = none) (t : List α) :
    T.read st (s ++ t) = none := by
  rw [read, T.run_append_none h, Option.bind_none]

/-- A text is read when its first part is and the second is from there. -/
theorem isSome_read_append {st : σ} {s t : List α} : (T.read st (s ++ t)).isSome ↔
    ∃ r, T.run st s = some r ∧ (T.read r.2 t).isSome := by
  cases h : T.run st s with
  | none => simp [T.read_append_none h]
  | some r => simp [T.read_append h]

/-- What holds before the first letter and is kept by every letter holds after the last. -/
theorem run_inv {Inv : List β → σ → Prop}
    (hstep : ∀ before st a out st', Inv before st → T.step st a = some (out, st') →
      Inv (before ++ out) st')
    {before out : List β} {st st' : σ} {s : List α} (h : Inv before st)
    (hrun : T.run st s = some (out, st')) : Inv (before ++ out) st' := by
  induction s generalizing before st out with
  | nil =>
    simp only [run_nil, Option.some.injEq, Prod.mk.injEq] at hrun
    rw [← hrun.1, ← hrun.2, List.append_nil]
    exact h
  | cons a s ih =>
    cases hone : T.step st a with
    | none => rw [T.run_cons_none hone] at hrun; cases hrun
    | some r =>
      rw [T.run_cons hone] at hrun
      cases hrest : T.run r.2 s with
      | none => rw [hrest] at hrun; cases hrun
      | some last =>
        rw [hrest, Option.map_some, Option.some.injEq, Prod.mk.injEq] at hrun
        have hlast : T.run r.2 s = some (last.1, st') := by rw [hrest, ← hrun.2]
        have hkept := ih (hstep before st a r.1 r.2 h hone) hlast
        rw [← hrun.1, ← List.append_assoc]
        exact hkept

end Transducer

end AiAgentsSwd.Text
