import AiAgentsSwd.ReadCommitted.Client
import AiAgentsSwd.ReadCommitted.Statements

/-!
# ReadCommitted.Alone — a transaction with nobody else active

`run` is what a transaction that runs alone returns and leaves: locks are granted at once, so
that only its queries and writes count. Each statement has its equation, and a whole program is
computed by rewriting with them. `Leaves` is partial correctness of such a run: whatever the
transaction returns and leaves satisfies the postcondition.
-/

namespace ReadCommitted

open Keyed (Table)

variable {σ κ ε α β K R : Type}

namespace Txn

/-- What the transaction returns and leaves, or raises. -/
def run (p : Txn σ κ ε α) (s : σ) : Except ε (α × σ) := (p.exec s).map fun o => (o.value, o.state)

/-- Continue with what was returned and left. -/
def andThen (x : Except ε (α × σ)) (g : α → Txn σ κ ε β) : Except ε (β × σ) :=
  x.bind fun r => (g r.1).run r.2

@[simp] theorem run_done (a : α) (s : σ) : (done a : Txn σ κ ε α).run s = .ok (a, s) := rfl

@[simp] theorem run_raise (e : ε) (s : σ) : (raise e : Txn σ κ ε α).run s = .error e := rfl

@[simp] theorem run_query (f : σ → Txn σ κ ε α) (s : σ) : (query f).run s = (f s).run s := rfl

@[simp] theorem run_write (u : σ → σ) (p : Txn σ κ ε α) (s : σ) :
    (write u p).run s = p.run (u s) := rfl

@[simp] theorem run_lock (k : κ) (p : Txn σ κ ε α) (s : σ) : (lock k p).run s = p.run s := by
  unfold run
  rw [exec]
  cases p.exec s with
  | error e => rfl
  | ok o => rfl

@[simp] theorem run_lockRow (k : κ) (s : σ) : (lockRow k : Txn σ κ ε Unit).run s = .ok ((), s) :=
  run_lock k _ s

@[simp] theorem run_select (q : σ → α) (s : σ) :
    (select q : Txn σ κ ε α).run s = .ok (q s, s) := rfl

@[simp] theorem run_modify (u : σ → σ) (s : σ) :
    (modify u : Txn σ κ ε Unit).run s = .ok ((), u s) := rfl

@[simp] theorem andThen_ok (a : α) (s : σ) (g : α → Txn σ κ ε β) :
    andThen (.ok (a, s)) g = (g a).run s := rfl

@[simp] theorem andThen_error (e : ε) (g : α → Txn σ κ ε β) :
    andThen (.error e : Except ε (α × σ)) g = .error e := rfl

theorem run_bind (p : Txn σ κ ε α) (g : α → Txn σ κ ε β) (s : σ) :
    (p.bind g).run s = andThen (p.run s) g := by
  induction p generalizing s with
  | done a => rfl
  | raise e => rfl
  | lock k p ih => rw [lock_bind, run_lock, run_lock, ih]
  | query f ih => exact ih s s
  | write u p ih => exact ih (u s)

/-- As a client, a transaction commits what it leaves. -/
theorem transact_of_ok {p : Txn σ κ ε α} {s t : σ} {a : α} (h : p.run s = .ok (a, t)) :
    Client.transact p s = (.ok a, t) := by
  unfold run at h
  unfold Client.transact
  cases hexec : p.exec s with
  | error e =>
    rw [hexec] at h
    cases h
  | ok o =>
    rw [hexec] at h
    have hsame : (o.value, o.state) = (a, t) := Except.ok.inj h
    have hvalue : o.value = a := congrArg Prod.fst hsame
    have hstate : o.state = t := congrArg Prod.snd hsame
    rw [← hvalue, ← hstate]

/-- One that raises leaves nothing. -/
theorem transact_of_error {p : Txn σ κ ε α} {s : σ} {e : ε} (h : p.run s = .error e) :
    Client.transact p s = (.error e, s) := by
  unfold run at h
  unfold Client.transact
  cases hexec : p.exec s with
  | error e' =>
    rw [hexec] at h
    have hsame : e' = e := Except.error.inj h
    rw [hsame]
  | ok o =>
    rw [hexec] at h
    cases h

/-- Run alone from `s`, the transaction raises, or `P` holds of what it returns and leaves. -/
def Leaves (p : Txn σ κ ε α) (s : σ) (P : α → σ → Prop) : Prop :=
  ∀ a t, p.run s = .ok (a, t) → P a t

variable {P Q : α → σ → Prop} {s : σ}

theorem Leaves.mono {p : Txn σ κ ε α} (h : p.Leaves s P) (himp : ∀ a t, P a t → Q a t) :
    p.Leaves s Q := fun a t hrun => himp a t (h a t hrun)

theorem leaves_of_run {p : Txn σ κ ε α} {a : α} {t : σ} (hrun : p.run s = .ok (a, t))
    (h : P a t) : p.Leaves s P := by
  intro b u hrun'
  have hsame : (a, t) = (b, u) := Except.ok.inj (hrun.symm.trans hrun')
  have hvalue : a = b := congrArg Prod.fst hsame
  have hstate : t = u := congrArg Prod.snd hsame
  rw [← hvalue, ← hstate]
  exact h

theorem leaves_done {a : α} (h : P a s) : (done a : Txn σ κ ε α).Leaves s P :=
  leaves_of_run (run_done a s) h

theorem leaves_raise {e : ε} : (raise e : Txn σ κ ε α).Leaves s P := by
  intro a t hrun
  cases hrun

theorem leaves_modify {u : σ → σ} {P : Unit → σ → Prop} (h : P () (u s)) :
    (modify u : Txn σ κ ε Unit).Leaves s P :=
  leaves_of_run (run_modify u s) h

/-- The rule for sequences. -/
theorem Leaves.bind {p : Txn σ κ ε α} {g : α → Txn σ κ ε β} {P : β → σ → Prop}
    (h : p.Leaves s Q) (hg : ∀ a t, Q a t → (g a).Leaves t P) : (p.bind g).Leaves s P := by
  intro b u hrun
  rw [run_bind] at hrun
  cases hp : p.run s with
  | error e =>
    rw [hp] at hrun
    cases hrun
  | ok r =>
    rw [hp] at hrun
    exact hg r.1 r.2 (h r.1 r.2 hp) b u hrun

theorem leaves_ite {c : Prop} [Decidable c] {p q : Txn σ κ ε α} (hp : c → p.Leaves s P)
    (hq : ¬c → q.Leaves s P) : (if c then p else q).Leaves s P := by
  by_cases hc : c
  · rw [if_pos hc]
    exact hp hc
  · rw [if_neg hc]
    exact hq hc

end Txn

namespace TableAt

open Txn (andThen run_bind)

variable [DecidableEq K] {T : TableAt σ κ K R} {k : K} {p : R → Bool} {s : σ}

@[simp] theorem run_selectForUpdate :
    (T.selectForUpdate k p : Txn σ κ ε (Option R)).run s =
      .ok (((T.get s).find? k).filter p, s) := by
  unfold selectForUpdate
  rw [Txn.run_query]
  by_cases hp : ((T.get s).find? k).any p = true
  · rw [if_pos hp, Txn.run_lock]
    rfl
  · rw [if_neg hp]
    have hnone : ((T.get s).find? k).filter p = none := by
      cases hrow : (T.get s).find? k with
      | none => rfl
      | some x =>
        rw [hrow] at hp
        exact Option.filter_eq_none_iff.mpr fun y hy => by
          rw [← Option.some.inj hy]
          exact hp
    rw [hnone]
    rfl

/-- A row that is there and matches is found. -/
theorem run_selectForUpdate_of_find {x : R} (hx : (T.get s).find? k = some x)
    (hp : p x = true) :
    (T.selectForUpdate k p : Txn σ κ ε (Option R)).run s = .ok (some x, s) := by
  rw [run_selectForUpdate, hx, Option.filter_some, if_pos hp]

/-- A matching row is written, or the statement raises. -/
theorem run_update_of_find {cond : R → Bool} {f : R → R} {check : R → Bool} {violation : ε}
    {x : R} (hx : (T.get s).find? k = some x) (hcond : cond x = true) :
    (T.update k cond f check violation).run s =
      if check (f x) then .ok (some (f x), T.modify k f s) else .error violation := by
  unfold update
  rw [run_bind, run_selectForUpdate_of_find hx hcond, Txn.andThen_ok]
  by_cases hcheck : check (f x) = true
  · simp only [hcheck, if_true, Txn.run_write, Txn.run_done]
  · simp only [hcheck, if_false, Txn.run_raise, Bool.false_eq_true]

/-- Where no row matches, nothing happens. -/
theorem run_update_of_filter {cond : R → Bool} {f : R → R} {check : R → Bool} {violation : ε}
    (hnone : ((T.get s).find? k).filter cond = none) :
    (T.update k cond f check violation).run s = .ok (none, s) := by
  unfold update
  rw [run_bind, run_selectForUpdate, hnone]
  rfl

/-- An update finds no row, or writes one, or raises. -/
theorem run_update_cases (T : TableAt σ κ K R) (k : K) (cond : R → Bool) (f : R → R)
    (check : R → Bool) (violation : ε) (s : σ) :
    ((T.update k cond f check violation).run s = .ok (none, s) ∧
        ((T.get s).find? k).filter cond = none) ∨
      ∃ x, (T.get s).find? k = some x ∧ cond x = true ∧
        ((check (f x) = true ∧
            (T.update k cond f check violation).run s = .ok (some (f x), T.modify k f s)) ∨
          (check (f x) = false ∧ (T.update k cond f check violation).run s = .error violation)) := by
  cases hrow : ((T.get s).find? k).filter cond with
  | none => exact Or.inl ⟨run_update_of_filter hrow, rfl⟩
  | some x =>
    rcases Option.filter_eq_some_iff.mp hrow with ⟨hx, hcond⟩
    refine Or.inr ⟨x, hx, hcond, ?_⟩
    have hrun : (T.update k cond f check violation).run s =
        if check (f x) then .ok (some (f x), T.modify k f s) else .error violation :=
      run_update_of_find hx hcond
    cases hcheck : check (f x) with
    | true =>
      rw [hcheck] at hrun
      exact Or.inl ⟨rfl, hrun⟩
    | false =>
      rw [hcheck] at hrun
      exact Or.inr ⟨rfl, hrun⟩

@[simp] theorem run_selectOne :
    (T.select k p : Txn σ κ ε (Option R)).run s = .ok (((T.get s).find? k).filter p, s) := rfl

omit [DecidableEq K] in
@[simp] theorem run_selectBy :
    (T.selectBy p : Txn σ κ ε (Option (K × R))).run s =
      .ok ((T.get s).rows.find? fun e => p e.2, s) := rfl

@[simp] theorem run_taken :
    (T.taken k : Txn σ κ ε Bool).run s = .ok (((T.get s).find? k).isSome, s) :=
  Txn.run_lock _ _ s

omit [DecidableEq K] in
@[simp] theorem run_conflict (entry : κ) :
    (T.conflict entry p : Txn σ κ ε Bool).run s =
      .ok ((T.get s).rows.any fun e => p e.2, s) :=
  Txn.run_lock _ _ s

/-- The first row that is not skipped is claimed. -/
theorem run_claimFirst {before : R → R → Bool} {skipped : K → Bool} :
    (T.claimFirst p before skipped : Txn σ κ ε (Option (K × R))).run s =
      .ok ((((T.get s).rows.filter fun e => p e.2 && !skipped e.1).insertionSort
        fun a b => before a.2 b.2).head?, s) := by
  unfold claimFirst
  rw [Txn.run_query]
  cases hhead : (((T.get s).rows.filter fun e => p e.2 && !skipped e.1).insertionSort
      fun a b => before a.2 b.2).head? with
  | none => rfl
  | some e =>
    have hmem := List.mem_of_mem_head? hhead
    rw [List.mem_insertionSort, List.mem_filter, Bool.and_eq_true] at hmem
    have hrow : (T.get s).find? e.1 = some e.2 := Table.mem_rows.mp hmem.1
    simp only [Txn.run_lock, Txn.run_query, Txn.run_done, hrow, Option.filter_some, hmem.2.1, if_true,
      Option.map_some]

/-! ### Their rules -/

open Txn (leaves_of_run)

theorem leaves_selectForUpdate {P : Option R → σ → Prop}
    (h : P (((T.get s).find? k).filter p) s) :
    (T.selectForUpdate k p : Txn σ κ ε (Option R)).Leaves s P :=
  leaves_of_run run_selectForUpdate h

theorem leaves_selectOne {P : Option R → σ → Prop} (h : P (((T.get s).find? k).filter p) s) :
    (T.select k p : Txn σ κ ε (Option R)).Leaves s P :=
  leaves_of_run run_selectOne h

/-- An update that finds no row leaves all as it is; one that finds a row has written it. -/
theorem leaves_update {cond : R → Bool} {f : R → R} {check : R → Bool} {violation : ε}
    {P : Option R → σ → Prop} (hnone : ((T.get s).find? k).filter cond = none → P none s)
    (hsome : ∀ x, (T.get s).find? k = some x → cond x = true → check (f x) = true →
      P (some (f x)) (T.modify k f s)) :
    (T.update k cond f check violation).Leaves s P := by
  rcases run_update_cases T k cond f check violation s with
    ⟨hrun, hrow⟩ | ⟨x, hx, hcond, ⟨hcheck, hrun⟩ | ⟨-, hrun⟩⟩
  · exact leaves_of_run hrun (hnone hrow)
  · exact leaves_of_run hrun (hsome x hx hcond hcheck)
  · intro a t hok
    rw [hrun] at hok
    cases hok

theorem leaves_taken {P : Bool → σ → Prop} (h : P ((T.get s).find? k).isSome s) :
    (T.taken k : Txn σ κ ε Bool).Leaves s P :=
  leaves_of_run run_taken h

omit [DecidableEq K] in
theorem leaves_conflict {entry : κ} {P : Bool → σ → Prop}
    (h : P ((T.get s).rows.any fun e => p e.2) s) :
    (T.conflict entry p : Txn σ κ ε Bool).Leaves s P :=
  leaves_of_run (run_conflict entry) h

end TableAt

end ReadCommitted
