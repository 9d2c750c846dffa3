import AiAgentsSwd.Planning.Invariant

/-!
# Planning.PlanningSpec — what the planning calls do

One inversion lemma per call says everything a successful run does: the guards it passed,
the state it leaves and the locks it took. From it follow, per call, that the invariant is
kept and that the change is within the guarantee.

Every planning call leaves the delegation tables alone (`PlanningStep`), so only the
revision chains need an argument.
-/

namespace AiAgentsSwd.Planning

open Keyed (Table Evolves)
open ReadCommitted ReadCommitted.Txn

/-! ## The reads -/

theorem le_foldr_max {l : List Nat} {n : Nat} (h : n ∈ l) : n ≤ l.foldr max 0 := by
  induction l with
  | nil => cases h
  | cons a l ih =>
    rcases List.mem_cons.mp h with rfl | h
    · exact Nat.le_max_left ..
    · exact (ih h).trans (Nat.le_max_right ..)

theorem foldr_max_mem (l : List Nat) : l.foldr max 0 = 0 ∨ l.foldr max 0 ∈ l := by
  induction l with
  | nil => exact Or.inl rfl
  | cons a l ih =>
    right
    rw [List.foldr_cons]
    rcases le_total a (l.foldr max 0) with h | h
    · rw [Nat.max_eq_right h]
      rcases ih with h0 | hm
      · rw [h0] at h ⊢
        simp [Nat.le_zero.mp h]
      · exact List.mem_cons_of_mem _ hm
    · rw [Nat.max_eq_left h]
      exact List.mem_cons_self ..

theorem le_maxRevisionNumber {s : Db} {r : Uuid} {x : PlanRevision}
    (h : s.planRevisions.find? r = some x) : x.revisionNumber ≤ s.maxRevisionNumber x.projectId := by
  apply le_foldr_max
  exact List.mem_map.mpr ⟨(r, x), List.mem_filter.mpr ⟨Table.mem_rows.mpr h, by simp⟩, rfl⟩

/-- The maximum is 0 or the number of a revision. -/
theorem maxRevisionNumber_attained (s : Db) (p : Uuid) :
    s.maxRevisionNumber p = 0 ∨ ∃ r x, s.planRevisions.find? r = some x ∧ x.projectId = p ∧
      x.revisionNumber = s.maxRevisionNumber p := by
  rcases foldr_max_mem ((s.planRevisions.rows.filter fun e => e.2.projectId = p).map
    fun e => e.2.revisionNumber) with h | h
  · exact Or.inl h
  · rcases List.mem_map.mp h with ⟨⟨r, x⟩, hx, heq⟩
    rcases List.mem_filter.mp hx with ⟨hm, hp⟩
    exact Or.inr ⟨r, x, Table.mem_rows.mp hm, by simpa using hp, heq⟩

/-- The maximum is fixed by the numbers of the project's revisions. -/
theorem maxRevisionNumber_le {s : Db} {p : Uuid} {n : Nat}
    (h : ∀ r x, s.planRevisions.find? r = some x → x.projectId = p → x.revisionNumber ≤ n) :
    s.maxRevisionNumber p ≤ n := by
  rcases maxRevisionNumber_attained s p with h0 | ⟨r, x, hx, hp, heq⟩
  · omega
  · rw [← heq]
    exact h r x hx hp

theorem successorOf_eq_none {s : Db} {p : Uuid} :
    s.successorOf p = none ↔
      ∀ r x, s.planRevisions.find? r = some x → x.supersedesRevisionId ≠ some p := by
  simp only [Db.successorOf, Option.map_eq_none_iff, List.find?_eq_none, decide_eq_true_eq]
  constructor
  · intro h r x hx
    exact h (r, x) (Table.mem_rows.mpr hx)
  · intro h e he
    exact h e.1 e.2 (Table.mem_rows.mp he)

theorem revisionConflict_eq_none {s : Db} {r : Uuid} {row : PlanRevision} :
    s.revisionConflict r row = none ↔ s.planRevisions.find? r = none ∧
      ∀ r' x, s.planRevisions.find? r' = some x →
        ¬ (x.projectId = row.projectId ∧ x.revisionNumber = row.revisionNumber) ∧
        lineageKey x ≠ lineageKey row := by
  unfold Db.revisionConflict
  by_cases h1 : (s.planRevisions.find? r).isSome
  · have hne : s.planRevisions.find? r ≠ none := Option.isSome_iff_ne_none.mp h1
    simp [h1, hne]
  have hn : s.planRevisions.find? r = none := by simpa using h1
  simp only [hn, Option.isSome_none, Bool.false_eq_true, if_false, true_and]
  cases h2 : s.planRevisions.rows.any fun e =>
      e.2.projectId = row.projectId ∧ e.2.revisionNumber = row.revisionNumber with
  | true =>
    simp only [if_true, reduceCtorEq, false_iff]
    intro h
    rw [Table.any_rows_eq_false.mpr fun k x hx => decide_eq_false (h k x hx).1] at h2
    cases h2
  | false =>
    cases h3 : s.planRevisions.rows.any fun e => lineageKey e.2 = lineageKey row with
    | true =>
      simp only [Bool.false_eq_true, if_false, if_true, reduceCtorEq, false_iff]
      intro h
      rw [Table.any_rows_eq_false.mpr fun k x hx => decide_eq_false (h k x hx).2] at h3
      cases h3
    | false =>
      simp only [Bool.false_eq_true, if_false, true_iff]
      intro k x hx
      have hnum := Table.any_rows_eq_false.mp h2 k x hx
      have hkey := Table.any_rows_eq_false.mp h3 k x hx
      exact ⟨of_decide_eq_false hnum, of_decide_eq_false hkey⟩

/-! ## Runs -/

theorem exec_createGoal {id : Uuid} {data : GoalData} {s : Db} {o : Outcome Db RowKey Goal}
    (h : exec (createGoal id data) s = .ok o) :
    s.goals.find? id = none ∧ o.state = { s with goals := s.goals.insert id o.value } ∧
      o.locks = [.goal id] := by
  simp only [createGoal, bind_eq, lockRow_bind, select_bind, exec_lock_ok, exec_query] at h
  rcases h with ⟨o', h, rfl⟩
  split_ifs at h with hs
  · cases h
  · simp only [modify_bind, exec_write, pure_eq, exec_done, Except.ok.injEq] at h
    subst h
    exact ⟨by simpa using hs, rfl, rfl⟩

theorem exec_insertPlanRevision {r : Uuid} {row : PlanRevision} {meaning : String → Exn} {s : Db}
    {o : Outcome Db RowKey Unit} (h : exec (insertPlanRevision r row meaning) s = .ok o) :
    s.revisionConflict r row = none ∧
      o = ⟨(), { s with planRevisions := s.planRevisions.insert r row },
        [.planRevision r, .uqPlanRevisionsProjectNumber row.projectId row.revisionNumber,
          lineageKey row]⟩ := by
  simp only [insertPlanRevision, bind_eq, lockRow_bind, select_bind, exec_lock_ok,
    exec_query] at h
  rcases h with ⟨_, ⟨_, ⟨o₃, h, rfl⟩, rfl⟩, rfl⟩
  cases hc : s.revisionConflict r row with
  | some name => simp [hc] at h
  | none =>
    simp only [hc, Txn.modify, exec_write, exec_done, Except.ok.injEq] at h
    subst h
    exact ⟨rfl, rfl⟩

/-- What inserting a revision does, whichever of the two calls does it. -/
structure RevisionInserted (s t : Db) (l : List RowKey) (r : Uuid) (row : PlanRevision) :
    Prop where
  state : t = { s with planRevisions := s.planRevisions.insert r row }
  number : row.revisionNumber = s.maxRevisionNumber row.projectId + 1
  goal : ∃ g, s.goals.find? row.goalId = some g ∧ g.projectId = row.projectId
  conflict : s.revisionConflict r row = none
  predecessor : ∀ p, row.supersedesRevisionId = some p → .planRevision p ∈ l ∧
    s.successorOf p = none ∧
    ∃ y, s.planRevisions.find? p = some y ∧ y.goalId = row.goalId ∧ y.projectId = row.projectId
  locks : .planRevision r ∈ l ∧ .project row.projectId ∈ l ∧ lineageKey row ∈ l ∧
    .uqPlanRevisionsProjectNumber row.projectId row.revisionNumber ∈ l

theorem exec_createInitialRevision {r : Uuid} {data : InitialRevisionData} {s : Db}
    {o : Outcome Db RowKey PlanRevision}
    (h : exec (createInitialRevision r data) s = .ok o) :
    RevisionInserted s o.state o.locks r o.value ∧ o.value.goalId = data.goalId ∧
      o.value.plan = data.plan ∧ o.value.supersedesRevisionId = none := by
  simp only [createInitialRevision, bind_eq, select_bind, exec_query] at h
  cases hg : s.goals.find? data.goalId with
  | none => simp [hg] at h
  | some goal =>
    simp only [hg, lockProject, nextRevisionNumber, lockRow_bind, select_bind, exec_lock_ok,
      exec_query, exec_bind_ok, pure_eq, exec_done, Except.ok.injEq] at h
    rcases h with ⟨_, ⟨o₁, _, h₁, rfl, rfl⟩, rfl⟩
    rcases exec_insertPlanRevision h₁ with ⟨hc, rfl⟩
    refine ⟨⟨rfl, rfl, ⟨goal, hg, rfl⟩, hc, ?_, ?_⟩, rfl, rfl, rfl⟩
    · intro p hp
      cases hp
    · simp

theorem exec_createSuccessorRevision {r : Uuid} {data : SuccessorRevisionData} {s : Db}
    {o : Outcome Db RowKey PlanRevision} (hinv : Lineage s)
    (h : exec (createSuccessorRevision r data) s = .ok o) :
    RevisionInserted s o.state o.locks r o.value ∧ o.value.goalId = data.goalId ∧
      o.value.plan = data.plan ∧
      o.value.supersedesRevisionId = some data.expectedCurrentRevisionId := by
  simp only [createSuccessorRevision, bind_eq, select_bind, exec_query] at h
  cases hg : s.goals.find? data.goalId with
  | none => simp [hg] at h
  | some goal =>
    simp only [hg, lockProject, lockRow_bind, exec_lock_ok, exec_query] at h
    rcases h with ⟨_, ⟨o₁, h, rfl⟩, rfl⟩
    cases hp : s.planRevisions.find? data.expectedCurrentRevisionId with
    | none => simp [hp] at h
    | some predecessor =>
      by_cases hgoal : predecessor.goalId = data.goalId
      swap
      · simp [hp, hgoal] at h
      simp only [hp, hgoal, ne_eq, not_true, if_false, exec_query] at h
      cases hs : s.successorOf data.expectedCurrentRevisionId with
      | some x => simp [hs] at h
      | none =>
        by_cases hr : data.reason = .initial
        · simp [hs, hr, nextRevisionNumber] at h
        simp only [hs, nextRevisionNumber, hr, if_false, select_bind, exec_query, exec_bind_ok,
          pure_eq, exec_done, Except.ok.injEq] at h
        rcases h with ⟨o₂, _, h₂, rfl, rfl⟩
        rcases exec_insertPlanRevision h₂ with ⟨hc, rfl⟩
        -- the goal read first is the predecessor's, so the locked project is its project
        have hproj : goal.projectId = predecessor.projectId := by
          rcases hinv.goal _ _ hp with ⟨g, hg', heq⟩
          rw [hgoal, hg] at hg'
          cases hg'
          exact heq
        refine ⟨⟨rfl, rfl, ⟨goal, hg, hproj⟩, hc, ?_, ?_⟩, rfl, rfl, rfl⟩
        · intro p heq
          cases heq
          exact ⟨by simp, hs, predecessor, hp, hgoal, rfl⟩
        · simp [hproj]

theorem exec_acceptRevision {r : Uuid} {s : Db} {o : Outcome Db RowKey (Option PlanRevision)}
    (h : exec (acceptRevision r) s = .ok o) :
    o.state = s ∨ ∃ row, s.planRevisions.find? r = some row ∧ row.status = .draft ∧
      o = ⟨some { row with status := .accepted },
        { s with
          planRevisions := s.planRevisions.modify r fun r => { r with status := .accepted } },
        [.planRevision r]⟩ := by
  simp only [acceptRevision, bind_eq, exec_bind_ok, exec_updateWhere_ok] at h
  rcases h with ⟨o₁, o₂, ⟨hc, rfl⟩ | ⟨hc, rfl⟩, h, rfl⟩
  · -- the guarded update moved a draft
    right
    rw [Option.any_eq_true] at hc
    rcases hc with ⟨row, hrow, hd⟩
    simp only [Table.find?_modify_self, hrow, Option.map_some, pure_eq, exec_done,
      Except.ok.injEq] at h
    subst h
    exact ⟨row, hrow, of_decide_eq_true hd, rfl⟩
  · -- it matched nothing, and the rest only reads
    left
    simp only [select_bind, exec_query] at h
    cases hr : s.planRevisions.find? r with
    | none =>
      simp only [hr, pure_eq, exec_done, Except.ok.injEq] at h
      subst h
      rfl
    | some row =>
      simp only [hr] at h
      split_ifs at h
      · simp only [pure_eq, exec_done, Except.ok.injEq] at h
        subst h
        rfl
      · cases h

theorem exec_confirmCurrentRevision {g r : Uuid} {s : Db} {o : Outcome Db RowKey PlanRevision} :
    exec (confirmCurrentRevision g r) s = .ok o ↔
      ∃ row, s.planRevisions.find? r = some row ∧ row.goalId = g ∧ s.successorOf r = none ∧
        o = ⟨row, s, [.planRevision r]⟩ := by
  simp only [confirmCurrentRevision, bind_eq, lockRow_bind, select_bind, exec_lock_ok, exec_query]
  cases hr : s.planRevisions.find? r with
  | none => simp
  | some row =>
    by_cases hg : row.goalId = g
    · cases hs : s.successorOf r with
      | none => simp [hg, hs]
      | some x => simp [hg, hs]
    · simp [hg]

/-! ## The guarantee -/

theorem guarantee_createGoal {id : Uuid} {data : GoalData} {s : Db} {o : Outcome Db RowKey Goal}
    (h : exec (createGoal id data) s = .ok o) : Guarantee o.locks s o.state := by
  rcases exec_createGoal h with ⟨hn, hs, hl⟩
  rw [hs]
  exact { Guarantee.refl o.locks s with goals := .insert (fun _ => rfl) hn (by simp [hl]) }

theorem RevisionInserted.guarantee {s t : Db} {l : List RowKey} {r : Uuid} {row : PlanRevision}
    (h : RevisionInserted s t l r row) : Guarantee l s t := by
  have hn : s.planRevisions.find? r = none := (revisionConflict_eq_none.mp h.conflict).1
  rw [h.state]
  refine { Guarantee.refl l s with
    revisions := .insert PlanRevision.Same.refl hn h.locks.1
    revision_new := ?_ }
  intro r' y hn' hy
  by_cases heq : r' = r
  · subst heq
    rw [Table.find?_insert_self] at hy
    cases hy
    exact ⟨h.locks.2.1, h.locks.2.2.2, h.locks.2.2.1, fun p hp => (h.predecessor p hp).1⟩
  · rw [Table.find?_insert_of_ne _ _ heq, hn'] at hy
    cases hy

theorem guarantee_acceptRevision {r : Uuid} {s : Db}
    {o : Outcome Db RowKey (Option PlanRevision)} (h : exec (acceptRevision r) s = .ok o) :
    Guarantee o.locks s o.state := by
  rcases exec_acceptRevision h with hs | ⟨row, hrow, hd, rfl⟩
  · rw [hs]
    exact Guarantee.refl _ _
  · refine { Guarantee.refl [.planRevision r] s with
      revisions := .modify PlanRevision.Same.refl ?_ (by simp)
      revision_new := ?_ }
    · intro x hx
      rw [hrow] at hx
      cases hx
      exact ⟨.accepted, rfl, Or.inr ⟨hd, rfl⟩⟩
    · intro r' y hn hy
      rcases Table.exists_of_find?_modify hy with ⟨x, hx, -⟩
      rw [hn] at hx
      cases hx

/-! ## The invariant -/

/-- A chain fact only looks at lineage columns. -/
theorem Lineage.of_same {s t : Db} (h : Lineage s) (hg : t.goals = s.goals)
    (hkeep : ∀ r x, s.planRevisions.find? r = some x →
      ∃ y, t.planRevisions.find? r = some y ∧ x.Same y)
    (hback : ∀ r y, t.planRevisions.find? r = some y →
      ∃ x, s.planRevisions.find? r = some x ∧ x.Same y) : Lineage t where
  goal := by
    intro r y hy
    rcases hback r y hy with ⟨x, hx, st, rfl, -⟩
    rw [hg]
    exact h.goal r x hx
  number_pos := by
    intro r y hy
    rcases hback r y hy with ⟨x, hx, st, rfl, -⟩
    exact h.number_pos r x hx
  number_inj := by
    intro r r' y y' hy hy' hp hn
    rcases hback r y hy with ⟨x, hx, st, rfl, -⟩
    rcases hback r' y' hy' with ⟨x', hx', st', rfl, -⟩
    exact h.number_inj r r' x x' hx hx' hp hn
  number_dense := by
    intro r y k hy h1 hk
    rcases hback r y hy with ⟨x, hx, st, rfl, -⟩
    rcases h.number_dense r x k hx h1 hk with ⟨r', x', hx', hp, hn⟩
    rcases hkeep r' x' hx' with ⟨y', hy', st', rfl, -⟩
    exact ⟨r', _, hy', hp, hn⟩
  lineage_inj := by
    intro r r' y y' hy hy' hk
    rcases hback r y hy with ⟨x, hx, st, rfl, -⟩
    rcases hback r' y' hy' with ⟨x', hx', st', rfl, -⟩
    exact h.lineage_inj r r' x x' hx hx' hk
  predecessor := by
    intro r y p hy hp
    rcases hback r y hy with ⟨x, hx, st, rfl, -⟩
    rcases h.predecessor r x p hx hp with ⟨z, hz, hgoal, hlt⟩
    rcases hkeep p z hz with ⟨y', hy', st', rfl, -⟩
    exact ⟨_, hy', hgoal, hlt⟩

theorem lineage_createGoal {s : Db} {id : Uuid} {row : Goal} (h : Lineage s)
    (hn : s.goals.find? id = none) : Lineage { s with goals := s.goals.insert id row } where
  goal := by
    intro r x hx
    rcases h.goal r x hx with ⟨g, hg, hp⟩
    refine ⟨g, ?_, hp⟩
    have hne : x.goalId ≠ id := by
      rintro heq
      rw [heq, hn] at hg
      cases hg
    exact (Table.find?_insert_of_ne _ _ hne).trans hg
  number_pos := h.number_pos
  number_inj := h.number_inj
  number_dense := h.number_dense
  lineage_inj := h.lineage_inj
  predecessor := h.predecessor

/-- A new revision extends its chain at the tip and its project's numbers at the end. -/
theorem RevisionInserted.lineage {s t : Db} {l : List RowKey} {r : Uuid} {row : PlanRevision}
    (h : RevisionInserted s t l r row) (hinv : Lineage s) : Lineage t := by
  rcases revisionConflict_eq_none.mp h.conflict with ⟨hn, hfree⟩
  have hstate := h.state
  subst hstate
  -- a row of the new table is the new revision or an old one
  have hcase : ∀ r' x, (s.planRevisions.insert r row).find? r' = some x →
      (r' = r ∧ x = row) ∨ (r' ≠ r ∧ s.planRevisions.find? r' = some x) := by
    intro r' x hx
    by_cases heq : r' = r
    · subst heq
      rw [Table.find?_insert_self] at hx
      cases hx
      exact Or.inl ⟨rfl, rfl⟩
    · rw [Table.find?_insert_of_ne _ _ heq] at hx
      exact Or.inr ⟨heq, hx⟩
  have hkeep : ∀ r' x, s.planRevisions.find? r' = some x →
      (s.planRevisions.insert r row).find? r' = some x := by
    intro r' x hx
    have hne : r' ≠ r := by
      rintro rfl
      rw [hn] at hx
      cases hx
    rw [Table.find?_insert_of_ne _ _ hne, hx]
  refine ⟨?_, ?_, ?_, ?_, ?_, ?_⟩
  · intro r' x hx
    rcases hcase r' x hx with ⟨rfl, rfl⟩ | ⟨-, hx⟩
    · exact h.goal
    · exact hinv.goal r' x hx
  · intro r' x hx
    rcases hcase r' x hx with ⟨rfl, rfl⟩ | ⟨-, hx⟩
    · have := h.number
      omega
    · exact hinv.number_pos r' x hx
  · intro r₁ r₂ x₁ x₂ hx₁ hx₂ hp hnum
    rcases hcase r₁ x₁ hx₁ with ⟨rfl, rfl⟩ | ⟨-, old₁⟩ <;>
      rcases hcase r₂ x₂ hx₂ with ⟨rfl, rfl⟩ | ⟨-, old₂⟩
    · rfl
    · exact absurd ⟨hp.symm, hnum.symm⟩ (hfree r₂ x₂ old₂).1
    · exact absurd ⟨hp, hnum⟩ (hfree r₁ x₁ old₁).1
    · exact hinv.number_inj r₁ r₂ x₁ x₂ old₁ old₂ hp hnum
  · intro r' x k hx h1 hk
    rcases hcase r' x hx with ⟨rfl, rfl⟩ | ⟨-, hx⟩
    · by_cases heq : k = x.revisionNumber
      · exact ⟨r', x, Table.find?_insert_self .., rfl, heq.symm⟩
      · -- the smaller numbers are those up to the old maximum
        have hle : k ≤ s.maxRevisionNumber x.projectId := by
          have := h.number
          omega
        rcases maxRevisionNumber_attained s x.projectId with h0 | ⟨r₀, x₀, hx₀, hp₀, hmax⟩
        · omega
        · rw [← hmax] at hle
          rcases hinv.number_dense r₀ x₀ k hx₀ h1 hle with ⟨r₁, x₁, hx₁, hp₁, hn₁⟩
          exact ⟨r₁, x₁, hkeep r₁ x₁ hx₁, hp₁.trans hp₀, hn₁⟩
    · rcases hinv.number_dense r' x k hx h1 hk with ⟨r₁, x₁, hx₁, hp₁, hn₁⟩
      exact ⟨r₁, x₁, hkeep r₁ x₁ hx₁, hp₁, hn₁⟩
  · intro r₁ r₂ x₁ x₂ hx₁ hx₂ hkey
    rcases hcase r₁ x₁ hx₁ with ⟨rfl, rfl⟩ | ⟨-, old₁⟩ <;>
      rcases hcase r₂ x₂ hx₂ with ⟨rfl, rfl⟩ | ⟨-, old₂⟩
    · rfl
    · exact absurd hkey.symm (hfree r₂ x₂ old₂).2
    · exact absurd hkey (hfree r₁ x₁ old₁).2
    · exact hinv.lineage_inj r₁ r₂ x₁ x₂ old₁ old₂ hkey
  · intro r' x p hx hp
    rcases hcase r' x hx with ⟨rfl, rfl⟩ | ⟨-, hx⟩
    · rcases h.predecessor p hp with ⟨-, -, y, hy, hgoal, hproj⟩
      refine ⟨y, hkeep p y hy, hgoal, ?_⟩
      have hle := le_maxRevisionNumber hy
      have hnum := h.number
      rw [hproj] at hle
      omega
    · rcases hinv.predecessor r' x p hx hp with ⟨y, hy, hgoal, hlt⟩
      exact ⟨y, hkeep p y hy, hgoal, hlt⟩

/-- A planning call leaves the delegation tables alone. -/
structure PlanningStep (s t : Db) : Prop where
  state : ∃ goals revisions, t = { s with goals := goals, planRevisions := revisions }
  goals : ∀ g x, s.goals.find? g = some x → t.goals.find? g = some x
  revisions : ∀ r x, s.planRevisions.find? r = some x →
    ∃ y, t.planRevisions.find? r = some y ∧ x.Same y

theorem PlanningStep.inv {s t : Db} (h : PlanningStep s t) (hinv : Inv s) (hl : Lineage t) :
    Inv t := by
  rcases h.state with ⟨G, R, rfl⟩
  refine ⟨hl, { hinv.shape with materialized := ?_, lineage_goal := ?_ },
    hinv.gate, { hinv.books with }⟩
  · intro r g hg
    rcases hinv.shape.materialized r g hg with ⟨rev, plan, hrev, hgoal, hst, hplan, hcount, hperm⟩
    rcases h.revisions r rev hrev with ⟨y, hy, st, rfl, hst'⟩
    have hacc : st = .accepted := by
      rcases hst' with h | ⟨h, -⟩
      · rw [h, hst]
      · rw [hst] at h
        cases h
    exact ⟨_, plan, hy, hgoal, hacc, hplan, hcount, hperm⟩
  · intro g x hx
    rcases hinv.shape.lineage_goal g x hx with ⟨goal, hgoal, hp⟩
    exact ⟨goal, h.goals g goal hgoal, hp⟩

theorem inv_createGoal {id : Uuid} {data : GoalData} {s : Db} {o : Outcome Db RowKey Goal}
    (h : exec (createGoal id data) s = .ok o) (hinv : Inv s) : Inv o.state := by
  have hg := (guarantee_createGoal h).goals
  rcases exec_createGoal h with ⟨hn, hs, -⟩
  rw [hs] at hg ⊢
  refine PlanningStep.inv ⟨⟨_, _, rfl⟩, ?_, fun r x hx => ⟨x, hx, .refl x⟩⟩ hinv
    (lineage_createGoal hinv.revisions hn)
  intro g x hx
  rcases hg.find_same hx with ⟨y, hy, rfl⟩
  exact hy

theorem RevisionInserted.inv {s t : Db} {l : List RowKey} {r : Uuid} {row : PlanRevision}
    (h : RevisionInserted s t l r row) (hinv : Inv s) : Inv t := by
  have hg := h.guarantee
  refine PlanningStep.inv ⟨⟨_, _, h.state⟩, ?_, fun r x hx => hg.revisions.find_same hx⟩ hinv
    (h.lineage hinv.revisions)
  intro g x hx
  rw [h.state]
  exact hx

theorem inv_acceptRevision {r : Uuid} {s : Db} {o : Outcome Db RowKey (Option PlanRevision)}
    (h : exec (acceptRevision r) s = .ok o) (hinv : Inv s) : Inv o.state := by
  have hg := guarantee_acceptRevision h
  rcases exec_acceptRevision h with hs | ⟨row, hrow, hd, rfl⟩
  · rw [hs]
    exact hinv
  · refine PlanningStep.inv ⟨⟨_, _, rfl⟩, fun _ _ hx => hx, fun r x hx =>
      hg.revisions.find_same hx⟩ hinv ?_
    refine hinv.revisions.of_same rfl (fun r x hx => hg.revisions.find_same hx) ?_
    intro r' y hy
    rcases Table.exists_of_find?_modify hy with ⟨x, hx, rfl⟩
    refine ⟨x, hx, ?_⟩
    split_ifs with heq
    · subst heq
      rw [hrow] at hx
      cases hx
      exact ⟨.accepted, rfl, Or.inr ⟨hd, rfl⟩⟩
    · exact .refl x

end AiAgentsSwd.Planning
