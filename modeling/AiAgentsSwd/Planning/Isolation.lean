import AiAgentsSwd.Planning.MaterializeSpec
import AiAgentsSwd.ReadCommitted.Tables

/-!
# Planning.Isolation — why the planning calls commit as if alone

`Rely` facts first: what a session may count on about goals, revisions, lineages and units
while others commit. Then, per call, each statement is checked against the locks held when
it runs (`Isolated`):

- a revision number is read under the project lock, currency under the predecessor's lock;
- `accept_revision` and the replay reads hold no lock while they read, but then they write
  nothing either (`Quiet`).
-/

namespace AiAgentsSwd.Planning

open Keyed (Table Evolves)
open ReadCommitted ReadCommitted.Txn

/-! ## What a session may rely on -/

theorem Dispatch.Same.trans {x y z : Dispatch} (h : x.Same y) (h' : y.Same z) : x.Same z := by
  rcases h with ⟨p, rfl, hp⟩
  rcases h' with ⟨q, rfl, hq⟩
  refine ⟨q, rfl, fun hne => ?_⟩
  have hpx := hp hne
  subst hpx
  exact hq hne

section Rely

variable {L : List RowKey} {s t : Db}

theorem rely_goal (h : Rely Inv Guarantee L s t) {g : Uuid} {x : Goal}
    (hx : s.goals.find? g = some x) : t.goals.find? g = some x :=
  h.fixed (T := Db.goals) (fun _ _ _ hg => hg.goals) hx

theorem rely_lineage (h : Rely Inv Guarantee L s t) {g : Uuid} {x : ExecutionLineage}
    (hx : s.goalExecutionLineage.find? g = some x) : t.goalExecutionLineage.find? g = some x :=
  h.fixed (T := Db.goalExecutionLineage) (fun _ _ _ hg => hg.lineages) hx

/-- A unit keeps its identity. -/
theorem rely_unit (h : Rely Inv Guarantee L s t) {u : Uuid} {x : ExecutionUnit}
    (hx : s.planExecutionUnits.find? u = some x) :
    ∃ y, t.planExecutionUnits.find? u = some y ∧ x.Same y :=
  h.same_row (T := Db.planExecutionUnits) (fun _ _ _ hg => hg.units) ExecutionUnit.Same.refl
    (fun _ _ _ => ExecutionUnit.Same.trans) hx

/-- A dispatch stays the same one. -/
theorem rely_dispatch (h : Rely Inv Guarantee L s t) {u : Uuid} {x : Dispatch}
    (hx : s.planExecutionDispatches.find? u = some x) :
    ∃ y, t.planExecutionDispatches.find? u = some y ∧ x.Same y :=
  h.same_row (T := Db.planExecutionDispatches) (fun _ _ _ hg => hg.dispatches)
    Dispatch.Same.refl (fun _ _ _ => Dispatch.Same.trans) hx

theorem rely_goal_locked (h : Rely Inv Guarantee L s t) {g : Uuid} (hl : .goal g ∈ L) :
    t.goals.find? g = s.goals.find? g :=
  h.row (T := Db.goals) (fun _ _ _ hg => hg.goals) hl

theorem rely_revision_locked (h : Rely Inv Guarantee L s t) {r : Uuid}
    (hl : .planRevision r ∈ L) : t.planRevisions.find? r = s.planRevisions.find? r :=
  h.row (T := Db.planRevisions) (fun _ _ _ hg => hg.revisions) hl

theorem rely_item_locked (h : Rely Inv Guarantee L s t) {w : Uuid} (hl : .workItem w ∈ L) :
    t.projectWorkItems.find? w = s.projectWorkItems.find? w :=
  h.row (T := Db.projectWorkItems) (fun _ _ _ hg => hg.items) hl

theorem rely_lineage_locked (h : Rely Inv Guarantee L s t) {g : Uuid}
    (hl : .executionLineage g ∈ L) :
    t.goalExecutionLineage.find? g = s.goalExecutionLineage.find? g :=
  h.row (T := Db.goalExecutionLineage) (fun _ _ _ hg => hg.lineages) hl

theorem rely_graph_locked (h : Rely Inv Guarantee L s t) {r : Uuid}
    (hl : .executionGraph r ∈ L) :
    t.planExecutionGraphs.find? r = s.planExecutionGraphs.find? r :=
  h.row (T := Db.planExecutionGraphs) (fun _ _ _ hg => hg.graphs) hl

theorem rely_unit_locked (h : Rely Inv Guarantee L s t) {u : Uuid}
    (hl : .executionUnit u ∈ L) :
    t.planExecutionUnits.find? u = s.planExecutionUnits.find? u :=
  h.row (T := Db.planExecutionUnits) (fun _ _ _ hg => hg.units) hl

theorem rely_dispatch_locked (h : Rely Inv Guarantee L s t) {u : Uuid} (hl : .dispatch u ∈ L) :
    t.planExecutionDispatches.find? u = s.planExecutionDispatches.find? u :=
  h.row (T := Db.planExecutionDispatches) (fun _ _ _ hg => hg.dispatches) hl

theorem rely_principals (h : Rely Inv Guarantee L s t) :
    t.actorPrincipals = s.actorPrincipals := by
  apply h.keeps (P := fun t => t.actorPrincipals = s.actorPrincipals) _ rfl
  intro a b l _ _ hg _ hab
  rw [hg.principals, hab]

/-- Under the project lock nobody else allocates a revision number. -/
theorem rely_maxRevisionNumber (h : Rely Inv Guarantee L s t) {p : Uuid}
    (hl : .project p ∈ L) : t.maxRevisionNumber p = s.maxRevisionNumber p := by
  apply h.keeps (P := fun t => t.maxRevisionNumber p = s.maxRevisionNumber p) _ rfl
  intro a b l _ _ hg hout hab
  rw [← hab]
  apply le_antisymm
  · apply maxRevisionNumber_le
    intro r y hy hp
    cases hx : a.planRevisions.find? r with
    | none =>
      have hmem := (hg.revision_new r y hx hy).1
      rw [hp] at hmem
      exact absurd hl (hout _ hmem)
    | some x =>
      rcases hg.revisions.find_same hx with ⟨y', hy', st, rfl, -⟩
      rw [hy] at hy'
      cases hy'
      have hle := le_maxRevisionNumber hx
      rw [← hp]
      exact hle
  · apply maxRevisionNumber_le
    intro r x hx hp
    rcases hg.revisions.find_same hx with ⟨y, hy, st, rfl, -⟩
    have hle := le_maxRevisionNumber hy
    rw [← hp]
    exact hle

/-- Under the lock of a revision nobody else supersedes it. -/
theorem rely_successorOf (h : Rely Inv Guarantee L s t) {p : Uuid} (hl : .planRevision p ∈ L)
    (hs : s.successorOf p = none) : t.successorOf p = none := by
  apply h.keeps (P := fun t => t.successorOf p = none) _ hs
  intro a b l _ _ hg hout ha
  rw [successorOf_eq_none] at ha ⊢
  intro r y hy heq
  cases hx : a.planRevisions.find? r with
  | none => exact hout _ ((hg.revision_new r y hx hy).2.2.2 p heq) hl
  | some x =>
    rcases hg.revisions.find_same hx with ⟨y', hy', st, rfl, -⟩
    rw [hy] at hy'
    cases hy'
    exact ha r x hx heq

/-- Under the locks of its index entries a revision stays free of conflicts. -/
theorem rely_revisionConflict (h : Rely Inv Guarantee L s t) {r : Uuid} {row : PlanRevision}
    (hl : .planRevision r ∈ L)
    (hn : .uqPlanRevisionsProjectNumber row.projectId row.revisionNumber ∈ L)
    (hk : lineageKey row ∈ L) (hs : s.revisionConflict r row = none) :
    t.revisionConflict r row = none := by
  apply h.keeps (P := fun t => t.revisionConflict r row = none) _ hs
  intro a b l _ _ hg hout ha
  rw [revisionConflict_eq_none] at ha ⊢
  rcases ha with ⟨hr, hall⟩
  have hrl : .planRevision r ∉ l := fun hm => hout _ hm hl
  refine ⟨(hg.revisions.eq_of_not_mem hrl).trans hr, ?_⟩
  intro r' y hy
  cases hx : a.planRevisions.find? r' with
  | none =>
    rcases hg.revision_new r' y hx hy with ⟨-, hnum, hkey, -⟩
    constructor
    · rintro ⟨h1, h2⟩
      rw [h1, h2] at hnum
      exact hout _ hnum hn
    · intro heq
      rw [heq] at hkey
      exact hout _ hkey hk
  | some x =>
    rcases hg.revisions.find_same hx with ⟨y', hy', st, rfl, -⟩
    rw [hy] at hy'
    cases hy'
    exact hall r' x hx

/-- Under the project lock nobody else roots the goal's execution. -/
theorem rely_no_lineage (h : Rely Inv Guarantee L s t) {g : Uuid} {goal : Goal}
    (hgoal : s.goals.find? g = some goal) (hl : .project goal.projectId ∈ L)
    (hs : s.goalExecutionLineage.find? g = none) : t.goalExecutionLineage.find? g = none := by
  have hboth : t.goals.find? g = some goal ∧ t.goalExecutionLineage.find? g = none := by
    apply h.keeps (P := fun t => t.goals.find? g = some goal ∧
      t.goalExecutionLineage.find? g = none) _ ⟨hgoal, hs⟩
    rintro a b l _ hb hg hout ⟨hga, hla⟩
    have hgb := hg.goals.find_eq hga
    refine ⟨hgb, ?_⟩
    cases hy : b.goalExecutionLineage.find? g with
    | none => rfl
    | some y =>
      rcases hb.shape.lineage_goal g y hy with ⟨goal', hgoal', hp⟩
      rw [hgb] at hgoal'
      cases hgoal'
      have hmem := hg.lineage_new g y hla hy
      rw [← hp] at hmem
      exact absurd hl (hout _ hmem)
  exact hboth.2

end Rely

/-! ## The planning calls -/

/-- The transaction commits as if alone, with a reply that is right then. -/
abbrev Isolated {α : Type} (p : PlanTxn α) (L : List RowKey) (w : Db → Db) (s : Db)
    (Q : Post Db RowKey α) : Prop :=
  Stable Inv Guarantee (fun _ => False) p L w s Q

/-- Nothing to say about the result. -/
abbrev anyResult {α : Type} : Post Db RowKey α := fun _ _ _ _ => True

theorem isolated_createGoal {g : Uuid} {data : GoalData} {s : Db} :
    Isolated (createGoal g data) [] id s anyResult := by
  simp only [createGoal, bind_eq, lockRow_bind, select_bind, stable_lock, List.nil_append]
  intro t _
  apply stable_query
  intro t _
  cases hg : t.goals.find? g with
  | some x =>
    left
    simp only [id_eq, hg, Option.isSome_some, if_true]
    exact .raise _
  | none =>
    right
    constructor
    · intro t' ht'
      have heq := rely_goal_locked ht' (g := g) (by simp)
      simp only [id_eq, heq]
    · simp [hg]

theorem isolated_insertPlanRevision {r : Uuid} {row : PlanRevision} {meaning : String → Exn}
    {L : List RowKey} {s : Db} : Isolated (insertPlanRevision r row meaning) L id s anyResult := by
  simp only [insertPlanRevision, bind_eq, lockRow_bind, select_bind, stable_lock]
  intro t _ t _ t _
  apply stable_query
  intro t _
  cases hc : t.revisionConflict r row with
  | some name =>
    left
    simp only [id_eq, hc]
    exact .raise _
  | none =>
    right
    constructor
    · intro t' ht'
      have heq : t'.revisionConflict r row = none :=
        rely_revisionConflict ht' (by simp) (by simp) (by simp) hc
      simp only [id_eq, hc, heq]
    · simp [hc, Txn.modify]

theorem isolated_createInitialRevision {r : Uuid} {data : InitialRevisionData} {s : Db} :
    Isolated (createInitialRevision r data) [] id s anyResult := by
  simp only [createInitialRevision, bind_eq, select_bind]
  apply stable_query
  intro t _
  cases hg : t.goals.find? data.goalId with
  | none =>
    left
    simp only [id_eq, hg]
    exact .raise _
  | some goal =>
    right
    constructor
    · intro t' ht'
      have heq := rely_goal ht' hg
      simp only [id_eq, hg, heq]
    · simp only [id_eq, hg, lockProject, nextRevisionNumber, lockRow_bind, select_bind, stable_lock]
      intro t _
      apply stable_query
      intro t _
      right
      constructor
      · intro t' ht'
        have heq := rely_maxRevisionNumber ht' (p := goal.projectId) (by simp)
        simp only [id_eq, heq]
      · exact isolated_insertPlanRevision.bind_done

/-- The stale case of `create_successor_revision` and of the currency check only reads
before it raises. -/
theorem raises_stale {α : Type} {expected : Option Uuid} {g : Uuid} :
    Raises (query fun s : Db => (raise (.stalePlanRevisionError expected
      (s.currentRevisionId g) g) : PlanTxn α)) :=
  .query _ fun _ => .raise _

theorem isolated_createSuccessorRevision {r : Uuid} {data : SuccessorRevisionData} {s : Db}
    (hinv : Inv s) : Isolated (createSuccessorRevision r data) [] id s anyResult := by
  simp only [createSuccessorRevision, bind_eq, select_bind]
  apply stable_query
  intro t ht
  cases hg : t.goals.find? data.goalId with
  | none =>
    left
    simp only [id_eq, hg]
    exact .raise _
  | some goal =>
    right
    constructor
    · intro t' ht'
      have heq := rely_goal ht' hg
      simp only [id_eq, hg, heq]
    · simp only [id_eq, hg, lockProject, lockRow_bind, stable_lock]
      intro t₁ ht₁ t₂ ht₂
      apply stable_query
      intro t₃ ht₃
      have hrun := ((ht.trans ht₁).trans (ht₂.mono (by simp))).trans (ht₃.mono (by simp))
      have hgoal₃ := rely_goal ((ht₁.trans (ht₂.mono (by simp))).trans (ht₃.mono (by simp))) hg
      have hinv₃ : Inv t₃ := hrun.inv hinv
      cases hp : t₃.planRevisions.find? data.expectedCurrentRevisionId with
      | none =>
        left
        simp only [id_eq, hp]
        exact .raise _
      | some predecessor =>
        right
        constructor
        · intro t' ht'
          have heq := rely_revision_locked ht' (r := data.expectedCurrentRevisionId) (by simp)
          simp only [id_eq, heq]
        · simp only [id_eq, hp]
          by_cases hne : predecessor.goalId = data.goalId
          swap
          · rw [if_pos hne]
            trivial
          rw [if_neg (not_not.mpr hne)]
          -- the locked project is the predecessor's
          have hproj : predecessor.projectId = goal.projectId := by
            rcases hinv₃.revisions.goal _ _ hp with ⟨g', hg', hpr⟩
            rw [hne, hgoal₃] at hg'
            cases hg'
            exact hpr.symm
          apply stable_query
          intro t₄ ht₄
          cases hs : t₄.successorOf data.expectedCurrentRevisionId with
          | some x =>
            left
            simp only [id_eq, hs]
            exact raises_stale
          | none =>
            right
            constructor
            · intro t' ht'
              have heq := rely_successorOf ht' (p := data.expectedCurrentRevisionId) (by simp) hs
              simp only [id_eq, hs, heq]
            · simp only [id_eq, hs, nextRevisionNumber, select_bind]
              apply stable_query
              intro t₅ ht₅
              right
              constructor
              · intro t' ht'
                have heq := rely_maxRevisionNumber ht' (p := predecessor.projectId)
                  (by simp [hproj])
                simp only [id_eq, heq]
              · split_ifs
                · trivial
                · exact isolated_insertPlanRevision.bind_done

/-- The currency check, which holds the revision's lock from then on. -/
theorem isolated_confirmCurrentRevision {g r : Uuid} {L : List RowKey} {s : Db} :
    Isolated (confirmCurrentRevision g r) L id s fun _ L' w _ =>
      w = id ∧ L' = L ++ [.planRevision r] := by
  simp only [confirmCurrentRevision, bind_eq, lockRow_bind, select_bind, stable_lock]
  intro t _
  apply stable_query
  intro t _
  cases hr : t.planRevisions.find? r with
  | none =>
    left
    simp only [id_eq, hr]
    exact .raise _
  | some row =>
    right
    constructor
    · intro t' ht'
      have heq := rely_revision_locked ht' (r := r) (by simp)
      simp only [id_eq, heq]
    · simp only [id_eq, hr]
      by_cases hg : row.goalId = g
      swap
      · rw [if_pos hg]
        trivial
      rw [if_neg (not_not.mpr hg)]
      apply stable_query
      intro t _
      cases hs : t.successorOf r with
      | some x =>
        left
        simp only [id_eq, hs]
        exact raises_stale
      | none =>
        right
        constructor
        · intro t' ht'
          have heq := rely_successorOf ht' (p := r) (by simp) hs
          simp only [id_eq, hs, heq]
        · simp only [id_eq, hs]
          exact fun _ _ => ⟨rfl, rfl⟩

/-! ## Calls with a quiet reply -/

/-- `accept_revision` either moves the draft it locked or reports what it finds. -/
theorem stable_acceptRevision {r : Uuid} {s : Db} :
    Stable Inv Guarantee Quiet (program (.acceptRevision r)) [] id s fun _ _ _ _ => True := by
  simp only [program, acceptRevision, bind_eq, bind_assoc]
  apply stable_updateWhere_bind (fun _ => rfl)
  · intro L s t hl h
    exact rely_revision_locked h hl
  · intro s t h
    simp only [Table.find?_modify_self, h]
  · intro s h
    rw [Table.find?_modify_self, Option.isSome_map]
    exact Option.isSome_of_any h
  · simp only [select_bind, query_bind]
    refine .query _ fun s => ?_
    split
    · exact .done _ trivial
    · split_ifs
      · exact .done _ trivial
      · exact .raise _
  · intro x L w s
    simp only [pure_eq, done_bind]
    exact fun _ _ => trivial

/-- `mark_dispatch_published` answers yes only when it moved the row it locked. -/
theorem stable_markDispatchPublished {u : Uuid} {now : Time} {s : Db} :
    Stable Inv Guarantee Quiet (program (.markDispatchPublished u now)) [] id s
      fun _ _ _ _ => True := by
  simp only [program, markDispatchPublished, bind_eq, bind_assoc]
  apply stable_updateWhere_bind (fun _ => rfl)
  · intro L s t hl h
    exact rely_dispatch_locked h hl
  · intro s t h
    simp only [Table.find?_modify_self, h]
  · intro s h
    rw [Table.find?_modify_self, Option.isSome_map]
    exact Option.isSome_of_any h
  · exact .done _ rfl
  · intro x L w s
    exact fun _ _ => trivial

theorem stable_readGraph {r : Uuid} {s : Db} :
    Stable Inv Guarantee Quiet (program (.readGraph r)) [] id s fun _ _ _ _ => True := by
  apply ReadsOnly.stable _ fun _ => rfl
  simp only [program, readGraph, bind_eq, select_bind, query_bind]
  refine .query _ fun s => ?_
  cases s.planExecutionGraphs.find? r with
  | none => exact .done _ trivial
  | some g =>
    refine .query _ fun s => .query _ fun s => ?_
    dsimp only
    cases s.goalExecutionLineage.find? g.goalId with
    | none => exact .done _ trivial
    | some x => exact .done _ trivial

theorem isolated_setLifecycleState {w : Uuid} {st : String} {now : Time} {s : Db} :
    Isolated (setLifecycleState w st now) [] id s anyResult := by
  simp only [setLifecycleState, bind_eq, lockRow_bind, Txn.modify, stable_lock, stable_write]
  exact fun _ _ _ _ => trivial

end AiAgentsSwd.Planning
