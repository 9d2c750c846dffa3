import AiAgentsSwd.Planning.System
import AiAgentsSwd.Keyed.Evolves

/-!
# Planning.Invariant — what every committed database satisfies, and what a commit may do

- `Lineage`: the plan revisions of a goal form a chain, and the revisions of a project are
  numbered without gaps;
- `Shape`: the structure of the execution graphs, which no transition of a unit changes;
- `Gate`: a unit is blocked exactly while one of its dependencies is not completed;
- `Books`: how the states of units, dispatches, routing decisions and mirrored work items
  fit together;
- `Guarantee l s t`: what a transaction that took the locks `l` may have changed.
-/

namespace AiAgentsSwd.Planning

open Keyed (Table Evolves)

/-! ## Revisions -/

/-- The revision chains and the numbering. -/
structure Lineage (s : Db) : Prop where
  goal : ∀ r x, s.planRevisions.find? r = some x →
    ∃ g, s.goals.find? x.goalId = some g ∧ g.projectId = x.projectId
  number_pos : ∀ r x, s.planRevisions.find? r = some x → 1 ≤ x.revisionNumber
  number_inj : ∀ r r' x x', s.planRevisions.find? r = some x → s.planRevisions.find? r' = some x' →
    x.projectId = x'.projectId → x.revisionNumber = x'.revisionNumber → r = r'
  number_dense : ∀ r x k, s.planRevisions.find? r = some x → 1 ≤ k → k ≤ x.revisionNumber →
    ∃ r' x', s.planRevisions.find? r' = some x' ∧ x'.projectId = x.projectId ∧
      x'.revisionNumber = k
  lineage_inj : ∀ r r' x x', s.planRevisions.find? r = some x →
    s.planRevisions.find? r' = some x' → lineageKey x = lineageKey x' → r = r'
  predecessor : ∀ r x p, s.planRevisions.find? r = some x → x.supersedesRevisionId = some p →
    ∃ y, s.planRevisions.find? p = some y ∧ y.goalId = x.goalId ∧
      y.revisionNumber < x.revisionNumber

/-! ## Execution graphs -/

/-- What a unit is: the columns its freeze trigger protects. -/
structure UnitIdentity where
  planExecutionGraphId : Uuid
  planRevisionId : Uuid
  stepKey : String
  projectId : Uuid
  goalId : Uuid
  workItemId : Uuid
  requiredCapabilities : List String
  expectedOutputs : List String
  intendedOwnerRole : Option String
deriving DecidableEq

def ExecutionUnit.identity (u : ExecutionUnit) : UnitIdentity :=
  ⟨u.planExecutionGraphId, u.planRevisionId, u.stepKey, u.projectId, u.goalId, u.workItemId,
    u.requiredCapabilities, u.expectedOutputs, u.intendedOwnerRole⟩

/-- The units of a revision's graph. -/
def Db.unitsOf (s : Db) (planRevisionId : Uuid) : List (Uuid × ExecutionUnit) :=
  s.planExecutionUnits.rows.filter fun e => e.2.planRevisionId = planRevisionId

/-- A materialized graph is that of its revision's plan. -/
def Db.Materialized (s : Db) (planRevisionId : Uuid) (g : ExecutionGraph) : Prop :=
  ∃ rev plan, s.planRevisions.find? planRevisionId = some rev ∧ rev.goalId = g.goalId ∧
    rev.status = .accepted ∧ planFromRevision rev = .ok plan ∧ g.stepCount = plan.steps.length ∧
    ((s.unitsOf planRevisionId).map fun e => e.2.stepKey).Perm (plan.steps.map PlanStep.stepKey)

/-- The structure of the graphs, which only materialization extends. -/
structure Shape (s : Db) : Prop where
  item : ∀ u x, s.planExecutionUnits.find? u = some x →
    (s.projectWorkItems.find? x.workItemId).isSome
  item_inj : ∀ u v x y, s.planExecutionUnits.find? u = some x →
    s.planExecutionUnits.find? v = some y → x.workItemId = y.workItemId → u = v
  edge_items : ∀ w d, s.DependsOn w d →
    (s.projectWorkItems.find? w).isSome ∧ (s.projectWorkItems.find? d).isSome
  edge_unit : ∀ u x d, s.planExecutionUnits.find? u = some x → s.DependsOn x.workItemId d →
    ∃ v y, s.planExecutionUnits.find? v = some y ∧ y.workItemId = d ∧
      y.planRevisionId = x.planRevisionId
  acyclic : ∃ rank : Uuid → Nat, ∀ u x d, s.planExecutionUnits.find? u = some x →
    s.DependsOn x.workItemId d → rank d < rank x.workItemId
  graph : ∀ u x, s.planExecutionUnits.find? u = some x →
    ∃ g, s.planExecutionGraphs.find? x.planRevisionId = some g ∧ g.goalId = x.goalId
  materialized : ∀ r g, s.planExecutionGraphs.find? r = some g → s.Materialized r g
  lineage : ∀ r g, s.planExecutionGraphs.find? r = some g →
    (s.goalExecutionLineage.find? g.goalId).isSome
  lineage_item : ∀ g x, s.goalExecutionLineage.find? g = some x →
    (s.projectWorkItems.find? x.primaryWorkItemId).isSome
  lineage_goal : ∀ g x, s.goalExecutionLineage.find? g = some x →
    ∃ goal, s.goals.find? g = some goal ∧ goal.projectId = x.projectId
  routing_items : ∀ rec ∈ s.agentRoutingDecisions, ∀ w, rec.workItemId = some w →
    (s.projectWorkItems.find? w).isSome

/-! ## States -/

/-- The work item carries a completed unit. -/
def Db.CompletedItem (s : Db) (w : Uuid) : Prop :=
  ∃ v y, s.planExecutionUnits.find? v = some y ∧ y.workItemId = w ∧ y.state = .completed

/-- Every dependency of the work item is completed. -/
def Db.Unlocked (s : Db) (w : Uuid) : Prop := ∀ d, s.DependsOn w d → s.CompletedItem d

/-- The selected routing decisions recorded for a work item. -/
def Db.selectedDecisions (s : Db) (w : Uuid) : List RoutingRecord :=
  s.agentRoutingDecisions.filter fun rec =>
    rec.workItemId = some w ∧ rec.decision.outcome = .selected

/-- The unit has been handed to a principal. -/
def UnitState.handedOver : UnitState → Bool
  | .dispatched | .completed | .failed => true
  | _ => false

/-- The unit waits for its dependencies or for an owner. -/
def UnitState.unowned : UnitState → Bool
  | .blocked | .ready => true
  | _ => false

/-- A dispatch is that of its unit. -/
def Dispatch.Of (d : Dispatch) (x : ExecutionUnit) : Prop :=
  x.assignedPrincipalId = some d.assignedPrincipalId ∧ x.assignedStream = some d.targetStream ∧
    x.routingDecisionId = d.routingDecisionId

/-- A unit is blocked exactly while one of its dependencies is not completed. -/
def Gate (s : Db) : Prop :=
  ∀ u x, s.planExecutionUnits.find? u = some x → (x.state = .blocked ↔ ¬ s.Unlocked x.workItemId)

/-- How the states fit together. -/
structure Books (s : Db) : Prop where
  mirrored : ∀ u x w, s.planExecutionUnits.find? u = some x →
    s.projectWorkItems.find? x.workItemId = some w → w.status = workItemStatusFor x.state
  live : ∀ u x, s.planExecutionUnits.find? u = some x → x.state ≠ .cancelled
  owned : ∀ u x, s.planExecutionUnits.find? u = some x → x.state.unowned = false →
    ∃ p st, x.assignedPrincipalId = some p ∧ x.assignedStream = some st
  dispatch_unit : ∀ u d, s.planExecutionDispatches.find? u = some d →
    ∃ x, s.planExecutionUnits.find? u = some x ∧ x.state.handedOver ∧ d.Of x
  unit_dispatch : ∀ u x, s.planExecutionUnits.find? u = some x → x.state.handedOver →
    ∃ d, s.planExecutionDispatches.find? u = some d
  unrouted : ∀ u x, s.planExecutionUnits.find? u = some x → x.state.unowned →
    s.selectedDecisions x.workItemId = []
  routed : ∀ u x, s.planExecutionUnits.find? u = some x → x.state.unowned = false →
    ∃ rec, s.selectedDecisions x.workItemId = [rec] ∧
      x.routingDecisionId = some rec.routingDecisionId

/-- The invariant of the committed database. -/
structure Inv (s : Db) : Prop where
  revisions : Lineage s
  shape : Shape s
  gate : Gate s
  books : Books s

/-! ## What a commit may change -/

/-- The same revision: at most accepted from draft. -/
def PlanRevision.Same (x y : PlanRevision) : Prop :=
  ∃ st, y = { x with status := st } ∧ (st = x.status ∨ (x.status = .draft ∧ st = .accepted))

/-- The same unit; a terminal one is untouched. -/
def ExecutionUnit.Same (x y : ExecutionUnit) : Prop :=
  y.identity = x.identity ∧ (x.state = .completed ∨ x.state = .failed → y = x)

/-- The same dispatch; `published_at` is write-once. -/
def Dispatch.Same (x y : Dispatch) : Prop :=
  ∃ p, y = { x with publishedAt := p } ∧ (x.publishedAt ≠ none → p = x.publishedAt)

/-- What a transaction that took the locks `l` may have done. -/
structure Guarantee (l : List RowKey) (s t : Db) : Prop where
  principals : t.actorPrincipals = s.actorPrincipals
  goals : Evolves RowKey.goal (fun x y => y = x) l s.goals t.goals
  revisions : Evolves RowKey.planRevision PlanRevision.Same l s.planRevisions t.planRevisions
  revision_new : ∀ r y, s.planRevisions.find? r = none → t.planRevisions.find? r = some y →
    .project y.projectId ∈ l ∧
    .uqPlanRevisionsProjectNumber y.projectId y.revisionNumber ∈ l ∧ lineageKey y ∈ l ∧
    ∀ p, y.supersedesRevisionId = some p → .planRevision p ∈ l
  items : Evolves RowKey.workItem (fun _ _ => True) l s.projectWorkItems t.projectWorkItems
  edges : ∃ new, t.workItemDependencies = s.workItemDependencies ++ new ∧
    ∀ d ∈ new, .workItem d.workItemId ∈ l ∧ s.projectWorkItems.find? d.workItemId = none
  lineages : Evolves RowKey.executionLineage (fun x y => y = x) l
    s.goalExecutionLineage t.goalExecutionLineage
  lineage_new : ∀ g y, s.goalExecutionLineage.find? g = none →
    t.goalExecutionLineage.find? g = some y → .project y.projectId ∈ l
  graphs : Evolves RowKey.executionGraph (fun x y => y = x) l
    s.planExecutionGraphs t.planExecutionGraphs
  graph_new : ∀ r y, s.planExecutionGraphs.find? r = none →
    t.planExecutionGraphs.find? r = some y → s.successorOf r = none
  units : Evolves RowKey.executionUnit ExecutionUnit.Same l
    s.planExecutionUnits t.planExecutionUnits
  unit_new : ∀ u y, s.planExecutionUnits.find? u = none → t.planExecutionUnits.find? u = some y →
    s.planExecutionGraphs.find? y.planRevisionId = none ∧
      s.projectWorkItems.find? y.workItemId = none
  assign : ∀ u x y, s.planExecutionUnits.find? u = some x → t.planExecutionUnits.find? u = some y →
    x.state = .ready → y.state ≠ .ready → s.successorOf x.planRevisionId = none
  complete : ∀ u x y, s.planExecutionUnits.find? u = some x →
    t.planExecutionUnits.find? u = some y → x.state ≠ .completed → y.state = .completed →
    ∀ c z, s.planExecutionUnits.find? c = some z → z.state = .blocked →
      s.DependsOn z.workItemId x.workItemId → .executionUnit c ∈ l
  dispatches : Evolves RowKey.dispatch Dispatch.Same l
    s.planExecutionDispatches t.planExecutionDispatches
  dispatch_new : ∀ u y, s.planExecutionDispatches.find? u = none →
    t.planExecutionDispatches.find? u = some y →
    .executionUnit u ∈ l ∧ ∃ x, s.planExecutionUnits.find? u = some x ∧
      y.planRevisionId = x.planRevisionId ∧ s.successorOf x.planRevisionId = none
  routing : s.agentRoutingDecisions <+: t.agentRoutingDecisions

theorem PlanRevision.Same.refl (x : PlanRevision) : x.Same x := ⟨x.status, rfl, Or.inl rfl⟩

theorem ExecutionUnit.Same.refl (x : ExecutionUnit) : x.Same x := ⟨rfl, fun _ => rfl⟩

theorem Dispatch.Same.refl (x : Dispatch) : x.Same x := ⟨x.publishedAt, rfl, fun _ => rfl⟩

/-- Doing nothing is within every guarantee. A call that writes some tables is the same
argument with the fields of those tables replaced. -/
theorem Guarantee.refl (l : List RowKey) (s : Db) : Guarantee l s s where
  principals := rfl
  goals := .refl fun _ => rfl
  revisions := .refl PlanRevision.Same.refl
  revision_new := by
    intro r y hn hy
    simp [hn] at hy
  items := .refl fun _ => trivial
  edges := ⟨[], by simp, by simp⟩
  lineages := .refl fun _ => rfl
  lineage_new := by
    intro g y hn hy
    simp [hn] at hy
  graphs := .refl fun _ => rfl
  graph_new := by
    intro r y hn hy
    simp [hn] at hy
  units := .refl ExecutionUnit.Same.refl
  unit_new := by
    intro u y hn hy
    simp [hn] at hy
  assign := by
    intro u x y hx hy hr hne
    rw [hx] at hy
    cases hy
    exact absurd hr hne
  complete := by
    intro u x y hx hy hne hc
    rw [hx] at hy
    cases hy
    exact absurd hc hne
  dispatches := .refl Dispatch.Same.refl
  dispatch_new := by
    intro u y hn hy
    simp [hn] at hy
  routing := List.prefix_refl _

end AiAgentsSwd.Planning
