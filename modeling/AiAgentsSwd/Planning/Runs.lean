import AiAgentsSwd.Planning.ResultIsolation

/-!
# Planning.Runs — any interleaving of workers is a serial history

Every call keeps the invariant, stays within the guarantee and is isolated, so the
machine's run theorem applies: the commits of a reachable system, in commit order, are runs
alone, and every database between two of them satisfies the invariant.

Main results:

- `exec_program`, `stable_program`: the two premises, call by call;
- `planning_serial`: the history of a reachable system;
- `commit_guarantee`: what one commit of it may have changed.
-/

namespace AiAgentsSwd.Planning

open Keyed (Table Evolves)
open ReadCommitted ReadCommitted.Txn

/-- Every call, run alone, keeps the invariant and stays within the guarantee. -/
theorem exec_program {c : Call} {s : Db} {o : Outcome Db RowKey Reply} (hinv : Inv s)
    (h : exec (program c) s = .ok o) : Inv o.state ∧ Guarantee o.locks s o.state := by
  cases c with
  | createGoal g d =>
    rcases exec_bind_ok.mp h with ⟨o₁, _, h₁, h₂, rfl⟩
    cases h₂
    simpa using And.intro (inv_createGoal h₁ hinv) (guarantee_createGoal h₁)
  | createInitialRevision r d =>
    rcases exec_bind_ok.mp h with ⟨o₁, _, h₁, h₂, rfl⟩
    cases h₂
    have hr := (exec_createInitialRevision h₁).1
    simpa using And.intro (hr.inv hinv) hr.guarantee
  | createSuccessorRevision r d =>
    rcases exec_bind_ok.mp h with ⟨o₁, _, h₁, h₂, rfl⟩
    cases h₂
    have hr := (exec_createSuccessorRevision hinv.revisions h₁).1
    simpa using And.intro (hr.inv hinv) hr.guarantee
  | acceptRevision r =>
    rcases exec_bind_ok.mp h with ⟨o₁, _, h₁, h₂, rfl⟩
    cases h₂
    simpa using And.intro (inv_acceptRevision h₁ hinv) (guarantee_acceptRevision h₁)
  | materialize g r b ids =>
    rcases exec_bind_ok.mp h with ⟨o₁, _, h₁, h₂, rfl⟩
    cases h₂
    rcases exec_materialize h₁ with ⟨m, plan, -, -, -, hm, -⟩
    simpa using And.intro (inv_materialize hinv h₁) hm.guarantee
  | readGraph r =>
    rcases exec_bind_ok.mp h with ⟨o₁, _, h₁, h₂, rfl⟩
    cases h₂
    rw [exec_readGraph h₁]
    exact ⟨hinv, Guarantee.refl _ _⟩
  | applyAssignment u d a i now =>
    rcases exec_bind_ok.mp h with ⟨o₁, _, h₁, h₂, rfl⟩
    cases h₂
    simpa using And.intro (inv_applyAssignment hinv h₁) (guarantee_applyAssignment h₁)
  | createDispatch u a c now =>
    rcases exec_bind_ok.mp h with ⟨o₁, _, h₁, h₂, rfl⟩
    cases h₂
    simpa using And.intro (inv_createDispatch hinv h₁) (guarantee_createDispatch h₁)
  | markDispatchPublished u now =>
    rcases exec_bind_ok.mp h with ⟨o₁, _, h₁, h₂, rfl⟩
    cases h₂
    simpa using And.intro (inv_markDispatchPublished hinv h₁) (guarantee_markDispatchPublished h₁)
  | recordResult u d r now =>
    rcases exec_bind_ok.mp h with ⟨o₁, _, h₁, h₂, rfl⟩
    cases h₂
    simpa using And.intro (inv_recordResult hinv h₁) (guarantee_recordResult hinv h₁)
  | setLifecycleState w st now =>
    rcases exec_bind_ok.mp h with ⟨o₁, _, h₁, h₂, rfl⟩
    cases h₂
    simpa using And.intro (inv_setLifecycleState hinv h₁) (guarantee_setLifecycleState h₁)

/-- Every call commits as if alone. -/
theorem stable_program {c : Call} {s : Db} (hinv : Inv s) :
    Stable Inv Guarantee Quiet (program c) [] id s fun _ _ _ _ => True := by
  cases c with
  | createGoal g d => exact isolated_createGoal.bind_done
  | createInitialRevision r d => exact isolated_createInitialRevision.bind_done
  | createSuccessorRevision r d => exact (isolated_createSuccessorRevision hinv).bind_done
  | acceptRevision r => exact stable_acceptRevision
  | materialize g r b ids => exact isolated_materialize.bind_done
  | readGraph r => exact stable_readGraph
  | applyAssignment u d a i now => exact isolated_applyAssignment.bind_done
  | createDispatch u a c now => exact stable_createDispatch
  | markDispatchPublished u now => exact stable_markDispatchPublished
  | recordResult u d r now => exact (isolated_recordResult hinv).bind_done
  | setLifecycleState w st now =>
    exact isolated_setLifecycleState.bind fun _ _ _ _ _ _ _ => trivial

/-- The empty planning tables satisfy the invariant. -/
theorem inv_initial {s : Db} (h : Initial s) : Inv s := by
  have hu : ∀ u x, s.planExecutionUnits.find? u ≠ some x := by
    simp [h.planExecutionUnits]
  have hr : ∀ r x, s.planRevisions.find? r ≠ some x := by
    simp [h.planRevisions]
  have hg : ∀ r x, s.planExecutionGraphs.find? r ≠ some x := by
    simp [h.planExecutionGraphs]
  have hl : ∀ g x, s.goalExecutionLineage.find? g ≠ some x := by
    simp [h.goalExecutionLineage]
  have hd : ∀ u d, s.planExecutionDispatches.find? u ≠ some d := by
    simp [h.planExecutionDispatches]
  refine ⟨⟨?_, ?_, ?_, ?_, ?_, ?_⟩, ⟨?_, ?_, h.edge_items, ?_, ?_, ?_, ?_, ?_, ?_, ?_,
    h.routing_items⟩, ?_, ⟨?_, ?_, ?_, ?_, ?_, ?_, ?_⟩⟩
  · exact fun r x hx => absurd hx (hr r x)
  · exact fun r x hx => absurd hx (hr r x)
  · exact fun r _ x _ hx => absurd hx (hr r x)
  · exact fun r x _ hx => absurd hx (hr r x)
  · exact fun r _ x _ hx => absurd hx (hr r x)
  · exact fun r x _ hx => absurd hx (hr r x)
  · exact fun u x hx => absurd hx (hu u x)
  · exact fun u _ x _ hx => absurd hx (hu u x)
  · exact fun u x _ hx => absurd hx (hu u x)
  · exact ⟨fun _ => 0, fun u x _ hx => absurd hx (hu u x)⟩
  · exact fun u x hx => absurd hx (hu u x)
  · exact fun r g hx => absurd hx (hg r g)
  · exact fun r g hx => absurd hx (hg r g)
  · exact fun g x hx => absurd hx (hl g x)
  · exact fun g x hx => absurd hx (hl g x)
  · exact fun u x hx => absurd hx (hu u x)
  · exact fun u x _ hx => absurd hx (hu u x)
  · exact fun u x hx => absurd hx (hu u x)
  · exact fun u x hx => absurd hx (hu u x)
  · exact fun u d hx => absurd hx (hd u d)
  · exact fun u x hx => absurd hx (hu u x)
  · exact fun u x hx => absurd hx (hu u x)
  · exact fun u x hx => absurd hx (hu u x)

section Runs

variable {ι : Type} [DecidableEq ι] {y : PlanSys ι}

/-- The run theorem at the planning system. -/
theorem planning_serial (hy : PlanReachable y) :
    ∃ s, Initial s ∧ Inv y.db ∧ History program Quiet s y.log y.db :=
  serial (fun _ _ _ => exec_program) (fun _ _ => stable_program)
    (fun s _ => Guarantee.refl [] s) (fun _ => inv_initial) hy

theorem inv_of_reachable (hy : PlanReachable y) : Inv y.db := by
  rcases planning_serial hy with ⟨_, _, h, _⟩
  exact h

/-- A commit of a history starts and ends in the invariant, within the guarantee. -/
theorem commit_guarantee {m : Commit Db Reply Call} (hm : m.Serial program Quiet)
    (hb : Inv m.before) : Inv m.after ∧ ∃ l, Guarantee l m.before m.after := by
  rcases hm with ⟨-, heq⟩ | ⟨l, hl⟩
  · rw [heq]
    exact ⟨hb, [], Guarantee.refl _ _⟩
  · have h := exec_program hb hl
    exact ⟨h.1, l, h.2⟩

/-- The invariant holds along a history. -/
theorem History.inv {s t : Db} {ms : List (Commit Db Reply Call)}
    (h : History program Quiet s ms t) (hs : Inv s) : Inv t :=
  h.keeps (fun _ _ _ hs ho => (exec_program hs ho).1) hs

/-- A commit of a reachable system is serial over a state of the invariant. -/
theorem commit_of_mem (hy : PlanReachable y) {m : Commit Db Reply Call} (hm : m ∈ y.log) :
    Inv m.before ∧ m.Serial program Quiet := by
  rcases planning_serial hy with ⟨s, hs, -, hh⟩
  rcases List.append_of_mem hm with ⟨ms, ns, heq⟩
  rw [heq] at hh
  rcases hh.commit with ⟨hb, hser, -⟩
  exact ⟨History.inv hb (inv_initial hs), hser⟩

end Runs

/-! ## A sample run -/

/-- A plan of three steps: the third waits for the other two. -/
def fanInPlan : Json.Value :=
  let step (key : String) (dependsOn : List String) : Json.Value :=
    .obj [("step_key", .str key), ("title", .str key), ("depends_on", .arr (dependsOn.map .str))]
  .obj [("objective", .str "ship"),
    ("steps", .arr [step "api" [], step "web" [], step "release" ["api", "web"]])]

/-- A database with one principal and nothing else. -/
def freshDb : Db where
  actorPrincipals := [⟨7⟩]
  goals := .empty
  planRevisions := .empty
  projectWorkItems := .empty
  workItemDependencies := []
  goalExecutionLineage := .empty
  planExecutionGraphs := .empty
  planExecutionUnits := .empty
  planExecutionDispatches := .empty
  agentRoutingDecisions := []
  workItemEvents := []

theorem initial_freshDb : Initial freshDb where
  goals := rfl
  planRevisions := rfl
  goalExecutionLineage := rfl
  planExecutionGraphs := rfl
  planExecutionUnits := rfl
  planExecutionDispatches := rfl
  edge_items := by
    rintro w d ⟨e, he, -⟩
    cases he
  routing_items := by
    intro rec hrec
    cases hrec

/-- The unit ids are 31 to 33, those of their work items 21 to 23. -/
def fanInIds : MaterializeIds where
  primaryWorkItemId := ⟨10⟩
  planExecutionGraphId := ⟨11⟩
  workItemId key := if key = "api" then ⟨21⟩ else if key = "web" then ⟨22⟩ else ⟨23⟩
  executionUnitId key := if key = "api" then ⟨31⟩ else if key = "web" then ⟨32⟩ else ⟨33⟩

def fanInDecision : RoutingDecision where
  outcome := .selected
  requestedCapability := "code"
  reason := "first eligible"
  selectedPrincipalId := some ⟨7⟩
  selectedAgentKey := some "dev"

/-- Both upstream steps are done, the second after a successor of the plan was inserted. -/
def fanInCalls : List Call := [
  .createGoal ⟨1⟩ { projectId := ⟨0⟩, statement := "ship", createdBy := ⟨7⟩ },
  .createInitialRevision ⟨2⟩ { goalId := ⟨1⟩, createdBy := ⟨7⟩, plan := fanInPlan },
  .acceptRevision ⟨2⟩,
  .materialize ⟨1⟩ ⟨2⟩ ⟨7⟩ fanInIds,
  .applyAssignment ⟨31⟩ fanInDecision none ⟨41⟩ 1,
  .createDispatch ⟨31⟩ none ⟨51⟩ 2,
  .markDispatchPublished ⟨31⟩ 3,
  .recordResult ⟨31⟩ .succeeded none 4,
  .applyAssignment ⟨32⟩ fanInDecision none ⟨42⟩ 5,
  .createDispatch ⟨32⟩ none ⟨52⟩ 6,
  .createSuccessorRevision ⟨3⟩
    { goalId := ⟨1⟩, expectedCurrentRevisionId := ⟨2⟩, createdBy := ⟨7⟩,
      reason := .scopeCorrection, plan := fanInPlan },
  .recordResult ⟨32⟩ .succeeded none 7]

/-- The system after the first `n` of these calls. -/
def fanIn (n : Nat) : PlanSys Unit := Sys.calls program freshDb (fanInCalls.take n)

theorem reachable_fanIn (n : Nat) : PlanReachable (fanIn n) :=
  reachable_calls initial_freshDb _

end AiAgentsSwd.Planning
