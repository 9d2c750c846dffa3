import AiAgentsSwd.Planning.Schema

/-!
# Planning.PlanningStore — goals and plan revisions

Model of `shared/sdk/agent_planning/store.py`. The ids a call inserts under
(`uuid_generate_v4()` in the schema) are arguments of the call; the primary key check makes
a used one raise.

`_safe_json` screens the key names of a payload and raises on a forbidden one; a
transaction may raise at any point in any case, so the screen is left out.
-/

namespace AiAgentsSwd.Planning

open Keyed (Table)
open ReadCommitted ReadCommitted.Txn

/-! ## Goals -/

/-- The argument of `create_goal`. -/
structure GoalData where
  projectId : Uuid
  statement : String
  acceptanceCriteria : List String := []
  constraints : List String := []
  createdBy : Uuid
  status : GoalStatus := .draft
  auditRef : Option String := none

/-- `create_goal(data)`. -/
def createGoal (goalId : Uuid) (data : GoalData) : PlanTxn Goal := do
  lockRow (.goal goalId)
  if (← select fun s => s.goals.find? goalId).isSome then
    raise (.uniqueViolation "goals_pkey")
  else do
    let row : Goal :=
      { projectId := data.projectId
        statement := data.statement
        acceptanceCriteria := data.acceptanceCriteria
        constraints := data.constraints
        createdBy := data.createdBy
        status := data.status
        auditRef := data.auditRef }
    modify fun s => { s with goals := s.goals.insert goalId row }
    return row

/-! ## Reads of the lineage -/

/-- `SELECT max(revision_number) FROM plan_revisions WHERE project_id=$1`, 0 for none. -/
def Db.maxRevisionNumber (s : Db) (projectId : Uuid) : Nat :=
  ((s.planRevisions.rows.filter fun e => e.2.projectId = projectId).map
    fun e => e.2.revisionNumber).foldr max 0

/-- `SELECT plan_revision_id FROM plan_revisions WHERE supersedes_revision_id=$1`. -/
def Db.successorOf (s : Db) (planRevisionId : Uuid) : Option Uuid :=
  (s.planRevisions.rows.find? fun e => e.2.supersedesRevisionId = some planRevisionId).map Prod.fst

/-- The rows `_current_revision` selects: revisions of the goal that nothing supersedes. -/
def Db.currentRevisions (s : Db) (goalId : Uuid) : List (Uuid × PlanRevision) :=
  s.planRevisions.rows.filter fun e => e.2.goalId = goalId ∧ s.successorOf e.1 = none

/-- `_current_revision_id(conn, goal_id)`. -/
def Db.currentRevisionId (s : Db) (goalId : Uuid) : Option Uuid :=
  (s.currentRevisions goalId).head?.map Prod.fst

/-- `get_current_revision(goal_id)`. -/
def Db.getCurrentRevision (s : Db) (goalId : Uuid) : Option (Uuid × PlanRevision) :=
  (s.currentRevisions goalId).head?

/-- `_lock_project(conn, project_id)`. -/
def lockProject (projectId : Uuid) : PlanTxn Unit := lockRow (.project projectId)

/-- `_next_revision_number(conn, project_id)`. -/
def nextRevisionNumber (projectId : Uuid) : PlanTxn Nat :=
  select fun s => s.maxRevisionNumber projectId + 1

/-! ## Inserting a revision -/

def ROOT_PER_GOAL := "uq_plan_revisions_one_root_per_goal"
def ONE_SUCCESSOR := "uq_plan_revisions_one_successor"
def PROJECT_NUMBER := "uq_plan_revisions_project_number"

/-- `_unique_violation_meaning(exc, goal_id, expected, number)`. -/
def uniqueViolationMeaning (goalId : Uuid) (expected : Option Uuid) (number : Nat)
    (name : String) : Exn :=
  if name = ROOT_PER_GOAL then
    .planLineageError s!"goal {goalId} already has an initial revision"
  else if name = ONE_SUCCESSOR then .stalePlanRevisionError expected none goalId
  else if name = PROJECT_NUMBER then
    .planRevisionAllocationError (s!"revision number {number} was already taken for this project " ++
      "while its row was locked; the per-project allocator's serialization point did not hold")
  else .uniqueViolation name

/-- The entry of the partial unique index a revision falls under. -/
def lineageKey (row : PlanRevision) : RowKey :=
  match row.supersedesRevisionId with
  | none => .uqPlanRevisionsOneRootPerGoal row.goalId
  | some p => .uqPlanRevisionsOneSuccessor p

/-- The first unique constraint a new revision would violate. -/
def Db.revisionConflict (s : Db) (planRevisionId : Uuid) (row : PlanRevision) : Option String :=
  if (s.planRevisions.find? planRevisionId).isSome then some "plan_revisions_pkey"
  else if s.planRevisions.rows.any fun e =>
      e.2.projectId = row.projectId ∧ e.2.revisionNumber = row.revisionNumber then
    some PROJECT_NUMBER
  else if s.planRevisions.rows.any fun e => lineageKey e.2 = lineageKey row then
    some (if row.supersedesRevisionId.isSome then ONE_SUCCESSOR else ROOT_PER_GOAL)
  else none

/-- `INSERT INTO plan_revisions …`, with `meaning` for a unique violation. -/
def insertPlanRevision (planRevisionId : Uuid) (row : PlanRevision) (meaning : String → Exn) :
    PlanTxn Unit := do
  lockRow (.planRevision planRevisionId)
  lockRow (.uqPlanRevisionsProjectNumber row.projectId row.revisionNumber)
  lockRow (lineageKey row)
  match ← select fun s => s.revisionConflict planRevisionId row with
  | some name => raise (meaning name)
  | none => modify fun s => { s with planRevisions := s.planRevisions.insert planRevisionId row }

/-- The argument of `create_initial_revision`. -/
structure InitialRevisionData where
  goalId : Uuid
  createdBy : Uuid
  status : PlanRevisionStatus := .draft
  plan : Json.Value
  traceRef : Option String := none
  auditRef : Option String := none

/-- `create_initial_revision(data)`. -/
def createInitialRevision (planRevisionId : Uuid) (data : InitialRevisionData) :
    PlanTxn PlanRevision := do
  match ← select fun s => s.goals.find? data.goalId with
  | none => raise (.planLineageError s!"unknown goal {data.goalId}")
  | some goal => do
    lockProject goal.projectId
    let number ← nextRevisionNumber goal.projectId
    let row : PlanRevision :=
      { projectId := goal.projectId
        goalId := data.goalId
        revisionNumber := number
        createdBy := data.createdBy
        reason := .initial
        supersedesRevisionId := none
        status := data.status
        plan := data.plan
        diff := .obj []
        traceRef := data.traceRef
        auditRef := data.auditRef }
    insertPlanRevision planRevisionId row (uniqueViolationMeaning data.goalId none number)
    return row

/-- The argument of `create_successor_revision`. -/
structure SuccessorRevisionData where
  goalId : Uuid
  expectedCurrentRevisionId : Uuid
  createdBy : Uuid
  reason : PlanRevisionReason
  status : PlanRevisionStatus := .draft
  plan : Json.Value
  diff : Json.Value := .obj []
  traceRef : Option String := none
  auditRef : Option String := none

/-- `create_successor_revision(data)`. -/
def createSuccessorRevision (planRevisionId : Uuid) (data : SuccessorRevisionData) :
    PlanTxn PlanRevision := do
  match ← select fun s => s.goals.find? data.goalId with
  | none => raise (.planLineageError s!"unknown goal {data.goalId}")
  | some goal => do
    lockProject goal.projectId
    lockRow (.planRevision data.expectedCurrentRevisionId)
    match ← select fun s => s.planRevisions.find? data.expectedCurrentRevisionId with
    | none =>
      raise (.planLineageError s!"unknown predecessor revision {data.expectedCurrentRevisionId}")
    | some predecessor =>
      if predecessor.goalId ≠ data.goalId then
        raise (.planLineageError (s!"predecessor revision {data.expectedCurrentRevisionId} belongs " ++
          s!"to goal {predecessor.goalId}, not {data.goalId}"))
      else do
        match ← select fun s => s.successorOf data.expectedCurrentRevisionId with
        | some _ => do
          let actual ← select fun s => s.currentRevisionId data.goalId
          raise (.stalePlanRevisionError (some data.expectedCurrentRevisionId) actual data.goalId)
        | none => do
          let number ← nextRevisionNumber predecessor.projectId
          let row : PlanRevision :=
            { projectId := predecessor.projectId
              goalId := data.goalId
              revisionNumber := number
              createdBy := data.createdBy
              reason := data.reason
              supersedesRevisionId := some data.expectedCurrentRevisionId
              status := data.status
              plan := data.plan
              diff := data.diff
              traceRef := data.traceRef
              auditRef := data.auditRef }
          -- a successor may not claim the reason of a root
          if data.reason = .initial then
            raise (.checkViolation "chk_plan_revisions_initial_is_root")
          else do
            insertPlanRevision planRevisionId row (uniqueViolationMeaning data.goalId
              (some data.expectedCurrentRevisionId) number)
            return row

/-! ## Lifecycle and currency -/

/-- `accept_revision(plan_revision_id)`. Its two statements are two transactions when it
opens its own connection; the first then wrote nothing, so one transaction says the same. -/
def acceptRevision (planRevisionId : Uuid) : PlanTxn (Option PlanRevision) := do
  let row ← updateWhere (.planRevision planRevisionId)
    (fun s => s.planRevisions.find? planRevisionId) (fun r => r.status = .draft)
    fun s => { s with
      planRevisions := s.planRevisions.modify planRevisionId fun r => { r with status := .accepted } }
  match row with
  | some row => return some row
  | none => do
    match ← select fun s => s.planRevisions.find? planRevisionId with
    | none => return none
    | some current =>
      if current.status = .accepted then return some current
      else
        raise (.planRevisionLifecycleError (s!"revision {planRevisionId} is '{current.status}'; " ++
          "the only authorized lifecycle transition is draft -> accepted"))

/-- `confirm_current_revision(goal_id, expected_revision_id)`. -/
def confirmCurrentRevision (goalId expectedRevisionId : Uuid) : PlanTxn PlanRevision := do
  lockRow (.planRevision expectedRevisionId)
  match ← select fun s => s.planRevisions.find? expectedRevisionId with
  | none => raise (.planLineageError s!"unknown revision {expectedRevisionId}")
  | some row =>
    if row.goalId ≠ goalId then
      raise (.planLineageError
        s!"revision {expectedRevisionId} belongs to goal {row.goalId}, not {goalId}")
    else do
      match ← select fun s => s.successorOf expectedRevisionId with
      | some _ => do
        let actual ← select fun s => s.currentRevisionId goalId
        raise (.stalePlanRevisionError (some expectedRevisionId) actual goalId)
      | none => return row

end AiAgentsSwd.Planning
