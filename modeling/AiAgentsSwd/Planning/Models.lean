import AiAgentsSwd.Json.Basic
import AiAgentsSwd.Planning.DependencyValidator

/-!
# Planning.Models — plans, unit states and routing decisions

Model of the pure parts of `shared/sdk/agent_planning/models.py`,
`shared/sdk/plan_delegation/models.py` and the `RoutingDecision` of
`shared/sdk/agent_team/router.py`.

A `PlanContent` carries what its Pydantic validator guarantees: step keys are distinct and
every dependency names another step. What it does not guarantee, acyclicity, is what
`validate_plan_graph` adds (`validatePlanGraph_rank`).
-/

namespace AiAgentsSwd.Planning

open Json (Value field?)

/-! ## Identifiers -/

/-- A UUID, as its 128-bit value; PostgreSQL orders UUIDs by it. -/
structure Uuid where
  value : Nat
deriving Repr, DecidableEq

/-- The `k` last hexadecimal digits of `n`. -/
def hexDigits : Nat → Nat → List Char
  | 0, _ => []
  | k + 1, n => hexDigits k (n / 16) ++ [Nat.digitChar (n % 16)]

/-- `str(uuid)`. -/
instance : ToString Uuid where
  toString u :=
    let d := hexDigits 32 u.value
    String.ofList (d.take 8 ++ ['-'] ++ (d.drop 8).take 4 ++ ['-'] ++ (d.drop 12).take 4 ++ ['-'] ++
      (d.drop 16).take 4 ++ ['-'] ++ d.drop 20)

/-- A timestamp. -/
abbrev Time := Nat

/-! ## Vocabularies -/

/-- `PlanRevisionStatus`. -/
inductive PlanRevisionStatus where
  | draft
  | proposed
  | accepted
  | rejected
deriving Repr, DecidableEq

instance : ToString PlanRevisionStatus where
  toString
    | .draft => "draft"
    | .proposed => "proposed"
    | .accepted => "accepted"
    | .rejected => "rejected"

/-- `PlanRevisionReason`. -/
inductive PlanRevisionReason where
  | initial
  | goalChanged
  | clarificationAnswered
  | teamDecision
  | debugPlanInvalid
  | dependencyDiscovered
  | scopeCorrection
  | blockedResolution
deriving Repr, DecidableEq

/-- `GoalStatus`. -/
inductive GoalStatus where
  | draft
  | active
  | achieved
  | abandoned
deriving Repr, DecidableEq

/-- `UNIT_STATES`. -/
inductive UnitState where
  | blocked
  | ready
  | assigned
  | dispatched
  | completed
  | failed
  | cancelled
deriving Repr, DecidableEq

instance : ToString UnitState where
  toString
    | .blocked => "blocked"
    | .ready => "ready"
    | .assigned => "assigned"
    | .dispatched => "dispatched"
    | .completed => "completed"
    | .failed => "failed"
    | .cancelled => "cancelled"

/-- `project_work_items.status`. -/
inductive WorkItemStatus where
  | pending
  | ready
  | inProgress
  | blocked
  | review
  | completed
  | failed
  | cancelled
deriving Repr, DecidableEq

instance : ToString WorkItemStatus where
  toString
    | .pending => "pending"
    | .ready => "ready"
    | .inProgress => "in_progress"
    | .blocked => "blocked"
    | .review => "review"
    | .completed => "completed"
    | .failed => "failed"
    | .cancelled => "cancelled"

/-- `DISPOSITIONS`. -/
inductive Disposition where
  | succeeded
  | failed
deriving Repr, DecidableEq

instance : ToString Disposition where
  toString
    | .succeeded => "succeeded"
    | .failed => "failed"

/-- `work_item_status_for(unit_state)`. -/
def workItemStatusFor : UnitState → WorkItemStatus
  | .blocked => .blocked
  | .ready => .ready
  | .assigned => .ready
  | .dispatched => .inProgress
  | .completed => .completed
  | .failed => .failed
  | .cancelled => .cancelled

/-! ## Plans -/

/-- `PlanStep`. -/
structure PlanStep where
  stepKey : String
  title : String
  description : Option String := none
  requiredCapabilities : List String := []
  expectedOutputs : List String := []
  dependsOn : List String := []
  constraints : List String := []
  intendedOwnerRole : Option String := none
deriving Repr, DecidableEq

/-- `PlanContent`. The last two fields are what `_validate_structure` leaves true. -/
structure PlanContent where
  objective : String
  steps : List PlanStep
  constraints : List String
  acceptanceCriteria : List String
  nodup : (steps.map PlanStep.stepKey).Nodup
  known : ∀ s ∈ steps, ∀ d ∈ s.dependsOn, d ∈ steps.map PlanStep.stepKey ∧ d ≠ s.stepKey

/-- `PlanStepDraftError`. -/
inductive PlanStepDraftError where
  /-- `duplicate step_key(s): {duplicates}` -/
  | duplicateStepKeys (duplicates : List String)
  /-- `step '{step_key}' depends on unknown step(s): {unknown}` -/
  | unknownDependencies (stepKey : String) (unknown : List String)
  /-- `step '{step_key}' depends on itself` -/
  | selfDependency (stepKey : String)
deriving Repr, DecidableEq

/-- `PlanContent._validate_structure`. -/
def validateStructure (steps : List PlanStep) : Option PlanStepDraftError :=
  let keys := steps.map PlanStep.stepKey
  let duplicates := (keys.filter fun key => 1 < keys.count key).dedup.insertionSort (· ≤ ·)
  if ¬ keys.Nodup then some (.duplicateStepKeys duplicates)
  else
    steps.findSome? fun step =>
      let unknown := (step.dependsOn.filter (· ∉ keys)).dedup.insertionSort (· ≤ ·)
      if ∃ d ∈ step.dependsOn, d ∉ keys then some (.unknownDependencies step.stepKey unknown)
      else if step.stepKey ∈ step.dependsOn then some (.selfDependency step.stepKey)
      else none

theorem validateStructure_nodup {steps : List PlanStep} (h : validateStructure steps = none) :
    (steps.map PlanStep.stepKey).Nodup := by
  by_contra hne
  simp [validateStructure, hne] at h

theorem validateStructure_known {steps : List PlanStep} (h : validateStructure steps = none) :
    ∀ s ∈ steps, ∀ d ∈ s.dependsOn, d ∈ steps.map PlanStep.stepKey ∧ d ≠ s.stepKey := by
  intro s hs d hd
  have hnd := validateStructure_nodup h
  unfold validateStructure at h
  rw [if_neg (not_not.mpr hnd), List.findSome?_eq_none_iff] at h
  have hstep := h s hs
  by_cases hunk : ∃ d ∈ s.dependsOn, d ∉ steps.map PlanStep.stepKey
  · simp only [hunk, if_true, reduceCtorEq] at hstep
  · rw [if_neg hunk] at hstep
    refine ⟨by_contra fun hne => hunk ⟨d, hd, hne⟩, ?_⟩
    rintro rfl
    rw [if_pos hd] at hstep
    cases hstep

def MAX_PLAN_STEPS := 40
def MAX_STEP_DEPENDENCIES := 10
def MAX_STEP_CAPABILITIES := 10
def MAX_STEP_EXPECTED_OUTPUTS := 10
def MAX_STEP_CONSTRAINTS := 10

/-- What `parse_plan` raises. -/
inductive PlanParseError where
  /-- `PlanStepDraftError` -/
  | draft (e : PlanStepDraftError)
  /-- Pydantic's own `ValidationError`: the place is the field that failed. -/
  | validation (place : String)
deriving Repr, DecidableEq

/-- A value of the closed schema: an object with no member outside `allowed`. -/
def closedObject (place : String) (allowed : List String) :
    Value → Except PlanParseError (List (String × Value))
  | .obj members =>
    if members.all fun m => m.1 ∈ allowed then .ok members else .error (.validation place)
  | _ => .error (.validation place)

/-- A `str` field with `min_length` and `max_length`. -/
def strField (place : String) (minLength maxLength : Nat) :
    Option Value → Except PlanParseError String
  | some (.str s) =>
    if minLength ≤ s.length ∧ s.length ≤ maxLength then .ok s else .error (.validation place)
  | _ => .error (.validation place)

/-- A `str | None = None` field with `max_length`. -/
def optStrField (place : String) (maxLength : Nat) :
    Option Value → Except PlanParseError (Option String)
  | none | some .null => .ok none
  | some (.str s) => if s.length ≤ maxLength then .ok (some s) else .error (.validation place)
  | _ => .error (.validation place)

/-- A `tuple[str, ...] = ()` field, with or without `max_length`. -/
def strTupleField (place : String) (maxLength : Option Nat) :
    Option Value → Except PlanParseError (List String)
  | none => .ok []
  | some (.arr items) =>
    if ∀ m ∈ maxLength, items.length ≤ m then
      items.mapM fun
        | .str s => .ok s
        | _ => .error (.validation place)
    else .error (.validation place)
  | _ => .error (.validation place)

/-- `PlanStep.model_validate(payload)`. -/
def parsePlanStep (payload : Value) : Except PlanParseError PlanStep := do
  let m ← closedObject "steps" ["step_key", "title", "description", "required_capabilities",
    "expected_outputs", "depends_on", "constraints", "intended_owner_role"] payload
  let stepKey ← strField "steps.step_key" 1 120 (field? m "step_key")
  let title ← strField "steps.title" 1 300 (field? m "title")
  let description ← optStrField "steps.description" 4000 (field? m "description")
  let requiredCapabilities ← strTupleField "steps.required_capabilities"
    (some MAX_STEP_CAPABILITIES) (field? m "required_capabilities")
  let expectedOutputs ← strTupleField "steps.expected_outputs"
    (some MAX_STEP_EXPECTED_OUTPUTS) (field? m "expected_outputs")
  let dependsOn ← strTupleField "steps.depends_on"
    (some MAX_STEP_DEPENDENCIES) (field? m "depends_on")
  let constraints ← strTupleField "steps.constraints"
    (some MAX_STEP_CONSTRAINTS) (field? m "constraints")
  let intendedOwnerRole ← optStrField "steps.intended_owner_role" 100
    (field? m "intended_owner_role")
  return ⟨stepKey, title, description, requiredCapabilities, expectedOutputs, dependsOn,
    constraints, intendedOwnerRole⟩

/-- The `steps` field. -/
def stepsField : Option Value → Except PlanParseError (List PlanStep)
  | none => .ok []
  | some (.arr items) =>
    if items.length ≤ MAX_PLAN_STEPS then items.mapM parsePlanStep
    else .error (.validation "steps")
  | _ => .error (.validation "steps")

/-- `parse_plan(payload)`. The key screen `assert_content_is_safe` reads only member names,
and the schema is closed over names it lets through, so it never raises here. -/
def parsePlan (payload : Value) : Except PlanParseError PlanContent := do
  let m ← closedObject "" ["objective", "steps", "constraints", "acceptance_criteria"] payload
  let objective ← strField "objective" 1 2000 (field? m "objective")
  let steps ← stepsField (field? m "steps")
  let constraints ← strTupleField "constraints" none (field? m "constraints")
  let acceptanceCriteria ← strTupleField "acceptance_criteria" none
    (field? m "acceptance_criteria")
  match h : validateStructure steps with
  | some e => .error (.draft e)
  | none =>
    return ⟨objective, steps, constraints, acceptanceCriteria, validateStructure_nodup h,
      validateStructure_known h⟩

/-! ## `validate_plan_graph` -/

/-- `plan_dependency_edges(plan)`. -/
def planDependencyEdges (plan : PlanContent) : List (String × String) :=
  plan.steps.flatMap fun step => step.dependsOn.map fun parent => (step.stepKey, parent)

/-- `_as_task_graph(plan)`. -/
def asTaskGraph (plan : PlanContent) : TaskGraph where
  projectType := "plan_revision"
  template := "at_m3_5_runtime"
  workItems := plan.steps.map fun step => ⟨step.stepKey, step.title⟩
  dependencies := (planDependencyEdges plan).map fun e =>
    { workItemKey := e.1, dependsOnWorkItemKey := e.2 }

/-- `root_step_keys(plan)`. -/
def rootStepKeys (plan : PlanContent) : List String :=
  (plan.steps.filter fun step => step.dependsOn = []).map PlanStep.stepKey

/-- `PlanGraphInvalidError`. -/
inductive PlanGraphInvalidError where
  /-- `the plan declares no steps, so it materializes no executable work` -/
  | noSteps
  /-- `the plan's dependency graph is not executable: {errors}` -/
  | notExecutable (errors : List GraphError)
  /-- `every step depends on another, so no step can ever become ready` -/
  | noRoot
deriving Repr, DecidableEq

/-- `validate_plan_graph(plan)`. -/
def validatePlanGraph (plan : PlanContent) : Except PlanGraphInvalidError Unit :=
  if plan.steps = [] then .error .noSteps
  else
    let result := validateDependencies (asTaskGraph plan)
    if result.status = .invalid then .error (.notExecutable result.errors)
    else if rootStepKeys plan = [] then .error .noRoot
    else .ok ()

/-- An accepted plan has a step, and a rank that every dependency lowers. -/
theorem validatePlanGraph_rank {plan : PlanContent} (h : validatePlanGraph plan = .ok ()) :
    plan.steps ≠ [] ∧
      ∃ r : String → Nat, ∀ s ∈ plan.steps, ∀ d ∈ s.dependsOn, r d < r s.stepKey := by
  unfold validatePlanGraph at h
  dsimp only at h
  split_ifs at h with hsteps hstatus
  refine ⟨hsteps, ?_⟩
  obtain ⟨r, hr⟩ := validateDependencies_rank hstatus
  refine ⟨r, fun s hs d hd => ?_⟩
  have hedge : (⟨s.stepKey, d, "blocks"⟩ : WorkItemDependency) ∈
      (asTaskGraph plan).dependencies := by
    refine List.mem_map.mpr ⟨(s.stepKey, d), ?_, rfl⟩
    exact List.mem_flatMap.mpr ⟨s, hs, List.mem_map.mpr ⟨d, hd, rfl⟩⟩
  exact (hr _ hedge).2.2

/-! ## Routing decisions -/

/-- The outcomes of the AT-M2 router. -/
inductive RoutingOutcome where
  | selected
  | noEligibleAgent
  | requiresHumanApproval
deriving Repr, DecidableEq

/-- `RoutingDecision`. The considered set is evidence no transaction reads. -/
structure RoutingDecision where
  outcome : RoutingOutcome
  requestedCapability : String
  reason : String
  selectedPrincipalId : Option Uuid := none
  selectedRole : Option String := none
  selectedAgentKey : Option String := none
  selectedStream : Option String := none
deriving Repr, DecidableEq

/-- `unavailable_reason_for(decision)`. -/
def unavailableReasonFor (decision : RoutingDecision) : Option String :=
  match decision.outcome with
  | .selected => none
  | .noEligibleAgent => some "capability_unavailable"
  | .requiresHumanApproval => some "requires_human_approval"

/-! ## The delegation stream -/

def DELEGATION_STREAM_PREFIX := "stream.plan_delegation"

/-- A character of `[A-Za-z0-9._-]`. -/
def isSafeKeyChar (c : Char) : Bool :=
  ('A' ≤ c ∧ c ≤ 'Z') ∨ ('a' ≤ c ∧ c ≤ 'z') ∨ ('0' ≤ c ∧ c ≤ '9') ∨ c = '.' ∨ c = '_' ∨ c = '-'

/-- `_SAFE_AGENT_KEY.match`: `^[A-Za-z0-9._-]{1,100}$`, where `$` also matches before one
final newline. -/
def isSafeAgentKey (agentKey : String) : Bool :=
  let cs := agentKey.toList
  let body := if cs.getLast? = some '\n' then cs.dropLast else cs
  1 ≤ body.length ∧ body.length ≤ 100 ∧ body.all isSafeKeyChar

/-- `delegation_stream_for(agent_key)`: `none` is a `DispatchTransportError`. -/
def delegationStreamFor (agentKey : String) : Option String :=
  if isSafeAgentKey agentKey then some s!"{DELEGATION_STREAM_PREFIX}.{agentKey}" else none

/-- `length(btrim(x)) > 0`, the CHECK the tables put on required texts. -/
def btrimNonempty (x : String) : Bool := x.toList.any (· ≠ ' ')

end AiAgentsSwd.Planning
