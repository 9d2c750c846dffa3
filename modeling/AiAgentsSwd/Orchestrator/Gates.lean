import AiAgentsSwd.Orchestrator.AgentEvents

/-!
# Orchestrator.Gates — which agent events open a human gate

The pipeline's handlers decide on a stage without asking whether the workflow waits for a human.
Of all events only `qa.blocked_for_human_review`, and one whose counts cannot be read, leave a
gated workflow gated.
-/

namespace AiAgentsSwd.Orchestrator

/-- The stages in which a human has to act: the review, the approval and the stages at which
`team_blocked_node` parks. -/
def gates : List Stage := [.blockedForHumanReview, .waitingApproval, .blockedTeamUnavailable,
  .blockedRequiresHumanApproval, .blockedNoEligibleAgent]

/-- The row after an event. -/
def Outcome.row (w : Workflow) : Outcome → Workflow
  | .updates next => next
  | _ => w

/-- The row after `handle_event` for each of the events in turn. -/
def handleEvents (w : Workflow) (events : List AgentEvent) : Workflow :=
  events.foldl (fun w e => (advance w e).row w) w

/-- The event is the report of a block, or its handler raises. -/
def AgentEvent.keepsGate (e : AgentEvent) : Bool :=
  e.name == .qaBlockedForHumanReview || e.raises

/-- What a workflow that is not finished comes to by a handler of the later stages. -/
theorem settleAt_row {w : Workflow} {e : AgentEvent} {stage : Stage} {counts : Bool}
    (h : w.stage ≠ .completed) :
    ((settleAt w e stage counts).row w).stage =
      if counts && !e.countsParse then w.stage else stage := by
  unfold settleAt
  rw [if_neg h]
  by_cases hraises : (counts && !e.countsParse) = true
  · rw [if_pos hraises, if_pos hraises]
    rfl
  · rw [if_neg hraises, if_neg hraises]
    rfl

/-- The stage an event decides on, for a workflow that is neither finished nor terminated. -/
def AgentEvent.target (e : AgentEvent) : Stage :=
  match e.name with
  | .devopsDeploymentSimulated => .completed
  | .qaAutoFixRequested => .qaAutoFix
  | .qaBlockedForHumanReview => .blockedForHumanReview
  | .projectPlanningCompleted =>
    if orElse e.validationStatus "valid" = "invalid" then .planningFailed else .projectPlanned
  | .projectPlanningFailed => .planningFailed
  | .projectClarificationRequired => .projectClarificationRequired
  | .designReviewCompleted =>
    if orElse e.decision "planning_only" = "no_go" ∨
        orElse e.decision "planning_only" = "needs_clarification" then .designReviewBlocked
    else if orElse e.decision "planning_only" = "go_with_findings" then
      .designReviewedWithFindings
    else .designReviewed
  | .designReviewBlocked => .designReviewBlocked
  | .workspaceExecutionCompleted =>
    if e.status = "failed" then .workspaceExecutionFailed
    else if e.status = "tests_passed" ∨ e.testsStatus = "passed" then .workspaceTestsPassed
    else if e.status = "tests_failed" ∨ e.testsStatus = "failed" then .workspaceTestsFailed
    else .workspaceGenerated
  | .workspaceExecutionFailed => .workspaceExecutionFailed
  | .deliveryPilotCompleted =>
    if e.pilotStatus = "failed" ∨ e.pilotStatus = "blocked" then .miniDeliveryPilotFailed
    else .miniDeliveryPilotCompleted
  | .deliveryPilotFailed => .miniDeliveryPilotFailed
  | .deliveryPackageReadyForReview =>
    if e.packageStatus = "failed" ∨ e.packageStatus = "blocked" then .deliveryPackageFailed
    else .deliveryPackageReadyForReview
  | .deliveryPackageBuildFailed => .deliveryPackageFailed
  | _ => .inProgress

/-- **What an event does to the stage** of a workflow that is neither finished nor terminated. -/
theorem advance_stage {w : Workflow} {e : AgentEvent} (hcompleted : w.stage ≠ .completed)
    (hignored : ignoredStages.contains w.stage = false) :
    ((advance w e).row w).stage = if e.raises then w.stage else e.target := by
  unfold advance
  rw [if_neg (by rw [hignored]; exact nofun)]
  unfold AgentEvent.raises AgentEvent.target
  cases hname : e.name with
  | projectPlanningCompleted | projectPlanningFailed | projectClarificationRequired =>
    simp only [advanceProject, settleAt_row hcompleted, hname]
    rfl
  | designReviewCompleted | designReviewBlocked =>
    simp only [advanceDesignReview, settleAt_row hcompleted, hname]
    simp [EventName.readsCounts]
  | workspaceExecutionCompleted | workspaceExecutionFailed =>
    simp only [advanceWorkspace, settleAt_row hcompleted, hname]
    simp [EventName.readsCounts]
  | deliveryPilotCompleted | deliveryPilotFailed =>
    simp only [advanceDeliveryPilot, settleAt_row hcompleted, hname]
    simp [EventName.readsCounts]
  | deliveryPackageReadyForReview | deliveryPackageBuildFailed =>
    simp only [advanceDeliveryPackage, settleAt_row hcompleted, hname]
    simp [EventName.readsCounts]
  | qaAutoFixRequested =>
    simp only [advancePipeline, hname, if_neg hcompleted]
    cases e.countsParse <;> rfl
  | _ =>
    simp only [advancePipeline, hname, if_neg hcompleted]
    rfl

/-- Only a block is answered with a gate. -/
theorem target_mem_gates {e : AgentEvent} :
    e.target ∈ gates ↔ e.name = .qaBlockedForHumanReview := by
  unfold AgentEvent.target gates
  cases hname : e.name <;> simp only [] <;> repeat' split
  all_goals simp

/-- One event at a gate. -/
theorem gate_kept {w : Workflow} (h : w.stage ∈ gates) (e : AgentEvent) :
    ((advance w e).row w).stage ∈ gates ↔ e.keepsGate = true := by
  have hopen : ∀ stage ∈ gates, stage ≠ .completed ∧ ignoredStages.contains stage = false := by
    decide
  rcases hopen w.stage h with ⟨hcompleted, hignored⟩
  rw [advance_stage hcompleted hignored]
  unfold AgentEvent.keepsGate
  by_cases hraises : e.raises = true
  · rw [if_pos hraises, hraises, Bool.or_true]
    simp [h]
  · rw [if_neg hraises, target_mem_gates, Bool.eq_false_iff.mpr hraises, Bool.or_false,
      beq_iff_eq]

/-- A gated workflow stays gated throughout if and only if every event keeps the gate. -/
theorem gates_kept_iff {w : Workflow} (h : w.stage ∈ gates) (events : List AgentEvent) :
    (∀ n, (handleEvents w (events.take n)).stage ∈ gates) ↔
      ∀ e ∈ events, e.keepsGate = true := by
  induction events generalizing w with
  | nil => simp [handleEvents, h]
  | cons e events ih =>
    rw [List.forall_mem_cons]
    constructor
    · intro hall
      have hfirst : ((advance w e).row w).stage ∈ gates := hall 1
      refine ⟨(gate_kept h e).mp hfirst, (ih hfirst).mp fun n => ?_⟩
      exact hall (n + 1)
    · rintro ⟨hkeeps, hrest⟩ n
      have hfirst := (gate_kept h e).mpr hkeeps
      cases n with
      | zero => exact h
      | succ n => exact (ih hfirst).mpr hrest n

theorem blocks_keep_gate : (∀ n, (handleEvents { stage := .waitingApproval }
    (([{ name := .qaBlockedForHumanReview }] : List AgentEvent).take n)).stage ∈ gates) ↔
    ∀ e ∈ ([{ name := .qaBlockedForHumanReview }] : List AgentEvent), e.keepsGate = true :=
  gates_kept_iff (by decide) _

/-- A late report of the development agent opens the review. -/
theorem late_report_opens_gate : ¬∀ (w : Workflow) (events : List AgentEvent), w.stage ∈ gates →
    ∀ n, (handleEvents w (events.take n)).stage ∈ gates := by
  intro hall
  have hopened := hall { stage := .blockedForHumanReview } [{ name := .developmentCompleted }]
    (by decide) 1
  exact absurd hopened (by decide)

end AiAgentsSwd.Orchestrator
