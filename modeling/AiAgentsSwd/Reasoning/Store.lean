import AiAgentsSwd.Json.Dumps
import AiAgentsSwd.Planning.Models

/-!
# Reasoning.Store — the durable row of an invocation and its five writes

Model of `shared/sdk/agent_reasoning/store.py` over `reasoning_invocations`
(`037`, `040`, `044`), for one `correlation_id`. Every method is one atomic statement, run at
the time `now` of the database clock, followed at most by a plain read.

Each write either leaves the row alone or makes one of the moves of `Moves`; `Moves` is
what the other modules know of the writes.
-/

namespace AiAgentsSwd.Reasoning

open Json (Value)
open Planning (Uuid)

/-! ## Vocabulary -/

/-- `ReasoningVerb`. -/
inductive Verb where
  | propose
  | critique
  | summarizeDecision
  | decomposePlan
deriving DecidableEq

/-- `ARTIFACT_TYPE_FOR_VERB`, by class name. -/
def artifactTypeForVerb : Verb → String
  | .propose => "ProposalArtifact"
  | .critique => "CritiqueArtifact"
  | .summarizeDecision => "DecisionSummaryArtifact"
  | .decomposePlan => "PlanDraftArtifact"

theorem artifactTypeForVerb_inj {v w : Verb} (h : artifactTypeForVerb v = artifactTypeForVerb w) :
    v = w := by
  cases v <;> cases w <;> first | rfl | (exact absurd h (by decide))

/-- `FailureCategory`. -/
inductive FailureCategory where
  | providerDisabled
  | providerUnauthorized
  | malformedOutput
  | contentSafetyRejected
  | providerUnavailable
  | providerTimeout
  | rateLimited
  | budgetExceeded
deriving DecidableEq

/-- `RETRYABLE_FAILURE_CATEGORIES`. -/
def retryableFailureCategories : List FailureCategory :=
  [.providerTimeout, .rateLimited, .providerUnavailable]

/-- `InvocationStatus`. -/
inductive InvocationStatus where
  | started
  | succeeded
  | failed
deriving DecidableEq

/-- The members of a JSON object. -/
abbrev Payload := List (String × Value)

/-- The columns of `reasoning_invocations` that decide its lifecycle. -/
structure Invocation where
  invocationId : Uuid
  reasoningVerb : Verb
  status : InvocationStatus
  failureCategory : Option FailureCategory
  failureReason : Option String
  artifactType : Option String
  artifact : Option Payload
  attempt : Nat
  attemptToken : Uuid
  leaseExpiresAt : Option Int

/-- The settings of `ReasoningInvocationStore`. The service runs with
`DEFAULT_MAX_ATTEMPTS = 3`; no budget of attempts is empty. -/
structure StoreConfig where
  leaseTtlSeconds : Int
  maxAttempts : Nat
  one_le_maxAttempts : 1 ≤ maxAttempts
  sanitizeFailureReason : Option String → Option String

/-- The status of an attempt that ended. -/
inductive TerminalStatus where
  | succeeded
  | failed
deriving DecidableEq

def TerminalStatus.toStatus : TerminalStatus → InvocationStatus
  | .succeeded => .succeeded
  | .failed => .failed

/-- The terminal outcome `complete_invocation` is given. -/
structure Terminal where
  status : TerminalStatus
  failureCategory : Option FailureCategory
  failureReason : Option String
  artifactType : Option String
  artifact : Option Payload

/-! ## The writes -/

variable (cfg : StoreConfig)

/-- The row `try_begin_invocation` inserts. -/
def newInvocation (now : Int) (verb : Verb) (invocationId token : Uuid) : Invocation :=
  { invocationId := invocationId
    reasoningVerb := verb
    status := .started
    failureCategory := none
    failureReason := none
    artifactType := none
    artifact := none
    attempt := 1
    attemptToken := token
    leaseExpiresAt := some (now + cfg.leaseTtlSeconds) }

/-- `lease_expires_at IS NULL OR now() >= lease_expires_at`. -/
def Invocation.leaseExpired (r : Invocation) (now : Int) : Bool :=
  r.leaseExpiresAt.all fun t => t ≤ now

/-- The next attempt of the row, owned by a new token. -/
def Invocation.nextAttempt (r : Invocation) (now : Int) (token : Uuid) : Invocation :=
  { r with
    attempt := r.attempt + 1
    attemptToken := token
    leaseExpiresAt := some (now + cfg.leaseTtlSeconds) }

/-- `try_take_over_invocation(correlation_id)`. -/
def tryTakeOverInvocation (now : Int) (token : Uuid) (row : Option Invocation) :
    Option Invocation :=
  row.bind fun r =>
    if r.status = .started ∧ r.leaseExpired now ∧ r.attempt < cfg.maxAttempts then
      some (r.nextAttempt cfg now token)
    else none

/-- `advance_retryable_attempt(invocation_id, attempt_token, failure_category)`. -/
def advanceRetryableAttempt (now : Int) (token invocationId attemptToken : Uuid)
    (failureCategory : FailureCategory) (row : Option Invocation) : Option Invocation :=
  if failureCategory ∈ retryableFailureCategories then
    row.bind fun r =>
      if r.invocationId = invocationId ∧ r.attemptToken = attemptToken ∧ r.status = .started ∧
          r.attempt < cfg.maxAttempts then
        some (r.nextAttempt cfg now token)
      else none
  else none

/-- The row the `UPDATE` of `complete_invocation` writes. -/
def Invocation.completed (r : Invocation) (t : Terminal) : Invocation :=
  { r with
    status := t.status.toStatus
    failureCategory := t.failureCategory
    failureReason := cfg.sanitizeFailureReason t.failureReason
    artifactType := t.artifactType
    artifact := t.artifact
    leaseExpiresAt := none }

/-- The CHECKs of the table that a terminal row can violate:
`chk_reasoning_invocations_status_consistency`, `…_success_artifact` and
`…_artifact_type`. -/
def Invocation.Checked (r : Invocation) : Prop :=
  (r.status = .failed → r.failureCategory ≠ none) ∧
    (r.status = .succeeded → r.failureCategory = none ∧ r.failureReason = none) ∧
    (r.status = .succeeded ↔ r.artifact.isSome = true) ∧
    (r.status = .succeeded ↔ r.artifactType.isSome = true) ∧
    (∀ t ∈ r.artifactType, t = artifactTypeForVerb r.reasoningVerb)

instance (r : Invocation) : Decidable r.Checked := by
  unfold Invocation.Checked
  infer_instance

/-- What the `UPDATE` of `complete_invocation` does: it matches no row, it violates a CHECK,
or it writes. -/
inductive Completion where
  | noRow
  | violation
  | wrote (r : Invocation)

/-- The `UPDATE` of `complete_invocation(invocation_id, attempt_token, terminal)`. -/
def completeInvocation (invocationId attemptToken : Uuid) (t : Terminal)
    (row : Option Invocation) : Completion :=
  match row with
  | none => .noRow
  | some r =>
    if r.invocationId = invocationId ∧ r.attemptToken = attemptToken ∧ r.status = .started then
      if (r.completed cfg t).Checked then .wrote (r.completed cfg t) else .violation
    else .noRow

/-- The row the `UPDATE` of `fail_exhausted_invocation` writes. -/
def Invocation.exhausted (r : Invocation) (failureReason : String) : Invocation :=
  { r with
    status := .failed
    failureCategory := some .providerUnavailable
    failureReason := cfg.sanitizeFailureReason (some failureReason)
    leaseExpiresAt := none }

/-- The `UPDATE` of `fail_exhausted_invocation(invocation_id, terminal)`. -/
def failExhaustedInvocation (now : Int) (invocationId : Uuid) (failureReason : String)
    (row : Option Invocation) : Option Invocation :=
  row.bind fun r =>
    if r.invocationId = invocationId ∧ r.status = .started ∧ r.leaseExpired now then
      some (r.exhausted cfg failureReason)
    else none

/-! ## What a write does to the row -/

/-- One write on the row: its first attempt, its next one, or its end. -/
inductive Moves (cfg : StoreConfig) : Option Invocation → Invocation → Prop where
  | begun (now : Int) (verb : Verb) (invocationId token : Uuid) :
      Moves cfg none (newInvocation cfg now verb invocationId token)
  | nextAttempt (now : Int) (token : Uuid) {r : Invocation} (hs : r.status = .started)
      (hlt : r.attempt < cfg.maxAttempts) : Moves cfg (some r) (r.nextAttempt cfg now token)
  | completed {t : Terminal} {r : Invocation} (hs : r.status = .started)
      (hc : (r.completed cfg t).Checked) : Moves cfg (some r) (r.completed cfg t)
  | exhausted {reason : String} {r : Invocation} (hs : r.status = .started) :
      Moves cfg (some r) (r.exhausted cfg reason)

variable {cfg} {now : Int} {token invocationId attemptToken : Uuid} {row : Option Invocation}
  {r' : Invocation}

theorem tryTakeOverInvocation_eq_some
    (h : tryTakeOverInvocation cfg now token row = some r') :
    ∃ r, row = some r ∧ r.status = .started ∧ r.attempt < cfg.maxAttempts ∧
      r' = r.nextAttempt cfg now token := by
  obtain ⟨r, hr, h⟩ := Option.bind_eq_some_iff.mp h
  split at h
  · next hguard => exact ⟨r, hr, hguard.1, hguard.2.2, (Option.some.inj h).symm⟩
  · cases h

theorem advanceRetryableAttempt_eq_some {c : FailureCategory}
    (h : advanceRetryableAttempt cfg now token invocationId attemptToken c row = some r') :
    ∃ r, row = some r ∧ r.attemptToken = attemptToken ∧ r.status = .started ∧
      r.attempt < cfg.maxAttempts ∧ r' = r.nextAttempt cfg now token := by
  unfold advanceRetryableAttempt at h
  split at h
  · obtain ⟨r, hr, h⟩ := Option.bind_eq_some_iff.mp h
    split at h
    · next hguard =>
      exact ⟨r, hr, hguard.2.1, hguard.2.2.1, hguard.2.2.2, (Option.some.inj h).symm⟩
    · cases h
  · cases h

theorem completeInvocation_eq_wrote {t : Terminal}
    (h : completeInvocation cfg invocationId attemptToken t row = .wrote r') :
    ∃ r, row = some r ∧ r.attemptToken = attemptToken ∧ r.status = .started ∧
      (r.completed cfg t).Checked ∧ r' = r.completed cfg t := by
  cases row with
  | none => cases h
  | some r =>
    unfold completeInvocation at h
    simp only at h
    split at h
    · next hguard =>
      split at h
      · next hchecked =>
        cases h
        exact ⟨r, rfl, hguard.2.1, hguard.2.2, hchecked, rfl⟩
      · cases h
    · cases h

theorem failExhaustedInvocation_eq_some {reason : String}
    (h : failExhaustedInvocation cfg now invocationId reason row = some r') :
    ∃ r, row = some r ∧ r.status = .started ∧ r' = r.exhausted cfg reason := by
  obtain ⟨r, hr, h⟩ := Option.bind_eq_some_iff.mp h
  split at h
  · next hguard => exact ⟨r, hr, hguard.2.1, (Option.some.inj h).symm⟩
  · cases h

theorem TerminalStatus.toStatus_ne_started (s : TerminalStatus) : s.toStatus ≠ .started := by
  cases s <;> simp [toStatus]

/-- The row carries an artifact exactly when it succeeded. -/
def Invocation.WellFormed (r : Invocation) : Prop :=
  r.artifact.isSome = true ↔ r.status = .succeeded

theorem Moves.wellFormed (h : Moves cfg row r') (hr : ∀ r ∈ row, r.WellFormed) :
    r'.WellFormed := by
  cases h with
  | begun => simp [Invocation.WellFormed, newInvocation]
  | @nextAttempt now token r hs hlt =>
    have hold : r.WellFormed := hr r rfl
    exact hold
  | completed hs hc => exact hc.2.2.1.symm
  | @exhausted reason r hs =>
    have hnone : r.WellFormed := hr r rfl
    unfold Invocation.WellFormed at hnone
    simp only [hs, reduceCtorEq, iff_false, Bool.not_eq_true] at hnone
    simp [Invocation.WellFormed, Invocation.exhausted, hnone]

/-- A terminal row makes no move. -/
theorem Moves.started (h : Moves cfg row r') : ∀ r ∈ row, r.status = .started := by
  intro r hr
  cases h with
  | begun => cases hr
  | nextAttempt now token hs hlt =>
    obtain rfl := Option.some.inj hr
    exact hs
  | completed hs hc =>
    obtain rfl := Option.some.inj hr
    exact hs
  | exhausted hs =>
    obtain rfl := Option.some.inj hr
    exact hs

end AiAgentsSwd.Reasoning
