import AiAgentsSwd.Reasoning.Service
import Mathlib.Algebra.Ring.Nat

/-!
# Deliberation.Models — bounds, turns and the convergence signal

Model of `shared/sdk/agent_deliberation/models.py`: the vocabulary of a team discussion, the
plan of a turn, what a turn turned out to mean, and whether a round left anything unresolved.

The artifacts of the reasoning service stay abstract; of a critique the discussion reads its
concerns and its questions.
-/

namespace AiAgentsSwd.Deliberation

open Planning (Uuid)
open Reasoning (Verb Payload ArtifactModels)

/-! ## Vocabulary -/

/-- `DiscussionState` -/
inductive DiscussionState where
  | «open»
  | converged
  | exhausted
  | failed
  | cancelled
deriving Repr, DecidableEq

/-- `StopReason` -/
inductive StopReason where
  | convergenceReached
  | roundLimitReached
  | messageLimitReached
  | invocationLimitReached
  | participantTurnLimitReached
  | timeoutReached
  | participantUnavailable
  | reasoningProviderFailure
  | cancelled
  | insufficientCapabilityCoverage
  | insufficientParticipants
deriving Repr, DecidableEq

/-- `STATE_FOR_STOP_REASON` -/
def stateForStopReason : StopReason → DiscussionState
  | .convergenceReached => .converged
  | .roundLimitReached => .exhausted
  | .messageLimitReached => .exhausted
  | .invocationLimitReached => .exhausted
  | .participantTurnLimitReached => .exhausted
  | .timeoutReached => .exhausted
  | .participantUnavailable => .failed
  | .reasoningProviderFailure => .failed
  | .cancelled => .cancelled
  | .insufficientCapabilityCoverage => .failed
  | .insufficientParticipants => .failed

theorem stateForStopReason_eq_converged {r : StopReason} :
    stateForStopReason r = .converged ↔ r = .convergenceReached := by
  cases r <;> simp [stateForStopReason]

/-- `TurnIntent` -/
inductive TurnIntent where
  | proposal
  | challenge
  | response
  | observation
  | clarification
  | support
  | objection
  | convergenceSummary
deriving Repr, DecidableEq

/-- The message types a discussion posts under. -/
inductive MessageType where
  | proposal
  | challenge
  | message
deriving Repr, DecidableEq

/-- `MESSAGE_TYPE_FOR_INTENT` -/
def messageTypeForIntent : TurnIntent → MessageType
  | .proposal => .proposal
  | .challenge => .challenge
  | .objection => .challenge
  | .response => .message
  | .observation => .message
  | .clarification => .message
  | .support => .message
  | .convergenceSummary => .message

/-- `UNRESOLVED_INTENTS` -/
def unresolvedIntents : List TurnIntent := [.challenge, .objection, .clarification]

/-- `TurnStatus` -/
inductive TurnStatus where
  | claimed
  | recorded
  | failed
deriving Repr, DecidableEq

/-- `MIN_PARTICIPANTS` -/
def minParticipants : Nat := 2

/-- `SUMMARY_SEAT_OFFSET` -/
def summarySeatOffset : Nat := 0

/-! ## Bounds -/

/-- The bounds of a discussion, as the row of its session holds them from its opening on. -/
structure DiscussionBounds where
  maxRounds : Nat
  maxMessages : Nat
  maxInvocations : Nat
  maxTurnsPerParticipant : Nat
  deadlineAt : Int
  one_le_maxRounds : 1 ≤ maxRounds
  one_le_maxMessages : 1 ≤ maxMessages
  one_le_maxInvocations : 1 ≤ maxInvocations
  one_le_maxTurnsPerParticipant : 1 ≤ maxTurnsPerParticipant

/-- `now() >= deadline_at` -/
def DiscussionBounds.deadlineExpired (b : DiscussionBounds) (now : Int) : Bool :=
  decide (b.deadlineAt ≤ now)

/-! ## Rows -/

/-- `(round_index, seat_index)`: the key of a turn, and of its reasoning call, whose
`correlation_id` is derived from it. -/
structure Slot where
  round : Nat
  seat : Nat
deriving Repr, DecidableEq

/-- `discussion_turns`, without its key. -/
structure DiscussionTurn where
  speakerPrincipalId : Uuid
  addressedPrincipalId : Option Uuid
  addressedTeam : Bool
  intent : TurnIntent
  reasoningVerb : Verb
  reasoningInvocationId : Option Uuid
  messageId : Option Nat
  status : TurnStatus
  concernCount : Nat

/-- `discussion_participants`: the row of a seat. -/
structure DiscussionParticipant where
  principalId : Uuid
  turnsTaken : Nat

/-! ## Turn planning -/

/-- `TurnPlan`, without the slot it is for. -/
structure TurnPlan where
  reasoningVerb : Verb
  addressesSeat : Option Nat
  addressesTeam : Bool

/-- `plan_turn(round_index, seat_index, participant_count)`; `none` is
`DiscussionParticipantError`. -/
def planTurn (slot : Slot) (participantCount : Nat) : Option TurnPlan :=
  if participantCount < minParticipants then none
  else if slot.seat = 0 then
    some ⟨if slot.round = 1 then .propose else .critique, none, true⟩
  else some ⟨.critique, some 0, false⟩

/-- `summary_seat(participant_count)` -/
def summarySeat (participantCount : Nat) : Nat := participantCount + summarySeatOffset

/-- What the discussion reads of an artifact, besides what the reasoning service does. -/
structure DiscussionArtifacts (α : Type) extends ArtifactModels α where
  summary : α → String
  concerns : α → List String
  questions : α → List String

/-- `classify_intent(…)`; `none` is `DiscussionStateError`. -/
def classifyIntent {α : Type} (M : DiscussionArtifacts α) (reasoningVerb : Verb) (artifact : α)
    (slot : Slot) : Option (TurnIntent × Nat) :=
  match reasoningVerb with
  | .propose => some (.proposal, 0)
  | .summarizeDecision => some (.convergenceSummary, 0)
  | _ =>
    if M.verb artifact ≠ .critique then none
    else if (M.concerns artifact).length ≠ 0 then
      some (if slot.seat = 0 then .objection else .challenge, (M.concerns artifact).length)
    else if (M.questions artifact).length ≠ 0 then
      some (.clarification, (M.questions artifact).length)
    else if slot.seat = 0 ∧ 1 < slot.round then some (.response, 0)
    else some (.support, 0)

/-- A turn is unresolved exactly when it has concerns or questions. -/
theorem classifyIntent_counts {α : Type} {M : DiscussionArtifacts α} {verb : Verb} {artifact : α}
    {slot : Slot} {intent : TurnIntent} {count : Nat}
    (h : classifyIntent M verb artifact slot = some (intent, count)) :
    intent ∈ unresolvedIntents ↔ 0 < count := by
  have hpair : ∀ x : TurnIntent × Nat, (x.1 ∈ unresolvedIntents ↔ 0 < x.2) →
      some x = some (intent, count) → (intent ∈ unresolvedIntents ↔ 0 < count) := by
    intro x hx heq
    obtain rfl := Option.some.inj heq
    exact hx
  have hcritique : (if M.verb artifact ≠ .critique then none
      else if (M.concerns artifact).length ≠ 0 then
        some (if slot.seat = 0 then .objection else .challenge, (M.concerns artifact).length)
      else if (M.questions artifact).length ≠ 0 then
        some (.clarification, (M.questions artifact).length)
      else if slot.seat = 0 ∧ 1 < slot.round then some (.response, 0)
      else some (TurnIntent.support, 0)) = some (intent, count) →
      (intent ∈ unresolvedIntents ↔ 0 < count) := by
    intro h
    split at h
    · cases h
    · split at h
      · next hc =>
        refine hpair _ ?_ h
        have hpos : 0 < (M.concerns artifact).length := by omega
        by_cases hseat : slot.seat = 0 <;> simp [hseat, unresolvedIntents, hpos]
      · split at h
        · next hq =>
          refine hpair _ ?_ h
          have hpos : 0 < (M.questions artifact).length := by omega
          simp [unresolvedIntents, hpos]
        · split at h
          · exact hpair _ (by simp [unresolvedIntents]) h
          · exact hpair _ (by simp [unresolvedIntents]) h
  cases verb with
  | propose => exact hpair _ (by simp [unresolvedIntents]) h
  | summarizeDecision => exact hpair _ (by simp [unresolvedIntents]) h
  | critique => exact hcritique h
  | decomposePlan => exact hcritique h

/-! ## Convergence -/

structure ConvergenceVerdict where
  converged : Bool
  reason : String
  unresolved : Nat

/-- The concerns a turn leaves unresolved. -/
def DiscussionTurn.unresolved (t : DiscussionTurn) : Nat :=
  if t.intent ∈ unresolvedIntents then t.concernCount else 0

/-- The turn is something to converge on. -/
def DiscussionTurn.stands (t : DiscussionTurn) : Bool :=
  t.intent ∈ [.proposal, .response, .support, .observation]

/-- `evaluate_convergence(round_turns)` -/
def evaluateConvergence (roundTurns : List DiscussionTurn) : ConvergenceVerdict :=
  if roundTurns.isEmpty then ⟨false, "no turns recorded in this round", 0⟩
  else
    let incomplete := roundTurns.filter fun t => t.status ≠ .recorded
    let unresolved := (roundTurns.map DiscussionTurn.unresolved).sum
    if incomplete.length ≠ 0 then
      ⟨false, toString incomplete.length ++ " turn(s) not recorded", 0⟩
    else if unresolved ≠ 0 then
      ⟨false, toString unresolved ++ " unresolved concern(s)/question(s) remain", unresolved⟩
    else if roundTurns.any DiscussionTurn.stands then
      ⟨true, "no unresolved concern remains on the standing proposal", 0⟩
    else ⟨false, "no proposal is standing to converge on", 0⟩

/-- A round converges exactly when every turn in it was recorded, none left a concern
unresolved and one of them stands. -/
theorem evaluateConvergence_converged {roundTurns : List DiscussionTurn} :
    (evaluateConvergence roundTurns).converged = true ↔
      (∀ t ∈ roundTurns, t.status = .recorded) ∧ (∀ t ∈ roundTurns, t.unresolved = 0) ∧
        ∃ t ∈ roundTurns, t.stands = true := by
  have hrecorded : (roundTurns.filter fun t => t.status ≠ .recorded).length = 0 ↔
      ∀ t ∈ roundTurns, t.status = .recorded := by
    simp [List.filter_eq_nil_iff]
  have hunresolved : (roundTurns.map DiscussionTurn.unresolved).sum = 0 ↔
      ∀ t ∈ roundTurns, t.unresolved = 0 := by
    simp [List.sum_eq_zero_iff_forall_eq_nat]
  unfold evaluateConvergence
  by_cases hempty : roundTurns.isEmpty
  · -- nothing stands in an empty round
    have hnil : roundTurns = [] := List.isEmpty_iff.mp hempty
    simp [hnil]
  · rw [if_neg hempty]
    simp only
    by_cases hr : (roundTurns.filter fun t => t.status ≠ .recorded).length = 0
    · rw [if_neg (not_not.mpr hr)]
      by_cases hu : (roundTurns.map DiscussionTurn.unresolved).sum = 0
      · rw [if_neg (not_not.mpr hu), ← hrecorded, ← hunresolved]
        by_cases hs : roundTurns.any DiscussionTurn.stands = true
        · rw [if_pos hs]
          have hex := List.any_eq_true.mp hs
          exact iff_of_true rfl ⟨hr, hu, hex⟩
        · rw [if_neg hs]
          have hno : ¬ ∃ t ∈ roundTurns, t.stands = true := fun h => hs (List.any_eq_true.mpr h)
          exact iff_of_false Bool.false_ne_true fun h => hno h.2.2
      · rw [if_pos hu, ← hunresolved]
        exact iff_of_false Bool.false_ne_true fun h => hu h.2.1
    · rw [if_pos hr, ← hrecorded]
      exact iff_of_false Bool.false_ne_true fun h => hr h.1

end AiAgentsSwd.Deliberation
