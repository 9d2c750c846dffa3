import AiAgentsSwd.Deliberation.Runs

/-!
# Deliberation.Convergence — converged means agreed

The verdict on a round is computed from one read, the summary takes another reasoning call, and
the closing write comes later still. It is sound all the same: the turns the verdict was
computed from are recorded, so they stay as they are, and the round does not move on from a round
that converged, because whoever moves it has read the opposite verdict from the same turns.
-/

namespace AiAgentsSwd.Deliberation

open Planning (Uuid)
open Transition

variable {ι α : Type} [DecidableEq ι] {cfg : Config α} {w w₀ : World ι α} {clock : Int}

/-- A recorded turn that leaves nothing unresolved has neither concern nor question. -/
theorem resolved_of_counts {t : DiscussionTurn} (hcounts : Counts t.intent t.concernCount)
    (h : t.unresolved = 0) : t.intent ∉ unresolvedIntents ∧ t.concernCount = 0 := by
  have hnot : t.intent ∉ unresolvedIntents := by
    intro hmem
    have hpos := hcounts.mp hmem
    unfold DiscussionTurn.unresolved at h
    rw [if_pos hmem] at h
    omega
  refine ⟨hnot, ?_⟩
  by_contra hne
  exact hnot (hcounts.mpr (by omega))

/-- **Converged means agreed.** In every run, when a discussion has converged every
participant's turn of its current round is recorded and carries neither concern nor question,
the result is the message of the recorded summary of that round, and the closure is before the
deadline; no other discussion has a result; and a discussion that is no longer open never
changes again. -/
theorem converged_agreed (hopened : Opened clock w₀) (h : Reaches (step cfg) w₀ w) :
    (w.room.session.state = .converged →
      (∀ seat, seat < w.room.participants.length → ∃ t,
        w.room.turns.find? ⟨w.room.session.currentRound, seat⟩ = some t ∧ t.status = .recorded ∧
          t.intent ∉ unresolvedIntents ∧ t.concernCount = 0) ∧
      (∃ t m, w.room.turns.find?
          ⟨w.room.session.currentRound, summarySeat w.room.participants.length⟩ = some t ∧
        t.status = .recorded ∧ t.messageId = some m ∧
        w.room.session.resultMessageId = some m ∧ ∃ x, w.room.messages[m]? = some x) ∧
      ∃ closed, w.room.session.closedAt = some closed ∧ closed < cfg.bounds.deadlineAt) ∧
    (w.room.session.state ≠ .converged → w.room.session.resultMessageId = none) ∧
    (w.room.session.state ≠ .open →
      ∀ w', Reaches (step cfg) w w' → w'.room.session = w.room.session) := by
  have hledger := (reachable_sound hopened h).ledger
  refine ⟨?_, hledger.noResult, ?_⟩
  · intro hstate
    obtain ⟨⟨hsettled, hunopposed, t, ht, hr, hm⟩, hclosed⟩ := hledger.outcome hstate
    refine ⟨?_, ?_, hclosed⟩
    · intro seat hseat
      obtain ⟨u, hu, hrecorded⟩ := hsettled seat hseat
      have hresolved := hunopposed.1 seat u hseat hu
      obtain ⟨hcounts, -⟩ := hledger.messages _ u hu hrecorded
      obtain ⟨hintent, hcount⟩ := resolved_of_counts hcounts hresolved
      exact ⟨u, hu, hrecorded, hintent, hcount⟩
    · obtain ⟨-, m, hmessage, x, hx, -⟩ := hledger.messages _ t ht hr
      refine ⟨t, m, ht, hr, hmessage, ?_, x, hx⟩
      rw [← hm]
      exact hmessage
  · intro hstate w' hw'
    exact (run_later hw').terminal hstate

/-- Both agree in the first round, and the summary is recorded. -/
def agreeing : List (Act Nat Reply) :=
  turn 1 .proposal ++ turn 2 (.critique [] []) ++ claimsSummary 1 ++
    reasons 1 .decisionSummary ++ runs 1 4

theorem converged_agreed_agreeing :
    ∃ w, runActs (step twoRounds) openedByTwo agreeing = some w ∧
      w.room.session.state = .converged ∧ w.room.session.resultMessageId = some 2 ∧
      (∀ seat, seat < w.room.participants.length → ∃ t,
        w.room.turns.find? ⟨w.room.session.currentRound, seat⟩ = some t ∧ t.status = .recorded ∧
          t.intent ∉ unresolvedIntents ∧ t.concernCount = 0) := by
  have hrun : ((runActs (step twoRounds) openedByTwo agreeing).any fun w =>
      w.room.session.state = .converged ∧ w.room.session.resultMessageId = some 2) = true := by
    decide +kernel
  obtain ⟨w, hw, hstate⟩ := (Option.any_eq_true _ _).mp hrun
  obtain ⟨hconverged, hresult⟩ := of_decide_eq_true hstate
  have hagreed := converged_agreed openedByTwo_opened (reaches_of_runActs hw)
  exact ⟨w, hw, hconverged, hresult, (hagreed.1 hconverged).1⟩

end AiAgentsSwd.Deliberation
