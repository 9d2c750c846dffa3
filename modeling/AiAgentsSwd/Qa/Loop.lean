import Mathlib.Algebra.GroupWithZero.Nat
import AiAgentsSwd.Qa.AutoFix
import AiAgentsSwd.Transition.Measure

/-!
# Qa.Loop — how long the two agents go on

The attempts are counted when a completed fix comes back. A failed fix comes back as well, and
is validated under the attempts there were: where that validation asks for a fix again, nothing
has been counted, and the two agents can go on like this for ever (`endless`). `careful` leaves
that validation out, and one whose contents cannot be written out while no retry is left; then
the loop is bounded.
-/

namespace AiAgentsSwd.Qa

open Transition

/-! ## One validation -/

/-- There are blocking findings, and every one of them can be fixed. -/
def repairable (findings : List Finding) : Bool :=
  findings.any isBlocking && findings.all fun f => !isBlocking f || f.autoFixable

theorem repairable_of_autoFix {findings : List Finding} {current maxAttempts : Nat}
    (h : decideOn findings current maxAttempts = .autoFix) : repairable findings = true := by
  have hlt := lt_of_decideOn_autoFix h
  unfold decideOn at h
  simp only at h
  by_cases hnone : findings.filter isBlocking = []
  · rw [if_pos hnone] at h
    cases h
  rw [if_neg hnone] at h
  by_cases hfix : ((findings.filter isBlocking).any fun f => !f.autoFixable) = true
  · rw [if_pos hfix] at h
    cases h
  unfold repairable
  rw [Bool.and_eq_true]
  constructor
  · rw [List.filter_eq_nil_iff] at hnone
    push Not at hnone
    exact List.any_eq_true.mpr hnone
  · rw [List.all_eq_true]
    intro f hf
    by_contra hbad
    refine hfix (List.any_eq_true.mpr ⟨f, List.mem_filter.mpr ⟨hf, ?_⟩, ?_⟩)
    · by_contra hb
      simp [hb] at hbad
    · by_contra hb
      simp only [Bool.not_eq_true, Bool.not_eq_false'] at hb
      simp [hb] at hbad

theorem autoFix_of_repairable {findings : List Finding} {current maxAttempts : Nat}
    (h : repairable findings = true) (hlt : current < maxAttempts) :
    decideOn findings current maxAttempts = .autoFix := by
  unfold repairable at h
  rw [Bool.and_eq_true, List.any_eq_true, List.all_eq_true] at h
  rcases h with ⟨⟨f, hf, hb⟩, hall⟩
  have hmem : f ∈ findings.filter isBlocking := List.mem_filter.mpr ⟨hf, hb⟩
  have hnone : ¬findings.filter isBlocking = [] := List.ne_nil_of_mem hmem
  have hfix : ¬((findings.filter isBlocking).any fun f => !f.autoFixable) = true := by
    intro hany
    rcases List.any_eq_true.mp hany with ⟨g, hg, hbad⟩
    have hg' := List.mem_filter.mp hg
    have hgood := hall g hg'.1
    rw [hg'.2] at hgood
    simp only [Bool.not_true, Bool.false_or] at hgood
    rw [hgood] at hbad
    cases hbad
  have hmax : ¬maxAttempts ≤ current := by omega
  unfold decideOn
  rw [if_neg hnone, if_neg hfix, if_neg hmax]

/-- The row that a validation starts with. -/
def startedRun (maxAttempts : Nat) (payload : Payload) (prior : Option ValidationRun) :
    ValidationRun where
  status := .started
  autoFixAttempts := currentAttempts payload prior
  maxAutoFixAttempts := maxAttempts
  findings := []

/-- What a call of `handle` does, where no store fails. -/
inductive Handled (maxAttempts : Nat) (m : Machine) (payload : Payload) (loads : Loads)
    (prior : Option ValidationRun) : Effects → Prop
  | ignored (hown : payload.event.isOwn = true) :
    Handled maxAttempts m payload loads prior { run := none, published := [], raised := false }
  | passed (hown : payload.event.isOwn = false) (hpass : loads.passesThrough = true) :
    Handled maxAttempts m payload loads prior
      { run := none, published := [.completed], raised := false }
  | raised (hown : payload.event.isOwn = false) (hpass : loads.passesThrough = false)
      (hnone : inspect m payload loads = none) :
    Handled maxAttempts m payload loads prior
      { run := some (startedRun maxAttempts payload prior), published := [], raised := true }
  | decided (hown : payload.event.isOwn = false) (hpass : loads.passesThrough = false)
      (findings : List Finding) (hsome : inspect m payload loads = some findings)
      (run : ValidationRun) (hrun : run.autoFixAttempts = currentAttempts payload prior) :
    Handled maxAttempts m payload loads prior
      { run := some run
        published := emit findings (currentAttempts payload prior)
          (decideOn findings (currentAttempts payload prior) maxAttempts)
        raised := false }

theorem handle_none (maxAttempts : Nat) (m : Machine) (payload : Payload) (loads : Loads)
    (prior : Option ValidationRun) :
    Handled maxAttempts m payload loads prior
      (handle maxAttempts m .none payload loads prior) := by
  unfold handle
  by_cases hown : payload.event.isOwn = true
  · rw [if_pos hown]
    exact .ignored hown
  rw [if_neg hown]
  have hown' : payload.event.isOwn = false := Bool.eq_false_iff.mpr hown
  by_cases hpass : loads.passesThrough = true
  · have hpublish : ∀ i, Faults.none.publish i = false := fun _ => rfl
    rw [if_pos hpass, publishAll_of_not_fails _ _ hpublish]
    exact .passed hown' hpass
  rw [if_neg hpass]
  have hpass' : loads.passesThrough = false := Bool.eq_false_iff.mpr hpass
  have hlatest : ¬Faults.none.latestRun = true := Bool.false_ne_true
  have hcreate : ¬Faults.none.createRun = true := Bool.false_ne_true
  rw [if_neg hlatest, if_neg hcreate]
  cases hinspect : inspect m payload loads with
  | none => exact .raised hown' hpass' hinspect
  | some findings =>
    simp only
    rw [settle_none]
    exact .decided hown' hpass' findings hinspect _ rfl

/-! ## The state of the exchange -/

/-- The attempts of the latest run. -/
def World.attempts (w : World) : Nat := ((w.runs.getLast?).map ValidationRun.autoFixAttempts).getD 0

/-- The messages on `stream.qa` that the quality gate does not ignore. -/
def World.live (w : World) : List QaMessage := w.qaStream.filter fun msg => !msg.payload.event.isOwn

/-- Where the exchange stands. -/
inductive World.Stage (w : World) : Prop
  | pending (msg : QaMessage) (hlive : w.live = [msg]) (hreq : w.autofixStream = [])
      (hout : w.outcomes = 0)
      (hissued : msg.payload.event = .autoFixFailed ∨
        w.issued.length ≤ currentAttempts msg.payload w.runs.getLast?)
  | requested (r : FixRequest) (hlive : w.live = []) (hreq : w.autofixStream = [r])
      (hout : w.outcomes = 0) (hissued : w.issued.length ≤ w.attempts + 1)
  | ended (hlive : w.live = []) (hreq : w.autofixStream = []) (hout : w.outcomes = 1)

variable (maxAttempts : Nat)

structure World.Inv (w : World) : Prop where
  stage : w.Stage
  issued : w.issued.length ≤ maxAttempts

/-- A validation of a failed fix does not ask for another one, and one that raises is retried. -/
def World.careful (w : World) : Act → Bool
  | .fix _ => true
  | .validate m loads =>
    match w.qaStream.head? with
    | none => true
    | some msg =>
      msg.payload.event.isOwn || loads.passesThrough ||
        match inspect m msg.payload loads with
        | none => !msg.retried.exhausted
        | some findings =>
          msg.payload.event != .autoFixFailed || !repairable findings ||
            decide (maxAttempts ≤ w.attempts)

/-- The steps of a careful exchange. -/
def carefulStep : World → Act → Option World :=
  guard (fun w a => w.careful maxAttempts a = true) (step maxAttempts)

/-- What is left of the exchange: for every request that may still be issued, two messages of
the agents to themselves, the request, and a validation with its retries. -/
def World.left (w : World) : Nat := 7 * (maxAttempts - w.issued.length)

/-- The messages that can still be handled. -/
def World.measure (w : World) : Nat :=
  w.qaStream.length +
    (w.live.map fun msg => msg.maxRetries - msg.retryCount + 1 + w.left maxAttempts).sum +
    w.autofixStream.length * (6 + w.left maxAttempts)

theorem currentAttempts_of_ne {payload : Payload} {prior : Option ValidationRun}
    (h : payload.event ≠ .autoFixCompleted) :
    currentAttempts payload prior = (prior.map ValidationRun.autoFixAttempts).getD 0 := by
  unfold currentAttempts
  rw [if_neg h]

theorem le_currentAttempts (payload : Payload) (prior : Option ValidationRun) :
    (prior.map ValidationRun.autoFixAttempts).getD 0 ≤ currentAttempts payload prior := by
  unfold currentAttempts
  simp only
  by_cases h : payload.event = .autoFixCompleted
  · rw [if_pos h]
    omega
  · rw [if_neg h]

/-! ## Steps -/

section Steps

variable {maxAttempts} {w t : World} {msg : QaMessage} {rest : List QaMessage}

theorem live_of_own (hqueue : w.qaStream = msg :: rest) (hown : msg.payload.event.isOwn = true) :
    w.live = rest.filter fun msg => !msg.payload.event.isOwn := by
  unfold World.live
  rw [hqueue, List.filter_cons_of_neg (by simp [hown])]

theorem live_of_not_own (hqueue : w.qaStream = msg :: rest)
    (hown : msg.payload.event.isOwn = false) :
    w.live = msg :: rest.filter fun msg => !msg.payload.event.isOwn := by
  unfold World.live
  rw [hqueue, List.filter_cons_of_pos (by simp [hown])]

/-- A message that counts is the only one. -/
theorem World.Stage.only (h : w.Stage) (hqueue : w.qaStream = msg :: rest)
    (hown : msg.payload.event.isOwn = false) :
    (rest.filter fun msg => !msg.payload.event.isOwn) = [] ∧ w.autofixStream = [] ∧
      w.outcomes = 0 ∧ (msg.payload.event = .autoFixFailed ∨
        w.issued.length ≤ currentAttempts msg.payload w.runs.getLast?) := by
  have hlive := live_of_not_own hqueue hown
  cases h with
  | pending msg' hlive' hreq hout hissued =>
    rw [hlive, List.cons.injEq] at hlive'
    rw [← hlive'.1] at hissued
    exact ⟨hlive'.2, hreq, hout, hissued⟩
  | requested r hlive' _ _ _ =>
    rw [hlive] at hlive'
    cases hlive'
  | ended hlive' _ _ =>
    rw [hlive] at hlive'
    cases hlive'

/-- An own event is taken from the stream, and that is all. -/
theorem ignored_inv (h : w.Inv maxAttempts) (hqueue : w.qaStream = msg :: rest)
    (hown : msg.payload.event.isOwn = true) (ht : t = { w with qaStream := rest }) :
    t.Inv maxAttempts ∧ t.measure maxAttempts < w.measure maxAttempts := by
  have hlive : t.live = w.live := by
    rw [live_of_own hqueue hown, ht]
    rfl
  have hruns : t.runs = w.runs := by rw [ht]
  have hissued : t.issued = w.issued := by rw [ht]
  have hreq : t.autofixStream = w.autofixStream := by rw [ht]
  have hout : t.outcomes = w.outcomes := by rw [ht]; rfl
  constructor
  · refine ⟨?_, by rw [hissued]; exact h.issued⟩
    cases h.stage with
    | pending msg' hlive' hreq' hout' hissued' =>
      refine .pending msg' (hlive.trans hlive') (hreq.trans hreq') (hout.trans hout') ?_
      rw [hruns, hissued]
      exact hissued'
    | requested r hlive' hreq' hout' hissued' =>
      refine .requested r (hlive.trans hlive') (hreq.trans hreq') (hout.trans hout') ?_
      unfold World.attempts
      rw [hruns, hissued]
      exact hissued'
    | ended hlive' hreq' hout' =>
      exact .ended (hlive.trans hlive') (hreq.trans hreq') (hout.trans hout')
  · have hlen : t.qaStream.length + 1 = w.qaStream.length := by
      rw [ht, hqueue, List.length_cons]
    unfold World.measure World.left
    rw [hlive, hreq, hissued]
    omega

/-- What a message is worth while it can be handled. -/
theorem measure_of_only (hqueue : w.qaStream = msg :: rest)
    (hown : msg.payload.event.isOwn = false)
    (hrest : (rest.filter fun msg => !msg.payload.event.isOwn) = [])
    (hreq : w.autofixStream = []) :
    w.measure maxAttempts =
      rest.length + (msg.maxRetries - msg.retryCount) + 2 + w.left maxAttempts := by
  unfold World.measure
  rw [live_of_not_own hqueue hown, hrest, hreq, hqueue]
  simp only [List.length_cons, List.map_cons, List.map_nil, List.sum_cons, List.sum_nil,
    List.length_nil]
  omega

/-- The exchange ends with an outcome. -/
theorem ended_inv (h : w.Inv maxAttempts) (hqueue : w.qaStream = msg :: rest)
    (hown : msg.payload.event.isOwn = false) {l : List QaMessage}
    (hown' : (l.filter fun msg => !msg.payload.event.isOwn) = []) (hlen : l.length ≤ 1)
    (hstream : t.qaStream = rest ++ l) (hreq : t.autofixStream = w.autofixStream)
    (hissued : t.issued = w.issued) (hout : t.outcomes = w.outcomes + 1) :
    t.Inv maxAttempts ∧ t.measure maxAttempts < w.measure maxAttempts := by
  rcases h.stage.only hqueue hown with ⟨hrest, hnoreq, hnone, -⟩
  have hlive : t.live = [] := by
    unfold World.live
    rw [hstream, List.filter_append, hrest, hown', List.append_nil]
  constructor
  · refine ⟨.ended hlive (hreq.trans hnoreq) ?_, by rw [hissued]; exact h.issued⟩
    rw [hout, hnone]
  · rw [measure_of_only hqueue hown hrest hnoreq]
    unfold World.measure World.left
    rw [hlive, hreq, hnoreq, hstream, List.length_append]
    simp only [List.map_nil, List.sum_nil, List.length_nil]
    omega

/-- The message comes back with one retry less. -/
theorem raised_inv (h : w.Inv maxAttempts) (hqueue : w.qaStream = msg :: rest)
    (hown : msg.payload.event.isOwn = false) (hretry : msg.retried.exhausted = false)
    {run : ValidationRun} (hrun : run.autoFixAttempts = currentAttempts msg.payload w.runs.getLast?)
    (ht : t = { w with qaStream := rest ++ [msg.retried], runs := w.runs ++ [run] }) :
    t.Inv maxAttempts ∧ t.measure maxAttempts < w.measure maxAttempts := by
  rcases h.stage.only hqueue hown with ⟨hrest, hnoreq, hnone, hcount⟩
  have hlive : t.live = [msg.retried] := by
    unfold World.live
    rw [ht]
    simp only
    rw [List.filter_append, hrest, List.nil_append, List.filter_cons_of_pos]
    · rw [List.filter_nil]
    · show (!msg.payload.event.isOwn) = true
      rw [hown, Bool.not_false]
  have hlatest : t.runs.getLast? = some run := by
    rw [ht, List.getLast?_append, List.getLast?_singleton]
    rfl
  have hissued : t.issued = w.issued := by rw [ht]
  have hreq : t.autofixStream = [] := by rw [ht]; exact hnoreq
  constructor
  · refine ⟨.pending msg.retried hlive hreq (by rw [ht]; exact hnone) ?_, ?_⟩
    · rcases hcount with hfailed | hle
      · exact Or.inl hfailed
      · -- the run that was started carries the attempts that counted
        have hge := le_currentAttempts msg.payload (some run)
        rw [Option.map_some, Option.getD_some, hrun] at hge
        refine Or.inr ?_
        rw [hissued, hlatest]
        exact hle.trans hge
    · rw [hissued]
      exact h.issued
  · have hleft : msg.retryCount + 1 < msg.maxRetries := by
      unfold QaMessage.exhausted QaMessage.retried at hretry
      simpa using hretry
    have hlen : t.qaStream.length = rest.length + 1 := by
      rw [ht, List.length_append, List.length_singleton]
    rw [measure_of_only hqueue hown hrest hnoreq]
    unfold World.measure World.left
    rw [hlive, hreq, hissued, hlen]
    simp only [List.map_cons, List.map_nil, List.sum_cons, List.sum_nil, List.length_nil,
      QaMessage.retried]
    omega

/-- A fix is asked for. -/
theorem requested_inv (h : w.Inv maxAttempts) (hqueue : w.qaStream = msg :: rest)
    (hown : msg.payload.event.isOwn = false) (hfailed : msg.payload.event ≠ .autoFixFailed)
    (hlt : currentAttempts msg.payload w.runs.getLast? < maxAttempts) {run : ValidationRun}
    (hrun : run.autoFixAttempts = currentAttempts msg.payload w.runs.getLast?) {r : FixRequest}
    (ht : t = { w with
      qaStream := rest ++ [freshMessage .autoFixRequested]
      autofixStream := w.autofixStream ++ [r]
      runs := w.runs ++ [run]
      issued := w.issued ++ [r] }) :
    t.Inv maxAttempts ∧ t.measure maxAttempts < w.measure maxAttempts := by
  rcases h.stage.only hqueue hown with ⟨hrest, hnoreq, hnone, hcount⟩
  have hle : w.issued.length ≤ currentAttempts msg.payload w.runs.getLast? :=
    hcount.resolve_left hfailed
  have hlive : t.live = [] := by
    unfold World.live
    rw [ht]
    simp only
    rw [List.filter_append, hrest]
    rfl
  have hattempts : t.attempts = currentAttempts msg.payload w.runs.getLast? := by
    unfold World.attempts
    rw [ht, List.getLast?_append, List.getLast?_singleton, ← hrun]
    rfl
  have hissued : t.issued.length = w.issued.length + 1 := by
    rw [ht, List.length_append, List.length_singleton]
  have hreq : t.autofixStream = [r] := by
    rw [ht]
    show w.autofixStream ++ [r] = [r]
    rw [hnoreq, List.nil_append]
  constructor
  · refine ⟨.requested r hlive hreq (by rw [ht]; exact hnone) ?_, ?_⟩
    · rw [hissued, hattempts]
      omega
    · omega
  · have hlen : t.qaStream.length = rest.length + 1 := by
      rw [ht, List.length_append, List.length_singleton]
    rw [measure_of_only hqueue hown hrest hnoreq]
    unfold World.measure World.left
    rw [hlive, hreq, hissued, hlen]
    simp only [List.map_nil, List.sum_nil, List.length_singleton]
    omega

/-- A decision goes out. -/
theorem decided_inv (h : w.Inv maxAttempts) (hqueue : w.qaStream = msg :: rest)
    (hown : msg.payload.event.isOwn = false) {findings : List Finding}
    (hcare : msg.payload.event = .autoFixFailed → repairable findings = true →
      maxAttempts ≤ currentAttempts msg.payload w.runs.getLast?)
    {run : ValidationRun} (hrun : run.autoFixAttempts = currentAttempts msg.payload w.runs.getLast?)
    (ht : t = (emit findings (currentAttempts msg.payload w.runs.getLast?)
      (decideOn findings (currentAttempts msg.payload w.runs.getLast?) maxAttempts)).foldl
        World.deliver { w with qaStream := rest, runs := w.runs ++ [run] }) :
    t.Inv maxAttempts ∧ t.measure maxAttempts < w.measure maxAttempts := by
  cases hdecision :
      decideOn findings (currentAttempts msg.payload w.runs.getLast?) maxAttempts with
  | pass =>
    rw [hdecision] at ht
    refine ended_inv h hqueue hown (l := []) rfl (by simp) ?_ ?_ ?_ ?_
    · rw [ht, List.append_nil]
      rfl
    · rw [ht]
      rfl
    · rw [ht]
      rfl
    · rw [ht]
      show w.completions + 1 + w.blocks = w.completions + w.blocks + 1
      omega
  | autoFix =>
    rw [hdecision] at ht
    have hlt := lt_of_decideOn_autoFix hdecision
    have hfailed : msg.payload.event ≠ .autoFixFailed := by
      intro hevent
      have hge := hcare hevent (repairable_of_autoFix hdecision)
      omega
    exact requested_inv h hqueue hown hfailed hlt hrun ht
  | blocked reason =>
    rw [hdecision] at ht
    refine ended_inv h hqueue hown (l := [freshMessage .blockedForHumanReview]) rfl
      (by simp) ?_ ?_ ?_ ?_
    · rw [ht]
      rfl
    · rw [ht]
      rfl
    · rw [ht]
      rfl
    · rw [ht]
      show w.completions + (w.blocks + 1) = w.completions + w.blocks + 1
      omega

theorem validate_inv (h : w.Inv maxAttempts) {m : Machine} {loads : Loads}
    (hcare : w.careful maxAttempts (.validate m loads) = true)
    (ht : w.validate maxAttempts m loads = some t) :
    t.Inv maxAttempts ∧ t.measure maxAttempts < w.measure maxAttempts := by
  unfold World.validate at ht
  cases hqueue : w.qaStream with
  | nil =>
    rw [hqueue] at ht
    cases ht
  | cons msg rest =>
    rw [hqueue] at ht
    have ht' := (Option.some.inj ht).symm
    have hhandled := handle_none maxAttempts m msg.payload loads w.runs.getLast?
    revert ht'
    generalize handle maxAttempts m .none msg.payload loads w.runs.getLast? = e at hhandled
    intro ht'
    unfold World.careful at hcare
    rw [hqueue] at hcare
    simp only [List.head?_cons] at hcare
    cases hhandled with
    | ignored hown =>
      refine ignored_inv h hqueue hown (ht'.trans ?_)
      simp [World.after]
    | passed hown hpass =>
      refine ended_inv h hqueue hown (l := []) rfl (by simp) ?_ ?_ ?_ ?_
      · rw [ht', List.append_nil]
        rfl
      · rw [ht']
        rfl
      · rw [ht']
        rfl
      · rw [ht']
        show w.completions + 1 + w.blocks = w.completions + w.blocks + 1
        omega
    | raised hown hpass hnone =>
      rw [hown, hpass, hnone] at hcare
      have hretry : msg.retried.exhausted = false := by simpa using hcare
      have hrun : (startedRun maxAttempts msg.payload w.runs.getLast?).autoFixAttempts =
          currentAttempts msg.payload w.runs.getLast? := rfl
      refine raised_inv h hqueue hown hretry hrun (ht'.trans ?_)
      simp [World.after, World.fail, hretry]
    | decided hown hpass findings hsome run hrun =>
      rw [hown, hpass, hsome] at hcare
      refine decided_inv h hqueue hown ?_ hrun ht'
      intro hevent hrepair
      have hne : msg.payload.event ≠ .autoFixCompleted := by
        rw [hevent]
        intro heq
        cases heq
      rw [currentAttempts_of_ne hne]
      simp only [hevent, hrepair] at hcare
      exact of_decide_eq_true hcare

theorem fix_inv (h : w.Inv maxAttempts) {results : Nat → FixResult}
    (ht : w.fix results = some t) :
    t.Inv maxAttempts ∧ t.measure maxAttempts < w.measure maxAttempts := by
  unfold World.fix at ht
  cases hqueue : w.autofixStream with
  | nil =>
    rw [hqueue] at ht
    cases ht
  | cons r rest =>
    rw [hqueue] at ht
    have ht' := (Option.some.inj ht).symm
    -- a request is there, and nothing else
    have hstage : w.live = [] ∧ rest = [] ∧ w.outcomes = 0 ∧
        w.issued.length ≤ w.attempts + 1 := by
      cases h.stage with
      | pending _ _ hreq _ _ =>
        rw [hqueue] at hreq
        cases hreq
      | requested r' hlive hreq hout hissued =>
        rw [hqueue, List.cons.injEq] at hreq
        exact ⟨hlive, hreq.2, hout, hissued⟩
      | ended _ hreq _ =>
        rw [hqueue] at hreq
        cases hreq
    rcases hstage with ⟨hlive, hrest, hout, hissued⟩
    have hown : (autoFixEvent w.runs r results).isOwn = false := by
      unfold autoFixEvent
      split <;> rfl
    have hlive' : t.live = [freshMessage (autoFixEvent w.runs r results)] := by
      unfold World.live
      rw [ht']
      simp only
      rw [List.filter_append, ← World.live, hlive, List.nil_append, List.filter_cons_of_pos]
      · rw [List.filter_nil]
      · show (!(autoFixEvent w.runs r results).isOwn) = true
        rw [hown, Bool.not_false]
    have hreq' : t.autofixStream = [] := by rw [ht']; exact hrest
    have hissued' : t.issued = w.issued := by rw [ht']
    have hruns : t.runs = w.runs := by rw [ht']
    constructor
    · refine ⟨.pending _ hlive' hreq' (by rw [ht']; exact hout) ?_, ?_⟩
      · by_cases hok : completedOk (fixResults w.runs r results) = true
        · -- a completed fix counts as an attempt
          have hevent : autoFixEvent w.runs r results = .autoFixCompleted := if_pos hok
          refine Or.inr ?_
          rw [hissued', hruns, hevent]
          exact hissued
        · have hevent : autoFixEvent w.runs r results = .autoFixFailed := if_neg hok
          exact Or.inl hevent
      · rw [hissued']
        exact h.issued
    · have hlen : t.qaStream.length = w.qaStream.length + 1 := by
        rw [ht', List.length_append, List.length_singleton]
      unfold World.measure World.left
      rw [hlive', hreq', hissued', hlen, hlive, hqueue, hrest]
      simp only [List.map_cons, List.map_nil, List.sum_cons, List.sum_nil, List.length_nil,
        List.length_singleton, freshMessage]
      omega

end Steps

variable {maxAttempts}

theorem carefulStep_inv (w : World) (a : Act) (t : World) (h : w.Inv maxAttempts)
    (ht : carefulStep maxAttempts w a = some t) :
    t.Inv maxAttempts ∧ t.measure maxAttempts < w.measure maxAttempts := by
  rcases guard_eq_some.mp ht with ⟨hcare, hstep⟩
  cases a with
  | validate m loads => exact validate_inv h hcare hstep
  | fix results => exact fix_inv h hstep

theorem start_inv {msg : QaMessage} (hmsg : msg.payload.event = .developmentCompleted)
    (runs : List ValidationRun) : (start msg runs).Inv maxAttempts := by
  have hlive : (start msg runs).live = [msg] := by
    unfold World.live start
    simp only
    rw [List.filter_cons_of_pos (by rw [hmsg]; rfl), List.filter_nil]
  exact ⟨.pending msg hlive rfl rfl (Or.inr (Nat.zero_le _)), Nat.zero_le _⟩

/-- A message is left to be handled, and can be: with a task without a workspace, say. -/
theorem enabled_of_not_idle {w : World} (h : ¬w.Idle) :
    ∃ a t, carefulStep maxAttempts w a = some t := by
  have m : Machine := ⟨⟨fun _ => false, fun _ => [], id⟩, fun _ _ => .absent, fun _ => none,
    fun _ => false⟩
  cases hqueue : w.qaStream with
  | cons msg rest =>
    have hstep : ∃ t, step maxAttempts w (.validate m ⟨none, [], none, none⟩) = some t := by
      apply Option.isSome_iff_exists.mp
      show (w.validate maxAttempts m ⟨none, [], none, none⟩).isSome = true
      unfold World.validate
      rw [hqueue]
      rfl
    rcases hstep with ⟨t, ht⟩
    refine ⟨_, t, guard_eq_some.mpr ⟨?_, ht⟩⟩
    unfold World.careful
    rw [hqueue]
    simp [Loads.passesThrough]
  | nil =>
    cases hreq : w.autofixStream with
    | nil => exact absurd ⟨hqueue, hreq⟩ h
    | cons r rest =>
      have hstep : ∃ t, step maxAttempts w (.fix fun _ => .applied) = some t := by
        apply Option.isSome_iff_exists.mp
        show (w.fix fun _ => .applied).isSome = true
        unfold World.fix
        rw [hreq]
        rfl
      rcases hstep with ⟨t, ht⟩
      exact ⟨_, t, guard_eq_some.mpr ⟨rfl, ht⟩⟩

/-- A module with its diff and a complete draft of a pull request. -/
def moduleLoads : Loads where
  workspace := some (.other "ready")
  artifacts := [{ filePath := "source/generated/a.py", diffText := "@@\n+x",
                  generatedContentPreview := "x" }]
  prDraft := some { body := fullBody }
  workItem := none

/-- A validation that finds a syntax error, the message to itself, and the fix. -/
def brokenRound (result : FixResult) : List Act :=
  [.validate (asciiMachine (some "invalid syntax")) moduleLoads,
    .validate (asciiMachine none) moduleLoads, .fix fun _ => result]

/-- `development.completed` as it is first delivered. -/
def delivered : QaMessage := freshMessage .developmentCompleted

theorem autoFixEvent_refused (runs : List ValidationRun) (r : FixRequest) (reason : String) :
    autoFixEvent runs r (fun _ => .refused reason) = .autoFixFailed := by
  have hno : completedOk (fixResults runs r fun _ => .refused reason) = false := by
    unfold completedOk fixResults
    rw [← Bool.not_eq_true, List.contains_iff_mem, List.mem_map]
    rintro ⟨e, -, he⟩
    split at he
    · unfold applyOne at he
      split_ifs at he
    · cases he
  unfold autoFixEvent
  rw [hno, if_neg Bool.false_ne_true]

/-- A validation of a failed fix asks for another one while attempts are left. -/
theorem validate_failed {w : World} {m : Machine} {loads : Loads} {findings : List Finding}
    (hqueue : w.qaStream = [freshMessage .autoFixFailed]) (hpass : loads.passesThrough = false)
    (hinspect : inspect m (freshMessage .autoFixFailed).payload loads = some findings)
    (hrepair : repairable findings = true) (hlt : w.attempts < maxAttempts) :
    ∃ run r, w.validate maxAttempts m loads = some { w with
        qaStream := [freshMessage .autoFixRequested]
        autofixStream := w.autofixStream ++ [r]
        runs := w.runs ++ [run]
        issued := w.issued ++ [r] } ∧ run.autoFixAttempts = w.attempts := by
  unfold World.validate
  rw [hqueue]
  simp only
  have hne : (freshMessage .autoFixFailed).payload.event ≠ .autoFixCompleted := by decide
  have hcurrent : currentAttempts (freshMessage .autoFixFailed).payload w.runs.getLast? =
      w.attempts := currentAttempts_of_ne hne
  have hhandled := handle_none maxAttempts m (freshMessage .autoFixFailed).payload loads
    w.runs.getLast?
  generalize handle maxAttempts m .none (freshMessage .autoFixFailed).payload loads
    w.runs.getLast? = e at hhandled ⊢
  cases hhandled with
  | ignored hown => cases hown
  | passed _ hpass' => cases hpass.symm.trans hpass'
  | raised _ _ hnone => cases hinspect.symm.trans hnone
  | decided _ _ findings' hsome run hrun =>
    have heq : findings = findings' := Option.some.inj (hinspect.symm.trans hsome)
    rw [← heq, hcurrent, autoFix_of_repairable hrepair hlt]
    exact ⟨run, _, rfl, hrun.trans hcurrent⟩

/-- That validation, the message to the agent itself and a fix that fails leave the attempts where
they were. -/
theorem round_of_refused {w : World} {m : Machine} {loads : Loads} {findings : List Finding}
    (reason : String) (hqueue : w.qaStream = [freshMessage .autoFixFailed])
    (hreq : w.autofixStream = []) (hpass : loads.passesThrough = false)
    (hinspect : inspect m (freshMessage .autoFixFailed).payload loads = some findings)
    (hrepair : repairable findings = true) (hlt : w.attempts < maxAttempts) :
    ∃ t, runActs (step maxAttempts) w
        [.validate m loads, .validate m loads, .fix fun _ => .refused reason] = some t ∧
      t.qaStream = [freshMessage .autoFixFailed] ∧ t.autofixStream = [] ∧
      t.attempts = w.attempts ∧ t.issued.length = w.issued.length + 1 := by
  rcases validate_failed hqueue hpass hinspect hrepair hlt with ⟨run, r, hfirst, hrun⟩
  let u : World := { w with
    qaStream := []
    autofixStream := [r]
    runs := w.runs ++ [run]
    issued := w.issued ++ [r] }
  have hsecond : World.validate maxAttempts
      { u with qaStream := [freshMessage .autoFixRequested] } m loads = some u := by
    unfold World.validate handle
    simp [Event.isOwn, freshMessage, World.after, u]
  have hthird : u.fix (fun _ => .refused reason) = some { u with
      qaStream := [freshMessage .autoFixFailed], autofixStream := [] } := by
    unfold World.fix
    simp only [u, autoFixEvent_refused, List.nil_append]
  refine ⟨{ u with qaStream := [freshMessage .autoFixFailed], autofixStream := [] }, ?_, rfl, rfl,
    ?_, ?_⟩
  · rw [hreq, List.nil_append] at hfirst
    exact runActs_cons.mpr ⟨_, hfirst, runActs_cons.mpr ⟨u, hsecond,
      runActs_cons.mpr ⟨_, hthird, rfl⟩⟩⟩
  · unfold World.attempts
    simp only [u, List.getLast?_append, List.getLast?_singleton]
    exact hrun
  · simp [u]

/-- **The loop is not bounded**: while the fixes fail and the findings stay, every number of
requests is issued. -/
theorem endless {w : World} {m : Machine} {loads : Loads} {findings : List Finding}
    (hqueue : w.qaStream = [freshMessage .autoFixFailed]) (hreq : w.autofixStream = [])
    (hpass : loads.passesThrough = false)
    (hinspect : inspect m (freshMessage .autoFixFailed).payload loads = some findings)
    (hrepair : repairable findings = true) (hlt : w.attempts < maxAttempts) (n : Nat) :
    ∃ as t, runActs (step maxAttempts) w as = some t ∧
      t.issued.length = w.issued.length + n := by
  induction n generalizing w with
  | zero => exact ⟨[], w, rfl, rfl⟩
  | succ n ih =>
    rcases round_of_refused "work_item_missing" hqueue hreq hpass hinspect hrepair hlt with
      ⟨u, hround, hqueue', hreq', hattempts, hissued⟩
    have hlt' : u.attempts < maxAttempts := by omega
    rcases ih hqueue' hreq' hlt' with ⟨as, t, hrun, hlen⟩
    refine ⟨_, t, runActs_append hround hrun, ?_⟩
    omega

end AiAgentsSwd.Qa
