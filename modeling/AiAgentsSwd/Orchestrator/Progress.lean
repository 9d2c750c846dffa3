import AiAgentsSwd.Orchestrator.Gates
import AiAgentsSwd.Orchestrator.Settled

/-!
# Orchestrator.Progress — when the progress of the agents is kept

An event is acknowledged whatever became of it, the handlers of the later stages enter nothing
for their agent, and the resume path writes an execution result of its own. `tidy` leaves these
out: then every acknowledged event has its entry, and the stage is the one of the last event, or
`completed` once the final one has come.
-/

namespace AiAgentsSwd.Orchestrator

open Keyed (Table)
open Transition

variable {ρ : Type} [DecidableEq ρ]

/-! ## The consumer's loop -/

/-- The request handles an agent event. -/
def Phase.handles : Phase → Bool
  | .handling _ => true
  | .writing (.event _) _ _ => true
  | _ => false

/-- The request has read the row for an agent event. -/
def Phase.hasRead : Phase → Bool
  | .writing (.event _) _ _ => true
  | _ => false

/-- The steps of a running workflow: `run` awaits one event before it takes the next, and nobody
terminates the workflow. -/
def loopStep (s : World ρ) : Act ρ → Option (World ρ)
  | .deliver r e =>
    if s.requests.rows.any fun q => q.2.handles then none else step s (.deliver r e)
  | .terminate _ _ => none
  | a => step s a

/-! ## What is promised -/

/-- The agent has an entry in `agent_progress`. -/
def World.hasEntry (s : World ρ) (agent : Agent) : Prop :=
  ∃ w, s.row = some w ∧ (w.executionResult.agentProgress.find? agent).isSome

/-- The final event is among them, or all of them set one stage. -/
def Agreeing (events : List AgentEvent) : Prop :=
  (∃ e ∈ events, e.name = .devopsDeploymentSimulated) ∨
    ∀ e ∈ events, ∀ e' ∈ events, e.target = e'.target

/-! ## Tidy steps -/

/-- The events of the agent pipeline. -/
def EventName.pipeline : EventName → Bool
  | requirementCompleted => true
  | developmentCompleted => true
  | qaCompleted => true
  | devopsDeploymentSimulated => true
  | qaAutoFixRequested => true
  | qaBlockedForHumanReview => true
  | developmentAutoFixCompleted => true
  | developmentAutoFixFailed => true
  | _ => false

/-- Only events of the pipeline are delivered; no call of `handle_event` to the store raises, nor
does it; and approvals and rejections are written before the first event is read. -/
def tidy (s : World ρ) : Act ρ → Bool
  | .deliver _ e => e.name.pipeline
  | .next r d => (s.requests.find? r).all fun p =>
    match p with
    | .handling e => !d.raises && (!e.raises || s.stageIn [.completed])
    | .writing (.event _) _ _ => !d.raises
    | .writing _ _ _ =>
      d.raises || (s.acked.isEmpty && !s.requests.rows.any fun q => q.2.hasRead)
    | _ => true
  | _ => true

/-! ## Pipeline events -/

/-- What a pipeline event makes of a workflow that is not terminated. -/
theorem advance_pipeline {w : Workflow} {e : AgentEvent} (hpipeline : e.name.pipeline = true)
    (hignored : ignoredStages.contains w.stage = false)
    (hraises : e.raises = false ∨ w.stage = .completed) :
    ∃ next, advance w e = .updates next ∧
      next.executionResult.agentProgress =
        w.executionResult.agentProgress.insert e.name.agent e.name.progress ∧
      next.stage = if w.stage = .completed then .completed else e.target := by
  have hadvance : advance w e = advancePipeline w e := by
    unfold advance
    rw [if_neg (by rw [hignored]; exact nofun)]
    cases hname : e.name <;> simp [hname, EventName.pipeline] at hpipeline <;> rfl
  rw [hadvance]
  unfold advancePipeline
  by_cases hfinal : e.name = .devopsDeploymentSimulated
  · refine ⟨_, if_pos hfinal, rfl, ?_⟩
    have htarget : e.target = .completed := by rw [AgentEvent.target, hfinal]
    rw [htarget, ite_self]
    rfl
  dsimp only
  rw [if_neg hfinal]
  by_cases hcompleted : w.stage = .completed
  · exact ⟨_, if_pos hcompleted, rfl, by rw [if_pos hcompleted]; exact hcompleted⟩
  rw [if_neg hcompleted, if_neg hcompleted]
  have hparse : e.raises = false := by
    rcases hraises with h | h
    · exact h
    · exact absurd h hcompleted
  cases hname : e.name with
  | qaAutoFixRequested =>
    have hcounts : e.countsParse = true := by
      simpa [AgentEvent.raises, hname, EventName.readsCounts] using hparse
    dsimp only
    rw [if_pos hcounts]
    exact ⟨_, rfl, rfl, by rw [AgentEvent.target, hname]; rfl⟩
  | requirementCompleted | developmentCompleted | qaCompleted | qaBlockedForHumanReview
  | developmentAutoFixCompleted | developmentAutoFixFailed =>
    exact ⟨_, rfl, rfl, by rw [AgentEvent.target, hname]; rfl⟩
  | _ => simp [hname, EventName.pipeline] at hpipeline hfinal

/-- The stage the events of the pipeline lead to. -/
def stageAfter (events : List AgentEvent) : Option Stage :=
  if events.any (·.name == .devopsDeploymentSimulated) then some .completed
  else events.getLast?.map AgentEvent.target

theorem stageAfter_append {events : List AgentEvent} {e : AgentEvent} :
    stageAfter (events ++ [e]) =
      if stageAfter events = some .completed then some .completed else some e.target := by
  unfold stageAfter
  rw [List.any_append]
  by_cases hbefore : (events.any (·.name == .devopsDeploymentSimulated)) = true
  · simp [hbefore]
  rw [if_neg (c := (events.any _) = true) hbefore]
  have hlast : ∀ e' : AgentEvent, e' ∈ events → e'.target ≠ .completed := by
    intro e' he' htarget
    have hname : e'.name ≠ .devopsDeploymentSimulated := by
      intro hname
      exact hbefore (List.any_eq_true.mpr ⟨e', he', by rw [hname]; rfl⟩)
    unfold AgentEvent.target at htarget
    cases hcase : e'.name <;> simp only [hcase] at htarget <;> try cases htarget
    all_goals first | exact hname hcase | (repeat' split at htarget) <;> cases htarget
  have hne : events.getLast?.map AgentEvent.target ≠ some .completed := by
    intro hsome
    rcases Option.map_eq_some_iff.mp hsome with ⟨e', he', htarget⟩
    exact hlast e' (List.mem_of_getLast? he') htarget
  rw [if_neg hne, Bool.eq_false_iff.mpr hbefore, Bool.false_or]
  by_cases hfinal : e.name = .devopsDeploymentSimulated
  · have htarget : e.target = .completed := by rw [AgentEvent.target, hfinal]
    simp [hfinal, htarget]
  · simp [hfinal]

/-- The stage does not depend on the order of agreeing events. -/
theorem stageAfter_perm {events events' : List AgentEvent} (hperm : events.Perm events')
    (hagree : Agreeing events) : stageAfter events = stageAfter events' := by
  unfold stageAfter
  have hany : events.any (·.name == .devopsDeploymentSimulated) =
      events'.any (·.name == .devopsDeploymentSimulated) := hperm.any_eq
  rw [← hany]
  by_cases hfinal : (events.any (·.name == .devopsDeploymentSimulated)) = true
  · rw [if_pos hfinal, if_pos hfinal]
  rw [if_neg hfinal, if_neg hfinal]
  have hsame : ∀ e ∈ events, ∀ e' ∈ events, e.target = e'.target := by
    rcases hagree with ⟨e, he, hname⟩ | hsame
    · exact absurd (List.any_eq_true.mpr ⟨e, he, by rw [hname]; rfl⟩) hfinal
    · exact hsame
  cases hlast : events.getLast? with
  | none =>
    have hnil := List.getLast?_eq_none_iff.mp hlast
    rw [hnil] at hperm
    rw [← hperm.nil_eq]
    rfl
  | some e =>
    cases hlast' : events'.getLast? with
    | none =>
      have hnil := List.getLast?_eq_none_iff.mp hlast'
      rw [hnil] at hperm
      rw [hperm.eq_nil] at hlast
      cases hlast
    | some e' =>
      have he := List.mem_of_getLast? hlast
      have he' := hperm.mem_iff.mpr (List.mem_of_getLast? hlast')
      rw [Option.map_some, Option.map_some, hsame e he e' he']

/-! ## The invariant -/

/-- What a request will write: for an event what its handler makes of the row as it is, else a
row that is neither finished nor terminated. -/
def Phase.Tidy (row : Option Workflow) : Phase → Prop
  | .handling e => e.name.pipeline = true
  | .writing (.event e) found next =>
    e.name.pipeline = true ∧ row = some found ∧ (e.raises = false ∨ found.stage = .completed) ∧
      advance found e = .updates next
  | .writing .resumed _ next => next.stage = .dispatched
  | .writing .rejected _ next => next.stage = .rejected
  | .writing (.terminated _) _ _ => False
  | .terminating _ => False
  | _ => True

/-- The acknowledged events have their entries, and the stage is the one they lead to. -/
structure Kept (s : World ρ) (w : Workflow) : Prop where
  row : s.row = some w
  running : ignoredStages.contains w.stage = false
  entries : ∀ e ∈ s.acked, (w.executionResult.agentProgress.find? e.name.agent).isSome
  stage : if s.acked = [] then w.stage ≠ .completed else stageAfter s.acked = some w.stage

/-- Requests are tidy, and one event is handled at a time. -/
structure TidyInv (s : World ρ) : Prop where
  kept : ∃ w, Kept s w
  requests : ∀ r p, s.requests.find? r = some p → p.Tidy s.row
  alone : ∀ r r' p p', s.requests.find? r = some p → s.requests.find? r' = some p' →
    p.handles = true → p'.handles = true → r = r'

/-- A phase that has not read the row for an event does not depend on it. -/
theorem Phase.Tidy.row {row row' : Option Workflow} {p : Phase} (h : p.Tidy row)
    (hread : p.hasRead = false) : p.Tidy row' := by
  cases p with
  | writing writer found next =>
    cases writer with
    | event e => cases hread
    | _ => exact h
  | _ => exact h

theorem Phase.handles_of_hasRead {p : Phase} (h : p.hasRead = true) : p.handles = true := by
  cases p with
  | writing writer found next =>
    cases writer with
    | event e => rfl
    | _ => cases h
  | _ => cases h

/-- The request goes to a tidy phase; an event is handled by no other request then. -/
theorem TidyInv.goto {s t : World ρ} (hs : TidyInv s) {r : ρ} {p : Phase} {w : Workflow}
    (hrequests : t.requests = s.requests) (hkept : Kept t w) (hp : p.Tidy t.row)
    (hrow : ∀ r' p', r' ≠ r → s.requests.find? r' = some p' → p'.hasRead = true → t.row = s.row)
    (halone : p.handles = true → ∀ r' p', r' ≠ r → s.requests.find? r' = some p' →
      p'.handles = false) : TidyInv (t.goto r p) := by
  have hputs : s.requests.Puts (t.goto r p).requests r p := by
    unfold World.goto
    rw [hrequests]
    exact Table.puts_insert _ _ _
  refine ⟨⟨w, hkept.row, hkept.running, hkept.entries, hkept.stage⟩, ?_, ?_⟩
  · intro r' p' hp'
    rcases hputs.find hp' with ⟨-, rfl⟩ | ⟨hne, hold⟩
    · exact hp
    · have htidy := hs.requests r' p' hold
      by_cases hread : p'.hasRead = true
      · have hsame : (t.goto r p).row = s.row := hrow r' p' hne hold hread
        rw [hsame]
        exact htidy
      · exact htidy.row (Bool.eq_false_iff.mpr hread)
  · intro r₁ r₂ p₁ p₂ hp₁ hp₂ hh₁ hh₂
    rcases hputs.find hp₁ with ⟨rfl, rfl⟩ | ⟨hne₁, hold₁⟩
    · rcases hputs.find hp₂ with ⟨rfl, rfl⟩ | ⟨hne₂, hold₂⟩
      · rfl
      · rw [halone hh₁ r₂ p₂ hne₂ hold₂] at hh₂
        cases hh₂
    · rcases hputs.find hp₂ with ⟨rfl, rfl⟩ | ⟨hne₂, hold₂⟩
      · rw [halone hh₂ r₁ p₁ hne₁ hold₁] at hh₁
        cases hh₁
      · exact hs.alone r₁ r₂ p₁ p₂ hold₁ hold₂ hh₁ hh₂

/-- A call that leaves the row alone, after which the request handles no event. -/
theorem TidyInv.free {s : World ρ} (hs : TidyInv s) {r : ρ} {p : Phase} (hp : p.Tidy s.row)
    (hfree : p.handles = false) : TidyInv (s.goto r p) := by
  rcases hs.kept with ⟨w, hkept⟩
  refine hs.goto rfl hkept hp (fun _ _ _ _ _ => rfl) fun hhandles => ?_
  rw [hfree] at hhandles
  cases hhandles

/-- Who handles an event is alone. -/
theorem TidyInv.others {s : World ρ} (hs : TidyInv s) {r : ρ} {p : Phase}
    (hr : s.requests.find? r = some p) (hhandles : p.handles = true) :
    ∀ r' p', r' ≠ r → s.requests.find? r' = some p' → p'.handles = false := by
  intro r' p' hne hp'
  by_contra hh
  exact hne (hs.alone r' r p' p hp' hr (by simpa using hh) hhandles)

/-! ## The calls -/

/-- The handler of a tidy event writes. -/
theorem TidyInv.handled {s : World ρ} (hs : TidyInv s) {r : ρ} {e : AgentEvent}
    {found next : Workflow} (hr : s.requests.find? r = some (.writing (.event e) found next)) :
    TidyInv ((s.update (.event e) next).finish r (.event e)) := by
  rcases hs.kept with ⟨w, hkept⟩
  rcases hs.requests r _ hr with ⟨hpipeline, hrow, hraises, hadvance⟩
  have hsame : w = found := Option.some.inj (hkept.row.symm.trans hrow)
  subst hsame
  rcases advance_pipeline hpipeline hkept.running hraises with ⟨next', hnext', hentry, hstage⟩
  rw [hadvance, Outcome.updates.injEq] at hnext'
  subst hnext'
  have hupdated : (s.update (.event e) next).row = some next := by
    unfold World.update
    rw [hkept.row]
    rfl
  have htarget : ignoredStages.contains e.target = false := by
    cases hname : e.name <;> simp [hname, EventName.pipeline] at hpipeline <;>
      rw [AgentEvent.target, hname] <;> rfl
  have hafter : stageAfter (s.acked ++ [e]) = some next.stage := by
    rw [stageAfter_append, hstage]
    by_cases hnil : s.acked = []
    · have hopen : w.stage ≠ .completed := by simpa [hnil] using hkept.stage
      rw [hnil, if_neg hopen]
      simp [stageAfter]
    · have hbefore : stageAfter s.acked = some w.stage := by simpa [hnil] using hkept.stage
      rw [hbefore]
      by_cases hcompleted : w.stage = .completed
      · rw [if_pos hcompleted, if_pos (by rw [hcompleted])]
      · rw [if_neg hcompleted, if_neg (fun h => hcompleted (Option.some.inj h))]
  have hkept' : Kept ((s.update (.event e) next).ack e) next := by
    refine ⟨hupdated, ?_, ?_, ?_⟩
    · rw [hstage]
      by_cases hcompleted : w.stage = .completed
      · rw [if_pos hcompleted]
        rfl
      · rw [if_neg hcompleted]
        exact htarget
    · intro e' he'
      rw [hentry]
      by_cases hagent : e'.name.agent = e.name.agent
      · rw [hagent, Table.find?_insert_self]
        rfl
      · rw [Table.find?_insert_of_ne _ _ hagent]
        rcases List.mem_append.mp he' with hold | hnew
        · exact hkept.entries e' hold
        · rw [List.mem_singleton.mp hnew] at hagent
          exact absurd rfl hagent
    · rw [if_neg (by simp [World.ack])]
      exact hafter
  refine hs.goto (t := (s.update (.event e) next).ack e) rfl hkept' trivial ?_ nofun
  intro r' p' hne hp' hread
  have hhandles := Phase.handles_of_hasRead hread
  rw [hs.others hr rfl r' p' hne hp'] at hhandles
  cases hhandles

/-- An approval or a rejection is written before any event is read. -/
theorem TidyInv.overwritten {s : World ρ} (hs : TidyInv s) {r : ρ} {writer : Writer}
    {next : Workflow} (hwriter : ∀ e, writer ≠ .event e)
    (hstage : next.stage = .dispatched ∨ next.stage = .rejected)
    (hacked : s.acked = []) (hread : (s.requests.rows.any fun q => q.2.hasRead) = false) :
    TidyInv ((s.update writer next).finish r writer) := by
  rcases hs.kept with ⟨w, hkept⟩
  have hupdated : (s.update writer next).row = some next := by
    unfold World.update
    rw [hkept.row]
    rfl
  have hkept' : Kept (s.update writer next) next := by
    refine ⟨hupdated, ?_, ?_, ?_⟩
    · rcases hstage with h | h <;> rw [h] <;> rfl
    · intro e he
      rw [show (s.update writer next).acked = s.acked from rfl, hacked] at he
      cases he
    · rw [if_pos (show (s.update writer next).acked = [] from hacked)]
      rcases hstage with h | h <;> rw [h] <;> nofun
  have hover : TidyInv ((s.update writer next).goto r .over) := by
    refine hs.goto rfl hkept' trivial ?_ nofun
    intro r' p' _ hp' hhas
    have hno := Table.any_rows_eq_false.mp hread r' p' hp'
    rw [hno] at hhas
    cases hhas
  cases writer with
  | event e => exact absurd rfl (hwriter e)
  | _ => exact hover

/-- A tidy call of a request. -/
theorem TidyInv.next {s : World ρ} (hs : TidyInv s) {r : ρ} {p : Phase} {d : Draw}
    (hr : s.requests.find? r = some p) (hok : tidy s (.next r d) = true) :
    TidyInv (s.next r d p) := by
  have hover : TidyInv (s.goto r .over) := hs.free trivial rfl
  have hp := hs.requests r p hr
  rcases hs.kept with ⟨w, hkept⟩
  simp only [tidy, hr, Option.all_some] at hok
  unfold World.next
  cases p with
  | handling e =>
    simp only [Bool.and_eq_true, Bool.not_eq_true', Bool.or_eq_true] at hok
    have hraises : e.raises = false ∨ w.stage = .completed := by
      simpa [World.stageIn, hkept.row] using hok.2
    rcases advance_pipeline hp hkept.running hraises with ⟨next, hadvance, -, -⟩
    dsimp only
    rw [if_neg (by rw [hok.1]; exact (by intro h; cases h)), hkept.row]
    dsimp only
    rw [hadvance]
    exact hs.goto rfl hkept ⟨hp, hkept.row, hraises, hadvance⟩ (fun _ _ _ _ _ => rfl)
      fun _ => hs.others hr rfl
  | writing writer found next =>
    dsimp only
    cases writer with
    | event e =>
      rw [if_neg (by simpa using hok)]
      exact hs.handled hr
    | resumed =>
      by_cases hraises : d.raises = true
      · rw [if_pos hraises]
        exact hover
      · rw [if_neg hraises]
        simp only [hraises, Bool.false_or, Bool.and_eq_true, List.isEmpty_iff,
          Bool.not_eq_true'] at hok
        exact hs.overwritten (fun _ => (by intro h; cases h)) (Or.inl hp) hok.1 hok.2
    | rejected =>
      by_cases hraises : d.raises = true
      · rw [if_pos hraises]
        exact hover
      · rw [if_neg hraises]
        simp only [hraises, Bool.false_or, Bool.and_eq_true, List.isEmpty_iff,
          Bool.not_eq_true'] at hok
        exact hs.overwritten (fun _ => (by intro h; cases h)) (Or.inr hp) hok.1 hok.2
    | terminated t => exact hp.elim
  | dispatching cause found =>
    have hwriting : (Phase.writing .resumed found found.applyApproved).Tidy s.row := by
      rfl
    dsimp only [World.dispatch]
    split
    · exact hs.goto rfl ⟨hkept.row, hkept.running, hkept.entries, hkept.stage⟩ hwriting
        (fun _ _ _ _ _ => rfl) (by intro h; cases h)
    · exact hs.free hwriting rfl
  | rejecting =>
    dsimp only
    repeat' split
    all_goals first | exact hover | exact hs.free rfl rfl
  | terminating t => exact hp.elim
  | consulting cause verdict =>
    dsimp only
    repeat' split
    all_goals first | exact hover | exact hs.free trivial rfl
  | resuming =>
    dsimp only
    repeat' split
    all_goals first | exact hover | exact hs.free trivial rfl
  | asking cause =>
    dsimp only
    repeat' split
    all_goals first | exact hover | exact hs.free trivial rfl
  | recovering =>
    dsimp only
    repeat' split
    all_goals first | exact hover | exact hs.free trivial rfl
  | reconciling cause =>
    dsimp only
    repeat' split
    all_goals first | exact hover | exact hs.free trivial rfl
  | applying cause =>
    dsimp only
    repeat' split
    all_goals first | exact hover | exact hs.free trivial rfl
  | «over» => exact hs

/-- **The step lemma.** -/
theorem step_tidy {s t : World ρ} {a : Act ρ} (hs : TidyInv s) (hok : tidy s a = true)
    (h : loopStep s a = some t) : TidyInv t := by
  have hstep : step s a = some t ∧ (∀ r u, a ≠ .terminate r u) ∧
      ∀ r e, a = .deliver r e → (s.requests.rows.any fun q => q.2.handles) = false := by
    unfold loopStep at h
    cases a with
    | deliver r e =>
      dsimp only at h
      split at h
      · cases h
      · rename_i hnone
        exact ⟨h, nofun, fun _ _ _ => by simpa using hnone⟩
    | terminate r u => cases h
    | _ => exact ⟨h, nofun, nofun⟩
  rcases hstep with ⟨hstep, hterminate, hfree⟩
  rcases step_cases hstep with ⟨r, p, hbegins, -, rfl⟩ | ⟨request, verdict, rfl, rfl⟩ |
    ⟨r, d, p, rfl, hr, rfl⟩ | ⟨r, p, rfl, -, rfl⟩
  · rcases hs.kept with ⟨w, hkept⟩
    cases a with
    | deliver r' e =>
      -- the loop takes the next event
      simp only [Act.begins, Option.some.injEq, Prod.mk.injEq] at hbegins
      rcases hbegins with ⟨rfl, rfl⟩
      have hnone := Table.any_rows_eq_false.mp (hfree _ _ rfl)
      exact hs.goto rfl hkept hok (fun _ _ _ _ _ => rfl) fun _ r'' p'' _ hp'' =>
        hnone r'' p'' hp''
    | terminate r' u => exact absurd rfl (hterminate r' u)
    | approvalEvent r' request verdict =>
      simp only [Act.begins, Option.some.injEq, Prod.mk.injEq] at hbegins
      rcases hbegins with ⟨rfl, rfl⟩
      exact hs.free trivial rfl
    | resume r' =>
      simp only [Act.begins, Option.some.injEq, Prod.mk.injEq] at hbegins
      rcases hbegins with ⟨rfl, rfl⟩
      exact hs.free trivial rfl
    | recover r' =>
      simp only [Act.begins, Option.some.injEq, Prod.mk.injEq] at hbegins
      rcases hbegins with ⟨rfl, rfl⟩
      exact hs.free trivial rfl
    | _ => cases hbegins
  · rcases hs.kept with ⟨w, hkept⟩
    exact ⟨⟨w, hkept.row, hkept.running, hkept.entries, hkept.stage⟩, hs.requests, hs.alone⟩
  · exact hs.next hr hok
  · exact hs.free trivial rfl

/-! ## Runs -/

theorem tidy_idle {w : Workflow} (h : w.stage ∉ terminalStages) :
    TidyInv (World.idle (some w) [] : World ρ) := by
  simp only [terminalStages, List.mem_cons, List.not_mem_nil, or_false, not_or] at h
  refine ⟨⟨w, rfl, ?_, ?_, ?_⟩, ?_, ?_⟩
  · simp [ignoredStages, h]
  · exact fun e he => absurd he List.not_mem_nil
  · exact h.1
  · exact fun r p hp => absurd hp (by simp [World.idle])
  · exact fun r _ p _ hp => absurd hp (by simp [World.idle])

theorem tidy_reaches {w : Workflow} (hrunning : w.stage ∉ terminalStages) {s : World ρ}
    (h : Reaches (guard (fun s a => tidy s a = true) loopStep) (World.idle (some w) []) s) :
    TidyInv s := by
  refine h.invariant (P := TidyInv) (fun s a t hs ha => ?_) (tidy_idle hrunning)
  rcases guard_eq_some.mp ha with ⟨hok, hstep⟩
  exact step_tidy hs hok hstep

/-- In tidy runs of a running workflow every acknowledged event has its entry, and where the
same agreeing events are acknowledged in two orders, they lead to one stage. -/
theorem progress_kept {w : Workflow} (hrunning : w.stage ∉ terminalStages) {s t : World ρ}
    (hs : Reaches (guard (fun s a => tidy s a = true) loopStep) (World.idle (some w) []) s)
    (ht : Reaches (guard (fun s a => tidy s a = true) loopStep) (World.idle (some w) []) t) :
    (∀ e ∈ s.acked, s.hasEntry e.name.agent) ∧
      (s.acked ≠ [] → s.acked.Perm t.acked → Agreeing s.acked →
        s.row.map Workflow.stage = t.row.map Workflow.stage) := by
  rcases (tidy_reaches hrunning hs).kept with ⟨v, hv⟩
  rcases (tidy_reaches hrunning ht).kept with ⟨v', hv'⟩
  constructor
  · exact fun e he => ⟨v, hv.row, hv.entries e he⟩
  · intro hne hperm hagree
    have hne' : t.acked ≠ [] := by
      intro hnil
      rw [hnil] at hperm
      exact hne hperm.eq_nil
    have hstage : stageAfter s.acked = some v.stage := by simpa [hne] using hv.stage
    have hstage' : stageAfter t.acked = some v'.stage := by simpa [hne'] using hv'.stage
    rw [hv.row, hv'.row, Option.map_some, Option.map_some, ← hstage, ← hstage',
      stageAfter_perm hperm hagree]

/-! ### Two runs -/

/-- The consumer handles an event. -/
def handleOne (r : Nat) (e : AgentEvent) (writes : Draw) : List (Act Nat) :=
  [.deliver r e, .next r {}, .next r writes]

def development : AgentEvent := { name := .developmentCompleted }

def qa : AgentEvent := { name := .qaCompleted }

theorem two_orders : ∃ s t : World Nat,
    runActs (guard (fun s a => tidy s a = true) loopStep)
      (World.idle (some { stage := .dispatched }) [])
      (handleOne 1 development {} ++ handleOne 2 qa {}) = some s ∧
    runActs (guard (fun s a => tidy s a = true) loopStep)
      (World.idle (some { stage := .dispatched }) [])
      (handleOne 1 qa {} ++ handleOne 2 development {}) = some t ∧
    (∀ e ∈ s.acked, s.hasEntry e.name.agent) ∧
    s.row.map Workflow.stage = t.row.map Workflow.stage := by
  have h : ((runActs (guard (fun s a => tidy s a = true) loopStep)
      (World.idle (some { stage := .dispatched }) [])
      (handleOne 1 development {} ++ handleOne 2 qa {})).any
        (fun s => s.acked == [development, qa]) &&
    (runActs (guard (fun s a => tidy s a = true) loopStep)
      (World.idle (some { stage := .dispatched }) [])
      (handleOne 1 qa {} ++ handleOne 2 development {})).any
        (fun t => t.acked == [qa, development])) = true := by decide +kernel
  rw [Bool.and_eq_true] at h
  rcases (Option.any_eq_true _ _).mp h.1 with ⟨s, hs, hacked⟩
  rcases (Option.any_eq_true _ _).mp h.2 with ⟨t, ht, hacked'⟩
  rw [beq_iff_eq] at hacked hacked'
  have hkept := progress_kept (by decide) (reaches_of_runActs hs) (reaches_of_runActs ht)
  refine ⟨s, t, hs, ht, hkept.1, hkept.2 ?_ ?_ ?_⟩
  · rw [hacked]
    exact nofun
  · rw [hacked, hacked']
    exact List.Perm.swap _ _ _
  · rw [hacked]
    exact Or.inr (by decide)

/-- The write of an event fails, and the event is acknowledged without an entry. -/
theorem progress_lost : ¬∀ s : World Nat,
    Reaches loopStep (World.idle (some { stage := .dispatched }) []) s →
      ∀ e ∈ s.acked, s.hasEntry e.name.agent := by
  intro hall
  have h : (runActs loopStep (World.idle (some { stage := .dispatched }) [])
      (handleOne 1 development { raises := true })).any (fun s : World Nat =>
        s.acked == [development] && s.row.all fun w =>
          (w.executionResult.agentProgress.find? .development).isNone) = true := by
    decide +kernel
  rcases (Option.any_eq_true _ _).mp h with ⟨s, hs, hboth⟩
  rw [Bool.and_eq_true, beq_iff_eq] at hboth
  rcases hall s (reaches_of_runActs hs) development (by rw [hboth.1]; exact List.mem_cons_self)
    with ⟨w, hw, hentry⟩
  rw [hw, Option.all_some] at hboth
  rw [show development.name.agent = .development from rfl, Option.isSome_iff_ne_none] at hentry
  exact hentry (Option.isNone_iff_eq_none.mp hboth.2)

end AiAgentsSwd.Orchestrator
