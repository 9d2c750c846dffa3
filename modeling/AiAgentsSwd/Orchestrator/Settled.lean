import AiAgentsSwd.Orchestrator.Requests

/-!
# Orchestrator.Settled — when terminal stages are not left

Only `_terminate_workflow` looks for the terminal stages before it decides, and nothing looks at
the row again before it is overwritten. `careful` says what would have to be looked at: where a
request reads the row, that the row is in no stage the request would move it out of; where it
writes, that the workflow has not come to a terminal stage since.
-/

namespace AiAgentsSwd.Orchestrator

open Keyed (Table)
open Transition

variable {ρ : Type} [DecidableEq ρ]

/-- A terminal stage is still there in the second world. -/
def Stays (s t : World ρ) : Prop :=
  ∀ w, s.row = some w → w.stage ∈ terminalStages → ∃ w', t.row = some w' ∧ w'.stage = w.stage

/-- The row is in one of the stages. -/
def World.stageIn (s : World ρ) (stages : List Stage) : Bool :=
  s.row.any fun w => stages.contains w.stage

/-- No event is read by a rejected workflow, no approval by a terminal one, no rejection by a
finished or terminated one; and no write finds a workflow that has become terminal since the
request read it. -/
def careful (s : World ρ) : Act ρ → Bool
  | .next r d => d.raises || (s.requests.find? r).all fun p =>
    match p with
    | .handling e => e.raises || !s.stageIn [.rejected]
    | .applying _ => !s.stageIn terminalStages
    | .rejecting => !s.stageIn [.completed, .canceled, .aborted]
    | .writing _ found _ => s.row.all fun w =>
      !terminalStages.contains w.stage || w.stage == found.stage
    | _ => true
  | _ => true

/-! ## What a request will write -/

/-- What the request will write keeps the terminal stage it has read. -/
def Phase.Keeps : Phase → Prop
  | .dispatching _ found => found.stage ∉ terminalStages
  | .writing _ found next => found.stage ∈ terminalStages → next.stage = found.stage
  | _ => True

/-- Events are ignored by terminated workflows, and finished ones stay so. -/
theorem advance_keeps {w next : Workflow} {e : AgentEvent}
    (hrejected : e.raises = true ∨ w.stage ≠ .rejected) (h : advance w e = .updates next) :
    w.stage ∈ terminalStages → next.stage = w.stage := by
  intro hterminal
  unfold advance at h
  by_cases hignored : ignoredStages.contains w.stage = true
  · rw [if_pos hignored] at h
    cases h
  rw [if_neg hignored] at h
  have hstage : w.stage = .completed ∨ w.stage = .rejected ∧ e.raises = true := by
    simp only [terminalStages, List.mem_cons, List.not_mem_nil, or_false] at hterminal
    rcases hterminal with hstage | hstage | hstage | hstage
    · exact Or.inl hstage
    · rw [hstage] at hignored
      exact absurd rfl hignored
    · rw [hstage] at hignored
      exact absurd rfl hignored
    · rcases hrejected with hraises | hne
      · exact Or.inr ⟨hstage, hraises⟩
      · exact absurd hstage hne
  rcases hstage with hstage | ⟨hstage, hraises⟩
  · have hsettle : ∀ stage counts, settleAt w e stage counts = .ignored := by
      intro stage counts
      unfold settleAt
      rw [if_pos hstage]
    cases hname : e.name <;> simp only [hname, advanceProject, advanceDesignReview,
      advanceWorkspace, advanceDeliveryPilot, advanceDeliveryPackage, hsettle, advancePipeline,
      hstage] at h <;> cases h <;> rw [hstage] <;> first | rfl | exact hstage
  · -- an event that raises updates nothing
    rw [AgentEvent.raises, Bool.and_eq_true, Bool.not_eq_true'] at hraises
    cases hname : e.name <;> simp [hname, EventName.readsCounts] at hraises <;>
      simp [hname, advanceProject, advanceDesignReview, advanceWorkspace, advanceDeliveryPilot,
        settleAt, advancePipeline, hstage, hraises] at h

/-- Every request under way keeps the terminal stage it has read. -/
def Inv (s : World ρ) : Prop := ∀ r p, s.requests.find? r = some p → p.Keeps

theorem Inv.goto {s t : World ρ} (hs : Inv s) (hrequests : t.requests = s.requests) {r : ρ}
    {p : Phase} (hp : p.Keeps) : Inv (t.goto r p) := by
  intro r' p' hp'
  unfold World.goto at hp'
  rw [hrequests] at hp'
  rcases (Table.puts_insert s.requests r p).find hp' with ⟨-, rfl⟩ | ⟨-, hold⟩
  · exact hp
  · exact hs r' p' hold

theorem Inv.finish {s t : World ρ} (hs : Inv s) (hrequests : t.requests = s.requests) {r : ρ}
    {writer : Writer} : Inv (t.finish r writer) := by
  cases writer <;> exact hs.goto hrequests trivial

theorem finish_row {s : World ρ} {r : ρ} {writer : Writer} : (s.finish r writer).row = s.row := by
  cases writer <;> rfl

theorem Stays.of_row {s t : World ρ} (h : t.row = s.row) : Stays s t := by
  intro w hw _
  exact ⟨w, h.trans hw, rfl⟩

theorem Stays.trans {s t u : World ρ} (h : Stays s t) (h' : Stays t u) : Stays s u := by
  intro w hw hterminal
  rcases h w hw hterminal with ⟨w', hw', hstage⟩
  rcases h' w' hw' (by rw [hstage]; exact hterminal) with ⟨w'', hw'', hstage'⟩
  exact ⟨w'', hw'', hstage'.trans hstage⟩

/-- A careful call of a request. -/
theorem next_keeps {s : World ρ} (hs : Inv s) {r : ρ} {p : Phase} {d : Draw}
    (hr : s.requests.find? r = some p) (hok : careful s (.next r d) = true) :
    Inv (s.next r d p) ∧ Stays s (s.next r d p) := by
  have hover : Inv (s.goto r .over) ∧ Stays s (s.goto r .over) :=
    ⟨hs.goto rfl trivial, .of_row rfl⟩
  have hfree : ∀ {p : Phase}, p.Keeps → Inv (s.goto r p) ∧ Stays s (s.goto r p) :=
    fun hp => ⟨hs.goto rfl hp, .of_row rfl⟩
  have hend : ∀ {writer : Writer}, Inv (s.finish r writer) ∧ Stays s (s.finish r writer) :=
    ⟨hs.finish rfl, .of_row finish_row⟩
  have hp := hs r p hr
  simp only [careful, hr, Option.all_some] at hok
  unfold World.next
  cases p with
  | handling e =>
    dsimp only at hok ⊢
    by_cases hraises : d.raises = true
    · rw [if_pos hraises]
      exact hend
    rw [if_neg hraises]
    cases hrow : s.row with
    | none => exact hend
    | some w =>
      dsimp only
      cases hadvance : advance w e with
      | updates next =>
        refine hfree (advance_keeps ?_ hadvance)
        simpa [hraises, World.stageIn, hrow] using hok
      | ignored => exact hend
      | raises => exact hend
  | consulting cause verdict =>
    dsimp only
    split
    · exact hover
    · cases verdict <;> exact hfree trivial
  | resuming =>
    dsimp only
    repeat' split
    all_goals first | exact hover | exact hfree trivial
  | asking cause =>
    dsimp only
    split
    · exact hfree trivial
    · exact hover
  | recovering =>
    dsimp only
    repeat' split
    all_goals first | exact hover | exact hfree trivial
  | reconciling cause =>
    dsimp only
    repeat' split
    all_goals first | exact hover | exact hfree trivial
  | applying cause =>
    dsimp only at hok ⊢
    by_cases hraises : d.raises = true
    · rw [if_pos hraises]
      exact hover
    rw [if_neg hraises]
    cases hrow : s.row with
    | none => exact hover
    | some w =>
      have hopen : w.stage ∉ terminalStages := by
        simpa [hraises, World.stageIn, hrow] using hok
      exact hfree hopen
  | dispatching cause found =>
    -- what is read at the dispatch is not terminal
    have hkeeps : (Phase.writing .resumed found found.applyApproved).Keeps :=
      fun hterminal => absurd hterminal hp
    dsimp only [World.dispatch]
    split
    · exact ⟨hs.goto rfl hkeeps, .of_row rfl⟩
    · exact hfree hkeeps
  | rejecting =>
    dsimp only at hok ⊢
    by_cases hraises : d.raises = true
    · rw [if_pos hraises]
      exact hover
    rw [if_neg hraises]
    cases hrow : s.row with
    | none => exact hover
    | some w =>
      refine hfree fun hterminal => ?_
      have hopen : w.stage ∉ ([.completed, .canceled, .aborted] : List Stage) := by
        simpa [hraises, World.stageIn, hrow] using hok
      simp only [terminalStages, List.mem_cons, List.not_mem_nil, or_false] at hterminal hopen
      push Not at hopen
      have hstage : w.stage = .rejected := by
        rcases hterminal with h | h | h | h
        · exact absurd h hopen.1
        · exact absurd h hopen.2.1
        · exact absurd h hopen.2.2
        · exact h
      exact hstage.symm
  | terminating t =>
    dsimp only
    by_cases hraises : d.raises = true
    · rw [if_pos hraises]
      exact hover
    rw [if_neg hraises]
    cases hrow : s.row with
    | none => exact hover
    | some w =>
      dsimp only
      by_cases hterminal : terminalStages.contains w.stage = true
      · rw [if_pos hterminal]
        exact hover
      · rw [if_neg hterminal]
        exact hfree fun h => absurd (List.contains_iff_mem.mpr h) hterminal
  | writing writer found next =>
    dsimp only at hok ⊢
    by_cases hraises : d.raises = true
    · rw [if_pos hraises]
      exact hend
    rw [if_neg hraises]
    refine ⟨hs.finish (t := s.update writer next) rfl, fun w hw hterminal => ⟨next, ?_, ?_⟩⟩
    · rw [finish_row]
      unfold World.update
      rw [hw]
      rfl
    · -- the terminal stage was there when the request read the row
      have hsame : w.stage = found.stage := by
        simpa [hraises, hw, hterminal] using hok
      rw [hsame] at hterminal ⊢
      exact hp hterminal
  | «over» => exact ⟨hs, .of_row rfl⟩

omit [DecidableEq ρ] in
/-- Nothing is to be written when a request comes in. -/
theorem begins_keeps {a : Act ρ} {r : ρ} {p : Phase} (h : a.begins = some (r, p)) : p.Keeps := by
  cases a <;> simp only [Act.begins, Option.some.injEq, Prod.mk.injEq, reduceCtorEq] at h
  all_goals
    rw [← h.2]
    trivial

/-- **The step lemma.** -/
theorem step_keeps {s t : World ρ} {a : Act ρ} (hs : Inv s) (hok : careful s a = true)
    (h : step s a = some t) : Inv t ∧ Stays s t := by
  rcases step_cases h with ⟨r, p, hbegins, -, rfl⟩ | ⟨request, verdict, rfl, rfl⟩ |
    ⟨r, d, p, rfl, hr, rfl⟩ | ⟨r, p, rfl, -, rfl⟩
  · exact ⟨hs.goto rfl (begins_keeps hbegins), .of_row rfl⟩
  · exact ⟨hs, .of_row rfl⟩
  · exact next_keeps hs hr hok
  · exact ⟨hs.goto rfl trivial, .of_row rfl⟩

/-! ## Runs -/

theorem inv_idle (row : Option Workflow) (log : List Entry) :
    Inv (World.idle row log : World ρ) := by
  intro r p hp
  simp [World.idle] at hp

/-- In every run of careful requests a terminal stage is never left. -/
theorem terminal_stays {row : Option Workflow} {log : List Entry} {s t : World ρ}
    (hs : Reaches (guard (fun s a => careful s a = true) step) (World.idle row log) s)
    (h : Reaches (guard (fun s a => careful s a = true) step) s t) : Stays s t := by
  have hstep : ∀ (s : World ρ) (a : Act ρ) (t : World ρ), Inv s →
      guard (fun s a => careful s a = true) step s a = some t → Inv t ∧ Stays s t := by
    intro s a t hs ha
    rcases guard_eq_some.mp ha with ⟨hok, ha⟩
    exact step_keeps hs hok ha
  have hinv : Inv s :=
    hs.invariant (fun s a t hs ha => (hstep s a t hs ha).1) (inv_idle row log)
  exact h.relates (P := Inv) (R := Stays) (fun s a t hs ha => (hstep s a t hs ha).1)
    (fun _ => .of_row rfl) (fun _ _ _ => Stays.trans) (fun s a t hs ha => (hstep s a t hs ha).2)
    hinv

/-! ### Two runs -/

/-- A workflow is dispatched, reports once, and is canceled. -/
def canceledRun : List (Act Nat) := [
  .deliver 1 { name := .requirementCompleted },
  .next 1 {},
  .next 1 {},
  .terminate 2 .canceled,
  .next 2 {},
  .next 2 {}]

/-- A late event is ignored. -/
def lateEvent : List (Act Nat) := [.deliver 3 { name := .developmentCompleted }, .next 3 {}]

/-- The approval is granted, and its event comes in. -/
def lateApproval : List (Act Nat) := [
  .decide "request-1" .approved,
  .approvalEvent 3 "request-1" .approved,
  .next 3 {},
  .next 3 {},
  .next 3 {},
  .next 3 {}]

theorem canceled_stays : ∃ s t : World Nat,
    runActs (guard (fun s a => careful s a = true) step)
      (World.idle (some { stage := .dispatched }) []) canceledRun = some s ∧
    runActs (guard (fun s a => careful s a = true) step) s lateEvent = some t ∧
    s.stageIn [.canceled] = true ∧ Stays s t := by
  have h : (runActs (guard (fun s a => careful s a = true) step)
      (World.idle (some { stage := .dispatched }) []) canceledRun).any (fun s : World Nat =>
        s.stageIn [.canceled] &&
        (runActs (guard (fun s a => careful s a = true) step) s lateEvent).isSome) = true := by
    decide +kernel
  rcases (Option.any_eq_true _ _).mp h with ⟨s, hs, hboth⟩
  rw [Bool.and_eq_true] at hboth
  rcases Option.isSome_iff_exists.mp hboth.2 with ⟨t, ht⟩
  exact ⟨s, t, hs, ht, hboth.1, terminal_stays (reaches_of_runActs hs) (reaches_of_runActs ht)⟩

/-- A canceled workflow is dispatched by an approval. -/
theorem canceled_dispatched : ¬∀ s t : World Nat,
    Reaches step (World.idle (some { stage := .dispatched }) []) s → Reaches step s t →
      Stays s t := by
  intro hall
  have h : (runActs step (World.idle (some { stage := .dispatched }) []) canceledRun).any
      (fun s : World Nat => s.stageIn [.canceled] &&
        (runActs step s lateApproval).any fun t => t.stageIn [.dispatched]) = true := by
    decide +kernel
  rcases (Option.any_eq_true _ _).mp h with ⟨s, hs, hboth⟩
  rw [Bool.and_eq_true] at hboth
  rcases (Option.any_eq_true _ _).mp hboth.2 with ⟨t, ht, hdispatched⟩
  rcases (Option.any_eq_true _ _).mp hboth.1 with ⟨w, hw, hcanceled⟩
  rcases (Option.any_eq_true _ _).mp hdispatched with ⟨w', hw', hstage'⟩
  have hcanceled : w.stage = .canceled := by simpa using hcanceled
  have hstage' : w'.stage = .dispatched := by simpa using hstage'
  rcases hall s t (reaches_of_runActs hs) (reaches_of_runActs ht) w hw
    (by rw [hcanceled]; decide) with ⟨w'', hw'', hsame⟩
  have heq : w' = w'' := Option.some.inj (hw'.symm.trans hw'')
  rw [← heq, hstage', hcanceled] at hsame
  cases hsame

end AiAgentsSwd.Orchestrator
