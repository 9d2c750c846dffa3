import AiAgentsSwd.ReadCommitted.Sweeps
import AiAgentsSwd.Tasks.ReplayRequests
import AiAgentsSwd.Tasks.ResumeRequests

/-!
# Tasks.Expiry — expiring the requests whose authorization has expired

`expire_due_requests` and `expire_due_replay_requests` are sweeps: the inner `SELECT` takes
candidates up to a limit, and those whose authorization has expired become `expired`. Neither
clears `authorized_at`, which no table allows on an expired row, and neither looks for due rows
before it cuts off at the limit. `expiry_iff` says exactly when they expire all that is due.
-/

namespace AiAgentsSwd.Tasks

open Keyed (Table Sweep)
open Planning (Uuid Time)
open ReadCommitted

variable {cfg : Settings} {Inv : Db → Prop} {c : Call} {r : Reply} {s t : Db}

/-! ## The rows -/

/-- A row of the table, with the time of its authorization if it is authorized. -/
def ResumeRequest.Coherent (r : ResumeRequest) : Prop :=
  r.check = true ∧ (r.state = .authorized → r.authorizedAt ≠ none)

/-- A row of the table, with the time of its authorization if it is authorized. -/
def ReplayRequest.Coherent (r : ReplayRequest) : Prop :=
  r.check = true ∧ (r.state = .authorized → r.authorizedAt ≠ none)

/-- Every request is such a row. -/
structure CoherentRequests (s : Db) : Prop where
  resume : ∀ id rr, s.resumeRequests.find? id = some rr → rr.Coherent
  replay : ∀ id rr, s.replayRequests.find? id = some rr → rr.Coherent

theorem ResumeStep.coherent (h : ResumeStep Inv s t)
    (hs : ∀ id rr, s.resumeRequests.find? id = some rr → rr.Coherent) :
    ∀ id rr, t.resumeRequests.find? id = some rr → rr.Coherent := by
  cases h with
  | other hrows _ =>
    rw [hrows]
    exact hs
  | requested _ _ _ _ _ hnew _ hcheck hrows _ =>
    refine hrows.all ⟨hcheck, fun h => ?_⟩ hs
    rw [← hnew] at h
    cases h
  | late _ _ _ _ _ _ _ _ hrows =>
    rw [hrows]
    exact hs
  | authorized _ _ hcheck hrows _ =>
    exact hrows.all ⟨hcheck, fun _ => by simp [ResumeRequest.authorizedRow]⟩ hs
  | declined _ _ _ hstate hcheck hrows _ _ =>
    refine hrows.all ⟨hcheck, fun h => ?_⟩ hs
    rw [h] at hstate
    simp at hstate
  | prepared h => exact h.rows.all ⟨h.check, fun h => by cases h⟩ hs
  | confirmed _ _ _ _ hstate hcheck hrows _ =>
    refine hrows.all ⟨hcheck, fun h => ?_⟩ hs
    rw [h] at hstate
    simp at hstate
  | @expired ids _ h hrows _ =>
    intro id rr hrr
    rw [hrows] at hrr
    by_cases hid : id ∈ ids
    · rcases h id hid with ⟨x, hx, -, hcheck⟩
      rw [if_pos hid, hx, Option.map_some, Option.some.injEq] at hrr
      rw [← hrr]
      exact ⟨hcheck, fun h => by cases h⟩
    · rw [if_neg hid] at hrr
      exact hs id rr hrr

theorem ReplayStep.coherent (h : ReplayStep cfg Inv c s t)
    (hs : ∀ id rr, s.replayRequests.find? id = some rr → rr.Coherent) :
    ∀ id rr, t.replayRequests.find? id = some rr → rr.Coherent := by
  cases h with
  | other hrows =>
    rw [hrows]
    exact hs
  | requested h =>
    refine h.rows.all ⟨h.check, fun hstate => ?_⟩ hs
    rw [← h.new] at hstate
    cases hstate
  | authorized _ _ _ _ _ hcheck hrows =>
    exact hrows.all ⟨hcheck, fun _ => by simp [ReplayRequest.authorizedRow]⟩ hs
  | declined _ _ _ hstate hcheck hrows =>
    refine hrows.all ⟨hcheck, fun h => ?_⟩ hs
    rw [h] at hstate
    simp at hstate
  | executed h => exact h.rows.all ⟨h.check, fun h => by cases h⟩ hs
  | @expired ids _ h hrows =>
    intro id rr hrr
    rw [hrows] at hrr
    by_cases hid : id ∈ ids
    · rcases h id hid with ⟨x, hx, -, hcheck⟩
      rw [if_pos hid, hx, Option.map_some, Option.some.injEq] at hrr
      rw [← hrr]
      exact ⟨hcheck, fun h => by cases h⟩
    · rw [if_neg hid] at hrr
      exact hs id rr hrr

/-- No resume and no replay has been requested. -/
def Unrequested (s : Db) : Prop :=
  (∀ id, s.resumeRequests.find? id = none) ∧ ∀ id, s.replayRequests.find? id = none

theorem coherent_of_reachable {ι : Type} [DecidableEq ι] {y : TaskSys ι}
    (hy : Reachable (program cfg) Unrequested y) : CoherentRequests y.db := by
  rcases run_of_reachable (f := fun c => c) hy with ⟨s, hs, hrun⟩
  refine hrun.keeps (I := CoherentRequests) (fun m hm hbefore => ?_) ⟨fun id rr h => ?_, fun id rr h => ?_⟩
  · exact ⟨hm.effect.resumeStep.coherent hbefore.resume,
      hm.effect.replayStep.coherent hbefore.replay⟩
  · rw [hs.1 id] at h
    cases h
  · rw [hs.2 id] at h
    cases h

/-! ## The two sweeps -/

/-- What `expire_due_requests` looks for and does. -/
def resumeSweep (authorizations : Table Uuid Authorization) (before : Time) :
    Sweep ResumeRequest Time where
  candidate := ResumeRequest.expirable
  due := ResumeRequest.due authorizations before
  set := ResumeRequest.expiredRow
  check := ResumeRequest.check
  candidate_of_due := fun _ h => (Bool.and_eq_true_iff.mp h).1
  candidate_set := fun _ _ => rfl
  check_set := fun _ _ _ => rfl

/-- What `expire_due_replay_requests` looks for and does. -/
def replaySweep (authorizations : Table Uuid Authorization) (before : Time) :
    Sweep ReplayRequest Time where
  candidate := ReplayRequest.active
  due := ReplayRequest.due authorizations before
  set := ReplayRequest.expiredRow
  check := ReplayRequest.check
  candidate_of_due := fun _ h => (Bool.and_eq_true_iff.mp h).1
  candidate_set := fun _ _ => rfl
  check_set := fun _ _ _ => rfl

/-- A coherent row may expire exactly when it has not been authorized. -/
theorem ResumeRequest.Coherent.settable_iff {x : ResumeRequest} (h : x.Coherent)
    {authorizations : Table Uuid Authorization} {before : Time} :
    (resumeSweep authorizations before).Settable x ↔
      (x.due authorizations before = true → x.state = .authorizationPending) := by
  rcases h with ⟨hcheck, hauthorized⟩
  have hexp : x.due authorizations before = true →
      x.state = .authorizationPending ∨ x.state = .authorized := by
    intro hdue
    have hexpirable := (Bool.and_eq_true_iff.mp hdue).1
    simpa [ResumeRequest.expirable] using hexpirable
  constructor
  · intro hset hdue
    rcases hexp hdue with hstate | hstate
    · exact hstate
    · have hcheck' : (x.expiredRow 0).check = true := hset hdue 0
      have hat := hauthorized hstate
      simp [ResumeRequest.check, ResumeRequest.expiredRow, hat] at hcheck'
  · intro hpending hdue p
    have hstate := hpending hdue
    show (x.expiredRow p).check = true
    simp only [ResumeRequest.check, hstate, Bool.and_eq_true, Bool.or_eq_true] at hcheck
    simp [ResumeRequest.check, ResumeRequest.expiredRow] at hcheck ⊢
    simp [hcheck]

theorem ReplayRequest.Coherent.settable_iff {x : ReplayRequest} (h : x.Coherent)
    {authorizations : Table Uuid Authorization} {before : Time} :
    (replaySweep authorizations before).Settable x ↔
      (x.due authorizations before = true → x.state = .authorizationPending) := by
  rcases h with ⟨hcheck, hauthorized⟩
  have hexp : x.due authorizations before = true →
      x.state = .authorizationPending ∨ x.state = .authorized := by
    intro hdue
    have hactive := (Bool.and_eq_true_iff.mp hdue).1
    simpa [ReplayRequest.active] using hactive
  constructor
  · intro hset hdue
    rcases hexp hdue with hstate | hstate
    · exact hstate
    · have hcheck' : (x.expiredRow 0).check = true := hset hdue 0
      have hat := hauthorized hstate
      simp [ReplayRequest.check, ReplayRequest.expiredRow, hat] at hcheck'
  · intro hpending hdue p
    have hstate := hpending hdue
    show (x.expiredRow p).check = true
    simp only [ReplayRequest.check, hstate, Bool.and_eq_true, Bool.or_eq_true] at hcheck
    simp [ReplayRequest.check, ReplayRequest.expiredRow] at hcheck ⊢
    simp [hcheck]

/-! ## The statement repeated -/

/-- The first `n` runs of an expiry statement, one after the other: `clock` is what the clock of
the database shows at each, and `ranks` the order in which the inner `SELECT` meets the rows. -/
def expireRounds (statement : (Uuid → Nat) → TaskTxn Nat) (ranks : Nat → Uuid → Nat)
    (clock : Nat → Time) : Nat → Db → Except Failure Db
  | 0, s => .ok s
  | n + 1, s =>
    match expireRounds statement ranks clock n s with
    | .error e => .error e
    | .ok t =>
      match (statement (ranks n)).exec { t with now := clock n } with
      | .error e => .error e
      | .ok o => .ok o.state

/-- With a limit of at least the number of candidates, one run succeeds and expires all that is
due and nothing else; with a limit of at least one, enough runs do. -/
structure ExpiresAll {R : Type} (T : TableAt Db Lock Uuid R) (w : Sweep R Time)
    (statement : Nat → (Uuid → Nat) → TaskTxn Nat) (limit : Nat) (s : Db) : Prop where
  once : ((T.get s).rows.countP fun e => w.candidate e.2) ≤ limit → ∀ rank,
    ∃ o, (statement limit rank).exec s = .ok o ∧ w.Done (T.get s) (T.get o.state)
  repeated : 1 ≤ limit → ∀ ranks clock, ∃ n t,
    expireRounds (statement limit) ranks clock n s = .ok t ∧ w.Done (T.get s) (T.get t)

section Sweeps

variable {R : Type} {T : TableAt Db Lock Uuid R} {w : Sweep R Time}
variable {statement : Nat → (Uuid → Nat) → TaskTxn Nat} {violation : Failure}
variable {authorizations : Table Uuid Authorization} {limit : Nat}

/-- Over these authorizations the statement is the sweep `w` of the table `T`. -/
structure IsSweep (T : TableAt Db Lock Uuid R) (w : Sweep R Time)
    (statement : Nat → (Uuid → Nat) → TaskTxn Nat) (violation : Failure)
    (authorizations : Table Uuid Authorization) : Prop where
  exec : ∀ s limit rank, s.authorizations = authorizations → (statement limit rank).exec s =
    (T.updateEach w.due (w.set s.now) w.check violation
      (T.selectLimit w.candidate rank limit s)).exec s
  frame : ∀ k f s, (T.modify k f s).authorizations = s.authorizations
  clock : ∀ s now, T.get { s with now := now } = T.get s

/-- A run of the statement is a pass of the sweep. -/
theorem IsSweep.run (h : IsSweep T w statement violation authorizations)
    (hs : s.authorizations = authorizations) {rank : Uuid → Nat} :
    (∀ o, (statement limit rank).exec s = .ok o → o.state.authorizations = authorizations ∧
        w.pass limit rank s.now (T.get s) = some (T.get o.state)) ∧
      ∀ u, w.pass limit rank s.now (T.get s) = some u →
        ∃ o, (statement limit rank).exec s = .ok o ∧ T.get o.state = u := by
  constructor
  · intro o ho
    rw [h.exec s limit rank hs] at ho
    rcases TableAt.exec_sweep.mp ⟨o, ho, rfl⟩ with ⟨hstate, hpass⟩
    refine ⟨?_, hpass⟩
    rw [hstate, TableAt.modifyAll_frame (X := Db.authorizations) (fun k s => h.frame k _ s), hs]
  · intro u hu
    rw [h.exec s limit rank hs]
    exact (TableAt.exec_of_pass hu).imp fun o ho => ⟨ho.1, ho.2.2⟩

/-- So are repeated runs. -/
theorem IsSweep.rounds (h : IsSweep T w statement violation authorizations)
    (hs : s.authorizations = authorizations) {ranks : Nat → Uuid → Nat} {clock : Nat → Time}
    (n : Nat) :
    (∀ t, expireRounds (statement limit) ranks clock n s = .ok t →
        t.authorizations = authorizations ∧
          w.passes limit ranks clock n (T.get s) = some (T.get t)) ∧
      ∀ u, w.passes limit ranks clock n (T.get s) = some u →
        ∃ t, expireRounds (statement limit) ranks clock n s = .ok t ∧ T.get t = u := by
  induction n with
  | zero =>
    constructor
    · intro t ht
      simp only [expireRounds, Except.ok.injEq] at ht
      subst ht
      exact ⟨hs, rfl⟩
    · intro u hu
      exact ⟨s, rfl, Option.some.inj hu⟩
  | succ n ih =>
    -- the `n`-th run starts from what the first `n` left, with the clock set
    have hnext : ∀ t, t.authorizations = authorizations →
        (∀ o, (statement limit (ranks n)).exec { t with now := clock n } = .ok o →
          o.state.authorizations = authorizations ∧
            w.pass limit (ranks n) (clock n) (T.get t) = some (T.get o.state)) ∧
        ∀ u, w.pass limit (ranks n) (clock n) (T.get t) = some u →
          ∃ o, (statement limit (ranks n)).exec { t with now := clock n } = .ok o ∧
            T.get o.state = u := by
      intro t ht
      constructor
      · intro o ho
        rcases (h.run (s := { t with now := clock n }) ht).1 o ho with ⟨hauth, hpass⟩
        rw [h.clock] at hpass
        exact ⟨hauth, hpass⟩
      · intro u hu
        rw [← h.clock t (clock n)] at hu
        exact (h.run (s := { t with now := clock n }) ht).2 u hu
    constructor
    · intro t ht
      unfold expireRounds at ht
      split at ht
      · cases ht
      · next t' ht' =>
        rcases ih.1 t' ht' with ⟨hauth, hpasses⟩
        split at ht
        · cases ht
        · next o ho =>
          simp only [Except.ok.injEq] at ht
          subst ht
          rcases (hnext t' hauth).1 o ho with ⟨hauth', hpass⟩
          exact ⟨hauth', Option.bind_eq_some_iff.mpr ⟨_, hpasses, hpass⟩⟩
    · intro u hu
      rcases Option.bind_eq_some_iff.mp hu with ⟨v, hv, hpass⟩
      rcases ih.2 v hv with ⟨t, ht, rfl⟩
      rcases (hnext t (ih.1 t ht).1).2 u hpass with ⟨o, ho, hget⟩
      refine ⟨o.state, ?_, hget⟩
      unfold expireRounds
      rw [ht]
      simp only [ho]

theorem IsSweep.expiresAll_iff (h : IsSweep T w statement violation s.authorizations) :
    ExpiresAll T w statement limit s ↔ limit = 0 ∨
      (∀ k x, (T.get s).find? k = some x → w.Settable x) ∧
        ((∀ k x, (T.get s).find? k = some x → w.due x = false) ∨
          ((T.get s).rows.countP fun e => w.idle e.2) < limit) := by
  constructor
  · intro hall
    by_cases hzero : limit = 0
    · exact Or.inl hzero
    · refine Or.inr (Sweep.passes_iff.mp fun ranks clock => ?_)
      rcases hall.repeated (by omega) ranks clock with ⟨n, t, ht, hdone⟩
      exact ⟨n, _, ((h.rounds rfl n).1 t ht).2, hdone⟩
  · intro hcond
    constructor
    · intro hroom rank
      have hset : ∀ k x, (T.get s).find? k = some x → w.Settable x := by
        rcases hcond with hzero | hcond
        · -- there is no candidate
          intro k x hx hdue
          rw [hzero, Nat.le_zero, List.countP_eq_zero] at hroom
          exact absurd (w.candidate_of_due x hdue) (hroom (k, x) (Table.mem_rows.mpr hx))
        · exact hcond.1
      rcases (Sweep.pass_iff hroom s.now).mpr hset rank with ⟨u, hu, hdone⟩
      rcases (h.run rfl).2 u hu with ⟨o, ho, hget⟩
      exact ⟨o, ho, by rw [hget]; exact hdone⟩
    · intro hlimit ranks clock
      have hcond' := hcond.resolve_left (by omega)
      rcases Sweep.passes_iff.mpr hcond' ranks clock with ⟨n, u, hu, hdone⟩
      rcases (h.rounds rfl n).2 u hu with ⟨t, ht, hget⟩
      exact ⟨n, t, ht, by rw [hget]; exact hdone⟩

end Sweeps

theorem isSweep_expireDueRequests (before : Time) (authorizations : Table Uuid Authorization) :
    IsSweep At.resumeRequests (resumeSweep authorizations before) (expireDueRequests before)
      resumeRequestsViolation authorizations where
  exec := fun s limit rank hs => by
    subst hs
    rfl
  frame := fun _ _ _ => rfl
  clock := fun _ _ => rfl

theorem isSweep_expireDueReplayRequests (before : Time)
    (authorizations : Table Uuid Authorization) :
    IsSweep At.replayRequests (replaySweep authorizations before) (expireDueReplayRequests before)
      replayRequestsViolation authorizations where
  exec := fun s limit rank hs => by
    subst hs
    rfl
  frame := fun _ _ _ => rfl
  clock := fun _ _ => rfl

/-- In every reachable state the two statements expire all that is due, and nothing else,
exactly when they are given no room at all, or no authorized request is due and, if anything is
due, the pending and authorized requests that are not are fewer than the limit. -/
theorem expiry_iff {ι : Type} [DecidableEq ι] {y : TaskSys ι}
    (hy : Reachable (program cfg) Unrequested y) (before : Time) (limit : Nat) :
    (ExpiresAll At.resumeRequests (resumeSweep y.db.authorizations before)
        (expireDueRequests before) limit y.db ↔
      limit = 0 ∨
        (∀ id rr, y.db.resumeRequests.find? id = some rr →
          rr.due y.db.authorizations before = true → rr.state = .authorizationPending) ∧
        ((∀ id rr, y.db.resumeRequests.find? id = some rr →
          rr.due y.db.authorizations before = false) ∨
        (y.db.resumeRequests.rows.countP fun e =>
          e.2.expirable && !e.2.due y.db.authorizations before) < limit)) ∧
    (ExpiresAll At.replayRequests (replaySweep y.db.authorizations before)
        (expireDueReplayRequests before) limit y.db ↔
      limit = 0 ∨
        (∀ id rr, y.db.replayRequests.find? id = some rr →
          rr.due y.db.authorizations before = true → rr.state = .authorizationPending) ∧
        ((∀ id rr, y.db.replayRequests.find? id = some rr →
          rr.due y.db.authorizations before = false) ∨
        (y.db.replayRequests.rows.countP fun e =>
          e.2.active && !e.2.due y.db.authorizations before) < limit)) := by
  have hcoherent := coherent_of_reachable hy
  constructor
  · rw [(isSweep_expireDueRequests before y.db.authorizations).expiresAll_iff]
    have hset : (∀ k x, y.db.resumeRequests.find? k = some x →
        (resumeSweep y.db.authorizations before).Settable x) ↔
        ∀ id rr, y.db.resumeRequests.find? id = some rr →
          rr.due y.db.authorizations before = true → rr.state = .authorizationPending :=
      forall₃_congr fun id rr hrr => (hcoherent.resume id rr hrr).settable_iff
    rw [← hset]
    rfl
  · rw [(isSweep_expireDueReplayRequests before y.db.authorizations).expiresAll_iff]
    have hset : (∀ k x, y.db.replayRequests.find? k = some x →
        (replaySweep y.db.authorizations before).Settable x) ↔
        ∀ id rr, y.db.replayRequests.find? id = some rr →
          rr.due y.db.authorizations before = true → rr.state = .authorizationPending :=
      forall₃_congr fun id rr hrr => (hcoherent.replay id rr hrr).settable_iff
    rw [← hset]
    rfl

/-! ### A run -/

/-- A resume is requested and authorized until the time 60. -/
def expiryCalls : List Call := [
  .saveTask ⟨3⟩ { status := .intakeReview, projectId := some ⟨2⟩, productionEffect := false },
  .createClarification ⟨5⟩ ⟨3⟩ 100 50,
  .claimClarificationAnswer ⟨5⟩,
  .markResumeEligible ⟨5⟩ 0,
  .requestResume ⟨⟨10⟩, ⟨11⟩, ⟨12⟩⟩ olga home ⟨5⟩ "k1" 60 none,
  .authorizeResume ⟨13⟩ ⟨11⟩ policyAuthority home "p1"]

def expiryRun : TaskSys Unit := Sys.calls (program openGates) emptyDb expiryCalls

theorem unrequested_emptyDb : Unrequested emptyDb := ⟨fun _ => rfl, fun _ => rfl⟩

/-- The authorized request cannot expire. -/
theorem authorized_never_expires : Reachable (program openGates) Unrequested expiryRun ∧
    (expiryRun.db.resumeRequests.rows.countP fun e => e.2.expirable) = 1 ∧
    ¬ ∃ o, (expireDueRequests 60 1 fun _ => 0).exec expiryRun.db = .ok o := by
  refine ⟨reachable_calls unrequested_emptyDb expiryCalls, by decide +kernel, ?_⟩
  rintro ⟨o, ho⟩
  have hraise : (match (expireDueRequests 60 1 fun _ => 0).exec expiryRun.db with
      | .ok _ => true
      | .error _ => false) = false := by decide +kernel
  rw [ho] at hraise
  cases hraise

theorem expiry_run : ¬ ExpiresAll At.resumeRequests
    (resumeSweep expiryRun.db.authorizations 60) (expireDueRequests 60) 1 expiryRun.db ∧
    ExpiresAll At.resumeRequests (resumeSweep expiryRun.db.authorizations 59)
      (expireDueRequests 59) 1 expiryRun.db := by
  have hy : Reachable (program openGates) Unrequested expiryRun :=
    reachable_calls unrequested_emptyDb expiryCalls
  constructor
  · intro hall
    rcases ((expiry_iff hy 60 1).1).mp hall with hzero | ⟨hpending, -⟩
    · omega
    · have hrow : (expiryRun.db.resumeRequests.rows.any fun e =>
          e.2.due expiryRun.db.authorizations 60 && e.2.state != .authorizationPending) = true := by
        decide +kernel
      rcases List.any_eq_true.mp hrow with ⟨⟨id, rr⟩, hmem, hdue⟩
      rw [Bool.and_eq_true] at hdue
      rw [hpending id rr (Table.mem_rows.mp hmem) hdue.1] at hdue
      exact absurd hdue.2 (by decide)
  · have hrows : (expiryRun.db.resumeRequests.rows.any fun e =>
        e.2.due expiryRun.db.authorizations 59) = false := by decide +kernel
    have hnone : ∀ id rr, expiryRun.db.resumeRequests.find? id = some rr →
        rr.due expiryRun.db.authorizations 59 = false := by
      intro id rr hrr
      rw [Table.any_rows_eq_false] at hrows
      exact hrows id rr hrr
    refine ((expiry_iff hy 59 1).1).mpr (Or.inr ⟨fun id rr hrr hdue => ?_, Or.inl hnone⟩)
    rw [hnone id rr hrr] at hdue
    cases hdue

end AiAgentsSwd.Tasks
