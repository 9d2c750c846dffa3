import AiAgentsSwd.Listing.Queue
import AiAgentsSwd.Tasks.Alone
import AiAgentsSwd.Tasks.Authorizations

/-!
# Tasks.ExpiryCycle — a cycle of the expiry poller

Model of `ClarificationLifecyclePoller._run_cycle` with `_claim_one_expiry` in
`shared/sdk/tasks/lifecycle_poller.py`, run by a single worker. A clarification whose task is not
waiting for it is never expired and stays due, so each cycle claims it again before the rows
behind it. `cycle_expires_iff` says when that leaves room for a row that can be expired.
-/

namespace AiAgentsSwd.Tasks

open Keyed (Table)
open Planning (Uuid Time)
open ReadCommitted Txn
open Listing (due)

variable {s : Db}

/-! ## The cycle -/

/-- The rows that are due, in the order in which a cycle claims them. -/
def dueExpiries (s : Db) (now : Time) : List (Uuid × Clarification) :=
  due (fun e => e.2.dueAt)
    (s.clarifications.rows.filter fun e => e.2.status == .open && e.2.answeredAt.isNone) now

/-- What `_claim_one_expiry` says about the row it has claimed. -/
inductive ClaimStatus where
  | committed
  | suppressedTerminal
  | reconcile
deriving Repr, DecidableEq

/-- The statuses with which a claim returns after it has rolled back; any other failure is
raised. -/
def Failure.claimStatus : Failure → Option ClaimStatus
  | .rolledBack outcome =>
    if outcome = "suppressed_terminal" then some .suppressedTerminal else some .reconcile
  | .uniqueViolation _ => some .reconcile
  | _ => none

/-- `_claim_one_expiry(conn, skip)` with what it returns: after a rollback the row is the one that
the first statement claimed. -/
def claimExpiry (skip : List Uuid) (eventId : Uuid) :
    Client Db Failure (Option (ClaimStatus × Uuid)) := fun s =>
  match Client.transact (claimOneExpiry (fun id => skip.contains id) eventId) s with
  | (.ok .nothing, t) => (.ok none, t)
  | (.ok (.committed id), t) => (.ok (some (.committed, id)), t)
  | (.error e, t) =>
    match e.claimStatus, ((dueExpiries s s.now).filter fun x => !skip.contains x.1).head? with
    | some status, some x => (.ok (some (status, x.1)), t)
    | _, _ => (.error e, t)

/-- The clock moves on between two rounds. -/
def later (s : Db) (elapsed : Time) : Db := { s with now := s.now + elapsed }

/-- One round of the cycle: how long after the one before it starts, and the id it draws. -/
structure Round where
  elapsed : Time
  eventId : Uuid

/-- How many expiries the cycle has committed, and how many claims it has made. -/
structure CycleCount where
  committed : Nat
  claims : Nat
deriving Repr, DecidableEq

/-- `_run_cycle(poller="expiry", …)`: one round for each number in `range(batch_size)`. -/
def runExpiryCycle : List Round → List Uuid → CycleCount → Client Db Failure CycleCount
  | [], _, n => return n
  | x :: rounds, skip, n => fun s =>
    match claimExpiry skip x.eventId (later s x.elapsed) with
    | (.error e, t) => (.error e, t)
    | (.ok none, t) => (.ok ⟨n.committed, n.claims + 1⟩, t)
    | (.ok (some (.committed, _)), t) =>
      runExpiryCycle rounds skip ⟨n.committed + 1, n.claims + 1⟩ t
    | (.ok (some (_, id)), t) =>
      runExpiryCycle rounds (skip ++ [id]) ⟨n.committed, n.claims + 1⟩ t

/-! ## One claim -/

/-- The task of the clarification waits for it, and its expiry has not been recorded. -/
def ExpiryReady (s : Db) (e : Uuid × Clarification) : Prop :=
  (∃ task, s.tasks.find? e.2.taskId = some task ∧ task.status = .clarificationNeeded) ∧
    ¬KeyTaken s (toString e.1 ++ ":expired")

/-- What the statement of a claim selects. -/
theorem run_claimFirst_overdue {skip : List Uuid} :
    (At.clarifications.claimFirst (Clarification.overdue s.now) (fun a b => a.dueAt ≤ b.dueAt)
      (fun id => skip.contains id) : TaskTxn (Option (Uuid × Clarification))).run s =
      .ok (((dueExpiries s s.now).filter fun x => !skip.contains x.1).head?, s) := by
  rw [TableAt.run_claimFirst]
  unfold dueExpiries due
  rw [← Listing.filter_insertionSort, List.filter_filter, List.filter_filter]
  have hrows : (At.clarifications.get s).rows.filter (fun e => Clarification.overdue s.now e.2 &&
      !skip.contains e.1) = s.clarifications.rows.filter (fun e => (!skip.contains e.1 &&
        (decide (e.2.dueAt ≤ s.now) && (e.2.status == .open && e.2.answeredAt.isNone)))) := by
    refine List.filter_congr fun e _ => ?_
    unfold Clarification.overdue
    rw [Bool.and_comm, Bool.and_comm (decide _)]
  rw [hrows]
  simp only [decide_eq_true_eq, Bool.and_assoc]

/-- The row that a claim takes. -/
def nextExpiry (s : Db) (skip : List Uuid) : Option (Uuid × Clarification) :=
  ((dueExpiries s s.now).filter fun x => !skip.contains x.1).head?

/-- Every clarification satisfies the check of its table. -/
def Checked (s : Db) : Prop := ∀ id c, s.clarifications.find? id = some c → c.check = true

/-- What an expiry leaves. -/
def expired (s : Db) (e : Uuid × Clarification) (eventId : Uuid) : Db :=
  At.outbox.insert eventId
    (newOutboxEvent e.1 e.2.taskId .clarificationExpired (toString e.1 ++ ":expired")
      [("reason", .text "expired")] s.now)
    (At.clarifications.modify e.1 (Clarification.expiredRow s.now)
      (At.tasks.modify e.2.taskId (fun t => { t with status := .clarificationExpired }) s))

variable {skip : List Uuid} {eventId : Uuid} {e : Uuid × Clarification}

theorem find?_of_nextExpiry (h : nextExpiry s skip = some e) :
    s.clarifications.find? e.1 = some e.2 := by
  have hmem := List.mem_of_mem_filter (List.mem_of_mem_head? h)
  exact Table.mem_rows.mp (List.mem_of_mem_filter (Listing.mem_due.mp hmem).1)

theorem blank_expiredKey {id : Uuid} : blank (toString id ++ ":expired") = false := by
  have hsuffix : blank ":expired" = false := by decide +kernel
  unfold blank at hsuffix ⊢
  rw [String.toList_append, List.all_append, hsuffix, Bool.and_false]

theorem run_claimFirst_of_next (hnext : nextExpiry s skip = some e) :
    (At.clarifications.claimFirst (Clarification.overdue s.now) (fun a b => a.dueAt ≤ b.dueAt)
      (fun id => skip.contains id) : TaskTxn (Option (Uuid × Clarification))).run s =
        .ok (some e, s) := by
  rw [run_claimFirst_overdue]
  exact congrArg (fun x => Except.ok (x, s)) hnext

/-- The claim of a row whose task waits for it: it expires, or its event is there already. -/
theorem run_claimOneExpiry {task : Task} (hnext : nextExpiry s skip = some e) (hs : Checked s)
    (hid : s.outbox.find? eventId = none) (htask : s.tasks.find? e.2.taskId = some task)
    (hstatus : task.status = .clarificationNeeded) :
    (claimOneExpiry (fun id => skip.contains id) eventId).run s =
      if s.outbox.rows.any fun x => x.2.idempotencyKey == toString e.1 ++ ":expired" then
        .error (.uniqueViolation "uq_clarification_lifecycle_outbox_idempotency_key")
      else .ok (.committed e.1, expired s e eventId) := by
  have hclaim := run_claimFirst_of_next hnext
  have hrow : (At.tasks.get s).find? e.2.taskId = some task := htask
  have hlock : (At.tasks.selectForUpdate e.2.taskId (fun _ => true) :
      TaskTxn (Option Task)).run s = .ok (some task, s) :=
    TableAt.run_selectForUpdate_of_find hrow rfl
  -- the state after the task, and the state after the clarification
  obtain ⟨u, hu⟩ : ∃ u, At.tasks.modify e.2.taskId
      (fun t => { t with status := .clarificationExpired }) s = u := ⟨_, rfl⟩
  obtain ⟨v, hv⟩ : ∃ v, At.clarifications.modify e.1 (Clarification.expiredRow s.now) u = v :=
    ⟨_, rfl⟩
  have hnow : u.now = s.now := by
    rw [← hu]
    rfl
  have hwaits : (fun t : Task => t.status == .clarificationNeeded) task = true :=
    beq_iff_eq.mpr hstatus
  have hupdate : (At.tasks.update e.2.taskId (fun t => t.status == .clarificationNeeded)
      (fun t => { t with status := .clarificationExpired }) (fun _ => true)
      (.checkViolation "operator_tasks") : TaskTxn (Option Task)).run s =
        .ok (some { task with status := .clarificationExpired }, u) := by
    rw [TableAt.run_update_of_find hrow hwaits, hu]
    rfl
  have hexpire : (At.clarifications.update e.1 (fun _ => true) (Clarification.expiredRow s.now)
      Clarification.check (.checkViolation "operator_clarification_requests") :
        TaskTxn (Option Clarification)).run u = .ok (some (e.2.expiredRow s.now), v) := by
    have hfound := find?_of_nextExpiry hnext
    have hcheck : (e.2.expiredRow s.now).check = true := hs e.1 e.2 hfound
    have hrow' : (At.clarifications.get u).find? e.1 = some e.2 := by
      rw [← hu]
      exact hfound
    rw [TableAt.run_update_of_find hrow' rfl, hv]
    exact if_pos hcheck
  have hbox : v.outbox = s.outbox := by
    rw [← hv, ← hu]
    rfl
  have hnow' : v.now = s.now := by
    rw [← hv, ← hu]
    rfl
  have hid' : v.outbox.find? eventId = none := by
    rw [hbox]
    exact hid
  have hemit : (insertLifecycleOutboxEvent eventId e.1 e.2.taskId .clarificationExpired
      (toString e.1 ++ ":expired") [("reason", .text "expired")]).run v = _ :=
    run_insertLifecycleOutboxEvent hid' blank_expiredKey
  rw [hbox, hnow'] at hemit
  have hopen : closedTaskStatuses.contains TaskStatus.clarificationNeeded = false := by decide
  unfold claimOneExpiry
  simp only [bind_eq, pure_eq, run_bind, run_statementTimestamp, andThen_ok, hclaim, hlock, hstatus,
    hopen, Bool.false_eq_true, if_false, ne_eq, not_true_eq_false, hupdate, hnow, hexpire, hemit]
  by_cases hkey : (s.outbox.rows.any fun x =>
      x.2.idempotencyKey == toString e.1 ++ ":expired") = true
  · rw [if_pos hkey, if_pos hkey, andThen_error]
  · rw [if_neg hkey, if_neg hkey, andThen_ok, run_done]
    unfold expired
    rw [hu, hv]

/-- The claim of a row whose task does not wait for it is rolled back. -/
theorem run_claimOneExpiry_of_not (hnext : nextExpiry s skip = some e)
    (hno : ∀ task, s.tasks.find? e.2.taskId = some task → task.status ≠ .clarificationNeeded) :
    ∃ outcome, (claimOneExpiry (fun id => skip.contains id) eventId).run s =
      .error (.rolledBack outcome) := by
  have hclaim := run_claimFirst_of_next hnext
  have hlock : (At.tasks.selectForUpdate e.2.taskId (fun _ => true) :
      TaskTxn (Option Task)).run s = .ok ((s.tasks.find? e.2.taskId).filter (fun _ => true), s) :=
    TableAt.run_selectForUpdate
  unfold claimOneExpiry
  simp only [bind_eq, pure_eq, run_bind, run_statementTimestamp, andThen_ok, hclaim, hlock]
  cases htask : s.tasks.find? e.2.taskId with
  | none => exact ⟨_, rfl⟩
  | some task =>
    have hstatus : task.status ≠ .clarificationNeeded := hno task htask
    simp only [Option.filter_some, if_true]
    by_cases hclosed : closedTaskStatuses.contains task.status = true
    · rw [if_pos hclosed]
      exact ⟨_, rfl⟩
    · rw [if_neg hclosed, if_pos hstatus]
      exact ⟨_, rfl⟩

/-- With no row left to claim, the cycle is over. -/
theorem claimExpiry_none (hnext : nextExpiry s skip = none) :
    claimExpiry skip eventId s = (.ok none, s) := by
  have hclaim : (At.clarifications.claimFirst (Clarification.overdue s.now)
      (fun a b => a.dueAt ≤ b.dueAt) (fun id => skip.contains id) :
        TaskTxn (Option (Uuid × Clarification))).run s = .ok (none, s) := by
    rw [run_claimFirst_overdue]
    exact congrArg (fun x => Except.ok (x, s)) hnext
  have hrun : (claimOneExpiry (fun id => skip.contains id) eventId).run s = .ok (.nothing, s) := by
    unfold claimOneExpiry
    simp only [bind_eq, pure_eq, run_bind, run_statementTimestamp, andThen_ok, hclaim, run_done]
  unfold claimExpiry
  rw [transact_of_ok hrun]

theorem claimExpiry_ready (hnext : nextExpiry s skip = some e) (hs : Checked s)
    (hid : s.outbox.find? eventId = none) (hready : ExpiryReady s e) :
    claimExpiry skip eventId s = (.ok (some (.committed, e.1)), expired s e eventId) := by
  rcases hready with ⟨⟨task, htask, hstatus⟩, hkey⟩
  have hrun := run_claimOneExpiry hnext hs hid htask hstatus
  rw [keyTaken_iff] at hkey
  rw [if_neg hkey] at hrun
  unfold claimExpiry
  rw [transact_of_ok hrun]

/-- A row that cannot be expired is put aside, and nothing is written. -/
theorem claimExpiry_blocked (hnext : nextExpiry s skip = some e) (hs : Checked s)
    (hid : s.outbox.find? eventId = none) (hnot : ¬ExpiryReady s e) :
    ∃ status, status ≠ ClaimStatus.committed ∧
      claimExpiry skip eventId s = (.ok (some (status, e.1)), s) := by
  have herror : ∃ f status, (claimOneExpiry (fun id => skip.contains id) eventId).run s =
      .error f ∧ f.claimStatus = some status ∧ status ≠ .committed := by
    by_cases hwaits : ∃ task, s.tasks.find? e.2.taskId = some task ∧
        task.status = .clarificationNeeded
    · rcases hwaits with ⟨task, htask, hstatus⟩
      have hkey : KeyTaken s (toString e.1 ++ ":expired") := by
        by_contra hfree
        exact hnot ⟨⟨task, htask, hstatus⟩, hfree⟩
      have hrun := run_claimOneExpiry hnext hs hid htask hstatus
      rw [keyTaken_iff] at hkey
      rw [if_pos hkey] at hrun
      exact ⟨_, .reconcile, hrun, rfl, by decide⟩
    · have hno : ∀ task, s.tasks.find? e.2.taskId = some task →
          task.status ≠ .clarificationNeeded := fun task htask hstatus =>
        hwaits ⟨task, htask, hstatus⟩
      rcases @run_claimOneExpiry_of_not s skip eventId e hnext hno with ⟨outcome, hrun⟩
      by_cases houtcome : outcome = "suppressed_terminal"
      · exact ⟨_, .suppressedTerminal, hrun, if_pos houtcome, by decide⟩
      · exact ⟨_, .reconcile, hrun, if_neg houtcome, by decide⟩
  rcases herror with ⟨f, status, hrun, hstatus, hne⟩
  refine ⟨status, hne, ?_⟩
  have hhead : ((dueExpiries s s.now).filter fun x => !skip.contains x.1).head? = some e := hnext
  unfold claimExpiry
  rw [transact_of_error hrun]
  simp only [hstatus, hhead]

/-! ## A cycle -/

/-- The ids of the rounds are new, and each is drawn once. -/
def FreshRounds (s : Db) (rounds : List Round) : Prop :=
  (rounds.map Round.eventId).Nodup ∧ ∀ x ∈ rounds, s.outbox.find? x.eventId = none

theorem FreshRounds.head {x : Round} {rounds : List Round} (h : FreshRounds s (x :: rounds)) :
    s.outbox.find? x.eventId = none := h.2 x List.mem_cons_self

theorem FreshRounds.tail {x : Round} {rounds : List Round} (h : FreshRounds s (x :: rounds)) :
    FreshRounds s rounds :=
  ⟨(List.nodup_cons.mp h.1).2, fun y hy => h.2 y (List.mem_cons_of_mem x hy)⟩

/-- The id of the event that a round has written is not drawn again. -/
theorem FreshRounds.expired {x : Round} {rounds : List Round} (h : FreshRounds s (x :: rounds)) :
    FreshRounds (expired s e x.eventId) rounds := by
  refine ⟨h.tail.1, fun y hy => ?_⟩
  have hne : y.eventId ≠ x.eventId := by
    intro heq
    refine (List.nodup_cons.mp h.1).1 ?_
    rw [← heq]
    exact List.mem_map_of_mem hy
  have hother : (Tasks.expired s e x.eventId).outbox.find? y.eventId = s.outbox.find? y.eventId :=
    Table.find?_insert_of_ne _ _ hne
  rw [hother]
  exact h.tail.2 y hy

theorem Checked.expired (h : Checked s) : Checked (expired s e eventId) := by
  intro id c hc
  have hget : (Tasks.expired s e eventId).clarifications =
      s.clarifications.modify e.1 (Clarification.expiredRow s.now) := rfl
  rw [hget, Table.find?_modify] at hc
  by_cases hid : id = e.1
  · rw [if_pos hid] at hc
    rcases Option.map_eq_some_iff.mp hc with ⟨c', hc', heq⟩
    rw [← heq]
    exact h _ c' hc'
  · rw [if_neg hid] at hc
    exact h id c hc

/-- What the first round of a cycle does. -/
theorem round_cases (x : Round) (rounds : List Round) (skip : List Uuid) (n : CycleCount) (hs : Checked s)
    (hid : s.outbox.find? x.eventId = none) :
    (nextExpiry (later s x.elapsed) skip = none ∧ runExpiryCycle (x :: rounds) skip n s =
        (.ok ⟨n.committed, n.claims + 1⟩, later s x.elapsed)) ∨
      ∃ e, nextExpiry (later s x.elapsed) skip = some e ∧
        ((ExpiryReady (later s x.elapsed) e ∧ runExpiryCycle (x :: rounds) skip n s =
            runExpiryCycle rounds skip ⟨n.committed + 1, n.claims + 1⟩
              (expired (later s x.elapsed) e x.eventId)) ∨
          (¬ExpiryReady (later s x.elapsed) e ∧ runExpiryCycle (x :: rounds) skip n s =
            runExpiryCycle rounds (skip ++ [e.1]) ⟨n.committed, n.claims + 1⟩
              (later s x.elapsed))) := by
  have hchecked : Checked (later s x.elapsed) := hs
  have hfresh : (later s x.elapsed).outbox.find? x.eventId = none := hid
  cases hnext : nextExpiry (later s x.elapsed) skip with
  | none =>
    have hclaim : claimExpiry skip x.eventId (later s x.elapsed) = _ := claimExpiry_none hnext
    refine Or.inl ⟨rfl, ?_⟩
    simp only [runExpiryCycle, hclaim]
  | some e =>
    refine Or.inr ⟨e, rfl, ?_⟩
    by_cases hready : ExpiryReady (later s x.elapsed) e
    · have hclaim := claimExpiry_ready hnext hchecked hfresh hready
      refine Or.inl ⟨hready, ?_⟩
      simp only [runExpiryCycle, hclaim]
    · rcases claimExpiry_blocked hnext hchecked hfresh hready with ⟨status, hne, hclaim⟩
      refine Or.inr ⟨hready, ?_⟩
      cases status with
      | committed => exact absurd rfl hne
      | suppressedTerminal => simp only [runExpiryCycle, hclaim]
      | reconcile => simp only [runExpiryCycle, hclaim]

/-- Without a database error the cycle ends: it has made at most as many claims as it has rounds,
and kept what it had committed. -/
theorem cycle_ends {rounds : List Round} (skip : List Uuid) (n : CycleCount) (hs : Checked s)
    (hfresh : FreshRounds s rounds) :
    ∃ r t, runExpiryCycle rounds skip n s = (.ok r, t) ∧ n.committed ≤ r.committed ∧
      r.claims ≤ n.claims + rounds.length := by
  induction rounds generalizing s skip n with
  | nil => exact ⟨n, s, rfl, le_refl _, le_refl _⟩
  | cons x rounds ih =>
    have hchecked : Checked (later s x.elapsed) := hs
    have hfresh' : FreshRounds (later s x.elapsed) (x :: rounds) := hfresh
    rw [List.length_cons]
    rcases round_cases x rounds skip n hs hfresh.head with ⟨-, hrun⟩ | ⟨e, -, ⟨-, hrun⟩ | ⟨-, hrun⟩⟩
    · rw [hrun]
      refine ⟨_, _, rfl, le_refl _, ?_⟩
      show n.claims + 1 ≤ n.claims + (rounds.length + 1)
      omega
    · rcases ih skip ⟨n.committed + 1, n.claims + 1⟩ hchecked.expired hfresh'.expired with ⟨r, t, hrest, hcommitted, hclaims⟩
      dsimp only at hcommitted hclaims
      rw [hrun]
      exact ⟨r, t, hrest, by omega, by omega⟩
    · rcases ih (skip ++ [e.1]) ⟨n.committed, n.claims + 1⟩ hchecked hfresh'.tail with
        ⟨r, t, hrest, hcommitted, hclaims⟩
      dsimp only at hclaims
      rw [hrun]
      exact ⟨r, t, hrest, hcommitted, by omega⟩

/-! ## When a cycle expires something -/

/-- The rows that were due at some time and are not put aside yet are claimed first. -/
theorem nextExpiry_of_rest {now : Time} {e : Uuid × Clarification} {rest : List (Uuid × Clarification)}
    (hnow : now ≤ s.now)
    (hrest : ((dueExpiries s now).filter fun x => !skip.contains x.1) = e :: rest) :
    nextExpiry s skip = some e := by
  have hprefix : dueExpiries s now <+: dueExpiries s s.now := Listing.due_prefix hnow
  rcases hprefix with ⟨behind, hbehind⟩
  unfold nextExpiry
  rw [← hbehind, List.filter_append, hrest]
  rfl

/-- Putting the first one aside leaves the others. -/
theorem rest_of_skipped {now : Time} {e : Uuid × Clarification}
    {rest : List (Uuid × Clarification)}
    (hrest : ((dueExpiries s now).filter fun x => !skip.contains x.1) = e :: rest) :
    ((dueExpiries s now).filter fun x => !(skip ++ [e.1]).contains x.1) = rest := by
  have hnodup : ((e :: rest).map Prod.fst).Nodup := by
    rw [← hrest]
    have hdue : ((dueExpiries s now).map Prod.fst).Nodup := by
      exact Listing.nodup_due (s.clarifications.nodup_keys_filter
        fun e => e.2.status == .open && e.2.answeredAt.isNone)
    exact hdue.sublist (List.filter_sublist.map Prod.fst)
  rw [List.map_cons, List.nodup_cons] at hnodup
  have hsplit : ((dueExpiries s now).filter fun x => !(skip ++ [e.1]).contains x.1) =
      ((dueExpiries s now).filter fun x => !skip.contains x.1).filter fun x => x.1 != e.1 := by
    rw [List.filter_filter]
    refine List.filter_congr fun x _ => ?_
    by_cases hx : x.1 = e.1
    · simp [hx]
    · simp [hx]
  rw [hsplit, hrest, List.filter_cons, if_neg (by simp), List.filter_eq_self]
  intro x hx
  rw [bne_iff_ne]
  intro heq
  exact hnodup.1 (heq ▸ List.mem_map_of_mem hx)

/-- Of the rows due at some time, the cycle commits one if and only if one that is ready is among
as many of them as it has rounds. -/
theorem cycle_commits {rounds : List Round} (skip : List Uuid) (n : CycleCount) {now : Time}
    {rest : List (Uuid × Clarification)} (hs : Checked s) (hfresh : FreshRounds s rounds)
    (hnow : now ≤ s.now)
    (hrest : ((dueExpiries s now).filter fun x => !skip.contains x.1) = rest)
    (hsome : ∃ e ∈ rest, ExpiryReady s e) :
    ∃ r t, runExpiryCycle rounds skip n s = (.ok r, t) ∧
      (n.committed < r.committed ↔ ∃ e ∈ rest.take rounds.length, ExpiryReady s e) := by
  induction rounds generalizing s skip n rest with
  | nil =>
    refine ⟨n, s, rfl, ?_⟩
    simp
  | cons x rounds ih =>
    cases rest with
    | nil =>
      rcases hsome with ⟨e, he, -⟩
      cases he
    | cons e rest =>
      have hchecked : Checked (later s x.elapsed) := hs
      have hfresh' : FreshRounds (later s x.elapsed) (x :: rounds) := hfresh
      have hnow' : now ≤ (later s x.elapsed).now := Nat.le_trans hnow (Nat.le_add_right _ _)
      have hnext : nextExpiry (later s x.elapsed) skip = some e := nextExpiry_of_rest hnow' hrest
      rw [List.length_cons, List.take_succ_cons]
      rcases round_cases x rounds skip n hs hfresh.head with ⟨hnone, -⟩ | ⟨e', he', hcases⟩
      · rw [hnext] at hnone
        cases hnone
      rw [hnext, Option.some.injEq] at he'
      rw [← he'] at hcases
      rcases hcases with ⟨hready, hrun⟩ | ⟨hnot, hrun⟩
      · -- the row is expired, and what follows keeps the count
        have hexpired : Checked (expired (later s x.elapsed) e x.eventId) := hchecked.expired
        rcases cycle_ends skip ⟨n.committed + 1, n.claims + 1⟩ hexpired hfresh'.expired with
          ⟨r, t, hend, hcommitted, -⟩
        dsimp only at hcommitted
        rw [hrun]
        refine ⟨r, t, hend, ?_⟩
        constructor
        · intro _
          exact ⟨e, List.mem_cons_self, hready⟩
        · intro _
          omega
      · have hsome' : ∃ y ∈ rest, ExpiryReady (later s x.elapsed) y := by
          rcases hsome with ⟨y, hy, hready⟩
          rcases List.mem_cons.mp hy with hye | hyr
          · rw [hye] at hready
            exact absurd hready hnot
          · exact ⟨y, hyr, hready⟩
        rcases ih (skip ++ [e.1]) ⟨n.committed, n.claims + 1⟩ hchecked hfresh'.tail hnow'
          (rest_of_skipped hrest) hsome' with ⟨r, t, hend, hiff⟩
        rw [hrun]
        refine ⟨r, t, hend, hiff.trans ?_⟩
        constructor
        · rintro ⟨y, hy, hready⟩
          exact ⟨y, List.mem_cons_of_mem e hy, hready⟩
        · rintro ⟨y, hy, hready⟩
          rcases List.mem_cons.mp hy with hye | hyr
          · rw [hye] at hready
            exact absurd hready hnot
          · exact ⟨y, hyr, hready⟩

/-- The rows that the cycle claims before it has expired anything: as many of those that are due
when it starts as it has rounds. -/
def firstClaims (s : Db) (batchSize : Nat) : List (Uuid × Clarification) :=
  (dueExpiries s s.now).take batchSize

/-- **The expiry cycle.** It ends after at most as many claims as its batch has places. Where a
clarification is due whose task waits for it, the cycle expires at least one if and only if one
of these is among the first of those that are due, as many as the batch has places. -/
theorem cycle_expires_iff {rounds : List Round} (hs : Checked s) (hfresh : FreshRounds s rounds) :
    ∃ r t, runExpiryCycle rounds [] ⟨0, 0⟩ s = (.ok r, t) ∧ r.claims ≤ rounds.length ∧
      ((∃ e ∈ dueExpiries s s.now, ExpiryReady s e) →
        (1 ≤ r.committed ↔ ∃ e ∈ firstClaims s rounds.length, ExpiryReady s e)) := by
  rcases cycle_ends [] ⟨0, 0⟩ hs hfresh with ⟨r, t, hend, -, hclaims⟩
  rw [Nat.zero_add] at hclaims
  refine ⟨r, t, hend, hclaims, fun hsome => ?_⟩
  have hrest : ((dueExpiries s s.now).filter fun x => !([] : List Uuid).contains x.1) =
      dueExpiries s s.now := List.filter_eq_self.mpr fun x _ => rfl
  rcases cycle_commits [] ⟨0, 0⟩ hs hfresh (le_refl _) hrest hsome with
    ⟨r', t', hend', hiff⟩
  rw [hend] at hend'
  have hsame : r = r' := Except.ok.inj (congrArg Prod.fst hend')
  rw [hsame]
  exact hiff

/-! ### A state -/

/-- Two clarifications are due; the task of the first one was canceled. -/
def stuckCalls : List Call := [
  .saveTask ⟨3⟩ { status := .canceled, projectId := none, productionEffect := false },
  .saveTask ⟨4⟩ { status := .clarificationNeeded, projectId := none, productionEffect := false },
  .createClarification ⟨5⟩ ⟨3⟩ 10 5, .createClarification ⟨6⟩ ⟨4⟩ 20 5, .tick 30]

def stuckDb : Db :=
  (Sys.calls (program openGates) emptyDb stuckCalls : TaskSys Unit).db

def twoRounds : List Round := [⟨0, ⟨30⟩⟩, ⟨0, ⟨31⟩⟩]

/-- The task of the clarification waits for it, and its expiry has not been recorded, as a test. -/
def expiryReady (s : Db) (e : Uuid × Clarification) : Bool :=
  (s.tasks.find? e.2.taskId).any (fun task => task.status == .clarificationNeeded) &&
    !s.outbox.rows.any fun x => x.2.idempotencyKey == toString e.1 ++ ":expired"

theorem expiryReady_iff : expiryReady s e = true ↔ ExpiryReady s e := by
  unfold expiryReady ExpiryReady
  rw [keyTaken_iff, Bool.and_eq_true, Bool.not_eq_true', Bool.not_eq_true, Option.any_eq_true]
  refine and_congr_left fun _ => ?_
  simp only [beq_iff_eq]

theorem any_expiryReady {l : List (Uuid × Clarification)} (h : l.any (expiryReady s) = true) :
    ∃ e ∈ l, ExpiryReady s e := by
  rcases List.any_eq_true.mp h with ⟨e, he, hready⟩
  exact ⟨e, he, expiryReady_iff.mp hready⟩

theorem stuckDb_checked : Checked stuckDb := by
  have h : (stuckDb.clarifications.rows.all fun e => e.2.check) = true := by decide +kernel
  intro id c hc
  exact List.all_eq_true.mp h (id, c) (Table.mem_rows.mpr hc)

theorem stuckDb_fresh : FreshRounds stuckDb twoRounds := by
  have h : (twoRounds.all fun x => (stuckDb.outbox.find? x.eventId).isNone) = true := by
    decide +kernel
  refine ⟨by decide, fun x hx => ?_⟩
  exact Option.isNone_iff_eq_none.mp (List.all_eq_true.mp h x hx)

/-- With two rounds the second clarification expires. -/
theorem cycle_expires_second : ∃ r t, runExpiryCycle twoRounds [] ⟨0, 0⟩ stuckDb = (.ok r, t) ∧
    1 ≤ r.committed := by
  have hdue : (dueExpiries stuckDb stuckDb.now).any (expiryReady stuckDb) = true := by
    decide +kernel
  have hfirst : (firstClaims stuckDb twoRounds.length).any (expiryReady stuckDb) = true := by
    decide +kernel
  rcases cycle_expires_iff stuckDb_checked stuckDb_fresh with ⟨r, t, hrun, -, hiff⟩
  exact ⟨r, t, hrun, (hiff (any_expiryReady hdue)).mpr (any_expiryReady hfirst)⟩

/-- A batch of one never gets to the second one: the cycle commits nothing and leaves everything as
it was, so that the next one starts where this one did. -/
theorem cycle_starves : (∃ e ∈ dueExpiries stuckDb stuckDb.now, ExpiryReady stuckDb e) ∧
    runExpiryCycle [⟨0, ⟨30⟩⟩] [] ⟨0, 0⟩ stuckDb = (.ok ⟨0, 1⟩, stuckDb) := by
  have hdue : (dueExpiries stuckDb stuckDb.now).any (expiryReady stuckDb) = true := by
    decide +kernel
  have hnext : (nextExpiry stuckDb []).any (fun e => !expiryReady stuckDb e) = true := by
    decide +kernel
  have hid : stuckDb.outbox.find? ⟨30⟩ = none :=
    stuckDb_fresh.2 ⟨0, ⟨30⟩⟩ List.mem_cons_self
  rcases (Option.any_eq_true _ _).mp hnext with ⟨e, he, hblocked⟩
  have hnot : ¬ExpiryReady stuckDb e := by
    rw [← expiryReady_iff, Bool.not_eq_true]
    exact (Bool.not_eq_true' _).mp hblocked
  refine ⟨any_expiryReady hdue, ?_⟩
  rcases round_cases ⟨0, ⟨30⟩⟩ [] [] ⟨0, 0⟩ stuckDb_checked hid with
    ⟨hnone, -⟩ | ⟨e', he', ⟨hready, -⟩ | ⟨-, hrun⟩⟩
  · have hsame : nextExpiry stuckDb [] = none := hnone
    rw [he] at hsame
    cases hsame
  · have hsame : nextExpiry stuckDb [] = some e' := he'
    rw [he, Option.some.injEq] at hsame
    rw [← hsame] at hready
    exact absurd hready hnot
  · rw [hrun]
    rfl

end AiAgentsSwd.Tasks
