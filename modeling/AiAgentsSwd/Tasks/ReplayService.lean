import AiAgentsSwd.Tasks.ResumeService

/-!
# Tasks.ReplayService — operator-controlled replay of a dead outbox event

Model of `shared/sdk/tasks/replay_request_model.py`,
`shared/sdk/tasks/replay_request_repository.py` and `shared/sdk/tasks/replay_service.py`.

A request is bound to one dead episode of its event by a text made of `dead_at` and
`attempts`. Which destinations are ready is an argument of the execution.
-/

namespace AiAgentsSwd.Tasks

open Planning (Uuid Time)
open ReadCommitted

/-- `ReplayResult`. -/
structure ReplayResult where
  ok : Bool
  resultKind : ResultKind
  reasonCode : ReasonCode
  replayRequest : Option (Uuid × ReplayRequest) := none
deriving Repr, DecidableEq

def ReplayResult.deny (kind : ResultKind) (reason : ReasonCode) : ReplayResult :=
  ⟨false, kind, reason, none⟩

/-! ## Model -/

instance : ToString Destination where
  toString
    | .audit => "audit"
    | .orchestratorCommand => "orchestrator_command"

/-- A number with at least `k` digits. -/
def padded (k n : Nat) : String :=
  let digits := Nat.toDigits 10 n
  String.ofList (List.replicate (k - digits.length) '0' ++ digits)

/-- `datetime.isoformat()` of a timestamp, which counts microseconds from 1970 in UTC. -/
def isoformat (t : Time) : String :=
  let seconds := t / second
  -- the civil date, from years that start in March
  let days := seconds / 86400 + 719468
  let era := days / 146097
  let dayOfEra := days % 146097
  let yearOfEra := (dayOfEra - dayOfEra / 1460 + dayOfEra / 36524 - dayOfEra / 146096) / 365
  let dayOfYear := dayOfEra - (365 * yearOfEra + yearOfEra / 4 - yearOfEra / 100)
  let monthFromMarch := (5 * dayOfYear + 2) / 153
  let day := dayOfYear - (153 * monthFromMarch + 2) / 5 + 1
  let month := if monthFromMarch < 10 then monthFromMarch + 3 else monthFromMarch - 9
  let year := yearOfEra + era * 400 + (if month ≤ 2 then 1 else 0)
  let clock := seconds % 86400
  let micros := t % second
  padded 4 year ++ "-" ++ padded 2 month ++ "-" ++ padded 2 day ++ "T" ++
    padded 2 (clock / 3600) ++ ":" ++ padded 2 (clock / 60 % 60) ++ ":" ++
    padded 2 (clock % 60) ++ (if micros = 0 then "" else "." ++ padded 6 micros) ++ "+00:00"

/-- `dead_episode_state_version(dead_at, attempts)`. -/
def deadEpisodeStateVersion (deadAt : Time) (attempts : Nat) : String :=
  isoformat deadAt ++ ":" ++ toString attempts

example : deadEpisodeStateVersion (1767225600 * second + 250000) 5 =
    "2026-01-01T00:00:00.250000+00:00:5" := by decide +kernel

/-- The version of the episode a row is in; without a `dead_at` there is none. -/
def OutboxEvent.episode (o : OutboxEvent) : Option String :=
  o.deadAt.map fun deadAt => deadEpisodeStateVersion deadAt o.attempts

/-- The same, raising where there is none. -/
def episodeOf (o : OutboxEvent) : TaskTxn String :=
  match o.episode with
  | none => Txn.raise (.valueError "dead_episode_state_version requires a non-null dead_at")
  | some version => return version

/-- `READINESS_KINDS`. -/
inductive Readiness where
  | ready
  | notConfigured
  | unhealthy
  | disabled
  | unknownDestination
deriving Repr, DecidableEq

instance : ToString Readiness where
  toString
    | .ready => "ready"
    | .notConfigured => "not_configured"
    | .unhealthy => "unhealthy"
    | .disabled => "disabled"
    | .unknownDestination => "unknown_destination"

/-- `_dead_eligibility_denial(event_row)`. -/
def deadEligibilityDenial (o : OutboxEvent) : Option ReasonCode :=
  if o.status = .published then some .alreadyPublished
  else if o.status ≠ .dead then some .notDead
  else if (destinationForEventType o.eventType).isNone then some .unknownEventType
  else none

/-- An allowed event is dead. -/
theorem dead_of_eligible {o : OutboxEvent} (h : deadEligibilityDenial o = none) :
    o.status = .dead := by
  unfold deadEligibilityDenial at h
  split_ifs at h with h₁ h₂ h₃
  exact not_not.mp h₂

/-! ## Repository -/

/-- The failure of a statement on `replay_requests` whose new row is invalid. -/
def replayRequestsViolation : Failure := .checkViolation "replay_requests"

/-- `lock_outbox_event(conn, event_id)`. -/
def lockOutboxEvent (eventId : Uuid) : TaskTxn (Option OutboxEvent) :=
  At.outbox.selectForUpdate eventId fun _ => true

/-- The task that scopes an event, by its clarification. -/
def eventTask (eventId : Uuid) (s : Db) : Option Task :=
  (s.outbox.find? eventId).bind fun o =>
    (s.clarifications.find? o.clarificationId).bind fun c => s.tasks.find? c.taskId

/-- `resolve_event_scope(conn, event_id)`. -/
def resolveEventScope (eventId : Uuid) : TaskTxn (Option Task) := Txn.select (eventTask eventId)

/-- `insert_replay_request(conn, …)` up to the write: whether the row may go in. A primary key
is drawn unused; a session for which it is not ends here. -/
def insertReplayRequest (id : Uuid) (row : ReplayRequest) : TaskTxn Bool := do
  if !row.check then Txn.raise replayRequestsViolation
  else if ← At.replayRequests.taken id then Txn.raise (.uniqueViolation "replay_requests_pkey")
  else if ← At.replayRequests.conflict (.replayRequestKey row.idempotencyKey)
      (fun r => r.idempotencyKey == row.idempotencyKey) then
    return false
  else if ← At.replayRequests.conflict (.activeReplayRequest row.outboxEventId)
      (fun r => r.active && r.outboxEventId == row.outboxEventId) then
    return false
  else return true

/-- `lock_replay_request(conn, replay_request_id, …)`. -/
def lockReplayRequest (replayRequestId : Uuid) (scope : Scope) : TaskTxn (Option ReplayRequest) :=
  At.replayRequests.selectForUpdate replayRequestId fun r => inScope scope r.scope

/-- `UPDATE replay_requests SET … WHERE replay_request_id=… AND state=… AND <scope>`. -/
def transitionReplayRequest (replayRequestId : Uuid) (source : ReplayState) (scope : Scope)
    (set : Time → ReplayRequest → ReplayRequest) : TaskTxn (Option ReplayRequest) := do
  let now ← statementTimestamp
  At.replayRequests.update replayRequestId (fun r => r.state == source && inScope scope r.scope)
    (set now) ReplayRequest.check replayRequestsViolation

/-- What `transition_to_authorized` sets. -/
def ReplayRequest.authorizedRow (now : Time) (r : ReplayRequest) : ReplayRequest :=
  { r with
    state := .authorized
    authorizedAt := some now }

/-- What `transition_to_rejected` sets. -/
def ReplayRequest.rejectedRow (reasonCode : ReasonCode) (now : Time) (r : ReplayRequest) :
    ReplayRequest :=
  { r with
    state := .rejected
    rejectedAt := some now
    failureReasonCode := some reasonCode }

/-- What `transition_to_canceled` sets. -/
def ReplayRequest.canceledRow (now : Time) (r : ReplayRequest) : ReplayRequest :=
  { r with
    state := .canceled
    canceledAt := some now }

/-- What `transition_to_executed` sets. -/
def ReplayRequest.executedRow (now : Time) (r : ReplayRequest) : ReplayRequest :=
  { r with
    state := .executed
    executedAt := some now }

/-- The rows whose authorization has expired by `before`: the join of
`expire_due_replay_requests`. -/
def ReplayRequest.due (authorizations : Keyed.Table Uuid Authorization) (before : Time)
    (r : ReplayRequest) : Bool :=
  r.active && (authorizations.find? r.authorizationId).any fun a => a.expiresAt ≤ before

/-- What `expire_due_replay_requests` sets. -/
def ReplayRequest.expiredRow (now : Time) (r : ReplayRequest) : ReplayRequest :=
  { r with
    state := .expired
    expiredAt := some now }

/-- `expire_due_replay_requests(conn, before, limit)`; `rank` is the order in which the inner
`SELECT` meets the rows. -/
def expireDueReplayRequests (before : Time) (limit : Nat) (rank : Uuid → Nat) : TaskTxn Nat := do
  let now ← statementTimestamp
  let authorizations ← Txn.select Db.authorizations
  let ids ← Txn.select (At.replayRequests.selectLimit ReplayRequest.active rank limit)
  At.replayRequests.updateEach (ReplayRequest.due authorizations before)
    (ReplayRequest.expiredRow now) ReplayRequest.check replayRequestsViolation ids

/-- `acquire_actor_rate_limit_lock(conn, team_id, project_id, actor_id)`. -/
def acquireActorRateLimitLock (scope : Scope) (actorId : String) : TaskTxn Unit :=
  Txn.lockRow (.actorRate scope.teamId scope.projectId actorId)

/-- `interval '<window_hours> hours'`. -/
def hours (windowHours : Nat) : Time := windowHours * 3600 * second

/-- The rows that `count_recent_requests_by_actor` counts. -/
def ReplayRequest.recentBy (actorId : String) (scope : Scope) (windowHours : Nat) (now : Time)
    (r : ReplayRequest) : Bool :=
  r.requestedBy == actorId && inScope scope r.scope &&
    decide (now ≤ r.requestedAt + hours windowHours)

/-- The rows that `count_successful_replays_for_event` counts. -/
def ReplayRequest.recentSuccess (eventId : Uuid) (windowHours : Nat) (now : Time)
    (r : ReplayRequest) : Bool :=
  r.outboxEventId == eventId && r.state == .executed &&
    r.executedAt.any fun e => now ≤ e + hours windowHours

/-- `SELECT count(*) FROM replay_requests WHERE …`. -/
def countReplayRequests (p : Time → ReplayRequest → Bool) : TaskTxn Nat :=
  Txn.select fun s => s.replayRequests.rows.countP fun e => p s.now e.2

/-- `replay_dead_row(conn, event_id, expected_resource_state_version)`. -/
def replayDeadRow (eventId : Uuid) (expectedResourceStateVersion : String) :
    TaskTxn (Option OutboxEvent) := do
  match ← At.outbox.selectForUpdate eventId (fun o => o.status == .dead) with
  | none => return none
  | some row =>
    let currentVersion ← episodeOf row
    if currentVersion ≠ expectedResourceStateVersion then return none
    else updateOutbox eventId (OutboxEvent.replayedRow (planReplayState row.attempts))

/-! ## Service -/

section Service

variable (cfg : Settings)

/-- The ids that one `request_replay` draws. -/
structure ReplayIds where
  authorizationId : Uuid
  replayRequestId : Uuid
  eventId : Uuid
deriving Repr, DecidableEq

/-- The savepoint of `request_replay`: the request row and the writes that its release
publishes, or the denial. -/
def requestReplaySavepoint (ids : ReplayIds) (actor : Actor) (actorScope : Scope)
    (outboxEventId : Uuid) (event : OutboxEvent) (destination : Destination) (version : String)
    (productionEffect : Bool) (idempotencyKey : String) (expiresAt : Time)
    (productionApprovalReference : Option Reference) :
    TaskTxn (Except ReplayResult (ReplayRequest × (Db → Db))) := do
  let (auth, release) ← requestAuthorizationSavepoint ids.authorizationId actor actorScope
    actorScope .replay .outboxEvent outboxEventId version expiresAt
    ("replay-auth:" ++ toString outboxEventId ++ ":" ++ idempotencyKey) productionEffect
    productionApprovalReference
  match auth.authorization with
  | none =>
    if auth.resultKind = .conflict then return .error (.deny .conflict .activeRequestExists)
    else return .error (.deny auth.resultKind auth.reasonCode)
  | some (authorizationId, _) =>
    match actorScope with
    | ⟨some teamId, some projectId⟩ =>
      let now ← statementTimestamp
      let row : ReplayRequest :=
        { authorizationId, outboxEventId, destination, teamId, projectId, idempotencyKey
          eventType := event.eventType
          resourceStateVersion := version
          requestedBy := actor.principalId
          requestedAt := now }
      if ← insertReplayRequest ids.replayRequestId row then
        return .ok (row, At.replayRequests.insert ids.replayRequestId row ∘ release)
      else return .error (.deny .conflict .activeRequestExists)
    | _ => Txn.raise (.valueError "invalid input for query argument")

/-- `request_replay(conn, actor, actor_scope, outbox_event_id, …)`. -/
def requestReplay (ids : ReplayIds) (actor : Actor) (actorScope : Scope) (outboxEventId : Uuid)
    (idempotencyKey : String) (expiresAt : Time)
    (productionApprovalReference : Option Reference) : TaskTxn ReplayResult := do
  if !cfg.replayApiEnabled then return .deny .featureDisabled .featureDisabled
  else
    match ← At.replayRequests.selectBy (fun r => r.idempotencyKey == idempotencyKey) with
    | some existing =>
      if existing.2.scope = actorScope then
        return ⟨true, .ok, .operatorRequested, some existing⟩
      else return .deny .notFoundMasked .resourceNotFound
    | none =>
      let pre := evaluate (.request .replay) actor actorScope actorScope
      if !pre.allowed then return .deny pre.resultKind pre.reasonCode
      else
        acquireActorRateLimitLock actorScope actor.principalId
        match ← lockOutboxEvent outboxEventId with
        | none => return .deny .notFoundMasked .resourceNotFound
        | some event =>
          match ← resolveEventScope outboxEventId with
          | none => return .deny .notFoundMasked .resourceNotFound
          | some task =>
            if task.projectId.isSome ∧ task.projectId ≠ actorScope.projectId then
              return .deny .notFoundMasked .resourceNotFound
            else
              match deadEligibilityDenial event with
              | some reason => return .deny .notEligible reason
              | none =>
                let actorCount ← countReplayRequests
                  (ReplayRequest.recentBy actor.principalId actorScope cfg.rateLimitWindowHours)
                if actorCount ≥ cfg.maxRequestsPerActorPerWindow then
                  return .deny .rateLimited .rateLimited
                else
                  let successCount ← countReplayRequests
                    (ReplayRequest.recentSuccess outboxEventId cfg.rateLimitWindowHours)
                  if successCount ≥ cfg.maxSuccessfulReplaysPerEvent then
                    return .deny .rateLimited .rateLimited
                  else
                    let version ← episodeOf event
                    match destinationForEventType event.eventType with
                    | none => Txn.raise (.valueError "unknown lifecycle outbox event_type")
                    | some destination =>
                      match ← requestReplaySavepoint ids actor actorScope outboxEventId event
                          destination version task.productionEffect idempotencyKey expiresAt
                          productionApprovalReference with
                      | .error denial => return denial
                      | .ok (row, release) =>
                        Txn.modify release
                        let _ ← insertLifecycleOutboxEvent ids.eventId event.clarificationId
                          event.taskId .replayRequested ("replay-requested:" ++
                            toString outboxEventId ++ ":" ++ toString ids.replayRequestId)
                          [("replay_request_id", .id ids.replayRequestId),
                            ("outbox_event_id", .id outboxEventId),
                            ("destination", .text (toString destination)),
                            ("reason", .text "operator_requested")]
                        return ⟨true, .ok, .operatorRequested, some (ids.replayRequestId, row)⟩

/-- `authorize_replay(conn, replay_request_id, …)`. -/
def authorizeReplay (eventId replayRequestId : Uuid) (actor : Actor) (actorScope : Scope)
    (policyVersion : String) : TaskTxn ReplayResult := do
  if !cfg.replayApiEnabled then return .deny .featureDisabled .featureDisabled
  else
    match ← lockReplayRequest replayRequestId actorScope with
    | none => return .deny .notFoundMasked .resourceNotFound
    | some rr =>
      if rr.state ≠ .authorizationPending then
        return .deny .invalidTransition (.alreadyReplay rr.state)
      else
        match ← lockOutboxEvent rr.outboxEventId with
        | none => return .deny .notFoundMasked .resourceNotFound
        | some event =>
          match deadEligibilityDenial event with
          | some reason => return .deny .notEligible reason
          | none =>
            let currentVersion ← episodeOf event
            if currentVersion ≠ rr.resourceStateVersion then return .deny .staleState .staleState
            else
              let outcome ← authorize rr.authorizationId actor actorScope policyVersion
              if !outcome.ok then
                if outcome.reasonCode = .twoPersonRequired then
                  return .deny outcome.resultKind .requesterCannotApprove
                else return .deny outcome.resultKind outcome.reasonCode
              else
                match ← transitionReplayRequest replayRequestId .authorizationPending actorScope
                    ReplayRequest.authorizedRow with
                | none => return .deny .conflict .conflict
                | some updated =>
                  let _ ← insertLifecycleOutboxEvent eventId event.clarificationId event.taskId
                    .replayAuthorized ("replay-authorized:" ++ toString rr.outboxEventId ++ ":" ++
                      toString replayRequestId)
                    [("replay_request_id", .id replayRequestId),
                      ("authorization_id", .id rr.authorizationId), ("reason", .text "policy_allow")]
                  return ⟨true, .ok, .policyAllow, some (replayRequestId, updated)⟩

/-- What `reject_replay` and `cancel_replay` do once the request may be declined. -/
def declineReplay (eventId replayRequestId : Uuid) (rr : ReplayRequest) (actor : Actor)
    (actorScope : Scope) (op : SimpleOp) (set : Time → ReplayRequest → ReplayRequest)
    (eventType : EventType) (keyPrefix reasonText : String) (reason : ReasonCode) :
    TaskTxn ReplayResult := do
  let outcome ← decideSimple op rr.authorizationId actor actorScope
  if !outcome.ok then return .deny outcome.resultKind outcome.reasonCode
  else
    match ← transitionReplayRequest replayRequestId .authorizationPending actorScope set with
    | none => return .deny .conflict .conflict
    | some updated =>
      match ← At.outbox.select rr.outboxEventId (fun _ => true) with
      | none => Txn.raise (.runtimeError "AssertionError")
      | some event =>
        let _ ← insertLifecycleOutboxEvent eventId event.clarificationId event.taskId eventType
          (keyPrefix ++ toString rr.outboxEventId ++ ":" ++ toString replayRequestId)
          [("replay_request_id", .id replayRequestId), ("reason", .text reasonText)]
        return ⟨true, .ok, reason, some (replayRequestId, updated)⟩

/-- `reject_replay(conn, replay_request_id, …)`. -/
def rejectReplay (eventId replayRequestId : Uuid) (actor : Actor) (actorScope : Scope)
    (reasonCode : ReasonCode) : TaskTxn ReplayResult := do
  if !cfg.replayApiEnabled then return .deny .featureDisabled .featureDisabled
  else
    match ← lockReplayRequest replayRequestId actorScope with
    | none => return .deny .notFoundMasked .resourceNotFound
    | some rr =>
      if rr.state ≠ .authorizationPending then
        return .deny .invalidTransition (.alreadyReplay rr.state)
      else
        declineReplay eventId replayRequestId rr actor actorScope .reject
          (ReplayRequest.rejectedRow reasonCode) .replayRejected "replay-rejected:"
          (toString reasonCode) reasonCode

/-- `cancel_replay(conn, replay_request_id, …)`: an operator its own request, a platform admin
any. -/
def cancelReplay (eventId replayRequestId : Uuid) (actor : Actor) (actorScope : Scope) :
    TaskTxn ReplayResult := do
  if !cfg.replayApiEnabled then return .deny .featureDisabled .featureDisabled
  else
    match ← lockReplayRequest replayRequestId actorScope with
    | none => return .deny .notFoundMasked .resourceNotFound
    | some rr =>
      if actor.role ≠ .platformAdmin ∧ rr.requestedBy ≠ actor.principalId then
        return .deny .forbidden .rbacDenied
      else if rr.state ≠ .authorizationPending then
        return .deny .invalidTransition (.alreadyReplay rr.state)
      else
        declineReplay eventId replayRequestId rr actor actorScope .cancel
          ReplayRequest.canceledRow .replayCanceled "replay-canceled:" "operator_canceled"
          .operatorCanceled

/-- `execute_authorized_replay(conn, replay_request_id, …, readiness_provider)`. -/
def executeAuthorizedReplay (eventId replayRequestId : Uuid) (actor : Actor) (actorScope : Scope)
    (readinessProvider : Destination → Readiness) : TaskTxn ReplayResult := do
  if !cfg.replayExecutionEnabled then
    return .deny .executionGateDisabled .executionGateDisabled
  else
    match ← lockReplayRequest replayRequestId actorScope with
    | none => return .deny .notFoundMasked .resourceNotFound
    | some rr =>
      if rr.state ≠ .authorized then
        return .deny .invalidTransition (.invalidReplay rr.state)
      else
        match ← lockOutboxEvent rr.outboxEventId with
        | none => return .deny .notFoundMasked .resourceNotFound
        | some event =>
          match deadEligibilityDenial event with
          | some reason => return .deny .notEligible reason
          | none =>
            let currentVersion ← episodeOf event
            if currentVersion ≠ rr.resourceStateVersion then return .deny .staleState .staleState
            else
              let readiness := readinessProvider rr.destination
              if readiness ≠ .ready then
                -- no transition and no consumption, only the trail of the blocked attempt
                let _ ← insertLifecycleOutboxEvent eventId event.clarificationId event.taskId
                  .replayExecutionBlocked ("replay-blocked:" ++ toString rr.outboxEventId ++ ":" ++
                    toString replayRequestId ++ ":" ++ toString readiness)
                  [("replay_request_id", .id replayRequestId),
                    ("reason", .text "destination_unavailable")]
                return .deny .destinationUnavailable .destinationUnavailable
              else
                let consumed ← consume rr.authorizationId actor actorScope rr.resourceStateVersion
                if !consumed.ok then return .deny consumed.resultKind consumed.reasonCode
                else
                  match ← replayDeadRow rr.outboxEventId currentVersion with
                  | none =>
                    Txn.raise (.runtimeError
                      "replay_dead_row guard failed after a successful authorization consume")
                  | some _ =>
                    match ← transitionReplayRequest replayRequestId .authorized actorScope
                        ReplayRequest.executedRow with
                    | none =>
                      Txn.raise (.runtimeError
                        "replay_requests transition-to-executed failed after a successful replay")
                    | some updated =>
                      let _ ← insertLifecycleOutboxEvent eventId event.clarificationId event.taskId
                        .replayExecuted ("replay-executed:" ++ toString rr.outboxEventId ++ ":" ++
                          toString replayRequestId)
                        [("replay_request_id", .id replayRequestId),
                          ("outbox_event_id", .id rr.outboxEventId)]
                      return ⟨true, .ok, .policyAllow, some (replayRequestId, updated)⟩

end Service

end AiAgentsSwd.Tasks
