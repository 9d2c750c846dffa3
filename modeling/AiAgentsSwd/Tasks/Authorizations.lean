import AiAgentsSwd.Tasks.WorkroomSpec

/-!
# Tasks.Authorizations — an authorization is decided once and used once

`Ledger` is what a transaction may do to authorizations and approvals, whichever service it
belongs to; `Authorization.Moves` is what that means for one authorization. From these come
what a row keeps for ever (`Settled`) and who stands behind it in the log.
-/

namespace AiAgentsSwd.Tasks

open Keyed (Table)
open Planning (Uuid Time)
open ReadCommitted

variable {cfg : Settings} {Inv : Db → Prop} {c : Call} {r : Reply} {s t : Db}

/-! ## The ledger -/

/-- The actor and the scope that a transaction runs for. -/
def Call.operator : Call → Option (Actor × Scope)
  | .requestAuthorization _ actor scope .. => some (actor, scope)
  | .authorize _ actor scope _ => some (actor, scope)
  | .decideSimple _ _ actor scope => some (actor, scope)
  | .consume _ actor scope _ => some (actor, scope)
  | .grantProductionApproval _ actor scope .. => some (actor, scope)
  | .revokeProductionApproval _ actor scope _ => some (actor, scope)
  | .requestResume _ actor scope .. => some (actor, scope)
  | .authorizeResume _ _ actor scope _ => some (actor, scope)
  | .rejectResume _ _ actor scope _ => some (actor, scope)
  | .cancelResume _ _ actor scope => some (actor, scope)
  | .prepareExecution _ _ actor scope => some (actor, scope)
  | .requestReplay _ actor scope .. => some (actor, scope)
  | .authorizeReplay _ _ actor scope _ => some (actor, scope)
  | .rejectReplay _ _ actor scope _ => some (actor, scope)
  | .cancelReplay _ _ actor scope => some (actor, scope)
  | .executeAuthorizedReplay _ _ actor scope _ => some (actor, scope)
  | _ => none

/-- What a transaction for `who` may do to authorizations and approvals. -/
inductive Ledger (s : Db) : Option (Actor × Scope) → (Db → Db) → Prop where
  | same (who : Option (Actor × Scope)) : Ledger s who fun s => s
  | requested {id : Uuid} {actor : Actor} {scope : Scope} {a : Authorization}
      (h : Requests s id actor scope a) (hnew : a.asRequested = a) :
      Ledger s (some (actor, scope)) (At.authorizations.insert id a)
  | approved {id : Uuid} {actor : Actor} {scope : Scope} {policyVersion : String} {now : Time}
      {a : Authorization} (h : Approves s id actor scope policyVersion now a) :
      Ledger s (some (actor, scope))
        (At.authorizations.modify id (Authorization.approvedRow actor policyVersion now))
  | decided {op : SimpleOp} {id : Uuid} {actor : Actor} {scope : Scope} {now : Time}
      {a : Authorization} (h : Decides s op id actor scope now a) :
      Ledger s (some (actor, scope)) (At.authorizations.modify id (op.row actor now))
  | consumed {id : Uuid} {actor : Actor} {scope : Scope} {version : String} {u : Db → Db}
      (h : Consumption s id actor scope version u) : Ledger s (some (actor, scope)) u
  | expired {who : Option (Actor × Scope)} {ids : List Uuid} {now : Time} (hnd : ids.Nodup)
      (hnow : now ≤ s.now)
      (h : ∀ k ∈ ids, ∃ a, s.authorizations.find? k = some a ∧ a.due now = true) :
      Ledger s who (At.authorizations.modifyAll ids (Authorization.expiredRow now))
  | granted {who : Option (Actor × Scope)} {id : Uuid} {p : Approval}
      (h : s.approvals.find? id = none) (hnew : p.asGranted = p) :
      Ledger s who (At.approvals.insert id p)
  | revoked {who : Option (Actor × Scope)} {id : Uuid} {p : Approval} {revokedBy : String}
      {reason : ReasonCode} {now : Time} (h : s.approvals.find? id = some p)
      (hstate : p.state = .granted) (hunconsumed : p.consumedAt = none) :
      Ledger s who (At.approvals.modify id (Approval.revokedRow revokedBy reason now))

theorem ResumeDecline.operator {eventId id : Uuid} {actor : Actor} {scope : Scope} {op : SimpleOp}
    {set : Time → ResumeRequest → ResumeRequest} {type : EventType}
    (h : ResumeDecline c eventId id actor scope op set type) :
    c.operator = some (actor, scope) := by
  cases h <;> rfl

theorem ReplayDecline.operator {eventId id : Uuid} {actor : Actor} {scope : Scope} {op : SimpleOp}
    {set : Time → ReplayRequest → ReplayRequest} {type : EventType}
    (h : ReplayDecline c eventId id actor scope op set type) :
    c.operator = some (actor, scope) := by
  cases h <;> rfl

/-- What `request_authorization` does for a request service. -/
theorem Obtains.ledger {id : Uuid} {actor : Actor} {scope : Scope} {a : Authorization}
    {authorizationId : Uuid} {u : Db → Db} (h : Obtains s id actor scope a authorizationId u)
    (hnew : a.asRequested = a) : Ledger s (some (actor, scope)) u := by
  cases h with
  | new h => exact .requested h hnew
  | same_key _ _ => exact .same _

/-- The rows of other tables that obtaining an authorization leaves alone. -/
theorem Obtains.frame {γ : Type} {X : Db → γ} {id authorizationId : Uuid} {actor : Actor}
    {scope : Scope} {a : Authorization} {u : Db → Db}
    (h : Obtains s id actor scope a authorizationId u)
    (hX : ∀ s k a, X (At.authorizations.insert k a s) = X s) : X (u s) = X s := by
  cases h with
  | new _ => exact hX _ _ _
  | same_key _ _ => rfl

/-- Whatever else an effect does, its ledger is one of these. -/
theorem Effect.ledger (h : Effect cfg Inv c r s t) : ∃ u, Ledger s c.operator u ∧
    t.authorizations = (u s).authorizations ∧ t.approvals = (u s).approvals := by
  cases h with
  | quiet _ => exact ⟨_, .same _, rfl, rfl⟩
  | ticked _ => exact ⟨_, .same _, rfl, rfl⟩
  | taskSaved _ _ => exact ⟨_, .same _, rfl, rfl⟩
  | madeEligible _ _ _ => exact ⟨_, .same _, rfl, rfl⟩
  | requested h => exact ⟨_, .requested h rfl, rfl, rfl⟩
  | authorized h => exact ⟨_, .approved h, rfl, rfl⟩
  | decided h => exact ⟨_, .decided h, rfl, rfl⟩
  | consumed h => exact ⟨_, .consumed h, rfl, rfl⟩
  | authorizationsExpired hnd hnow h => exact ⟨_, .expired hnd hnow h, rfl, rfl⟩
  | granted habsent _ => exact ⟨_, .granted habsent rfl, rfl, rfl⟩
  | approvalRevoked hp hstate hfree => exact ⟨_, .revoked hp hstate hfree, rfl, rfl⟩
  | resumeRequested _ _ _ _ hauth _ _ _ _ _ _ _ =>
    -- the clarification that is marked first is no part of the ledger
    cases hauth with
    | new h => exact ⟨_, .requested h rfl, rfl, rfl⟩
    | same_key _ _ => exact ⟨_, .same _, rfl, rfl⟩
  | resumeRefused _ _ => exact ⟨_, .same _, rfl, rfl⟩
  | resumeLate _ _ _ _ _ _ => exact ⟨_, .same _, rfl, rfl⟩
  | resumeAuthorized _ _ hauth hmark _ _ =>
    rcases hmark with rfl | rfl
    · exact ⟨_, .approved hauth, rfl, rfl⟩
    · exact ⟨_, .approved hauth, rfl, rfl⟩
  | resumeDeclined hc _ _ _ hauth hrelease _ _ =>
    rw [hc.operator]
    rcases hrelease with rfl | ⟨rfl, -⟩
    · exact ⟨_, .decided hauth, rfl, rfl⟩
    · exact ⟨_, .decided hauth, rfl, rfl⟩
  | executionPrepared _ _ hauth _ _ => exact ⟨_, .consumed hauth, rfl, rfl⟩
  | resumeConfirmed hc _ _ _ _ _ => exact ⟨_, .same _, rfl, rfl⟩
  | resumesExpired _ _ _ =>
    exact ⟨_, .same _, TableAt.modifyAll_frame (fun _ _ => rfl) _ _,
      TableAt.modifyAll_frame (fun _ _ => rfl) _ _⟩
  | replayRequested _ _ _ hauth _ _ _ _ _ _ _ _ _ _ => exact ⟨_, hauth.ledger rfl, rfl, rfl⟩
  | replayAuthorized _ _ _ _ _ _ hauth _ _ => exact ⟨_, .approved hauth, rfl, rfl⟩
  | replayDeclined hc _ _ _ hauth _ _ =>
    rw [hc.operator]
    exact ⟨_, .decided hauth, rfl, rfl⟩
  | replayBlocked _ _ => exact ⟨_, .same _, rfl, rfl⟩
  | replayExecuted _ _ _ _ _ _ hauth _ _ _ => exact ⟨_, .consumed hauth, rfl, rfl⟩
  | replaysExpired _ _ _ =>
    exact ⟨_, .same _, TableAt.modifyAll_frame (fun _ _ => rfl) _ _,
      TableAt.modifyAll_frame (fun _ _ => rfl) _ _⟩
  | published _ _ _ _ => exact ⟨_, .same _, rfl, rfl⟩
  | retried _ _ _ _ _ => exact ⟨_, .same _, rfl, rfl⟩
  | died _ _ _ _ _ => exact ⟨_, .same _, rfl, rfl⟩
  | revived _ _ => exact ⟨_, .same _, rfl, rfl⟩
  | emitted _ => exact ⟨_, .same _, rfl, rfl⟩
  | clarificationCreated _ => exact ⟨_, .same _, rfl, rfl⟩
  | taskOpened _ => exact ⟨_, .same _, rfl, rfl⟩
  | answered _ _ _ _ _ => exact ⟨_, .same _, rfl, rfl⟩
  | messaged _ _ => exact ⟨_, .same _, rfl, rfl⟩
  | taskAnswered _ => exact ⟨_, .same _, rfl, rfl⟩
  | reminded _ _ _ => exact ⟨_, .same _, rfl, rfl⟩
  | clarificationExpired _ _ _ _ _ _ _ => exact ⟨_, .same _, rfl, rfl⟩

/-! ## One authorization -/

/-- What a transaction for `who` may do to one authorization. -/
inductive Authorization.Moves (s : Db) (who : Option (Actor × Scope)) (id : Uuid) :
    Option Authorization → Option Authorization → Prop where
  | same (o : Option Authorization) : Moves s who id o o
  | requested {actor : Actor} {scope : Scope} {a : Authorization} (hwho : who = some (actor, scope))
      (h : Requests s id actor scope a) (hnew : a.asRequested = a) : Moves s who id none (some a)
  | approved {actor : Actor} {scope : Scope} {policyVersion : String} {now : Time}
      {a : Authorization} (hwho : who = some (actor, scope))
      (h : Approves s id actor scope policyVersion now a) :
      Moves s who id (some a) (some (a.approvedRow actor policyVersion now))
  | decided {op : SimpleOp} {actor : Actor} {scope : Scope} {now : Time} {a : Authorization}
      (hwho : who = some (actor, scope)) (h : Decides s op id actor scope now a) :
      Moves s who id (some a) (some (op.row actor now a))
  | consumed {actor : Actor} {scope : Scope} {version : String} {now : Time} {a : Authorization}
      (hwho : who = some (actor, scope)) (h : Consumes s id actor scope version now a) :
      Moves s who id (some a) (some (a.consumedRow actor.principalId now))
  | expired {now : Time} {a : Authorization} (hdue : a.due now = true) :
      Moves s who id (some a) (some (a.expiredRow now))

theorem Ledger.moves {who : Option (Actor × Scope)} {u : Db → Db} (h : Ledger s who u) (id : Uuid) :
    Authorization.Moves s who id (s.authorizations.find? id) ((u s).authorizations.find? id) := by
  -- an update of one row moves that row, and no other
  have hmodify : ∀ {k : Uuid} {f : Authorization → Authorization} {a : Authorization},
      s.authorizations.find? k = some a →
      Authorization.Moves s who k (some a) (some (f a)) →
      Authorization.Moves s who id (s.authorizations.find? id)
        ((s.authorizations.modify k f).find? id) := by
    intro k f a ha hmove
    rw [Table.find?_modify_row ha]
    by_cases hid : id = k
    · subst hid
      rw [if_pos rfl, ha]
      exact hmove
    · rw [if_neg hid]
      exact .same _
  cases h with
  | same _ => exact .same _
  | @requested k actor scope a h hnew =>
    show Authorization.Moves s _ id _ ((s.authorizations.insert k a).find? id)
    by_cases hid : id = k
    · subst hid
      rw [Table.find?_insert_self, h.absent]
      exact .requested rfl h hnew
    · rw [Table.find?_insert_of_ne _ _ hid]
      exact .same _
  | approved h => exact hmodify h.row (.approved rfl h)
  | decided h => exact hmodify h.row (.decided rfl h)
  | consumed h =>
    cases h with
    | plain h _ => exact hmodify h.row (.consumed rfl h)
    | approved h _ _ _ => exact hmodify h.row (.consumed rfl h)
  | @expired _ ids now hnd _ h =>
    have hfind : (At.authorizations.modifyAll ids (Authorization.expiredRow now) s).authorizations.find?
        id = if id ∈ ids then (s.authorizations.find? id).map (Authorization.expiredRow now)
          else s.authorizations.find? id :=
      TableAt.find?_modifyAll (T := At.authorizations) _ hnd id s
    rw [hfind]
    by_cases hid : id ∈ ids
    · rcases h id hid with ⟨a, ha, hdue⟩
      rw [if_pos hid, ha, Option.map_some]
      exact .expired hdue
    · rw [if_neg hid]
      exact .same _
  | granted _ _ => exact .same _
  | revoked _ _ _ => exact .same _

theorem Effect.moves (h : Effect cfg Inv c r s t) (id : Uuid) :
    Authorization.Moves s c.operator id (s.authorizations.find? id) (t.authorizations.find? id) := by
  rcases h.ledger with ⟨u, hledger, ha, -⟩
  rw [ha]
  exact hledger.moves id

/-- The caller asks for an authorization by itself, not for a resume or a replay. -/
def Call.direct : Call → Bool
  | .requestAuthorization .. => true
  | _ => false

/-- The calls of a system in which authorizations come from the services alone. -/
abbrev ServiceCall := { c : Call // c.direct = false }

/-- A new authorization is asked for directly, or it comes with a new request that names it. -/
theorem Effect.obtained (h : Effect cfg Inv c r s t) {k : Uuid} {a : Authorization}
    (hk : s.authorizations.find? k = none) (ha : t.authorizations.find? k = some a) :
    c.direct = true ∨
      (∃ id row, t.resumeRequests.find? id = some row ∧ row.asRequested = row ∧
        row.authorizationId = k ∧ row.clarificationId = a.resourceId ∧ a.actionType = .resume ∧
        a.idempotencyKey =
          "resume-auth:" ++ toString row.clarificationId ++ ":" ++ row.idempotencyKey) ∨
      ∃ id row, t.replayRequests.find? id = some row ∧ row.asRequested = row ∧
        row.authorizationId = k ∧ row.requestedBy = a.requestedBy ∧ a.actionType = .replay ∧
        a.idempotencyKey =
          "replay-auth:" ++ toString row.outboxEventId ++ ":" ++ row.idempotencyKey := by
  have hsame : s.authorizations.find? k ≠ some a := by
    rw [hk]
    exact nofun
  have hmodify : ∀ j f, (s.authorizations.modify j f).find? k ≠ some a := by
    intro j f
    rw [Table.find?_modify_eq_none.mpr hk]
    exact nofun
  have hconsume : ∀ {id actor scope version u}, Consumption s id actor scope version u →
      (u s).authorizations.find? k ≠ some a := by
    intro id actor scope version u hcons
    cases hcons with
    | plain _ _ => exact hmodify _ _
    | approved _ _ _ _ => exact hmodify _ _
  cases h with
  | requested _ => exact Or.inl rfl
  | authorized _ => exact absurd ha (hmodify _ _)
  | decided _ => exact absurd ha (hmodify _ _)
  | consumed h => exact absurd ha (hconsume h)
  | @authorizationsExpired _ _ _ _ ids now hnd _ _ =>
    have hfind : (At.authorizations.modifyAll ids (Authorization.expiredRow now) s).authorizations.find?
        k = if k ∈ ids then (s.authorizations.find? k).map (Authorization.expiredRow now)
          else s.authorizations.find? k := TableAt.find?_modifyAll (T := At.authorizations) _ hnd k s
    rw [hfind, hk, Option.map_none, ite_self] at ha
    cases ha
  | resumeRequested _ _ _ _ hauth hrow _ _ _ _ _ _ =>
    subst hrow
    cases hauth with
    | new _ =>
      rcases (Table.puts_insert _ _ _).find ha with ⟨rfl, rfl⟩ | ⟨-, ha⟩
      · exact Or.inr (Or.inl ⟨_, _, Table.find?_insert_self _ _ _, rfl, rfl, rfl, rfl, rfl⟩)
      · exact absurd ha hsame
    | same_key _ _ => exact absurd ha hsame
  | resumeAuthorized _ _ _ hmark _ _ =>
    rcases hmark with rfl | rfl
    · exact absurd ha (hmodify _ _)
    · exact absurd ha (hmodify _ _)
  | resumeDeclined _ _ _ _ _ hrelease _ _ =>
    rcases hrelease with rfl | ⟨rfl, -⟩
    · exact absurd ha (hmodify _ _)
    · exact absurd ha (hmodify _ _)
  | executionPrepared _ _ hauth _ _ => exact absurd ha (hconsume hauth)
  | resumesExpired _ _ _ =>
    rw [TableAt.modifyAll_frame (X := Db.authorizations) (fun _ _ => rfl)] at ha
    exact absurd ha hsame
  | replayRequested _ _ _ hauth hrow _ _ _ _ _ _ _ _ _ =>
    subst hrow
    cases hauth with
    | new _ =>
      rcases (Table.puts_insert _ _ _).find ha with ⟨rfl, rfl⟩ | ⟨-, ha⟩
      · exact Or.inr (Or.inr ⟨_, _, Table.find?_insert_self _ _ _, rfl, rfl, rfl, rfl, rfl⟩)
      · exact absurd ha hsame
    | same_key _ _ => exact absurd ha hsame
  | replayAuthorized _ _ _ _ _ _ _ _ _ => exact absurd ha (hmodify _ _)
  | replayDeclined _ _ _ _ _ _ _ => exact absurd ha (hmodify _ _)
  | replayExecuted _ _ _ _ _ _ hauth _ _ _ => exact absurd ha (hconsume hauth)
  | replaysExpired _ _ _ =>
    rw [TableAt.modifyAll_frame (X := Db.authorizations) (fun _ _ => rfl)] at ha
    exact absurd ha hsame
  | _ => exact absurd ha hsame

/-- An active authorization was active before, or it is new. -/
theorem Authorization.Moves.active {who : Option (Actor × Scope)} {id : Uuid}
    {o : Option Authorization} {b : Authorization} (h : Moves s who id o (some b))
    (hactive : b.active = true) : o = none ∨
      ∃ a, o = some a ∧ a.active = true ∧ Kept Authorization.asRequested a b := by
  cases h with
  | same _ => exact Or.inr ⟨b, rfl, hactive, rfl⟩
  | requested _ _ _ => exact Or.inl rfl
  | @approved _ _ _ _ a _ h =>
    refine Or.inr ⟨a, rfl, ?_, rfl⟩
    have hpending : a.decision = .pending := by
      have hund := h.undecided
      simp only [undecided, Bool.and_eq_true, beq_iff_eq] at hund
      exact hund.1.1
    simp only [Authorization.active, approvedRow, Bool.and_eq_true] at hactive ⊢
    simp [hpending, hactive]
  | @decided op _ _ _ _ _ h => cases op <;> simp [SimpleOp.row, declinedRow, revokedRow,
      Authorization.active] at hactive
  | consumed _ _ => simp [consumedRow, Authorization.active] at hactive
  | expired _ => simp [expiredRow, Authorization.active] at hactive

/-! ## What no later transaction undoes -/

/-- The later row `b` keeps what `a` has settled. -/
structure Authorization.Settled (a b : Authorization) : Prop where
  request : Kept asRequested a b
  decision : a.decision ≠ .pending → b.decision = a.decision
  consumed : a.consumedAt ≠ none → b.consumedAt = a.consumedAt
  revoked : a.revokedAt ≠ none → b.revokedAt = a.revokedAt
  expired : a.expiredAt ≠ none → b.expiredAt = a.expiredAt

theorem Authorization.Settled.refl (a : Authorization) : a.Settled a :=
  ⟨rfl, fun _ => rfl, fun _ => rfl, fun _ => rfl, fun _ => rfl⟩

theorem Authorization.Settled.trans {a b d : Authorization} (h : a.Settled b) (h' : b.Settled d) :
    a.Settled d where
  request := Kept.trans _ _ _ h.request h'.request
  decision := fun ha => by
    have hb := h.decision ha
    rw [h'.decision (by rwa [hb]), hb]
  consumed := fun ha => by
    have hb := h.consumed ha
    rw [h'.consumed (by rwa [hb]), hb]
  revoked := fun ha => by
    have hb := h.revoked ha
    rw [h'.revoked (by rwa [hb]), hb]
  expired := fun ha => by
    have hb := h.expired ha
    rw [h'.expired (by rwa [hb]), hb]

theorem Authorization.undecided_iff {a : Authorization} {scope : Scope} :
    a.undecided scope = true ↔ a.decision = .pending ∧ a.expiredAt = none ∧ scope = a.scope := by
  unfold undecided
  simp only [Bool.and_eq_true, beq_iff_eq, Option.isNone_iff_eq_none, inScope_iff, and_assoc]

theorem Authorization.open_iff {a : Authorization} :
    a.open = true ↔ a.decision = .authorized ∧ a.consumedAt = none ∧ a.revokedAt = none ∧
      a.expiredAt = none := by
  unfold Authorization.open
  simp only [Bool.and_eq_true, beq_iff_eq, Option.isNone_iff_eq_none, and_assoc]

theorem Authorization.active_iff {a : Authorization} :
    a.active = true ↔ (a.decision = .pending ∨ a.decision = .authorized) ∧ a.consumedAt = none ∧
      a.revokedAt = none ∧ a.expiredAt = none := by
  unfold active
  simp only [Bool.and_eq_true, Bool.or_eq_true, beq_iff_eq, Option.isNone_iff_eq_none, and_assoc]

theorem Authorization.consumable_iff {a : Authorization} {version : String} {scope : Scope}
    {now : Time} : a.consumable version scope now = true ↔
      a.open = true ∧ now < a.expiresAt ∧ a.resourceStateVersion = version ∧ scope = a.scope := by
  unfold consumable
  simp only [Bool.and_eq_true, beq_iff_eq, decide_eq_true_eq, inScope_iff, and_assoc]

/-- One step keeps what is settled. -/
theorem Authorization.Moves.settled {who : Option (Actor × Scope)} {id : Uuid} {a : Authorization}
    {o : Option Authorization} (h : Moves s who id (some a) o) : ∃ b, o = some b ∧ a.Settled b := by
  cases h with
  | same _ => exact ⟨a, rfl, .refl a⟩
  | approved _ h =>
    have hund := undecided_iff.mp h.undecided
    exact ⟨_, rfl, rfl, fun hd => absurd hund.1 hd, fun _ => rfl, fun _ => rfl, fun _ => rfl⟩
  | @decided op _ _ _ _ _ h =>
    have hguard := h.guard
    cases op with
    | reject =>
      have hund := undecided_iff.mp hguard
      exact ⟨_, rfl, rfl, fun hd => absurd hund.1 hd, fun _ => rfl, fun _ => rfl, fun _ => rfl⟩
    | cancel =>
      have hund := undecided_iff.mp hguard
      exact ⟨_, rfl, rfl, fun hd => absurd hund.1 hd, fun _ => rfl, fun _ => rfl, fun _ => rfl⟩
    | revoke =>
      have hopen := open_iff.mp (Bool.and_eq_true_iff.mp hguard).1
      exact ⟨_, rfl, rfl, fun _ => rfl, fun _ => rfl, fun hr => absurd hopen.2.2.1 hr, fun _ => rfl⟩
  | consumed _ h =>
    have hopen := open_iff.mp (consumable_iff.mp h.consumable).1
    exact ⟨_, rfl, rfl, fun _ => rfl, fun hc => absurd hopen.2.1 hc, fun _ => rfl, fun _ => rfl⟩
  | expired hdue =>
    have hactive := active_iff.mp (Bool.and_eq_true_iff.mp hdue).1
    exact ⟨_, rfl, rfl, fun _ => rfl, fun _ => rfl, fun _ => rfl,
      fun he => absurd hactive.2.2.2 he⟩

/-- Every row of `s` is in `t`, with all it had settled. -/
def AuthorizationsSettled (s t : Db) : Prop :=
  ∀ id a, s.authorizations.find? id = some a →
    ∃ b, t.authorizations.find? id = some b ∧ a.Settled b

theorem Effect.settled (h : Effect cfg Inv c r s t) : AuthorizationsSettled s t := by
  intro id a ha
  have hmove := h.moves id
  rw [ha] at hmove
  exact hmove.settled

variable {C : Type} {f : C → Call} {ms ns : List (Commit Db Reply C)} {m : Commit Db Reply C}

theorem settled_of_run (h : Commits (IsEffect cfg Inv f) s ms t) : AuthorizationsSettled s t := by
  apply h.related
  · exact fun s id a ha => ⟨a, ha, .refl a⟩
  · intro s t u hst htu id a ha
    rcases hst id a ha with ⟨b, hb, hab⟩
    rcases htu id b hb with ⟨d, hd, hbd⟩
    exact ⟨d, hd, hab.trans hbd⟩
  · exact fun m hm => hm.effect.settled

/-! ## Who stands behind an authorization -/

/-- The commit `n` inserted `a`, for an actor inside the scope of the row. -/
def RequestedBy (f : C → Call) (id : Uuid) (a : Authorization) (n : Commit Db Reply C) : Prop :=
  n.before.authorizations.find? id = none ∧
    n.after.authorizations.find? id = some a.asRequested ∧
    ∃ actor, (f n.call).operator = some (actor, a.scope)

/-- The commit `n` authorized `a`, for an actor inside its scope who may. -/
def AuthorizedBy (f : C → Call) (id : Uuid) (a : Authorization) (n : Commit Db Reply C) : Prop :=
  ∃ actor b b', (f n.call).operator = some (actor, a.scope) ∧
    MayAuthorize actor a.requestedBy a.actionType ∧
    n.before.authorizations.find? id = some b ∧ b.decision = .pending ∧
    n.after.authorizations.find? id = some b' ∧ b'.decision = .authorized

/-- Both are about the request alone. -/
theorem RequestedBy.kept {id : Uuid} {a b : Authorization} (h : RequestedBy f id a m)
    (hkept : Kept Authorization.asRequested a b) : RequestedBy f id b m := by
  rcases h with ⟨hbefore, hafter, actor, hwho⟩
  refine ⟨hbefore, ?_, actor, ?_⟩
  · rw [show b.asRequested = a.asRequested from hkept]
    exact hafter
  · rw [hkept.field Authorization.scope fun _ => rfl]
    exact hwho

theorem AuthorizedBy.kept {id : Uuid} {a b : Authorization} (h : AuthorizedBy f id a m)
    (hkept : Kept Authorization.asRequested a b) : AuthorizedBy f id b m := by
  unfold AuthorizedBy
  rw [hkept.field Authorization.scope fun _ => rfl, hkept.field Authorization.requestedBy fun _ => rfl,
    hkept.field Authorization.actionType fun _ => rfl]
  exact h

/-- No authorization and no approval has been given. -/
def Unauthorized (s : Db) : Prop :=
  (∀ id, s.authorizations.find? id = none) ∧ ∀ id, s.approvals.find? id = none

/-- **Provenance**: every authorization was requested in the run, and every authorized one was
authorized in the run by an actor who may. -/
theorem backed_of_run (h : Commits (IsEffect cfg Inv f) s ms t)
    (hs : ∀ id, s.authorizations.find? id = none) (id : Uuid) :
    ∀ a, t.authorizations.find? id = some a → (∃ n ∈ ms, RequestedBy f id a n) ∧
      (a.decision = .authorized → ∃ n ∈ ms, AuthorizedBy f id a n) := by
  refine h.history (J := fun ms t => ∀ a, t.authorizations.find? id = some a →
    (∃ n ∈ ms, RequestedBy f id a n) ∧
      (a.decision = .authorized → ∃ n ∈ ms, AuthorizedBy f id a n)) ?_ ?_
  · rintro ms m - hm ih b hb
    have hmove := hm.effect.moves id
    rw [hb] at hmove
    -- what stood behind the row before still does
    have hreq : ∀ a, m.before.authorizations.find? id = some a →
        Kept Authorization.asRequested a b → ∃ n ∈ ms ++ [m], RequestedBy f id b n := by
      intro a ha hkept
      rcases (ih a ha).1 with ⟨n, hn, hreq⟩
      exact ⟨n, List.mem_append_left _ hn, hreq.kept hkept⟩
    have hauth : ∀ a, m.before.authorizations.find? id = some a →
        Kept Authorization.asRequested a b → a.decision = .authorized →
        ∃ n ∈ ms ++ [m], AuthorizedBy f id b n := by
      intro a ha hkept hd
      rcases (ih a ha).2 hd with ⟨n, hn, hby⟩
      exact ⟨n, List.mem_append_left _ hn, hby.kept hkept⟩
    generalize hbefore : m.before.authorizations.find? id = o at hmove
    cases hmove with
    | same _ => exact ⟨hreq b hbefore rfl, hauth b hbefore rfl⟩
    | @requested actor scope _ hwho h hnew =>
      have hscope := (isolated_of_allowed h.allowed).1
      refine ⟨⟨m, by simp, hbefore, by rw [hb, hnew], actor, by rw [hwho, hscope]⟩, fun hd => ?_⟩
      -- a new row is pending
      rw [← hnew] at hd
      cases hd
    | @approved actor scope policyVersion now a hwho h =>
      refine ⟨hreq a hbefore rfl, fun _ => ⟨m, by simp, actor, a, _, ?_, ?_, hbefore, ?_, hb, rfl⟩⟩
      · rw [hwho, (isolated_of_allowed h.allowed).1]
        rfl
      · exact (mayAuthorize_of_allowed h.allowed).1
      · exact (Authorization.undecided_iff.mp h.undecided).1
    | @decided op _ _ _ a _ h =>
      refine ⟨hreq a hbefore (op.row_kept _ a), fun hd => ?_⟩
      cases op with
      | reject => cases hd
      | cancel => cases hd
      | revoke => exact hauth a hbefore rfl hd
    | @consumed _ _ _ _ a _ h => exact ⟨hreq a hbefore rfl, hauth a hbefore rfl⟩
    | @expired _ a _ => exact ⟨hreq a hbefore rfl, hauth a hbefore rfl⟩
  · intro a ha
    rw [hs id] at ha
    cases ha

/-! ## Using one up -/

/-- When the authorization was consumed. -/
def consumedAt? (s : Db) (id : Uuid) : Option Time :=
  (s.authorizations.find? id).bind Authorization.consumedAt

/-- The commit `m` consumed the authorization. -/
def Uses (id : Uuid) (m : Commit Db Reply C) : Prop :=
  consumedAt? m.after id ≠ consumedAt? m.before id

/-- Only `consume` sets the time. -/
theorem consumes_of_uses {id : Uuid} (hm : IsEffect cfg Inv f m) (h : Uses id m) :
    ∃ actor scope version now a, (f m.call).operator = some (actor, scope) ∧
      Consumes m.before id actor scope version now a ∧
      m.after.authorizations.find? id = some (a.consumedRow actor.principalId now) := by
  have hmove := hm.effect.moves id
  unfold Uses consumedAt? at h
  generalize hbefore : m.before.authorizations.find? id = o at hmove h
  generalize hafter : m.after.authorizations.find? id = o' at hmove h
  cases hmove with
  | same _ => exact absurd rfl h
  | requested _ _ hnew =>
    rw [← hnew] at h
    exact absurd rfl h
  | approved _ _ => exact absurd rfl h
  | @decided op _ _ _ _ _ _ => exact absurd (by cases op <;> rfl) h
  | consumed hwho hcons => exact ⟨_, _, _, _, _, hwho, hcons, rfl⟩
  | expired _ => exact absurd rfl h

/-- A consumed row was authorized; no later commit consumes it again. -/
theorem not_uses_of_consumed {id : Uuid} {a : Authorization} (hm : IsEffect cfg Inv f m)
    (ha : m.before.authorizations.find? id = some a) (hc : a.consumedAt ≠ none) : ¬ Uses id m := by
  intro huses
  rcases consumes_of_uses hm huses with ⟨_, _, _, _, b, -, h, -⟩
  have heq : a = b := Option.some.inj (ha.symm.trans h.row)
  have hopen := Authorization.open_iff.mp (Authorization.consumable_iff.mp h.consumable).1
  rw [heq] at hc
  exact hc hopen.2.1

/-- A consumed authorization is not revoked, in every state of a run. -/
theorem unrevoked_of_run (h : Commits (IsEffect cfg Inv f) s ms t)
    (hs : ∀ id, s.authorizations.find? id = none) {id : Uuid} {a : Authorization}
    (ha : t.authorizations.find? id = some a) : a.consumedAt = none ∨ a.revokedAt = none := by
  refine h.keeps (I := fun t => ∀ a, t.authorizations.find? id = some a →
    a.consumedAt = none ∨ a.revokedAt = none) ?_ ?_ a ha
  · intro m hm ih b hb
    have hmove := hm.effect.moves id
    rw [hb] at hmove
    generalize hbefore : m.before.authorizations.find? id = o at hmove
    cases hmove with
    | same _ => exact ih b hbefore
    | requested _ _ hnew =>
      left
      rw [← hnew]
      rfl
    | @approved _ _ _ _ a _ _ => exact ih a hbefore
    | @decided op _ _ _ a _ h =>
      cases op with
      | reject => exact ih a hbefore
      | cancel => exact ih a hbefore
      | revoke =>
        left
        exact (Authorization.open_iff.mp (Bool.and_eq_true_iff.mp h.guard).1).2.1
    | consumed _ h =>
      right
      exact (Authorization.open_iff.mp (Authorization.consumable_iff.mp h.consumable).1).2.2.1
    | @expired _ a _ => exact ih a hbefore
  · intro a ha
    rw [hs id] at ha
    cases ha

/-- A row that may be consumed had not been declined, revoked or expired at any earlier time. -/
theorem clear_of_open {id : Uuid} {a b : Authorization} (h : AuthorizationsSettled s t)
    (hb : s.authorizations.find? id = some b) (ha : t.authorizations.find? id = some a)
    (hopen : a.open = true) : b.decision ≠ .rejected ∧ b.decision ≠ .canceled ∧
      b.revokedAt = none ∧ b.expiredAt = none := by
  rcases h id b hb with ⟨d, hd, hset⟩
  have heq : a = d := Option.some.inj (ha.symm.trans hd)
  subst heq
  rcases Authorization.open_iff.mp hopen with ⟨hdec, -, hrev, hexp⟩
  refine ⟨fun hno => ?_, fun hno => ?_, ?_, ?_⟩
  · have hd := hset.decision (by rw [hno]; simp)
    rw [hdec, hno] at hd
    cases hd
  · have hd := hset.decision (by rw [hno]; simp)
    rw [hdec, hno] at hd
    cases hd
  · by_contra hno
    rw [hset.revoked hno] at hrev
    exact hno hrev
  · by_contra hno
    rw [hset.expired hno] at hexp
    exact hno hexp

/-- `consume` refuses and writes nothing, or it consumes. -/
theorem Effect.of_consume {id : Uuid} {actor : Actor} {scope : Scope} {version : String}
    (h : Effect cfg Inv (.consume id actor scope version) r s t) :
    ((∀ x, r = .service x → x.ok = false) ∧ t = s) ∨
      ∃ u, Consumption s id actor scope version u ∧ t = u s := by
  cases h with
  | quiet h => exact Or.inl ⟨h, rfl⟩
  | consumed h => exact Or.inr ⟨_, h, rfl⟩
  | resumeDeclined hc _ _ _ _ _ _ _ => cases hc
  | resumeConfirmed hc _ _ _ _ _ => cases hc
  | replayDeclined hc _ _ _ _ _ _ => cases hc

/-- What a consumption does to the authorizations. -/
theorem Consumption.row {id : Uuid} {actor : Actor} {scope : Scope} {version : String}
    {u : Db → Db} (h : Consumption s id actor scope version u) :
    ∃ now a, Consumes s id actor scope version now a ∧
      (u s).authorizations = s.authorizations.modify id
        (Authorization.consumedRow actor.principalId now) := by
  cases h with
  | plain h _ => exact ⟨_, _, h, rfl⟩
  | approved h _ _ _ => exact ⟨_, _, h, rfl⟩

/-- A `consume` that succeeds has consumed its row, and no other. -/
theorem uses_of_consume {id : Uuid} {actor : Actor} {scope : Scope} {version : String}
    (hm : IsEffect cfg Inv f m) (hc : f m.call = .consume id actor scope version) :
    (∀ x, m.reply = .service x → x.ok = true → Uses id m) ∧
      ∀ k, Uses k m → k = id ∧ ∀ a, m.before.authorizations.find? id = some a →
        a.resourceStateVersion = version := by
  have heffect := hm.effect
  rw [hc] at heffect
  rcases heffect.of_consume with ⟨hno, hsame⟩ | ⟨u, hcons, hafter⟩
  · constructor
    · intro x hx hok
      rw [hno x hx] at hok
      cases hok
    · intro k huses
      unfold Uses at huses
      rw [hsame] at huses
      exact absurd rfl huses
  · rcases hcons.row with ⟨now, a, h, hrows⟩
    rcases Authorization.consumable_iff.mp h.consumable with ⟨hopen, -, hversion, -⟩
    have hfind : ∀ k, m.after.authorizations.find? k = if k = id then
        some (a.consumedRow actor.principalId now) else m.before.authorizations.find? k := by
      intro k
      rw [hafter, hrows, Table.find?_modify_row h.row]
    constructor
    · intro x _ _
      unfold Uses consumedAt?
      rw [hfind, if_pos rfl, h.row]
      simp [Authorization.consumedRow, (Authorization.open_iff.mp hopen).2.1]
    · intro k huses
      unfold Uses consumedAt? at huses
      by_cases hk : k = id
      · refine ⟨hk, fun b hb => ?_⟩
        have heq : b = a := Option.some.inj (hb.symm.trans h.row)
        rw [heq, hversion]
      · rw [hfind, if_neg hk] at huses
        exact absurd rfl huses

/-! ## The whole life of an authorization -/

/-- An authorization is used at most once in a run. The commit that uses it runs for the service
identity in the scope of the row, before the row expires and in the version of the request;
earlier commits requested and authorized the row, and none of them declined, revoked or expired
it. A `consume` that succeeds is such a commit, and no row is both consumed and revoked. -/
theorem authorization_single_use {ι : Type} [DecidableEq ι] {y : TaskSys ι}
    (hy : Reachable (program cfg) Unauthorized y) (id : Uuid) :
    (∀ ms m ns, y.log = ms ++ m :: ns → Uses id m →
      (∀ n ∈ ns, ¬ Uses id n) ∧
      ∃ a actor now, m.before.authorizations.find? id = some a ∧
        m.call.operator = some (actor, a.scope) ∧ actor.isServiceIdentity = true ∧
        consumedAt? m.after id = some now ∧ now < a.expiresAt ∧
        (∀ k actor scope version, m.call = .consume k actor scope version →
          k = id ∧ version = a.resourceStateVersion) ∧
        (∃ n ∈ ms, n.before.authorizations.find? id = none ∧
          n.after.authorizations.find? id = some a.asRequested) ∧
        (∃ n ∈ ms, AuthorizedBy (fun c => c) id a n) ∧
        ∀ n ∈ ms, ∀ b, n.after.authorizations.find? id = some b →
          b.decision ≠ .rejected ∧ b.decision ≠ .canceled ∧ b.revokedAt = none ∧
            b.expiredAt = none) ∧
    (∀ m ∈ y.log, ∀ actor scope version x, m.call = .consume id actor scope version →
      m.reply = .service x → x.ok = true → Uses id m) ∧
    ∀ a, y.db.authorizations.find? id = some a → a.consumedAt = none ∨ a.revokedAt = none := by
  rcases run_of_reachable (f := fun c => c) hy with ⟨s, hs, hrun⟩
  refine ⟨fun ms m ns hlog huses => ?_, fun m hm actor scope version x hc => ?_, fun a ha => ?_⟩
  · rw [hlog] at hrun
    rcases hrun.commit with ⟨hbefore, hm, hafter⟩
    rcases consumes_of_uses hm huses with ⟨actor, scope, version, now, a, hwho, h, hrow⟩
    rcases Authorization.consumable_iff.mp h.consumable with ⟨hopen, htime, -, hscope⟩
    have hback := backed_of_run hbefore hs.1 id a h.row
    have hdecision := (Authorization.open_iff.mp hopen).1
    refine ⟨fun n hn huses' => ?_, a, actor, now, h.row, by rw [hwho, hscope], ?_, ?_, htime, ?_, ?_,
      hback.2 hdecision, fun n hn b hb => ?_⟩
    · -- the row stays consumed
      rcases hafter.mem hn with ⟨ls, ls', -, hto, hn', -⟩
      rcases settled_of_run hto id _ hrow with ⟨b, hb, hset⟩
      have hcons : b.consumedAt ≠ none := by
        rw [hset.consumed (by simp [Authorization.consumedRow])]
        simp [Authorization.consumedRow]
      exact not_uses_of_consumed hn' hb hcons huses'
    · exact (service_of_consume_allowed h.allowed).1
    · unfold consumedAt?
      rw [hrow]
      rfl
    · intro k actor scope version hcall
      rcases (uses_of_consume hm hcall).2 id huses with ⟨hk, hversion⟩
      rw [← hk] at hversion
      exact ⟨hk.symm, (hversion a h.row).symm⟩
    · rcases hback.1 with ⟨n, hn, hreq⟩
      exact ⟨n, hn, hreq.1, hreq.2.1⟩
    · rcases hbefore.mem hn with ⟨ls, ls', -, -, -, hto⟩
      exact clear_of_open (settled_of_run hto) hb h.row hopen
  · exact (uses_of_consume (hrun.all m hm) hc).1 x
  · exact unrevoked_of_run hrun hs.1 ha

/-! ### A run -/

def emptyDb : Db where
  now := 0
  authorizations := .empty
  approvals := .empty
  tasks := .empty
  clarifications := .empty
  outbox := .empty
  resumeRequests := .empty
  replayRequests := .empty

/-- Every gate open. -/
def openGates : Settings := ⟨true, true, true, true, 3, 24, 10⟩

def olga : Actor := { principalId := "olga", role := .agentOperator }

def rita : Actor := { principalId := "rita", role := .reviewerApprover }

def policyAuthority : Actor :=
  { principalId := "policy", role := .other "policy_authority", isPolicyAuthority := true }

def worker : Actor :=
  { principalId := "worker", role := .other "service", isServiceIdentity := true }

def home : Scope := ⟨some ⟨1⟩, some ⟨2⟩⟩

/-- A replay is requested, approved by another and consumed, twice. -/
def singleUseCalls : List Call := [
  .requestAuthorization ⟨10⟩ olga home home .replay .outboxEvent ⟨20⟩ "v1" 1000 "k1" false none,
  .authorize ⟨10⟩ olga home "p1",
  .authorize ⟨10⟩ rita home "p1",
  .tick 5,
  .consume ⟨10⟩ worker home "v1",
  .consume ⟨10⟩ worker home "v1"]

def singleUseRun : TaskSys Unit := Sys.calls (program openGates) emptyDb singleUseCalls

theorem unauthorized_emptyDb : Unauthorized emptyDb := ⟨fun _ => rfl, fun _ => rfl⟩

theorem singleUse_run : consumedAt? singleUseRun.db ⟨10⟩ = some 5 ∧
    ∀ a, singleUseRun.db.authorizations.find? ⟨10⟩ = some a →
      a.consumedAt = none ∨ a.revokedAt = none :=
  ⟨by decide +kernel,
    (authorization_single_use (reachable_calls unauthorized_emptyDb singleUseCalls) ⟨10⟩).2.2⟩

end AiAgentsSwd.Tasks
