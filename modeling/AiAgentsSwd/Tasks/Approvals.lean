import AiAgentsSwd.Tasks.Authorizations

/-!
# Tasks.Approvals — an approval is used for one authorization, and the two go together

`Paired` says that consumed authorizations with a production effect and used approvals name
one another. A transaction either consumes on neither side or consumes a pair; nothing that a
failing transaction wrote is ever committed.
-/

namespace AiAgentsSwd.Tasks

open Keyed (Table)
open Planning (Uuid Time)
open ReadCommitted

variable {cfg : Settings} {Inv : Db → Prop} {c : Call} {r : Reply} {s t : Db}
variable {C : Type} {f : C → Call} {ms ns : List (Commit Db Reply C)} {m : Commit Db Reply C}

/-! ## One approval -/

/-- What a transaction may do to one approval. -/
inductive Approval.Moves (s : Db) (id : Uuid) : Option Approval → Option Approval → Prop where
  | same (o : Option Approval) : Moves s id o o
  | granted {p : Approval} (hnew : p.asGranted = p) : Moves s id none (some p)
  | revoked {p : Approval} {revokedBy : String} {reason : ReasonCode} {now : Time}
      (hstate : p.state = .granted) (hunconsumed : p.consumedAt = none) :
      Moves s id (some p) (some (p.revokedRow revokedBy reason now))
  | consumed {p : Approval} {a : Authorization} {version consumedBy : String} {now : Time}
      {authorizationId : Uuid} (h : Spends s id a version now p) :
      Moves s id (some p) (some (p.consumedRow consumedBy authorizationId now))

/-- An update of one approval moves that one, and no other. -/
theorem Approval.moves_modify {k : Uuid} {g : Approval → Approval} {p : Approval}
    (hp : s.approvals.find? k = some p) (h : Moves s k (some p) (some (g p))) (id : Uuid) :
    Moves s id (s.approvals.find? id) ((s.approvals.modify k g).find? id) := by
  rw [Table.find?_modify_row hp]
  by_cases hid : id = k
  · subst hid
    rw [if_pos rfl, hp]
    exact h
  · rw [if_neg hid]
    exact .same _

theorem Ledger.approval_moves {who : Option (Actor × Scope)} {u : Db → Db} (h : Ledger s who u)
    (id : Uuid) : Approval.Moves s id (s.approvals.find? id) ((u s).approvals.find? id) := by
  cases h with
  | same _ => exact .same _
  | requested _ _ => exact .same _
  | approved _ => exact .same _
  | decided _ => exact .same _
  | consumed h =>
    cases h with
    | plain _ _ => exact .same _
    | approved _ _ _ hspend => exact Approval.moves_modify hspend.row (.consumed hspend) id
  | @expired _ ids now _ _ _ =>
    have hsame : (At.authorizations.modifyAll ids (Authorization.expiredRow now) s).approvals =
        s.approvals := TableAt.modifyAll_frame (fun _ _ => rfl) _ _
    rw [hsame]
    exact .same _
  | @granted _ k p habsent hnew =>
    show Approval.Moves s id _ ((s.approvals.insert k p).find? id)
    by_cases hid : id = k
    · subst hid
      rw [Table.find?_insert_self, habsent]
      exact .granted hnew
    · rw [Table.find?_insert_of_ne _ _ hid]
      exact .same _
  | revoked hp hstate hfree => exact Approval.moves_modify hp (.revoked hstate hfree) id

theorem Effect.approval_moves (h : Effect cfg Inv c r s t) (id : Uuid) :
    Approval.Moves s id (s.approvals.find? id) (t.approvals.find? id) := by
  rcases h.ledger with ⟨u, hledger, -, hp⟩
  rw [hp]
  exact hledger.approval_moves id

/-- When the approval was consumed. -/
def approvalConsumedAt? (s : Db) (id : Uuid) : Option Time :=
  (s.approvals.find? id).bind Approval.consumedAt

/-- The commit `m` used the approval. -/
def UsesApproval (id : Uuid) (m : Commit Db Reply C) : Prop :=
  approvalConsumedAt? m.after id ≠ approvalConsumedAt? m.before id

theorem spends_of_usesApproval {id : Uuid} (hm : IsEffect cfg Inv f m) (h : UsesApproval id m) :
    ∃ p a version now consumedBy authorizationId, Spends m.before id a version now p ∧
      m.after.approvals.find? id = some (p.consumedRow consumedBy authorizationId now) := by
  have hmove := hm.effect.approval_moves id
  unfold UsesApproval approvalConsumedAt? at h
  generalize m.before.approvals.find? id = o at hmove h
  generalize m.after.approvals.find? id = o' at hmove h
  cases hmove with
  | same _ => exact absurd rfl h
  | granted hnew =>
    rw [← hnew] at h
    exact absurd rfl h
  | revoked _ _ => exact absurd rfl h
  | consumed hspend => exact ⟨_, _, _, _, _, _, hspend, rfl⟩

/-- A revoked approval stays revoked. -/
theorem revoked_of_run (h : Commits (IsEffect cfg Inv f) s ms t) {id : Uuid} {p : Approval}
    (hp : s.approvals.find? id = some p) (hrev : p.revokedAt ≠ none) :
    ∃ q, t.approvals.find? id = some q ∧ q.revokedAt ≠ none := by
  refine h.keeps (I := fun t => ∃ q, t.approvals.find? id = some q ∧ q.revokedAt ≠ none) ?_
    ⟨p, hp, hrev⟩
  rintro m hm ⟨q, hq, hrev⟩
  have hmove := hm.effect.approval_moves id
  rw [hq] at hmove
  generalize hafter : m.after.approvals.find? id = o at hmove ⊢
  cases hmove with
  | same _ => exact ⟨q, rfl, hrev⟩
  | revoked _ _ => exact ⟨_, rfl, by simp [Approval.revokedRow]⟩
  | consumed _ => exact ⟨_, rfl, hrev⟩

/-! ## The pairing -/

/-- Any column of a consumption is set. -/
def Approval.Used (p : Approval) : Prop :=
  p.state = .consumed ∨ p.consumedAt ≠ none ∨ p.consumedByAuthorizationId ≠ none

/-- The approval `p` was used for the authorization `a`, in time and for what it was granted. -/
structure Approval.UsedFor (p : Approval) (approvalId id : Uuid) (a : Authorization) : Prop where
  names : p.consumedByAuthorizationId = some id
  state : p.state = .consumed
  unrevoked : p.revokedAt = none
  time : ∃ u, p.consumedAt = some u ∧ u < p.expiresAt
  effect : a.productionEffect = true
  reference : a.productionApprovalReference = some (.approval approvalId)
  bound : p.boundTo a a.resourceStateVersion = true

theorem Approval.UsedFor.kept {p : Approval} {approvalId id : Uuid} {a b : Authorization}
    (h : p.UsedFor approvalId id a) (hkept : Kept Authorization.asRequested a b) :
    p.UsedFor approvalId id b where
  names := h.names
  state := h.state
  unrevoked := h.unrevoked
  time := h.time
  effect := by
    rw [hkept.field Authorization.productionEffect fun _ => rfl]
    exact h.effect
  reference := by
    rw [hkept.field Authorization.productionApprovalReference fun _ => rfl]
    exact h.reference
  bound := by
    have hbound := h.bound
    unfold boundTo at hbound ⊢
    rw [hkept.field Authorization.actionType fun _ => rfl,
      hkept.field Authorization.resourceType fun _ => rfl,
      hkept.field Authorization.resourceId fun _ => rfl,
      hkept.field Authorization.teamId fun _ => rfl,
      hkept.field Authorization.projectId fun _ => rfl,
      hkept.field Authorization.resourceStateVersion fun _ => rfl]
    exact hbound

/-- Consumed authorizations with a production effect and used approvals name one another. -/
structure Paired (s : Db) : Prop where
  approval : ∀ id a, s.authorizations.find? id = some a → a.consumedAt ≠ none →
    a.productionEffect = true → ∃ approvalId p,
      a.productionApprovalReference = some (.approval approvalId) ∧
      s.approvals.find? approvalId = some p ∧ p.consumedByAuthorizationId = some id
  authorization : ∀ approvalId p, s.approvals.find? approvalId = some p → p.Used →
    ∃ id a, p.UsedFor approvalId id a ∧ s.authorizations.find? id = some a ∧ a.consumedAt ≠ none

/-- A granted approval is not used. -/
theorem Paired.not_used (h : Paired s) {id : Uuid} {p : Approval}
    (hp : s.approvals.find? id = some p) (hstate : p.state = .granted) : ¬ p.Used := by
  intro hused
  rcases h.authorization id p hp hused with ⟨_, _, hfor, -, -⟩
  rw [hfor.state] at hstate
  cases hstate

/-- No authorization has become consumed from `s` to `t`. -/
def NoneConsumed (s t : Db) : Prop :=
  ∀ id b, t.authorizations.find? id = some b → b.consumedAt ≠ none →
    ∃ a, s.authorizations.find? id = some a ∧ a.consumedAt ≠ none ∧
      Kept Authorization.asRequested a b

theorem NoneConsumed.modify {k : Uuid} {g : Authorization → Authorization} {a : Authorization}
    (ha : s.authorizations.find? k = some a) (hkept : Kept Authorization.asRequested a (g a))
    (hcons : (g a).consumedAt = a.consumedAt) :
    NoneConsumed s (At.authorizations.modify k g s) := by
  intro id b hb hc
  rw [show (At.authorizations.modify k g s).authorizations = s.authorizations.modify k g from rfl,
    Table.find?_modify_row ha] at hb
  by_cases hid : id = k
  · rw [if_pos hid, Option.some.injEq] at hb
    subst hb
    rw [hcons] at hc
    exact ⟨a, by rw [hid, ha], hc, hkept⟩
  · rw [if_neg hid] at hb
    exact ⟨b, hb, hc, rfl⟩

/-- A transaction consumes a pair or nothing. -/
theorem Ledger.consumes_or_none {who : Option (Actor × Scope)} {u : Db → Db} (h : Ledger s who u) :
    (∃ id actor scope version, Consumption s id actor scope version u) ∨
      NoneConsumed s (u s) ∧ ∀ id, (u s).approvals.find? id = s.approvals.find? id ∨
        ∃ q, (u s).approvals.find? id = some q ∧ (q.asGranted = q ∧ s.approvals.find? id = none ∨
          ∃ p revokedBy reason now, s.approvals.find? id = some p ∧ p.state = .granted ∧
            q = p.revokedRow revokedBy reason now) := by
  have hsame : NoneConsumed s s := fun id b hb hc => ⟨b, hb, hc, rfl⟩
  cases h with
  | same _ => exact Or.inr ⟨hsame, fun _ => Or.inl rfl⟩
  | @requested k _ _ a h hnew =>
    refine Or.inr ⟨fun id b hb hc => ?_, fun _ => Or.inl rfl⟩
    rw [show (At.authorizations.insert k a s).authorizations = s.authorizations.insert k a from rfl]
      at hb
    by_cases hid : id = k
    · rw [hid, Table.find?_insert_self, Option.some.injEq] at hb
      rw [← hb, ← hnew] at hc
      exact absurd rfl hc
    · rw [Table.find?_insert_of_ne _ _ hid] at hb
      exact ⟨b, hb, hc, rfl⟩
  | approved h => exact Or.inr ⟨.modify h.row rfl rfl, fun _ => Or.inl rfl⟩
  | @decided op _ _ _ _ a h =>
    refine Or.inr ⟨.modify h.row (op.row_kept _ a) ?_, fun _ => Or.inl rfl⟩
    cases op <;> rfl
  | consumed h => exact Or.inl ⟨_, _, _, _, h⟩
  | @expired _ ids now hnd _ h =>
    have hfind : ∀ id, (At.authorizations.modifyAll ids (Authorization.expiredRow now)
        s).authorizations.find? id = if id ∈ ids then (s.authorizations.find? id).map
          (Authorization.expiredRow now) else s.authorizations.find? id :=
      fun id => TableAt.find?_modifyAll (T := At.authorizations) _ hnd id s
    have happ : (At.authorizations.modifyAll ids (Authorization.expiredRow now) s).approvals =
        s.approvals := TableAt.modifyAll_frame (fun _ _ => rfl) _ _
    refine Or.inr ⟨fun id b hb hc => ?_, fun _ => Or.inl (by rw [happ])⟩
    rw [hfind] at hb
    by_cases hid : id ∈ ids
    · rw [if_pos hid, Option.map_eq_some_iff] at hb
      rcases hb with ⟨a, ha, rfl⟩
      exact ⟨a, ha, hc, rfl⟩
    · rw [if_neg hid] at hb
      exact ⟨b, hb, hc, rfl⟩
  | @granted _ k p habsent hnew =>
    refine Or.inr ⟨hsame, fun id => ?_⟩
    rw [show (At.approvals.insert k p s).approvals = s.approvals.insert k p from rfl]
    by_cases hid : id = k
    · rw [hid, Table.find?_insert_self]
      exact Or.inr ⟨p, rfl, Or.inl ⟨hnew, habsent⟩⟩
    · exact Or.inl (Table.find?_insert_of_ne _ _ hid)
  | @revoked _ k p revokedBy reason now hp hstate _ =>
    refine Or.inr ⟨hsame, fun id => ?_⟩
    rw [show (At.approvals.modify k (Approval.revokedRow revokedBy reason now) s).approvals =
      s.approvals.modify k (Approval.revokedRow revokedBy reason now) from rfl,
      Table.find?_modify_row hp]
    by_cases hid : id = k
    · rw [if_pos hid, hid]
      exact Or.inr ⟨_, rfl, Or.inr ⟨p, revokedBy, reason, now, hp, hstate, rfl⟩⟩
    · exact Or.inl (if_neg hid)

/-- The step lemma. -/
theorem Effect.paired (h : Effect cfg Inv c r s t) (hs : Paired s) : Paired t := by
  have hsettled := h.settled
  rcases h.ledger with ⟨u, hledger, ha, hp⟩
  -- a row that was consumed is there after the step, consumed and the same request
  have hkeep : ∀ id a, s.authorizations.find? id = some a → a.consumedAt ≠ none →
      ∃ b, t.authorizations.find? id = some b ∧ b.consumedAt ≠ none ∧
        Kept Authorization.asRequested a b := by
    intro id a hrow hc
    rcases hsettled id a hrow with ⟨b, hb, hset⟩
    exact ⟨b, hb, by rwa [hset.consumed hc], hset.request⟩
  -- an approval that was used before the step is used for the same authorization after it
  have hold : ∀ approvalId p, s.approvals.find? approvalId = some p → p.Used →
      ∃ id a, p.UsedFor approvalId id a ∧ t.authorizations.find? id = some a ∧
        a.consumedAt ≠ none := by
    intro approvalId p hrow hused
    rcases hs.authorization approvalId p hrow hused with ⟨id, a, hfor, hrow', hc⟩
    rcases hkeep id a hrow' hc with ⟨b, hb, hbc, hkept⟩
    exact ⟨id, b, hfor.kept hkept, hb, hbc⟩
  rcases hledger.consumes_or_none with ⟨id, actor, scope, version, hcons⟩ | ⟨hnone, happ⟩
  · cases hcons with
    | @plain a now hc hplain =>
      have hrows : ∀ j, t.authorizations.find? j = if j = id then
          some (a.consumedRow actor.principalId now) else s.authorizations.find? j := by
        intro j
        rw [ha]
        exact Table.find?_modify_row hc.row j
      have hsame : t.approvals = s.approvals := hp
      constructor
      · intro j b hb hbc heff
        rw [hrows] at hb
        by_cases hj : j = id
        · -- the row that is consumed has no production effect
          rw [if_pos hj, Option.some.injEq] at hb
          rw [← hb] at heff
          rw [show (a.consumedRow actor.principalId now).productionEffect = a.productionEffect from
            rfl, hplain] at heff
          cases heff
        · rw [if_neg hj] at hb
          rw [hsame]
          exact hs.approval j b hb hbc heff
      · intro approvalId p hrow
        rw [hsame] at hrow
        exact hold approvalId p hrow
    | @approved a now now' approvalId p hc heff href hspend =>
      have hrows : ∀ j, t.authorizations.find? j = if j = id then
          some (a.consumedRow actor.principalId now) else s.authorizations.find? j := by
        intro j
        rw [ha]
        exact Table.find?_modify_row hc.row j
      have happs : ∀ j, t.approvals.find? j = if j = approvalId then
          some (p.consumedRow actor.principalId id now') else s.approvals.find? j := by
        intro j
        rw [hp]
        exact Table.find?_modify_row hspend.row j
      have hfresh := hs.not_used hspend.row hspend.state
      constructor
      · intro j b hb hbc hprod
        rw [hrows] at hb
        by_cases hj : j = id
        · rw [if_pos hj, Option.some.injEq] at hb
          refine ⟨approvalId, _, ?_, by rw [happs, if_pos rfl], by rw [hj]; rfl⟩
          rw [← hb]
          exact href
        · rw [if_neg hj] at hb
          rcases hs.approval j b hb hbc hprod with ⟨k, q, hk, hq, hnames⟩
          -- that approval was used, so it is not the one used now
          have hne : k ≠ approvalId := by
            rintro rfl
            have heq : p = q := Option.some.inj (hspend.row.symm.trans hq)
            exact hfresh (Or.inr (Or.inr (by rw [heq, hnames]; simp)))
          exact ⟨k, q, hk, by rw [happs, if_neg hne, hq], hnames⟩
      · intro k q hq hused
        rw [happs] at hq
        by_cases hk : k = approvalId
        · rw [if_pos hk, Option.some.injEq] at hq
          subst hq
          rw [hk]
          rcases Authorization.consumable_iff.mp hc.consumable with ⟨-, -, hversion, -⟩
          refine ⟨id, a.consumedRow actor.principalId now, ⟨rfl, rfl, hspend.unrevoked,
            ⟨now', rfl, hspend.unexpired⟩, heff, href, ?_⟩, by rw [hrows, if_pos rfl],
            by simp [Authorization.consumedRow]⟩
          have hbound := hspend.bound
          rw [← hversion] at hbound
          exact hbound
        · rw [if_neg hk] at hq
          exact hold k q hq hused
  · constructor
    · intro id b hb hbc hprod
      rw [ha] at hb
      rcases hnone id b hb hbc with ⟨a, hrow, hac, hkept⟩
      have hprod' : a.productionEffect = true := by
        rw [← hkept.field Authorization.productionEffect fun _ => rfl]
        exact hprod
      rcases hs.approval id a hrow hac hprod' with ⟨approvalId, p, href, hp', hnames⟩
      refine ⟨approvalId, p, ?_, ?_, hnames⟩
      · rw [hkept.field Authorization.productionApprovalReference fun _ => rfl]
        exact href
      · -- a used approval is neither new nor one that can be revoked
        rw [hp]
        rcases happ approvalId with hsame | ⟨q, -, ⟨-, habsent⟩ | ⟨p', _, _, _, hrow', hstate, -⟩⟩
        · rw [hsame, hp']
        · rw [habsent] at hp'
          cases hp'
        · have heq : p' = p := Option.some.inj (hrow'.symm.trans hp')
          rw [heq] at hstate
          exact absurd (Or.inr (Or.inr (by rw [hnames]; simp))) (hs.not_used hp' hstate)
    · intro approvalId q hq hused
      rw [hp] at hq
      rcases happ approvalId with hsame | ⟨q', hq', hnew | ⟨p, _, _, _, hrow, hstate, rfl⟩⟩
      · rw [hsame] at hq
        exact hold approvalId q hq hused
      · have heq : q' = q := Option.some.inj (hq'.symm.trans hq)
        rw [← heq, ← hnew.1] at hused
        simp [Approval.Used, Approval.asGranted] at hused
      · have heq := Option.some.inj (hq'.symm.trans hq)
        rw [← heq] at hused
        have hno := hs.not_used hrow hstate
        simp only [Approval.Used, not_or] at hno
        simp [Approval.Used, Approval.revokedRow, hno.2.1, hno.2.2] at hused

theorem paired_of_run (h : Commits (IsEffect cfg Inv f) s ms t) (hs : Unauthorized s) :
    Paired t := by
  refine h.keeps (fun m hm => hm.effect.paired) ⟨fun id a ha => ?_, fun id p hp => ?_⟩
  · rw [hs.1 id] at ha
    cases ha
  · rw [hs.2 id] at hp
    cases hp

/-- Consumed authorizations with a production effect and used approvals are in one to one
correspondence, bound to the same action, resource, scope and version; and an approval is used
only before it expires and only if it has not been revoked. -/
theorem approvals_paired {ι : Type} [DecidableEq ι] {y : TaskSys ι}
    (hy : Reachable (program cfg) Unauthorized y) :
    (∀ id a, y.db.authorizations.find? id = some a → a.consumedAt ≠ none →
      a.productionEffect = true → ∃ approvalId p, y.db.approvals.find? approvalId = some p ∧
        p.consumedAt ≠ none ∧ p.consumedByAuthorizationId = some id ∧
        p.boundTo a a.resourceStateVersion = true ∧
        ∀ k q, y.db.approvals.find? k = some q → q.consumedByAuthorizationId = some id →
          k = approvalId) ∧
    (∀ approvalId p, y.db.approvals.find? approvalId = some p →
      p.state = .consumed ∨ p.consumedAt ≠ none ∨ p.consumedByAuthorizationId ≠ none →
      p.state = .consumed ∧ p.consumedAt ≠ none ∧ p.revokedAt = none ∧
        ∃ id a, p.consumedByAuthorizationId = some id ∧
          y.db.authorizations.find? id = some a ∧ a.consumedAt ≠ none ∧
          a.productionEffect = true) ∧
    ∀ ms m ns, y.log = ms ++ m :: ns → ∀ approvalId, UsesApproval approvalId m →
      ∃ p now, m.before.approvals.find? approvalId = some p ∧
        approvalConsumedAt? m.after approvalId = some now ∧ now < p.expiresAt ∧
        p.state = .granted ∧ p.revokedAt = none ∧
        ∀ n ∈ ms, ∀ q, n.after.approvals.find? approvalId = some q → q.revokedAt = none := by
  rcases run_of_reachable (f := fun c => c) hy with ⟨s, hs, hrun⟩
  have hpaired := paired_of_run hrun hs
  refine ⟨fun id a ha hc hprod => ?_, fun approvalId p hp hused => ?_, fun ms m ns hlog k huse => ?_⟩
  · rcases hpaired.approval id a ha hc hprod with ⟨approvalId, p, href, hp, hnames⟩
    -- whichever approval names the row is the one the row refers to
    have hfor : ∀ k q, y.db.approvals.find? k = some q → q.consumedByAuthorizationId = some id →
        q.UsedFor k id a := by
      intro k q hq hname
      rcases hpaired.authorization k q hq (Or.inr (Or.inr (by rw [hname]; simp))) with
        ⟨id', b, hfor, hb, -⟩
      have hid : id' = id := Option.some.inj (hfor.names.symm.trans hname)
      rw [hid] at hfor hb
      have heq : b = a := Option.some.inj (hb.symm.trans ha)
      rw [heq] at hfor
      exact hfor
    have hp' := hfor approvalId p hp hnames
    rcases hp'.time with ⟨u, hu, -⟩
    refine ⟨approvalId, p, hp, by rw [hu]; simp, hnames, hp'.bound, fun k q hq hname => ?_⟩
    have href' := (hfor k q hq hname).reference
    rw [href, Option.some.injEq, Reference.approval.injEq] at href'
    exact href'.symm
  · rcases hpaired.authorization approvalId p hp hused with ⟨id, a, hfor, ha, hc⟩
    rcases hfor.time with ⟨u, hu, -⟩
    exact ⟨hfor.state, by rw [hu]; simp, hfor.unrevoked, id, a, hfor.names, ha, hc, hfor.effect⟩
  · rw [hlog] at hrun
    rcases hrun.commit with ⟨hbefore, hm, -⟩
    rcases spends_of_usesApproval hm huse with ⟨p, a, version, now, consumedBy, id, hspend, hrow⟩
    refine ⟨p, now, hspend.row, ?_, hspend.unexpired, hspend.state, hspend.unrevoked,
      fun n hn q hq => ?_⟩
    · unfold approvalConsumedAt?
      rw [hrow]
      rfl
    · by_contra hrev
      rcases hbefore.mem hn with ⟨ls, ls', -, -, -, hto⟩
      rcases revoked_of_run hto hq hrev with ⟨p', hp', hrev'⟩
      have heq : p' = p := Option.some.inj (hp'.symm.trans hspend.row)
      rw [heq] at hrev'
      exact hrev' hspend.unrevoked

/-- An approval is granted, and used by the request that names it. -/
def pairedCalls : List Call := [
  .grantProductionApproval ⟨30⟩ rita home .replay .outboxEvent ⟨20⟩ "v1" 1000 "g1" none,
  .requestAuthorization ⟨10⟩ olga home home .replay .outboxEvent ⟨20⟩ "v1" 1000 "k1" true
    (some (.approval ⟨30⟩)),
  .authorize ⟨10⟩ rita home "p1",
  .consume ⟨10⟩ worker home "v1"]

def pairedRun : TaskSys Unit := Sys.calls (program openGates) emptyDb pairedCalls

theorem paired_run : consumedAt? pairedRun.db ⟨10⟩ = some 0 ∧
    ∀ p, pairedRun.db.approvals.find? ⟨30⟩ = some p → p.state = .consumed →
      ∃ id a, p.consumedByAuthorizationId = some id ∧
        pairedRun.db.authorizations.find? id = some a ∧ a.consumedAt ≠ none := by
  refine ⟨by decide +kernel, fun p hp hstate => ?_⟩
  rcases (approvals_paired (reachable_calls unauthorized_emptyDb pairedCalls)).2.1 ⟨30⟩ p hp
    (Or.inl hstate) with ⟨-, -, -, id, a, hnames, ha, hc, -⟩
  exact ⟨id, a, hnames, ha, hc⟩

end AiAgentsSwd.Tasks
