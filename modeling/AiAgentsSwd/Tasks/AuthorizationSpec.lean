import AiAgentsSwd.Tasks.Effects

/-!
# Tasks.AuthorizationSpec — what the shared operations ensure

One lemma for each operation of `authorization_service.py`, `production_approval_service.py`
and `lifecycle_outbox.py`, in the form that the request services compose: what the operation
has written, and what is known about the committed database at its end. What is known is
stable: the holder of the locks may carry it to a later state (`Approves.stable` and the like).
-/

namespace AiAgentsSwd.Tasks

open Keyed (Table Evolves)
open Planning (Uuid Time)
open ReadCommitted Txn TableAt

variable {Inv : Db → Prop} {L : List Lock} {w : Db → Db} {s t : Db}

/-! ## What a session may rely on -/

theorem authorizations_evolve (l : List Lock) (a b : Db) (h : Guar l a b) :
    Evolves At.authorizations.lock (Kept Authorization.asRequested) l
      (At.authorizations.get a) (At.authorizations.get b) := h.authorizations

theorem approvals_evolve (l : List Lock) (a b : Db) (h : Guar l a b) :
    Evolves At.approvals.lock (Kept Approval.asGranted) l
      (At.approvals.get a) (At.approvals.get b) := h.approvals

theorem tasks_evolve (l : List Lock) (a b : Db) (h : Guar l a b) :
    Evolves At.tasks.lock (fun _ _ => True) l (At.tasks.get a) (At.tasks.get b) := h.tasks

theorem clarifications_evolve (l : List Lock) (a b : Db) (h : Guar l a b) :
    Evolves At.clarifications.lock (Kept Clarification.asCreated) l
      (At.clarifications.get a) (At.clarifications.get b) := h.clarifications

theorem outbox_evolves (l : List Lock) (a b : Db) (h : Guar l a b) :
    Evolves At.outbox.lock (Kept OutboxEvent.asInserted) l
      (At.outbox.get a) (At.outbox.get b) := h.outbox

theorem resumeRequests_evolve (l : List Lock) (a b : Db) (h : Guar l a b) :
    Evolves At.resumeRequests.lock (Kept ResumeRequest.asRequested) l
      (At.resumeRequests.get a) (At.resumeRequests.get b) := h.resumeRequests

theorem replayRequests_evolve (l : List Lock) (a b : Db) (h : Guar l a b) :
    Evolves At.replayRequests.lock (Kept ReplayRequest.asRequested) l
      (At.replayRequests.get a) (At.replayRequests.get b) := h.replayRequests

theorem rely_now (h : Rely Inv Guar L s t) : s.now ≤ t.now := by
  apply h.keeps (P := fun t => s.now ≤ t.now) _ (Nat.le_refl _)
  intro a b l _ _ hg _ hab
  exact Nat.le_trans hab hg.now

theorem rely_authorization (h : Rely Inv Guar L s t) {k : Uuid} (hk : .authorization k ∈ L) :
    t.authorizations.find? k = s.authorizations.find? k :=
  h.row authorizations_evolve hk

theorem rely_approval (h : Rely Inv Guar L s t) {k : Uuid} (hk : .approval k ∈ L) :
    t.approvals.find? k = s.approvals.find? k :=
  h.row approvals_evolve hk

theorem rely_task (h : Rely Inv Guar L s t) {k : Uuid} (hk : .task k ∈ L) :
    t.tasks.find? k = s.tasks.find? k :=
  h.row tasks_evolve hk

theorem rely_clarification (h : Rely Inv Guar L s t) {k : Uuid} (hk : .clarification k ∈ L) :
    t.clarifications.find? k = s.clarifications.find? k :=
  h.row clarifications_evolve hk

theorem rely_outbox (h : Rely Inv Guar L s t) {k : Uuid} (hk : .outboxEvent k ∈ L) :
    t.outbox.find? k = s.outbox.find? k :=
  h.row outbox_evolves hk

theorem rely_resumeRequest (h : Rely Inv Guar L s t) {k : Uuid} (hk : .resumeRequest k ∈ L) :
    t.resumeRequests.find? k = s.resumeRequests.find? k :=
  h.row resumeRequests_evolve hk

theorem rely_replayRequest (h : Rely Inv Guar L s t) {k : Uuid} (hk : .replayRequest k ∈ L) :
    t.replayRequests.find? k = s.replayRequests.find? k :=
  h.row replayRequests_evolve hk

/-- An authorization that was read is, at any later time, still the same request. -/
theorem rely_kept (h : Rely Inv Guar L s t) {k : Uuid} {a b : Authorization}
    (ha : s.authorizations.find? k = some a) (hb : t.authorizations.find? k = some b) :
    Kept Authorization.asRequested a b := by
  rcases h.same_row authorizations_evolve Kept.refl Kept.trans ha with ⟨y, hy, hkept⟩
  have heq : b = y := Option.some.inj (hb.symm.trans hy)
  rw [heq]
  exact hkept

section Stable

variable {id : Uuid} {actor : Actor} {scope : Scope} {now : Time} {a : Authorization}
variable {policyVersion version : String}

theorem Approves.stable (h : Approves s id actor scope policyVersion now a)
    (ht : Rely Inv Guar L s t) (hk : .authorization id ∈ L) :
    Approves t id actor scope policyVersion now a where
  row := by rw [rely_authorization ht hk, h.row]
  undecided := h.undecided
  allowed := h.allowed
  check := h.check
  now_le := Nat.le_trans h.now_le (rely_now ht)

theorem Decides.stable {op : SimpleOp} (h : Decides s op id actor scope now a)
    (ht : Rely Inv Guar L s t) (hk : .authorization id ∈ L) :
    Decides t op id actor scope now a where
  row := by rw [rely_authorization ht hk, h.row]
  guard := h.guard
  allowed := h.allowed
  check := h.check
  now_le := Nat.le_trans h.now_le (rely_now ht)

theorem Consumes.stable (h : Consumes s id actor scope version now a)
    (ht : Rely Inv Guar L s t) (hk : .authorization id ∈ L) :
    Consumes t id actor scope version now a where
  row := by rw [rely_authorization ht hk, h.row]
  consumable := h.consumable
  allowed := h.allowed
  check := h.check
  now_le := Nat.le_trans h.now_le (rely_now ht)

theorem Spends.stable {p : Approval} (h : Spends s id a version now p)
    (ht : Rely Inv Guar L s t) (hk : .approval id ∈ L) : Spends t id a version now p where
  row := by rw [rely_approval ht hk, h.row]
  state := h.state
  unconsumed := h.unconsumed
  unrevoked := h.unrevoked
  unexpired := h.unexpired
  bound := h.bound
  now_le := Nat.le_trans h.now_le (rely_now ht)

/-- An index entry that is free stays free for the holder of its lock. -/
theorem rely_free {R : Type} {T : Db → Table Uuid R} {e : Lock} {p : R → Bool}
    (ht : Rely Inv Guar L s t) (he : e ∈ L)
    (hE : ∀ l a b, Guar l a b → Keyed.Entered e (fun x => p x = true) l (T a) (T b))
    (h : ∀ k x, (T s).find? k = some x → p x = false) :
    ∀ k x, (T t).find? k = some x → p x = false := by
  intro k x hx
  by_contra hp
  rw [Bool.not_eq_false] at hp
  rcases ht.entered hE he hx hp with ⟨y, hy, hpy⟩
  rw [h k y hy] at hpy
  cases hpy

theorem Requests.stable (h : Requests s id actor scope a) (ht : Rely Inv Guar L s t)
    (hk : .authorization id ∈ L) (hkey : .authorizationKey a.idempotencyKey ∈ L)
    (hactive : .activeAuthorization a.actionType a.resourceId ∈ L) :
    Requests t id actor scope a where
  absent := by rw [rely_authorization ht hk, h.absent]
  allowed := h.allowed
  key_free := rely_free ht hkey (fun _ _ _ hg => hg.authorizationIndex _ _ (.key _)) h.key_free
  active_free := rely_free ht hactive
    (fun _ _ _ hg => hg.authorizationIndex _ _ (.active _ _)) h.active_free
  check := h.check
  requested_le := Nat.le_trans h.requested_le (rely_now ht)

theorem Emits.stable {o : OutboxEvent} (h : Emits s id o) (ht : Rely Inv Guar L s t)
    (hk : .outboxEvent id ∈ L) : Emits t id o where
  absent := by rw [rely_outbox ht hk, h.absent]
  created_le := Nat.le_trans h.created_le (rely_now ht)

end Stable

/-! ## The clock -/

/-- The timestamp of a statement lies between the times at its start and at the end. -/
theorem ensures_now (hw : ∀ t, (w t).now = t.now) :
    Ensures Inv Guar statementTimestamp L w s fun now _ w' t =>
      w' = w ∧ s.now ≤ now ∧ now ≤ t.now := by
  unfold statementTimestamp Txn.select
  rw [ensures_query]
  intro t ht
  rw [ensures_done, hw]
  intro t' ht'
  exact ⟨rfl, rely_now ht, rely_now ht'⟩

/-- `UPDATE … SET …=statement_timestamp() WHERE …`: the rule of every stamped transition. -/
theorem ensures_stamped {R : Type} {T : TableAt Db Lock Uuid R} {same : R → R → Prop} {k : Uuid}
    {cond : Time → R → Bool} {f : Time → R → R} {check : R → Bool} {e : Failure}
    (hT : ∀ l a b, Guar l a b → Evolves T.lock same l (T.get a) (T.get b))
    (hw : ∀ t, T.get (w t) = T.get t) (hnow : ∀ t, (w t).now = t.now)
    (hguar : ∀ now L' v x, T.lock k ∈ L' → (T.get v).find? k = some x → cond now x = true →
      (L ⊆ L' ∧ ∃ t, Rely Inv Guar L s t ∧ (T.get t).find? k = some x) →
      Guar L' v (T.modify k (f now) v)) :
    Ensures Inv Guar (statementTimestamp.bind fun now => T.update k (cond now) (f now) check e)
      L w s fun b L' w' t => ∃ now, s.now ≤ now ∧ now ≤ t.now ∧
        ((b = none ∧ w' = w ∧ ∃ t₁, Rely Inv Guar L s t₁ ∧ Rely Inv Guar L t₁ t ∧
            ∀ x, (T.get t₁).find? k = some x → cond now x = false) ∨
          ∃ x, (T.get t).find? k = some x ∧ cond now x = true ∧ check (f now x) = true ∧
            b = some (f now x) ∧ T.lock k ∈ L' ∧ w' = T.modify k (f now) ∘ w) := by
  apply (ensures_now hnow).bind
  rintro now L₁ w₁ t₁ ⟨rfl, hlo, hhi⟩ hr₁ hL
  have hrow : ∀ t, (T.get (w₁ t)).find? k = (T.get t).find? k := fun t => by rw [hw]
  refine (ensures_update hT hrow fun L' v x hk hx hc hat => ?_).track.mono ?_
  · rcases hat with ⟨hL', t, ht, htx⟩
    exact hguar now L' v x hk hx hc
      ⟨fun y hy => hL' (hL hy), t, hr₁.trans (ht.mono hL), htx⟩
  rintro b L' w' t ⟨hb, hr, -⟩
  refine ⟨now, hlo, Nat.le_trans hhi (rely_now hr), ?_⟩
  rcases hb with ⟨hb, hw', hnone⟩ | hsome
  · rcases hnone with ⟨t', ht', ht'', hfalse⟩
    exact Or.inl ⟨hb, hw', t', hr₁.trans (ht'.mono hL), ht''.mono hL, hfalse⟩
  · exact Or.inr hsome

/-! ## Deciding an authorization -/

section Authorizations

variable {id : Uuid} {actor : Actor} {scope : Scope}

/-- The row that the service reads before it decides: still the same request at the end. -/
theorem ensures_getAuthorization (hw : ∀ t, (w t).authorizations = t.authorizations) :
    Ensures Inv Guar (getAuthorization id scope) L w s fun b _ w' t =>
      w' = w ∧ ∀ a, b = some a → ∃ y, t.authorizations.find? id = some y ∧
        Kept Authorization.asRequested a y := by
  have hrow : ∀ t, (At.authorizations.get (w t)).find? id = (At.authorizations.get t).find? id :=
    fun t => congrArg (Table.find? · id) (hw t)
  unfold getAuthorization
  refine (ensures_select authorizations_evolve Kept.refl Kept.trans hrow).mono ?_
  rintro b L w t ⟨hw, hb⟩
  exact ⟨hw, fun a ha => (hb a ha).2⟩

/-- `approve`, `reject`, `cancel` and `consume` leave no row active that was not. -/
theorem undecided_active {a : Authorization} (h : a.undecided scope = true) {b : Authorization}
    (hb : b.active = true) (hc : b.consumedAt = a.consumedAt) (hr : b.revokedAt = a.revokedAt) :
    a.active = true := by
  simp only [Authorization.undecided, Bool.and_eq_true] at h
  simp only [Authorization.active, Bool.and_eq_true] at hb
  simp only [Authorization.active, Bool.and_eq_true, ← hc, ← hr, h.1.1, h.1.2, hb.1.1.2, hb.1.2,
    Bool.true_or, and_self]

/-- Nothing is written, or `authorize` has decided the row. -/
theorem ensures_authorize {policyVersion : String}
    (hw : ∀ t, (w t).authorizations = t.authorizations) (hnow : ∀ t, (w t).now = t.now) :
    Ensures Inv Guar (authorize id actor scope policyVersion) L w s fun r L' w' t =>
      (r.ok = false ∧ w' = w) ∨
        ∃ now a, Approves t id actor scope policyVersion now a ∧ r.ok = true ∧
          .authorization id ∈ L' ∧
          w' = At.authorizations.modify id (Authorization.approvedRow actor policyVersion now) ∘ w
    := by
  unfold authorize approve
  simp only [bind_eq, pure_eq]
  apply (ensures_getAuthorization hw).bind
  rintro b L₁ w₁ t₁ ⟨rfl, hb⟩ _ _
  cases b with
  | none => exact ensures_done.mpr fun t _ => Or.inl ⟨rfl, rfl⟩
  | some row =>
    rcases hb row rfl with ⟨y, hy, hkept⟩
    refine ensures_ite (fun hno => ensures_done.mpr fun t _ => Or.inl ⟨rfl, rfl⟩) fun hallowed => ?_
    refine (ensures_stamped authorizations_evolve hw hnow ?_).bind ?_
    · intro now L s x hk hx hc _
      exact Guar.modifyAuthorization hx hk rfl fun hb => undecided_active hc hb rfl rfl
    rintro b L₂ w₂ t₂ ⟨now, -, hle, hb⟩ hr₂ _
    rcases hb with ⟨rfl, rfl, -⟩ | ⟨a, ha, hc, hck, rfl, hk, rfl⟩
    · exact ensures_done.mpr fun t _ => Or.inl ⟨rfl, rfl⟩
    · -- the policy was asked about the row as first read, which is the same request
      have hkept₂ := Kept.trans _ _ _ hkept (rely_kept hr₂ hy ha)
      have hpolicy : (evaluate (.authorize a.actionType) actor scope a.scope
          (some a.requestedBy)).allowed = true := by
        rw [hkept₂.field Authorization.actionType fun _ => rfl,
          hkept₂.field Authorization.scope fun _ => rfl,
          hkept₂.field Authorization.requestedBy fun _ => rfl]
        simpa using hallowed
      have happ : Approves t₂ id actor scope policyVersion now a := ⟨ha, hc, hpolicy, hck, hle⟩
      exact ensures_done.mpr fun t ht => Or.inr ⟨now, a, happ.stable ht hk, rfl, hk, rfl⟩

namespace SimpleOp

/-- Each of the three is one stamped transition. -/
theorem statement_eq (op : SimpleOp) : op.statement id actor scope =
    statementTimestamp.bind fun now => At.authorizations.update id (op.guard scope)
      (op.row actor now) Authorization.check authorizationsViolation := by
  cases op <;> rfl

theorem row_active (op : SimpleOp) (now : Time) (a : Authorization) :
    (op.row actor now a).active = false := by
  cases op with
  | reject => rfl
  | cancel => rfl
  | revoke => simp [row, Authorization.revokedRow, Authorization.active]

theorem row_kept (op : SimpleOp) (now : Time) (a : Authorization) :
    Kept Authorization.asRequested a (op.row actor now a) := by
  cases op <;> rfl

end SimpleOp

/-- Nothing is written, or the operation has decided the row. -/
theorem ensures_decideSimple {op : SimpleOp}
    (hw : ∀ t, (w t).authorizations = t.authorizations) (hnow : ∀ t, (w t).now = t.now) :
    Ensures Inv Guar (decideSimple op id actor scope) L w s fun r L' w' t =>
      (r.ok = false ∧ w' = w) ∨
        ∃ now a, Decides t op id actor scope now a ∧ r.ok = true ∧ .authorization id ∈ L' ∧
          w' = At.authorizations.modify id (op.row actor now) ∘ w := by
  unfold decideSimple
  simp only [bind_eq, pure_eq, SimpleOp.statement_eq]
  apply (ensures_getAuthorization hw).bind
  rintro b L₁ w₁ t₁ ⟨rfl, hb⟩ _ _
  cases b with
  | none => exact ensures_done.mpr fun t _ => Or.inl ⟨rfl, rfl⟩
  | some row =>
    rcases hb row rfl with ⟨y, hy, hkept⟩
    refine ensures_ite (fun hno => ensures_done.mpr fun t _ => Or.inl ⟨rfl, rfl⟩) fun hallowed => ?_
    refine (ensures_stamped authorizations_evolve hw hnow ?_).bind ?_
    · intro now L s x hk hx _ _
      refine Guar.modifyAuthorization hx hk (op.row_kept now x) fun hb => ?_
      rw [op.row_active now x] at hb
      cases hb
    rintro b L₂ w₂ t₂ ⟨now, -, hle, hb⟩ hr₂ _
    rcases hb with ⟨rfl, rfl, -⟩ | ⟨a, ha, hc, hck, rfl, hk, rfl⟩
    · exact ensures_done.mpr fun t _ => Or.inl ⟨rfl, rfl⟩
    · have hkept₂ := Kept.trans _ _ _ hkept (rely_kept hr₂ hy ha)
      have hpolicy : (evaluate (op.action a.actionType) actor scope a.scope).allowed = true := by
        rw [hkept₂.field Authorization.actionType fun _ => rfl,
          hkept₂.field Authorization.scope fun _ => rfl]
        simpa using hallowed
      have hdec : Decides t₂ op id actor scope now a := ⟨ha, hc, hpolicy, hck, hle⟩
      exact ensures_done.mpr fun t ht => Or.inr ⟨now, a, hdec.stable ht hk, rfl, hk, rfl⟩

/-! ## Consuming one -/

/-- Nothing is written, or the approval is used for the authorization `a`. -/
theorem ensures_resolveAndConsumeApproval {reference : Option Reference} {a : Authorization}
    {version consumedBy : String} (hw : ∀ t, (w t).approvals = t.approvals)
    (hnow : ∀ t, (w t).now = t.now) :
    Ensures Inv Guar (resolveAndConsumeApproval reference a version consumedBy id) L w s
      fun r L' w' t => (r ≠ none ∧ w' = w) ∨
        ∃ now approvalId p, r = none ∧ reference = some (.approval approvalId) ∧
          Spends t approvalId a version now p ∧ .approval approvalId ∈ L' ∧
          w' = At.approvals.modify approvalId (Approval.consumedRow consumedBy id now) ∘ w := by
  have hdeny : ∀ {r : Option ApprovalReason} {L' : List Lock} {t' : Db}, r ≠ none →
      Ensures Inv Guar (.done r : TaskTxn (Option ApprovalReason)) L' w t' fun r L' w' t =>
        (r ≠ none ∧ w' = w) ∨
        ∃ now approvalId p, r = none ∧ reference = some (.approval approvalId) ∧
          Spends t approvalId a version now p ∧ .approval approvalId ∈ L' ∧
          w' = At.approvals.modify approvalId (Approval.consumedRow consumedBy id now) ∘ w :=
    fun hr => ensures_done.mpr fun t _ => Or.inl ⟨hr, rfl⟩
  unfold resolveAndConsumeApproval
  simp only [bind_eq, pure_eq]
  cases reference with
  | none => exact hdeny (by simp)
  | some ref =>
    cases ref with
    | empty => exact hdeny (by simp)
    | malformed text => exact hdeny (by simp)
    | approval approvalId =>
      have hrow : ∀ t, (At.approvals.get (w t)).find? approvalId =
        (At.approvals.get t).find? approvalId := fun t => congrArg (Table.find? · approvalId) (hw t)
      apply (ensures_selectForUpdate approvals_evolve hrow).bind
      rintro b L₁ w₁ t₁ ⟨rfl, hb, -⟩ _ _
      cases b with
      | none => exact hdeny (by simp)
      | some row =>
        apply (ensures_now hnow).bind
        rintro now L₂ w₂ t₂ ⟨rfl, -, -⟩ _ _
        cases hrefuse : row.refusal a version now with
        | some reason => exact hdeny (by simp)
        | none =>
          dsimp only
          rw [← Txn.bind_assoc]
          refine (ensures_stamped approvals_evolve hw hnow ?_).bind ?_
          · intro now L s x hk hx _ _
            exact Guar.modifyApproval hx hk rfl
          rintro b L₃ w₃ t₃ ⟨now₃, -, hle, hb⟩ _ _
          rcases hb with ⟨rfl, rfl, -⟩ | ⟨p, hp, hc, hck, rfl, hk, rfl⟩
          · exact hdeny (by simp)
          · simp only [Bool.and_eq_true, beq_iff_eq, Option.isNone_iff_eq_none,
              decide_eq_true_eq] at hc
            have hspend : Spends t₃ approvalId a version now₃ p :=
              ⟨hp, hc.1.1.1.1, hc.1.1.1.2, hc.1.1.2, hc.1.2, hc.2, hle⟩
            exact ensures_done.mpr fun t ht =>
              Or.inr ⟨now₃, approvalId, p, rfl, rfl, hspend.stable ht hk, hk, rfl⟩

/-- The statement of `consume`. -/
theorem ensures_consumeAuthorization {consumedBy version : String}
    (hw : ∀ t, (w t).authorizations = t.authorizations) (hnow : ∀ t, (w t).now = t.now) :
    Ensures Inv Guar (consumeAuthorization id consumedBy version scope) L w s fun b L' w' t =>
      (b = none ∧ w' = w) ∨
        ∃ now a, now ≤ t.now ∧ t.authorizations.find? id = some a ∧
          a.consumable version scope now = true ∧ (a.consumedRow consumedBy now).check = true ∧
          b = some (a.consumedRow consumedBy now) ∧ .authorization id ∈ L' ∧
          w' = At.authorizations.modify id (Authorization.consumedRow consumedBy now) ∘ w := by
  unfold consumeAuthorization
  refine (ensures_stamped authorizations_evolve hw hnow ?_).mono ?_
  · intro now L s x hk hx _ _
    refine Guar.modifyAuthorization hx hk rfl fun hb => ?_
    simp [Authorization.consumedRow, Authorization.active] at hb
  rintro b L' w' t ⟨now, -, hle, hb⟩
  rcases hb with ⟨rfl, rfl, -⟩ | ⟨a, ha, hc, hck, rfl, hk, rfl⟩
  · exact Or.inl ⟨rfl, rfl⟩
  · exact Or.inr ⟨now, a, hle, ha, hc, hck, rfl, hk, rfl⟩

/-- Nothing is written, or the authorization is consumed, and the approval with it where one is
needed. -/
theorem ensures_consume {version : String} (hw : ∀ t, (w t).authorizations = t.authorizations)
    (hw' : ∀ t, (w t).approvals = t.approvals) (hnow : ∀ t, (w t).now = t.now) :
    Ensures Inv Guar (consume id actor scope version) L w s fun r L' w' t =>
      (r.ok = false ∧ w' = w) ∨
        ∃ u, (∀ t', Rely Inv Guar L' t t' → Consumption t' id actor scope version u) ∧
          r.ok = true ∧ w' = u ∘ w := by
  unfold consume
  simp only [bind_eq, pure_eq]
  apply (ensures_getAuthorization hw).bind
  rintro b L₁ w₁ t₁ ⟨rfl, hb⟩ _ _
  cases b with
  | none => exact ensures_done.mpr fun t _ => Or.inl ⟨rfl, rfl⟩
  | some row =>
    rcases hb row rfl with ⟨y, hy, hkept⟩
    refine ensures_ite (fun hno => ensures_done.mpr fun t _ => Or.inl ⟨rfl, rfl⟩) fun hallowed => ?_
    -- what the policy said about the row as first read holds of the row that is consumed
    have hpolicy : ∀ {t : Db} {a : Authorization}, Rely Inv Guar L₁ t₁ t →
        t.authorizations.find? id = some a →
        Kept Authorization.asRequested row a ∧ (evaluate (.consume a.actionType) actor scope a.scope
          none a.productionEffect a.productionApprovalReference).allowed = true := by
      intro t a hr ha
      have hkept' := Kept.trans _ _ _ hkept (rely_kept hr hy ha)
      rw [hkept'.field Authorization.actionType fun _ => rfl,
        hkept'.field Authorization.scope fun _ => rfl,
        hkept'.field Authorization.productionEffect fun _ => rfl,
        hkept'.field Authorization.productionApprovalReference fun _ => rfl]
      exact ⟨hkept', by simpa using hallowed⟩
    by_cases hp : row.productionEffect = true
    · rw [if_pos hp]
      apply (ensures_resolveAndConsumeApproval hw' hnow).bind
      rintro refused L₂ w₂ t₂ hb hr₂ hL₂
      rcases hb with ⟨hr, rfl⟩ | ⟨now, approvalId, p, rfl, href, hspend, hk, rfl⟩
      · cases refused with
        | none => exact absurd rfl hr
        | some reason => exact ensures_done.mpr fun t _ => Or.inl ⟨rfl, rfl⟩
      dsimp only
      apply (ensures_consumeAuthorization (w := At.approvals.modify approvalId
        (Approval.consumedRow actor.principalId id now) ∘ w₁) hw hnow).bind
      rintro b L₃ w₃ t₃ hb hr₃ hL₃
      rcases hb with ⟨rfl, rfl⟩ | ⟨now', a, hle, ha, hc, hck, rfl, hka, rfl⟩
      · simp only [hp, if_true, ensures_raise]
      · rcases hpolicy (hr₂.trans (hr₃.mono hL₂)) ha with ⟨hkept', hall⟩
        have hcons : Consumes t₃ id actor scope version now' a := ⟨ha, hc, hall, hck, hle⟩
        have hspend' : Spends t₃ approvalId a version now p := by
          have hs := hspend.stable hr₃ hk
          refine ⟨hs.row, hs.state, hs.unconsumed, hs.unrevoked, hs.unexpired, ?_, hs.now_le⟩
          have hbound := hs.bound
          unfold Approval.boundTo at hbound ⊢
          rw [hkept'.field Authorization.actionType fun _ => rfl,
            hkept'.field Authorization.resourceType fun _ => rfl,
            hkept'.field Authorization.resourceId fun _ => rfl,
            hkept'.field Authorization.teamId fun _ => rfl,
            hkept'.field Authorization.projectId fun _ => rfl]
          exact hbound
        rw [ensures_done]
        intro t ht
        refine Or.inr ⟨At.authorizations.modify id
          (Authorization.consumedRow actor.principalId now') ∘ At.approvals.modify approvalId
          (Approval.consumedRow actor.principalId id now), fun t' ht' => ?_, rfl, rfl⟩
        have hr := ht.trans ht'
        refine .approved (hcons.stable hr hka) ?_ ?_ (hspend'.stable hr (hL₃ hk))
        · rw [hkept'.field Authorization.productionEffect fun _ => rfl, hp]
        · rw [hkept'.field Authorization.productionApprovalReference fun _ => rfl, href]
    · rw [if_neg hp, done_bind]
      dsimp only
      apply (ensures_consumeAuthorization hw hnow).bind
      rintro b L₂ w₂ t₂ hb hr₂ hL₂
      rcases hb with ⟨rfl, rfl⟩ | ⟨now', a, hle, ha, hc, hck, rfl, hka, rfl⟩
      · dsimp only
        rw [if_neg hp]
        apply (ensures_getAuthorization hw).bind
        rintro current L₃ w₃ t₃ ⟨rfl, -⟩ _ _
        apply (ensures_now hnow).bind
        rintro now L₄ w₄ t₄ ⟨rfl, -, -⟩ _ _
        cases current with
        | none => exact ensures_done.mpr fun t _ => Or.inl ⟨rfl, rfl⟩
        | some current =>
          exact ensures_done.mpr fun t _ => Or.inl ⟨consumeDenial_ok _ _ _, rfl⟩
      · rcases hpolicy hr₂ ha with ⟨hkept', hall⟩
        have hcons : Consumes t₂ id actor scope version now' a := ⟨ha, hc, hall, hck, hle⟩
        rw [ensures_done]
        intro t ht
        refine Or.inr ⟨_, fun t' ht' => ?_, rfl, rfl⟩
        refine .plain (hcons.stable (ht.trans ht') hka) ?_
        rw [hkept'.field Authorization.productionEffect fun _ => rfl]
        exact Bool.eq_false_iff.mpr hp

/-! ## Requesting one -/

/-- The probes of `create_request`: the row may go in, or an entry was taken at some time. -/
theorem ensures_createRequest {row : Authorization}
    (hw : ∀ t, (w t).authorizations = t.authorizations) :
    Ensures Inv Guar (createRequest id row) L w s fun b L' w' t => w' = w ∧
      (b = none → row.check = true ∧ t.authorizations.find? id = none ∧
        (∀ k x, t.authorizations.find? k = some x →
          (x.idempotencyKey == row.idempotencyKey) = false) ∧
        (∀ k x, t.authorizations.find? k = some x →
          (x.active && x.actionType == row.actionType && x.resourceId == row.resourceId) = false) ∧
        .authorization id ∈ L' ∧ .authorizationKey row.idempotencyKey ∈ L' ∧
        .activeAuthorization row.actionType row.resourceId ∈ L') ∧
      (b = some .idempotencyKey → ∃ t₁, Rely Inv Guar L s t₁ ∧ Rely Inv Guar L t₁ t ∧
        ∃ k x, t₁.authorizations.find? k = some x ∧ x.idempotencyKey = row.idempotencyKey) ∧
      (b = some .activeRequest → ∃ t₁, Rely Inv Guar L s t₁ ∧
        ∃ k x, t₁.authorizations.find? k = some x ∧
          (x.active && x.actionType == row.actionType && x.resourceId == row.resourceId) = true)
    := by
  unfold createRequest
  simp only [bind_eq, pure_eq]
  refine ensures_ite (fun _ => ensures_raise) fun hck => ?_
  have hcheck : row.check = true := by simpa using hck
  have hnone : ∀ t, (At.authorizations.get (w t)).find? id = none →
      (At.authorizations.get t).find? id = none := by
    intro t ht
    rw [show At.authorizations.get (w t) = At.authorizations.get t from hw t] at ht
    exact ht
  apply (ensures_taken authorizations_evolve hnone).bind
  rintro taken L₁ w₁ t₁ ⟨rfl, hk, hfree⟩ hr₁ hL₁
  refine ensures_ite (fun _ => ensures_raise) fun htaken => ?_
  have habsent := hfree (Bool.eq_false_iff.mpr htaken)
  have hE : ∀ l a b, Guar l a b → Keyed.Entered (.authorizationKey row.idempotencyKey)
      (fun x => (x.idempotencyKey == row.idempotencyKey) = true) l (At.authorizations.get a)
      (At.authorizations.get b) := fun _ _ _ hg => hg.authorizationIndex _ _ (.key _)
  have hA : ∀ l a b, Guar l a b →
      Keyed.Entered (.activeAuthorization row.actionType row.resourceId)
      (fun x => (x.active && x.actionType == row.actionType && x.resourceId == row.resourceId)
        = true) l (At.authorizations.get a) (At.authorizations.get b) :=
    fun _ _ _ hg => hg.authorizationIndex _ _ (.active _ _)
  apply (ensures_conflict hE hw).bind
  rintro byKey L₂ w₂ t₂ ⟨rfl, hkey, hkfree, hktaken⟩ hr₂ hL₂
  refine ensures_ite (fun hb => ?_) fun hb => ?_
  · rcases hktaken hb with ⟨t', hr', hr'', k, x, hx, hp⟩
    rw [ensures_done]
    intro t ht
    refine ⟨rfl, fun h => (by cases h), fun _ => ?_, fun h => (by cases h)⟩
    exact ⟨t', hr₁.trans (hr'.mono hL₁),
      (hr''.mono hL₁).trans (ht.mono fun x hx => hL₂ (hL₁ hx)), k, x, hx, beq_iff_eq.mp hp⟩
  have hkfree₂ := hkfree (Bool.eq_false_iff.mpr hb)
  apply (ensures_conflict hA hw).bind
  rintro byActive L₃ w₃ t₃ ⟨rfl, hactive, hafree, hataken⟩ hr₃ hL₃
  refine ensures_ite (fun hb => ?_) fun hb => ?_
  · rcases hataken hb with ⟨t', hr', -, k, x, hx, hp⟩
    rw [ensures_done]
    intro t ht
    refine ⟨rfl, fun h => (by cases h), fun h => (by cases h), fun _ => ?_⟩
    refine ⟨t', ?_, k, x, hx, hp⟩
    exact hr₁.trans ((hr₂.mono hL₁).trans (hr'.mono fun x hx => hL₂ (hL₁ hx)))
  · rw [ensures_done]
    intro t ht
    have hkfree₃ := rely_free hr₃ hkey hE hkfree₂
    refine ⟨rfl, fun _ => ⟨hcheck, ?_, rely_free ht (hL₃ hkey) hE hkfree₃,
      rely_free ht hactive hA (hafree (Bool.eq_false_iff.mpr hb)), hL₃ (hL₂ hk), hL₃ hkey,
      hactive⟩, fun h => (by cases h), fun h => (by cases h)⟩
    rw [rely_authorization ht (hL₃ (hL₂ hk)), rely_authorization hr₃ (hL₂ hk),
      rely_authorization hr₂ hk]
    exact habsent

/-- The release of the savepoint may be written at any later time. -/
def Releasable (Inv : Db → Prop) (id : Uuid) (actor : Actor) (scope : Scope) (a : Authorization)
    (authorizationId : Uuid) (u : Db → Db) (L : List Lock) (t : Db) : Prop :=
  ∀ t', Rely Inv Guar L t t' → Obtains t' id actor scope a authorizationId u ∧
    ∀ L' v, L ⊆ L' → v.authorizations = t'.authorizations → Guar L' v (u v)

theorem Releasable.rely {a : Authorization} {authorizationId : Uuid} {u : Db → Db}
    {L' : List Lock} (h : Releasable Inv id actor scope a authorizationId u L t) {t' : Db}
    (ht : Rely Inv Guar L t t') (hL : L ⊆ L') :
    Releasable Inv id actor scope a authorizationId u L' t' := by
  intro t'' ht''
  rcases h t'' (ht.trans (ht''.mono hL)) with ⟨hob, hguar⟩
  exact ⟨hob, fun L'' v hL'' hv => hguar L'' v (fun x hx => hL'' (hL hx)) hv⟩

/-- The savepoint denies and writes nothing, or its release gives the authorization. A request
that the policy allows is denied only for a foreign active request at some time since the
start. -/
theorem ensures_requestAuthorizationSavepoint {teamId projectId : Uuid} {actionType : ActionType}
    {resourceType : ResourceType} {resourceId : Uuid} {version key : String} {expiresAt : Time}
    {production : Bool} {reference : Option Reference}
    (hw : ∀ t, (w t).authorizations = t.authorizations) (hnow : ∀ t, (w t).now = t.now) :
    Ensures Inv Guar (requestAuthorizationSavepoint id actor scope ⟨some teamId, some projectId⟩
      actionType resourceType resourceId version expiresAt key production reference) L w s
      fun r L' w' t => w' = w ∧
        ((r.1.authorization = none ∧ (r.2 = fun s => s) ∧
            ((evaluate (.request actionType) actor scope
                ⟨some teamId, some projectId⟩).allowed = true →
              r.1.resultKind = .conflict ∧
              ∃ t₁, Rely Inv Guar L s t₁ ∧ ∃ k x, t₁.authorizations.find? k = some x ∧
                (x.active && x.actionType == actionType && x.resourceId == resourceId) = true)) ∨
          ∃ now authorizationId x, r.1.authorization = some (authorizationId, x) ∧
            Releasable Inv id actor scope (requestedAuthorization actor teamId projectId actionType
              resourceType resourceId version expiresAt key production reference now)
              authorizationId r.2 L' t) := by
  unfold requestAuthorizationSavepoint
  simp only [bind_eq, pure_eq]
  refine ensures_ite (fun hno => ensures_done.mpr fun t _ => ⟨rfl, Or.inl ⟨rfl, rfl, ?_⟩⟩)
    fun hyes => ?_
  · intro hallowed
    rw [hallowed] at hno
    cases hno
  have hallowed : (evaluate (.request actionType) actor scope
      ⟨some teamId, some projectId⟩).allowed = true := by simpa using hyes
  apply (ensures_now hnow).bind
  rintro now L₁ w₁ t₁ ⟨rfl, -, hle⟩ hr₁ hL₁
  let row := requestedAuthorization actor teamId projectId actionType resourceType resourceId
    version expiresAt key production reference now
  apply (ensures_createRequest hw).bind
  rintro b L₂ w₂ t₂ ⟨rfl, hnone, hkeyed, hactive⟩ hr₂ hL₂
  cases b with
  | none =>
    rcases hnone rfl with ⟨hck, habsent, hkfree, hafree, hk, hkey, hac⟩
    have hreq : Requests t₂ id actor scope row :=
      ⟨habsent, hallowed, hkfree, hafree, hck, Nat.le_trans hle (rely_now hr₂)⟩
    rw [ensures_done]
    intro t ht
    refine ⟨rfl, Or.inr ⟨now, id, row, rfl, fun t' ht' => ?_⟩⟩
    have hreq' := hreq.stable (ht.trans ht') hk hkey hac
    refine ⟨.new hreq', fun L' v hL' hv => ?_⟩
    refine Guar.insertAuthorization ?_ (hL' hk) (hL' hkey) (hL' hac)
    rw [hv]
    exact hreq'.absent
  | some violation =>
    apply (ensures_selectBy authorizations_evolve Kept.refl Kept.trans hw).bind
    rintro existing L₃ w₃ t₃ ⟨rfl, hsome, hmissing⟩ hr₃ hL₃
    cases existing with
    | some e =>
      rcases hsome e rfl with ⟨hp, y, hy, hkept⟩
      rw [beq_iff_eq] at hp
      rw [ensures_done]
      intro t ht
      refine ⟨rfl, Or.inr ⟨now, e.1, e.2, rfl, fun t' ht' => ?_⟩⟩
      refine ⟨?_, fun L' v _ _ => Guar.refl⟩
      rcases (ht.trans ht').same_row authorizations_evolve Kept.refl Kept.trans hy with
        ⟨z, hz, hkept'⟩
      have hkey := (Kept.trans _ _ _ hkept hkept').field Authorization.idempotencyKey fun _ => rfl
      exact .same_key hz (hkey.trans hp)
    | none =>
      rw [ensures_done]
      intro t ht
      refine ⟨rfl, Or.inl ⟨rfl, rfl, fun _ => ⟨rfl, ?_⟩⟩⟩
      rcases hmissing rfl with ⟨t', hr', hfree⟩
      cases violation with
      | idempotencyKey =>
        -- a row with the key was seen, and rows keep their keys
        rcases hkeyed rfl with ⟨t'', -, hr'', k, x, hx, hkey⟩
        have hrow := hr''.trans (hr'.mono hL₂)
        rcases hrow.same_row authorizations_evolve Kept.refl Kept.trans hx with ⟨z, hz, hkept⟩
        have hno := hfree k z hz
        rw [hkept.field Authorization.idempotencyKey fun _ => rfl, hkey] at hno
        simp at hno
      | activeRequest =>
        rcases hactive rfl with ⟨t'', hr'', k, x, hx, hp⟩
        exact ⟨t'', hr₁.trans (hr''.mono hL₁), k, x, hx, hp⟩

/-- `request_authorization` on its own. -/
theorem ensures_requestAuthorization {teamId projectId : Uuid} {actionType : ActionType}
    {resourceType : ResourceType} {resourceId : Uuid} {version key : String} {expiresAt : Time}
    {production : Bool} {reference : Option Reference}
    (hw : ∀ t, (w t).authorizations = t.authorizations) (hnow : ∀ t, (w t).now = t.now) :
    Ensures Inv Guar (requestAuthorization id actor scope ⟨some teamId, some projectId⟩
      actionType resourceType resourceId version expiresAt key production reference) L w s
      fun r L' w' t =>
        (r.authorization = none ∧ w' = w ∧
          ((evaluate (.request actionType) actor scope
              ⟨some teamId, some projectId⟩).allowed = true →
            r.resultKind = .conflict ∧
            ∃ t₁, Rely Inv Guar L s t₁ ∧ ∃ k x, t₁.authorizations.find? k = some x ∧
              (x.active && x.actionType == actionType && x.resourceId == resourceId) = true)) ∨
          ∃ now authorizationId x u, r.authorization = some (authorizationId, x) ∧ w' = u ∘ w ∧
            Releasable Inv id actor scope (requestedAuthorization actor teamId projectId actionType
              resourceType resourceId version expiresAt key production reference now)
              authorizationId u L' t := by
  unfold requestAuthorization
  simp only [bind_eq, pure_eq]
  apply (ensures_requestAuthorizationSavepoint hw hnow).bind
  rintro ⟨r, release⟩ L₁ w₁ t₁ ⟨rfl, hb⟩ hr₁ hL₁
  simp only [modify_bind]
  rcases hb with ⟨hr, hu, hlate⟩ | ⟨now, aid, x, hr, hrel⟩
  · simp only at hr hu
    subst hu
    rw [ensures_write]
    refine ⟨fun t _ => Guar.refl, ensures_done.mpr fun t _ => Or.inl ⟨hr, rfl, hlate⟩⟩
  · rw [ensures_write]
    refine ⟨fun t ht => (hrel t ht).2 L₁ _ (List.Subset.refl _) (hw t), ?_⟩
    rw [ensures_done]
    intro t ht
    exact Or.inr ⟨now, aid, x, release, hr, rfl, hrel.rely ht (List.Subset.refl _)⟩

/-- The expiry scan marks due rows only, each of them under its lock. -/
theorem ensures_expireDueAuthorizations {limit : Nat} {rank : Uuid → Nat}
    (hw : ∀ t, (w t).authorizations = t.authorizations) (hnow : ∀ t, (w t).now = t.now) :
    Ensures Inv Guar (expireDueAuthorizations limit rank) L w s fun _ _ w' t =>
      ∃ now ids, now ≤ t.now ∧ ids.Nodup ∧
        (∀ k ∈ ids, ∃ a, t.authorizations.find? k = some a ∧ a.due now = true) ∧
        w' = At.authorizations.modifyAll ids (Authorization.expiredRow now) ∘ w := by
  unfold expireDueAuthorizations Txn.select
  simp only [bind_eq]
  apply (ensures_now hnow).bind
  rintro now L₁ w₁ t₁ ⟨rfl, -, hle⟩ _ _
  rw [query_bind, ensures_query]
  intro t₂ ht₂
  rw [done_bind]
  refine (ensures_updateEach (nodup_selectLimit _ _ _ _) authorizations_evolve ?_ ?_).track.mono ?_
  · intro k _ t
    exact congrArg (Table.find? · k) (hw t)
  · intro L s k x hk hx _
    refine Guar.modifyAuthorization hx hk rfl fun hb => ?_
    simp [Authorization.expiredRow, Authorization.active] at hb
  rintro n L' w' t ⟨⟨ids, hsub, rfl, -, hall⟩, hr, -⟩
  refine ⟨now, ids, ?_, hsub.nodup (nodup_selectLimit _ _ _ _), fun k hk => ?_, rfl⟩
  · exact Nat.le_trans hle (Nat.le_trans (rely_now ht₂) (rely_now hr))
  · rcases (hall k hk).2 with ⟨a, ha, hdue, -⟩
    exact ⟨a, ha, hdue⟩

end Authorizations

/-! ## Production approvals -/

section Approvals

variable {id : Uuid} {actor : Actor} {scope : Scope}

/-- Nothing is written, or a new approval by an actor who may grant. -/
theorem ensures_grantProductionApproval {actionType : ActionType} {resourceType : ResourceType}
    {resourceId : Uuid} {version key : String} {expiresAt : Time} {reason : Option ReasonCode} :
    Ensures Inv Guar (grantProductionApproval id actor scope actionType resourceType resourceId
      version expiresAt key reason) [] (fun s => s) s fun _ _ w' t =>
        w' = (fun s => s) ∨
        ∃ teamId projectId now, scope = ⟨some teamId, some projectId⟩ ∧
          t.approvals.find? id = none ∧ canGrant actor.role = true ∧
          w' = At.approvals.insert id
            { actionType, resourceType, resourceId, teamId, projectId
              resourceStateVersion := version
              grantedBy := actor.principalId
              grantedRole := actor.role
              grantedAt := now
              reasonCode := reason
              expiresAt
              idempotencyKey := key } := by
  unfold grantProductionApproval
  simp only [bind_eq, pure_eq]
  refine ensures_ite (fun _ => ensures_done.mpr fun t _ => Or.inl rfl) fun hno => ?_
  have hcan : canGrant actor.role = true := by simpa using hno
  apply (ensures_selectBy approvals_evolve Kept.refl Kept.trans fun _ => rfl).bind
  rintro b L₁ w₁ t₁ ⟨rfl, -, -⟩ _ _
  cases b with
  | some e =>
    exact ensures_ite (fun _ => ensures_done.mpr fun t _ => Or.inl rfl)
      fun _ => ensures_done.mpr fun t _ => Or.inl rfl
  | none =>
    rcases scope with ⟨_ | teamId, _ | projectId⟩
    · exact ensures_raise
    · exact ensures_raise
    · exact ensures_raise
    dsimp only
    apply (ensures_now fun _ => rfl).bind
    rintro now L₂ w₂ t₂ ⟨rfl, -, -⟩ _ _
    refine ensures_ite (fun _ => ensures_raise) fun _ => ?_
    apply (ensures_taken approvals_evolve fun _ h => h).bind
    rintro taken L₃ w₃ t₃ ⟨rfl, hk, hfree⟩ _ _
    refine ensures_ite (fun _ => ensures_done.mpr fun t _ => Or.inl rfl) fun htaken => ?_
    have habsent := hfree (Bool.eq_false_iff.mpr htaken)
    have hE : ∀ l a b, Guar l a b → Keyed.Entered (.approvalKey key)
        (fun x => (x.idempotencyKey == key) = true) l (At.approvals.get a) (At.approvals.get b) :=
      fun _ _ _ hg => hg.approvalIndex _ _ (.key _)
    apply (ensures_conflict hE fun _ => rfl).bind
    rintro byKey L₄ w₄ t₄ ⟨rfl, hkey, -, -⟩ hr₄ hL₄
    refine ensures_ite (fun _ => ensures_done.mpr fun t _ => Or.inl rfl) fun _ => ?_
    have hrow : ∀ t, Rely Inv Guar L₄ t₄ t → t.approvals.find? id = none := by
      intro t ht
      rw [rely_approval ht (hL₄ hk), rely_approval hr₄ hk]
      exact habsent
    rw [modify_bind, ensures_write]
    refine ⟨fun t ht => Guar.insertApproval (hrow t ht) (hL₄ hk) hkey, ?_⟩
    rw [ensures_done]
    intro t ht
    exact Or.inr ⟨teamId, projectId, now, rfl, hrow t ht, hcan, rfl⟩

/-- Nothing is written, or a granted approval is revoked. -/
theorem ensures_revokeProductionApproval {reason : ReasonCode} :
    Ensures Inv Guar (revokeProductionApproval id actor scope reason) [] (fun s => s) s
      fun _ _ w' t => w' = (fun s => s) ∨
        ∃ now p, t.approvals.find? id = some p ∧ p.state = .granted ∧ p.consumedAt = none ∧
          w' = At.approvals.modify id (Approval.revokedRow actor.principalId reason now) := by
  unfold revokeProductionApproval revokeApproval
  simp only [bind_eq, pure_eq]
  refine ensures_ite (fun _ => ensures_done.mpr fun t _ => Or.inl rfl) fun _ => ?_
  apply (ensures_select approvals_evolve Kept.refl Kept.trans fun _ => rfl).bind
  rintro b L₁ w₁ t₁ ⟨rfl, -⟩ _ _
  cases b with
  | none => exact ensures_done.mpr fun t _ => Or.inl rfl
  | some row =>
    refine (ensures_stamped approvals_evolve (fun _ => rfl) (fun _ => rfl) ?_).bind ?_
    · intro now L s x hk hx _ _
      exact Guar.modifyApproval hx hk rfl
    rintro b L₂ w₂ t₂ ⟨now, -, -, hb⟩ _ _
    rcases hb with ⟨rfl, rfl, -⟩ | ⟨p, hp, hc, -, rfl, hk, rfl⟩
    · exact ensures_done.mpr fun t _ => Or.inl rfl
    · simp only [Bool.and_eq_true, beq_iff_eq, Option.isNone_iff_eq_none] at hc
      rw [ensures_done]
      intro t ht
      refine Or.inr ⟨now, p, ?_, hc.1.1.1, hc.1.1.2, rfl⟩
      rw [rely_approval ht hk]
      exact hp

end Approvals

/-! ## Events -/

section Outbox

variable {id clarificationId taskId : Uuid} {eventType : EventType} {key : String}
variable {payload : List (String × PayloadValue)}

/-- A new event goes in, or the transaction ends. -/
theorem ensures_insertLifecycleOutboxEvent
    (hw : ∀ t, (w t).outbox.find? id = none ↔ t.outbox.find? id = none)
    (hnow : ∀ t, (w t).now = t.now) :
    Ensures Inv Guar (insertLifecycleOutboxEvent id clarificationId taskId eventType key payload)
      L w s fun r L' w' t => ∃ now,
        (∀ t', Rely Inv Guar L' t t' →
          Emits t' id (newOutboxEvent clarificationId taskId eventType key payload now)) ∧
        r.1 = id ∧
        w' = At.outbox.insert id (newOutboxEvent clarificationId taskId eventType key payload now)
          ∘ w := by
  unfold insertLifecycleOutboxEvent
  simp only [bind_eq, pure_eq]
  apply (ensures_now hnow).bind
  rintro now L₁ w₁ t₁ ⟨rfl, -, hle⟩ hr₁ hL₁
  refine ensures_ite (fun _ => ensures_raise) fun _ => ?_
  apply (ensures_taken outbox_evolves fun t => (hw t).mp).bind
  rintro taken L₂ w₂ t₂ ⟨rfl, hk, hfree⟩ hr₂ hL₂
  refine ensures_ite (fun _ => ensures_raise) fun htaken => ?_
  let o := newOutboxEvent clarificationId taskId eventType key payload now
  have hemit : Emits t₂ id o :=
    ⟨hfree (Bool.eq_false_iff.mpr htaken), Nat.le_trans hle (rely_now hr₂)⟩
  apply ensures_conflict_entry.bind
  rintro byKey L₃ w₃ t₃ ⟨rfl, hkey⟩ hr₃ hL₃
  refine ensures_ite (fun _ => ensures_raise) fun _ => ?_
  have hemit₃ := hemit.stable hr₃ hk
  rw [modify_bind, ensures_write]
  constructor
  · intro t ht
    have habsent := (hemit₃.stable ht (hL₃ hk)).absent
    exact Guar.insertOutbox ((hw t).mpr habsent) (hL₃ hk) hkey
  · rw [ensures_done]
    intro t ht
    exact ⟨now, fun t' ht' => hemit₃.stable (ht.trans ht') (hL₃ hk), rfl, rfl⟩

/-- The row is there, locked and not yet written: it is set. -/
theorem ensures_updateOutbox {set : Time → OutboxEvent → OutboxEvent} {o : OutboxEvent}
    (hw : ∀ t, (w t).outbox = t.outbox) (hnow : ∀ t, (w t).now = t.now)
    (hset : ∀ now o, Kept OutboxEvent.asInserted o (set now o)) (hk : .outboxEvent id ∈ L)
    (ho : s.outbox.find? id = some o) :
    Ensures Inv Guar (updateOutbox id set) L w s fun b _ w' t => ∃ now, s.now ≤ now ∧
      now ≤ t.now ∧ b = some (set now o) ∧ w' = At.outbox.modify id (set now) ∘ w := by
  unfold updateOutbox
  refine (ensures_stamped outbox_evolves hw hnow ?_).track.mono ?_
  · intro now L s x hk _ _ _
    exact Guar.modifyOutbox hk (hset now)
  rintro b L' w' t ⟨⟨now, hlo, hhi, hb⟩, hr, -⟩
  have hrow : t.outbox.find? id = some o := by rw [rely_outbox hr hk, ho]
  rcases hb with ⟨-, -, t₁, ht₁, -, hfalse⟩ | ⟨x, hx, -, -, rfl, -, rfl⟩
  · have hno := hfalse o (by
      show t₁.outbox.find? id = some o
      rw [rely_outbox ht₁ hk, ho])
    cases hno
  · have heq : o = x := Option.some.inj (hrow.symm.trans hx)
    subst heq
    exact ⟨now, hlo, hhi, rfl, rfl⟩

end Outbox

end AiAgentsSwd.Tasks
