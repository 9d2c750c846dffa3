import AiAgentsSwd.Tasks.AuthorizationSpec
import AiAgentsSwd.Tasks.Answers

/-!
# Tasks.ResumeSpec — what the resume service ensures

The statements of `resume_request_repository.py` first, then one theorem for each operation of
`resume_service.py`: its commits are among the effects of `Tasks.Effects`.
-/

namespace AiAgentsSwd.Tasks

open Keyed (Table Evolves)
open Planning (Uuid Time)
open ReadCommitted Txn TableAt

variable {cfg : Settings} {Inv : Db → Prop} {L : List Lock} {w : Db → Db} {s t : Db}

/-! ## Its statements -/

section Statements

variable {id : Uuid} {scope : Scope}

/-- A locked row, as it still is at the end. -/
theorem ensures_lockClarification (hw : ∀ t, (w t).clarifications = t.clarifications) :
    Ensures Inv Guar (lockClarification id) L w s fun b L' w' t => w' = w ∧
      ∀ c, b = some c → t.clarifications.find? id = some c ∧ .clarification id ∈ L' := by
  unfold lockClarification
  have hrow : ∀ t, (At.clarifications.get (w t)).find? id = (At.clarifications.get t).find? id :=
    fun t => congrArg (Table.find? · id) (hw t)
  refine (ensures_selectForUpdate clarifications_evolve hrow).mono ?_
  rintro b L' w' t ⟨hw', hb, -⟩
  exact ⟨hw', fun c hc => (hb c hc).2⟩

theorem ensures_lockTask (hw : ∀ t, (w t).tasks = t.tasks) :
    Ensures Inv Guar (lockTask id) L w s fun b L' w' t => w' = w ∧
      ∀ x, b = some x → t.tasks.find? id = some x ∧ .task id ∈ L' := by
  unfold lockTask
  have hrow : ∀ t, (At.tasks.get (w t)).find? id = (At.tasks.get t).find? id :=
    fun t => congrArg (Table.find? · id) (hw t)
  refine (ensures_selectForUpdate tasks_evolve hrow).mono ?_
  rintro b L' w' t ⟨hw', hb, -⟩
  exact ⟨hw', fun x hx => (hb x hx).2⟩

theorem ensures_lockResumeRequest (hw : ∀ t, (w t).resumeRequests = t.resumeRequests) :
    Ensures Inv Guar (lockResumeRequest id scope) L w s fun b L' w' t => w' = w ∧
      ∀ r, b = some r → inScope scope r.scope = true ∧ t.resumeRequests.find? id = some r ∧
        .resumeRequest id ∈ L' := by
  unfold lockResumeRequest
  have hrow : ∀ t, (At.resumeRequests.get (w t)).find? id = (At.resumeRequests.get t).find? id :=
    fun t => congrArg (Table.find? · id) (hw t)
  refine (ensures_selectForUpdate resumeRequests_evolve hrow).mono ?_
  rintro b L' w' t ⟨hw', hb, -⟩
  exact ⟨hw', fun r hr => hb r hr⟩

/-- The marker of a locked clarification: taken already, or taken now. -/
theorem ensures_claimClarificationResumeRequested {requestedBy : String} {clar : Clarification}
    (hw : ∀ t, (w t).clarifications = t.clarifications) (hnow : ∀ t, (w t).now = t.now)
    (hk : .clarification id ∈ L) (hc : s.clarifications.find? id = some clar) :
    Ensures Inv Guar (claimClarificationResumeRequested id requestedBy) L w s fun b _ w' _ =>
      (b = none ∧ w' = w ∧ clar.resumeRequestedAt ≠ none) ∨
        ∃ now, b = some (clar.claimedRow requestedBy now) ∧ clar.resumeRequestedAt = none ∧
          w' = At.clarifications.modify id (Clarification.claimedRow requestedBy now) ∘ w := by
  unfold claimClarificationResumeRequested
  refine (ensures_stamped clarifications_evolve hw hnow ?_).track.mono ?_
  · intro now L s x hk _ _ _
    exact Guar.modifyClarification hk fun _ => rfl
  rintro b L' w' t ⟨⟨now, -, -, hb⟩, hr, -⟩
  rcases hb with ⟨rfl, rfl, t₁, ht₁, -, hfalse⟩ | ⟨x, hx, hm, -, rfl, -, rfl⟩
  · have hm := hfalse clar (by
      show t₁.clarifications.find? id = some clar
      rw [rely_clarification ht₁ hk, hc])
    refine Or.inl ⟨rfl, rfl, fun hn => ?_⟩
    rw [hn] at hm
    cases hm
  · have heq : clar = x := Option.some.inj
      ((by rw [rely_clarification hr hk, hc] : t.clarifications.find? id = some clar).symm.trans hx)
    subst heq
    exact Or.inr ⟨now, rfl, Option.isNone_iff_eq_none.mp hm, rfl⟩

theorem ensures_markClarificationResumeAuthorized
    (hw : ∀ t, (w t).clarifications = t.clarifications) (hnow : ∀ t, (w t).now = t.now) :
    Ensures Inv Guar (markClarificationResumeAuthorized id) L w s fun _ _ w' _ =>
      ∃ v now, (v = (fun s => s) ∨ v = At.clarifications.modify id
        (Clarification.authorizedRow now)) ∧ w' = v ∘ w := by
  unfold markClarificationResumeAuthorized
  refine (ensures_stamped clarifications_evolve hw hnow ?_).mono ?_
  · intro now L s x hk _ _ _
    exact Guar.modifyClarification hk fun _ => rfl
  rintro b L' w' t ⟨now, -, -, hb⟩
  rcases hb with ⟨-, rfl, -⟩ | ⟨x, -, -, -, -, -, rfl⟩
  · exact ⟨fun s => s, now, Or.inl rfl, rfl⟩
  · exact ⟨_, now, Or.inr rfl, rfl⟩

/-- The markers are released, unless the clarification was not there. -/
theorem ensures_releaseClarificationResumeMarkers
    (hw : ∀ t, (w t).clarifications = t.clarifications) :
    Ensures Inv Guar (releaseClarificationResumeMarkers id) L w s fun _ _ w' _ =>
      w' = At.clarifications.modify id Clarification.releasedRow ∘ w ∨
        w' = w ∧ ∃ t₁, Rely Inv Guar L s t₁ ∧ t₁.clarifications.find? id = none := by
  unfold releaseClarificationResumeMarkers
  simp only [bind_eq, pure_eq]
  have hrow : ∀ t, (At.clarifications.get (w t)).find? id = (At.clarifications.get t).find? id :=
    fun t => congrArg (Table.find? · id) (hw t)
  refine (ensures_update clarifications_evolve hrow ?_).bind ?_
  · intro L s x hk _ _ _
    exact Guar.modifyClarification hk fun _ => rfl
  rintro b L' w' t hb _ _
  rw [ensures_done]
  intro t' _
  rcases hb with ⟨-, rfl, t₁, ht₁, -, hfalse⟩ | ⟨x, -, -, -, -, -, rfl⟩
  · refine Or.inr ⟨rfl, t₁, ht₁, ?_⟩
    cases hn : t₁.clarifications.find? id with
    | none => rfl
    | some x =>
      have hno := hfalse x hn
      cases hno
  · exact Or.inl rfl

/-- A new request goes in, or the transaction ends. -/
theorem ensures_insertResumeRequest {row : ResumeRequest}
    (hw : ∀ t, (w t).resumeRequests = t.resumeRequests) :
    Ensures Inv Guar (insertResumeRequest id row) L w s fun _ L' w' t =>
      (∀ t', Rely Inv Guar L' t t' → t'.resumeRequests.find? id = none ∧
        (∀ k x, t'.resumeRequests.find? k = some x →
          (x.idempotencyKey == row.idempotencyKey) = false) ∧
        ∀ k x, t'.resumeRequests.find? k = some x →
          (x.active && x.clarificationId == row.clarificationId) = false) ∧
      row.check = true ∧ w' = At.resumeRequests.insert id row ∘ w := by
  unfold insertResumeRequest
  simp only [bind_eq]
  refine ensures_ite (fun _ => ensures_raise) fun hno => ?_
  have hcheck : row.check = true := by simpa using hno
  have hnone : ∀ t, (At.resumeRequests.get (w t)).find? id = none →
      (At.resumeRequests.get t).find? id = none := by
    intro t ht
    rw [show At.resumeRequests.get (w t) = At.resumeRequests.get t from hw t] at ht
    exact ht
  have hE : ∀ l a b, Guar l a b → Keyed.Entered (.resumeRequestKey row.idempotencyKey)
      (fun x => (x.idempotencyKey == row.idempotencyKey) = true) l (At.resumeRequests.get a)
      (At.resumeRequests.get b) := fun _ _ _ hg => hg.resumeIndex _ _ (.key _)
  have hA : ∀ l a b, Guar l a b → Keyed.Entered (.activeResumeRequest row.clarificationId)
      (fun x => (x.active && x.clarificationId == row.clarificationId) = true) l
      (At.resumeRequests.get a) (At.resumeRequests.get b) :=
    fun _ _ _ hg => hg.resumeIndex _ _ (.active _)
  apply (ensures_taken resumeRequests_evolve hnone).bind
  rintro taken L₁ w₁ t₁ ⟨rfl, hk, hfree⟩ hr₁ hL₁
  refine ensures_ite (fun _ => ensures_raise) fun htaken => ?_
  have habsent := hfree (Bool.eq_false_iff.mpr htaken)
  apply (ensures_conflict hE hw).bind
  rintro byKey L₂ w₂ t₂ ⟨rfl, hkey, hkfree, -⟩ hr₂ hL₂
  refine ensures_ite (fun _ => ensures_raise) fun hb => ?_
  have hkfree₂ := hkfree (Bool.eq_false_iff.mpr hb)
  apply (ensures_conflict hA hw).bind
  rintro byActive L₃ w₃ t₃ ⟨rfl, hactive, hafree, -⟩ hr₃ hL₃
  refine ensures_ite (fun _ => ensures_raise) fun hb => ?_
  have hafree₃ := hafree (Bool.eq_false_iff.mpr hb)
  -- nothing found free can be taken before the end
  have hstay : ∀ t', Rely Inv Guar L₃ t₃ t' → t'.resumeRequests.find? id = none ∧
      (∀ k x, t'.resumeRequests.find? k = some x →
        (x.idempotencyKey == row.idempotencyKey) = false) ∧
      ∀ k x, t'.resumeRequests.find? k = some x →
        (x.active && x.clarificationId == row.clarificationId) = false := by
    intro t' ht'
    refine ⟨?_, rely_free (hr₃.trans (ht'.mono hL₃)) hkey hE hkfree₂,
      rely_free ht' hactive hA hafree₃⟩
    rw [rely_resumeRequest ht' (hL₃ (hL₂ hk)), rely_resumeRequest hr₃ (hL₂ hk),
      rely_resumeRequest hr₂ hk]
    exact habsent
  rw [Txn.modify, ensures_write]
  constructor
  · intro t' ht'
    refine Guar.insertResumeRequest ?_ (hL₃ (hL₂ hk)) (hL₃ hkey) hactive
    rw [hw]
    exact (hstay t' ht').1
  · rw [ensures_done]
    intro t ht
    exact ⟨fun t' ht' => hstay t' (ht.trans ht'), hcheck, rfl⟩

/-- A transition of a locked request that is in the source state cannot fail. -/
theorem ensures_transitionResumeRequest {source : ResumeState} {rr : ResumeRequest}
    {set : Time → ResumeRequest → ResumeRequest}
    (hw : ∀ t, (w t).resumeRequests = t.resumeRequests) (hnow : ∀ t, (w t).now = t.now)
    (hset : ∀ now r, Kept ResumeRequest.asRequested r (set now r))
    (hactive : ∀ now r, r.state = source → (set now r).active = true → r.active = true)
    (hk : .resumeRequest id ∈ L) (hrr : s.resumeRequests.find? id = some rr)
    (hstate : rr.state = source) (hscope : inScope scope rr.scope = true) :
    Ensures Inv Guar (transitionResumeRequest id source scope set) L w s fun b _ w' _ =>
      ∃ now, b = some (set now rr) ∧ (set now rr).check = true ∧
        w' = At.resumeRequests.modify id (set now) ∘ w := by
  unfold transitionResumeRequest
  refine (ensures_stamped resumeRequests_evolve hw hnow ?_).track.mono ?_
  · intro now L s x hk hx hc _
    simp only [Bool.and_eq_true, beq_iff_eq] at hc
    exact Guar.modifyResumeRequest hx hk (hset now x) (hactive now x hc.1)
  rintro b L' w' t ⟨⟨now, -, -, hb⟩, hr, -⟩
  rcases hb with ⟨-, -, t₁, ht₁, -, hfalse⟩ | ⟨x, hx, -, hck, rfl, -, rfl⟩
  · have hno := hfalse rr (by
      show t₁.resumeRequests.find? id = some rr
      rw [rely_resumeRequest ht₁ hk, hrr])
    simp [hstate, hscope] at hno
  · have heq : rr = x := Option.some.inj
      ((by rw [rely_resumeRequest hr hk, hrr] :
        t.resumeRequests.find? id = some rr).symm.trans hx)
    subst heq
    exact ⟨now, rfl, hck, rfl⟩

end Statements

/-! ## Its operations -/

section Service

variable {eventId id : Uuid} {actor : Actor} {scope : Scope}

/-- The isolation check passes for a scope with a team and a project only. -/
theorem scope_of_allowed {action : Action} {r : Scope}
    (h : (evaluate action actor scope r).allowed = true) :
    ∃ teamId projectId, scope = ⟨some teamId, some projectId⟩ := by
  rcases isolated_of_allowed h with ⟨-, ht, hp⟩
  rcases Option.isSome_iff_exists.mp ht with ⟨teamId, hteam⟩
  rcases Option.isSome_iff_exists.mp hp with ⟨projectId, hproject⟩
  refine ⟨teamId, projectId, ?_⟩
  cases scope
  simp_all

theorem ensures_requestResume {ids : ResumeIds} {cid : Uuid} {key : String} {expiresAt : Time}
    {reference : Option Reference} (hs : Inv s) :
    Ensures Inv Guar (requestResume cfg ids actor scope cid key expiresAt reference) []
      (fun s => s) s fun r _ w t =>
        Effect cfg Inv (.requestResume ids actor scope cid key expiresAt reference) (.resume r) t
            (w t) ∧
          Answers Inv (.requestResume ids actor scope cid key expiresAt reference) (.resume r) t
            (w t) := by
  have hquiet : ∀ {r : ResumeResult} {L' : List Lock} {t : Db},
      r ≠ .deny .conflict .activeRequestExists → r.ok = false →
      Ensures Inv Guar (.done r : TaskTxn ResumeResult) L' (fun s => s) t fun r _ w t =>
        Effect cfg Inv (.requestResume ids actor scope cid key expiresAt reference) (.resume r) t
            (w t) ∧
          Answers Inv (.requestResume ids actor scope cid key expiresAt reference) (.resume r) t
            (w t) := by
    intro r L' t hr hno
    refine ensures_done.mpr fun t' _ => ⟨.quiet fun h => hr ?_, .denied (Reply.denied_resume hno)⟩
    cases h
    rfl
  unfold requestResume
  simp only [bind_eq, pure_eq]
  refine ensures_ite (fun _ => hquiet (by simp [ResumeResult.deny]) rfl) fun _ => ?_
  apply (ensures_selectBy resumeRequests_evolve Kept.refl Kept.trans fun _ => rfl).bind
  rintro existing L₁ w₁ t₁ ⟨rfl, hexisting, -⟩ hr₁ _
  cases existing with
  | some e =>
    refine ensures_ite (fun _ => ?_) fun _ => hquiet (by simp [ResumeResult.deny]) rfl
    -- the request that was there is there still
    rcases hexisting e rfl with ⟨hkey, x, hx, hsame⟩
    rw [ensures_done]
    intro t ht
    rcases ht.same_row resumeRequests_evolve Kept.refl Kept.trans hx with ⟨y, hy, hsame'⟩
    have hkept : y.idempotencyKey = e.2.idempotencyKey :=
      (Kept.trans _ _ _ hsame hsame').field ResumeRequest.idempotencyKey fun _ => rfl
    refine ⟨.quiet fun h => ?_, .confirmed rfl (.resume hy (hkept.trans (beq_iff_eq.mp hkey)))⟩
    cases h
  | none =>
    refine ensures_ite (fun _ => hquiet (fun h => ?_) rfl) fun hyes => ?_
    · exact evaluate_resultKind _ (congrArg ResumeResult.resultKind h)
    have hallowed : (evaluate (.request .resume) actor scope scope).allowed = true := by
      simpa using hyes
    rcases scope_of_allowed hallowed with ⟨teamId, projectId, rfl⟩
    apply (ensures_lockClarification fun _ => rfl).bind
    rintro b L₂ w₂ t₂ ⟨rfl, hclar⟩ hr₂ _
    cases b with
    | none => exact hquiet (by simp [ResumeResult.deny]) rfl
    | some clar =>
      rcases hclar clar rfl with ⟨hc, hkc⟩
      apply (ensures_lockTask fun _ => rfl).bind
      rintro b L₃ w₃ t₃ ⟨rfl, htask⟩ hr₃ hL₃
      cases b with
      | none => exact hquiet (by simp [ResumeResult.deny]) rfl
      | some task =>
        rcases htask task rfl with ⟨ht, hkt⟩
        refine ensures_ite (fun _ => hquiet (by simp [ResumeResult.deny]) rfl) fun _ => ?_
        cases heligible : eligibilityDenial clar task with
        | some reason => exact hquiet (by simp [ResumeResult.deny]) rfl
        | none =>
          have hc₃ : t₃.clarifications.find? cid = some clar := by
            rw [rely_clarification hr₃ hkc, hc]
          apply (ensures_claimClarificationResumeRequested (fun _ => rfl) (fun _ => rfl) (hL₃ hkc)
            hc₃).bind
          rintro b L₄ w₄ t₄ hb hr₄ hL₄
          have hc₄ : t₄.clarifications.find? cid = some clar := by
            rw [rely_clarification hr₄ (hL₃ hkc), hc₃]
          rcases hb with ⟨rfl, rfl, hm⟩ | ⟨now, rfl, hm, rfl⟩
          · -- the marker is taken
            rw [ensures_done]
            intro t ht
            have hc₅ : t.clarifications.find? cid = some clar := by
              rw [rely_clarification ht (hL₄ (hL₃ hkc)), hc₄]
            exact ⟨.resumeRefused hc₅ hm, .denied rfl⟩
          dsimp only
          refine (ensures_requestAuthorization ?_ ?_).bind ?_
          · exact fun _ => rfl
          · exact fun _ => rfl
          rintro auth L₅ w₅ t₅ hb hr₅ hL₅
          have hinv₄ : Inv t₄ :=
            hr₄.inv (hr₃.inv (hr₂.inv (hr₁.inv hs)))
          rcases hb with ⟨hauth, rfl, hlate⟩ | ⟨now₁, aid, x, u, hauth, rfl, hrel⟩
          · -- no authorization: an active one was there
            rcases hlate hallowed with ⟨hkind, t', ht', k, x, hx, hactive⟩
            rw [hauth]
            dsimp only
            rw [if_pos hkind, ensures_done]
            intro t ht
            have hc' : t'.clarifications.find? cid = some clar := by
              rw [rely_clarification ht' (hL₄ (hL₃ hkc)), hc₄]
            have hc₆ : t.clarifications.find? cid = some clar := by
              rw [rely_clarification ht (hL₅ (hL₄ (hL₃ hkc))),
                rely_clarification hr₅ (hL₄ (hL₃ hkc)), hc₄]
            exact ⟨.resumeLate hc₆ (ht'.inv hinv₄) hc' hm hx hactive,
              .late (ht'.inv hinv₄) ⟨⟨clar, hc', hm⟩, k, x, hx, hactive⟩⟩
          rw [hauth]
          dsimp only
          have hu : ∀ v, (u v).now = v.now ∧ (u v).resumeRequests = v.resumeRequests ∧
              (u v).outbox = v.outbox := by
            intro v
            rcases (hrel t₅ Rely.refl).1 with _ | _
            · exact ⟨rfl, rfl, rfl⟩
            · exact ⟨rfl, rfl, rfl⟩
          refine (ensures_now ?_).bind ?_
          · exact fun t => (hu _).1
          rintro now₂ L₆ w₆ t₆ ⟨rfl, -, -⟩ hr₆ hL₆
          refine (ensures_insertResumeRequest ?_).bind ?_
          · exact fun t => (hu _).2.1
          rintro - L₇ w₇ t₇ ⟨hfree, hck, rfl⟩ hr₇ hL₇
          refine (ensures_insertLifecycleOutboxEvent ?_ ?_).bind ?_
          · intro t
            show (u _).outbox.find? ids.eventId = none ↔ _
            rw [(hu _).2.2]
            rfl
          · exact fun t => (hu _).1
          rintro e L₈ w₈ t₈ ⟨now₃, hemit, -, rfl⟩ hr₈ hL₈
          rw [ensures_done]
          intro t hrt
          -- everything locked is at the commit as it was when it was read
          have hto : Rely Inv Guar L₅ t₅ t :=
            hr₆.trans ((hr₇.mono hL₆).trans ((hr₈.mono fun x hx => hL₇ (hL₆ hx)).trans
              (hrt.mono fun x hx => hL₈ (hL₇ (hL₆ hx)))))
          have hc' : t.clarifications.find? cid = some clar := by
            rw [rely_clarification hto (hL₅ (hL₄ (hL₃ hkc))),
              rely_clarification hr₅ (hL₄ (hL₃ hkc)), hc₄]
          have ht' : t.tasks.find? clar.taskId = some task := by
            rw [rely_task hto (hL₅ (hL₄ hkt)), rely_task hr₅ (hL₄ hkt), rely_task hr₄ hkt, ht]
          have hfree' := hfree t (hr₈.trans (hrt.mono hL₈))
          refine ⟨.resumeRequested hc' ht' heligible hm (hrel t hto).1 rfl hfree'.1 hfree'.2.1
            hfree'.2.2 hck (fun h => by cases h) (hemit t hrt),
            .of_emits rfl rfl (hemit t hrt) ?_⟩
          show (u _).outbox.insert ids.eventId _ = _
          rw [(hu _).2.2]
          rfl

/-- A denial that wrote nothing, for every call but a request. -/
theorem ensures_deny {c : Call} {r' : ResumeResult} (h : ∀ r, Quiet c r) (hno : r'.ok = false) :
    Ensures Inv Guar (.done r' : TaskTxn ResumeResult) L (fun s => s) s fun r _ w t =>
      Effect cfg Inv c (.resume r) t (w t) ∧ Answers Inv c (.resume r) t (w t) :=
  ensures_done.mpr fun _ _ => ⟨.quiet (h _), .denied (Reply.denied_resume hno)⟩

theorem ensures_authorizeResume {policyVersion : String} :
    Ensures Inv Guar (authorizeResume cfg eventId id actor scope policyVersion) [] (fun s => s) s
      fun r _ w t =>
        Effect cfg Inv (.authorizeResume eventId id actor scope policyVersion) (.resume r) t
            (w t) ∧
          Answers Inv (.authorizeResume eventId id actor scope policyVersion) (.resume r) t
            (w t) := by
  have hquiet : ∀ r, Quiet (.authorizeResume eventId id actor scope policyVersion) r :=
    fun _ => trivial
  unfold authorizeResume
  simp only [bind_eq, pure_eq]
  refine ensures_ite (fun _ => ensures_deny hquiet rfl) fun _ => ?_
  apply (ensures_lockResumeRequest fun _ => rfl).bind
  rintro b L₁ w₁ t₁ ⟨rfl, hb⟩ _ _
  cases b with
  | none => exact ensures_deny hquiet rfl
  | some rr =>
    rcases hb rr rfl with ⟨hscope, hrr, hkr⟩
    refine ensures_ite (fun _ => ensures_deny hquiet rfl) fun hst => ?_
    have hstate : rr.state = .authorizationPending := not_not.mp hst
    apply (ensures_lockClarification fun _ => rfl).bind
    rintro clar L₂ w₂ t₂ ⟨rfl, hclar⟩ hr₂ hL₂
    apply (ensures_lockTask fun _ => rfl).bind
    rintro task L₃ w₃ t₃ ⟨rfl, htask⟩ hr₃ hL₃
    cases clar with
    | none => exact ensures_deny hquiet rfl
    | some clar =>
      cases task with
      | none => exact ensures_deny hquiet rfl
      | some task =>
        rcases hclar clar rfl with ⟨hc, hkc⟩
        rcases htask task rfl with ⟨ht, hkt⟩
        refine ensures_ite (fun _ => ensures_deny hquiet rfl) fun hopen => ?_
        refine ensures_ite (fun _ => ensures_deny hquiet rfl) fun hver => ?_
        apply (ensures_authorize (fun _ => rfl) fun _ => rfl).bind
        rintro outcome L₄ w₄ t₄ hb hr₄ hL₄
        rcases hb with ⟨hno, rfl⟩ | ⟨now, a, happ, hok, hka, rfl⟩
        · rw [hno]
          exact ensures_deny hquiet rfl
        simp only [hok, Bool.not_true, Bool.false_eq_true, if_false]
        refine (ensures_markClarificationResumeAuthorized ?_ ?_).bind ?_
        · exact fun _ => rfl
        · exact fun _ => rfl
        rintro marked L₅ w₅ t₅ ⟨v, now₁, hv, rfl⟩ hr₅ hL₅
        have hframe : ∀ x, (v x).resumeRequests = x.resumeRequests ∧ (v x).now = x.now ∧
            (v x).outbox = x.outbox := by
          intro x
          rcases hv with rfl | rfl
          · exact ⟨rfl, rfl, rfl⟩
          · exact ⟨rfl, rfl, rfl⟩
        have hrr₅ : t₅.resumeRequests.find? id = some rr := by
          rw [rely_resumeRequest hr₅ (hL₄ (hL₃ (hL₂ hkr))),
            rely_resumeRequest hr₄ (hL₃ (hL₂ hkr)), rely_resumeRequest hr₃ (hL₂ hkr),
            rely_resumeRequest hr₂ hkr, hrr]
        refine (ensures_transitionResumeRequest ?_ ?_ ?_ ?_ (hL₅ (hL₄ (hL₃ (hL₂ hkr)))) hrr₅
          hstate hscope).bind ?_
        · exact fun x => (hframe _).1
        · exact fun x => (hframe _).2.1
        · exact fun _ _ => rfl
        · intro now r hr _
          simp [ResumeRequest.active, hr]
        rintro b L₆ w₆ t₆ ⟨now₂, rfl, hck, rfl⟩ hr₆ hL₆
        refine (ensures_insertLifecycleOutboxEvent ?_ ?_).bind ?_
        · intro x
          show (v _).outbox.find? eventId = none ↔ _
          rw [(hframe _).2.2]
          rfl
        · exact fun x => (hframe _).2.1
        rintro e L₇ w₇ t₇ ⟨now₃, hemit, -, rfl⟩ hr₇ hL₇
        rw [ensures_done]
        intro t hrt
        have hto : Rely Inv Guar L₄ t₄ t :=
          hr₅.trans ((hr₆.mono hL₅).trans ((hr₇.mono fun x hx => hL₆ (hL₅ hx)).trans
            (hrt.mono fun x hx => hL₇ (hL₆ (hL₅ hx)))))
        have hlocked : ResumeLocked t id scope rr clar task := by
          refine ⟨?_, hscope, ?_, ?_, Bool.eq_false_iff.mpr hopen, not_not.mp hver⟩
          · rw [rely_resumeRequest hto (hL₄ (hL₃ (hL₂ hkr))),
              rely_resumeRequest hr₄ (hL₃ (hL₂ hkr)), rely_resumeRequest hr₃ (hL₂ hkr),
              rely_resumeRequest hr₂ hkr, hrr]
          · rw [rely_clarification hto (hL₄ (hL₃ hkc)), rely_clarification hr₄ (hL₃ hkc),
              rely_clarification hr₃ hkc, hc]
          · rw [rely_task hto (hL₄ hkt), rely_task hr₄ hkt, ht]
        refine ⟨.resumeAuthorized hlocked hstate (happ.stable hto hka) hv hck (hemit t hrt),
          .of_emits rfl rfl (hemit t hrt) ?_⟩
        show (v _).outbox.insert eventId _ = _
        rw [(hframe _).2.2]
        rfl

/-- What `reject_resume` and `cancel_resume` share. -/
theorem ensures_declineResume {c : Call} {op : SimpleOp} {set : Time → ResumeRequest → ResumeRequest}
    {type : EventType} {keyInfix reasonText : String} {reason : ReasonCode} {rr : ResumeRequest}
    {t₁ : Db} {L₁ : List Lock} (hs : Inv t₁)
    (hc : ResumeDecline c eventId id actor scope op set type)
    (hset : ∀ now r, Kept ResumeRequest.asRequested r (set now r))
    (hinactive : ∀ now r, (set now r).active = false) (hscope : inScope scope rr.scope = true)
    (hrr : t₁.resumeRequests.find? id = some rr) (hkr : .resumeRequest id ∈ L₁)
    (hstate : rr.state = .authorizationPending) :
    Ensures Inv Guar (declineResume eventId id rr actor scope op set type keyInfix reasonText
      reason) L₁ (fun s => s) t₁ fun r _ w t =>
        Effect cfg Inv c (.resume r) t (w t) ∧ Answers Inv c (.resume r) t (w t) := by
  have hquiet : ∀ r, Quiet c r := by
    intro r
    cases hc with
    | reject _ _ _ _ _ => trivial
    | cancel _ _ _ _ => trivial
  have htransition : c.transition = some (eventId, type) := by
    cases hc with
    | reject _ _ _ _ _ => rfl
    | cancel _ _ _ _ => rfl
  unfold declineResume
  simp only [bind_eq, pure_eq]
  apply (ensures_decideSimple (fun _ => rfl) fun _ => rfl).bind
  rintro outcome L₂ w₂ t₂ hb hr₂ hL₂
  rcases hb with ⟨hno, rfl⟩ | ⟨now, a, hdec, hok, hka, rfl⟩
  · rw [hno]
    exact ensures_deny hquiet rfl
  simp only [hok, Bool.not_true, Bool.false_eq_true, if_false]
  have hrr₂ : t₂.resumeRequests.find? id = some rr := by
    rw [rely_resumeRequest hr₂ hkr, hrr]
  refine (ensures_transitionResumeRequest ?_ ?_ hset ?_ (hL₂ hkr) hrr₂ hstate hscope).bind ?_
  · exact fun _ => rfl
  · exact fun _ => rfl
  · intro now r _ hact
    rw [hinactive now r] at hact
    cases hact
  rintro b L₃ w₃ t₃ ⟨now₁, rfl, hck, rfl⟩ hr₃ hL₃
  dsimp only
  refine (ensures_releaseClarificationResumeMarkers ?_).bind ?_
  · exact fun _ => rfl
  rintro - L₄ w₄ t₄ hb hr₄ hL₄
  -- the release is one write of the clarification, or none at all
  have hv : ∃ v, w₄ = v ∘ (At.resumeRequests.modify id (set now₁) ∘
        At.authorizations.modify rr.authorizationId (op.row actor now) ∘ fun s => s) ∧
      (v = At.clarifications.modify rr.clarificationId Clarification.releasedRow ∨
        v = (fun s => s) ∧ ∃ t₁, Inv t₁ ∧ t₁.resumeRequests.find? id = some rr ∧
          t₁.clarifications.find? rr.clarificationId = none) := by
    rcases hb with rfl | ⟨rfl, t', ht', hmissing⟩
    · exact ⟨_, rfl, Or.inl rfl⟩
    · refine ⟨fun s => s, rfl, Or.inr ⟨rfl, t', ht'.inv (hr₃.inv (hr₂.inv hs)), ?_, hmissing⟩⟩
      rw [rely_resumeRequest ht' (hL₃ (hL₂ hkr)), rely_resumeRequest hr₃ (hL₂ hkr), hrr₂]
  rcases hv with ⟨v, rfl, hrelease⟩
  have hframe : ∀ x, (v x).now = x.now ∧ (v x).outbox = x.outbox := by
    intro x
    rcases hrelease with rfl | ⟨rfl, -⟩
    · exact ⟨rfl, rfl⟩
    · exact ⟨rfl, rfl⟩
  refine (ensures_insertLifecycleOutboxEvent ?_ ?_).bind ?_
  · intro x
    show (v _).outbox.find? eventId = none ↔ _
    rw [(hframe _).2]
    rfl
  · exact fun x => (hframe _).1
  rintro e L₅ w₅ t₅ ⟨now₂, hemit, -, rfl⟩ hr₅ hL₅
  rw [ensures_done]
  intro t hrt
  have hto : Rely Inv Guar L₂ t₂ t :=
    hr₃.trans ((hr₄.mono hL₃).trans ((hr₅.mono fun x hx => hL₄ (hL₃ hx)).trans
      (hrt.mono fun x hx => hL₅ (hL₄ (hL₃ hx)))))
  have hrr' : t.resumeRequests.find? id = some rr := by
    rw [rely_resumeRequest hto (hL₂ hkr), hrr₂]
  refine ⟨.resumeDeclined hc hrr' hscope hstate (hdec.stable hto hka) hrelease hck (hemit t hrt),
    .of_emits rfl htransition (hemit t hrt) ?_⟩
  show (v _).outbox.insert eventId _ = _
  rw [(hframe _).2]
  rfl

theorem ensures_rejectResume {reasonCode : ReasonCode} (hs : Inv s) :
    Ensures Inv Guar (rejectResume cfg eventId id actor scope reasonCode) [] (fun s => s) s
      fun r _ w t =>
        Effect cfg Inv (.rejectResume eventId id actor scope reasonCode) (.resume r) t (w t) ∧
          Answers Inv (.rejectResume eventId id actor scope reasonCode) (.resume r) t (w t) := by
  have hquiet : ∀ r, Quiet (.rejectResume eventId id actor scope reasonCode) r := fun _ => trivial
  unfold rejectResume
  simp only [bind_eq, pure_eq]
  refine ensures_ite (fun _ => ensures_deny hquiet rfl) fun _ => ?_
  apply (ensures_lockResumeRequest fun _ => rfl).bind
  rintro b L₁ w₁ t₁ ⟨rfl, hb⟩ hr₁ _
  cases b with
  | none => exact ensures_deny hquiet rfl
  | some rr =>
    rcases hb rr rfl with ⟨hscope, hrr, hkr⟩
    refine ensures_ite (fun _ => ensures_deny hquiet rfl) fun hst => ?_
    exact ensures_declineResume (hr₁.inv hs) (.reject eventId id actor scope reasonCode)
      (fun _ _ => rfl) (fun _ _ => rfl) hscope hrr hkr (not_not.mp hst)

theorem ensures_cancelResume (hs : Inv s) :
    Ensures Inv Guar (cancelResume cfg eventId id actor scope) [] (fun s => s) s
      fun r _ w t => Effect cfg Inv (.cancelResume eventId id actor scope) (.resume r) t (w t) ∧
        Answers Inv (.cancelResume eventId id actor scope) (.resume r) t (w t) := by
  have hquiet : ∀ r, Quiet (.cancelResume eventId id actor scope) r := fun _ => trivial
  unfold cancelResume
  simp only [bind_eq, pure_eq]
  refine ensures_ite (fun _ => ensures_deny hquiet rfl) fun _ => ?_
  apply (ensures_lockResumeRequest fun _ => rfl).bind
  rintro b L₁ w₁ t₁ ⟨rfl, hb⟩ hr₁ _
  cases b with
  | none => exact ensures_deny hquiet rfl
  | some rr =>
    rcases hb rr rfl with ⟨hscope, hrr, hkr⟩
    refine ensures_ite (fun _ => ensures_deny hquiet rfl) fun _ => ?_
    refine ensures_ite (fun _ => ensures_deny hquiet rfl) fun hst => ?_
    exact ensures_declineResume (hr₁.inv hs) (.cancel eventId id actor scope)
      (fun _ _ => rfl) (fun _ _ => rfl) hscope hrr hkr (not_not.mp hst)

theorem ensures_prepareExecution :
    Ensures Inv Guar (prepareExecution cfg eventId id actor scope) [] (fun s => s) s
      fun r _ w t =>
        Effect cfg Inv (.prepareExecution eventId id actor scope) (.resume r) t (w t) ∧
          Answers Inv (.prepareExecution eventId id actor scope) (.resume r) t (w t) := by
  have hquiet : ∀ r, Quiet (.prepareExecution eventId id actor scope) r := fun _ => trivial
  unfold prepareExecution
  simp only [bind_eq, pure_eq]
  refine ensures_ite (fun _ => ensures_deny hquiet rfl) fun _ => ?_
  apply (ensures_lockResumeRequest fun _ => rfl).bind
  rintro b L₁ w₁ t₁ ⟨rfl, hb⟩ _ _
  cases b with
  | none => exact ensures_deny hquiet rfl
  | some rr =>
    rcases hb rr rfl with ⟨hscope, hrr, hkr⟩
    refine ensures_ite (fun _ => ensures_deny hquiet rfl) fun hst => ?_
    have hstate : rr.state = .authorized := not_not.mp hst
    apply (ensures_lockClarification fun _ => rfl).bind
    rintro clar L₂ w₂ t₂ ⟨rfl, hclar⟩ hr₂ hL₂
    apply (ensures_lockTask fun _ => rfl).bind
    rintro task L₃ w₃ t₃ ⟨rfl, htask⟩ hr₃ hL₃
    cases clar with
    | none => exact ensures_deny hquiet rfl
    | some clar =>
      cases task with
      | none => exact ensures_deny hquiet rfl
      | some task =>
        rcases hclar clar rfl with ⟨hc, hkc⟩
        rcases htask task rfl with ⟨ht, hkt⟩
        refine ensures_ite (fun _ => ensures_deny hquiet rfl) fun hopen => ?_
        refine ensures_ite (fun _ => ensures_deny hquiet rfl) fun hver => ?_
        apply (ensures_consume (fun _ => rfl) (fun _ => rfl) fun _ => rfl).bind
        rintro outcome L₄ w₄ t₄ hb hr₄ hL₄
        rcases hb with ⟨hno, rfl⟩ | ⟨u, hcons, hok, rfl⟩
        · rw [hno]
          exact ensures_deny hquiet rfl
        simp only [hok, Bool.not_true, Bool.false_eq_true, if_false]
        have hframe : ∀ x, (u x).resumeRequests = x.resumeRequests ∧ (u x).now = x.now ∧
            (u x).outbox = x.outbox := by
          intro x
          cases hcons t₄ Rely.refl with
          | plain _ _ => exact ⟨rfl, rfl, rfl⟩
          | approved _ _ _ _ => exact ⟨rfl, rfl, rfl⟩
        refine (ensures_insertLifecycleOutboxEvent ?_ ?_).bind ?_
        · intro x
          show (u _).outbox.find? eventId = none ↔ _
          rw [(hframe _).2.2]
        · exact fun x => (hframe _).2.1
        rintro command L₅ w₅ t₅ ⟨now₁, hemit, hid, rfl⟩ hr₅ hL₅
        have hrr₅ : t₅.resumeRequests.find? id = some rr := by
          rw [rely_resumeRequest hr₅ (hL₄ (hL₃ (hL₂ hkr))),
            rely_resumeRequest hr₄ (hL₃ (hL₂ hkr)), rely_resumeRequest hr₃ (hL₂ hkr),
            rely_resumeRequest hr₂ hkr, hrr]
        rw [hid]
        refine (ensures_transitionResumeRequest ?_ ?_ ?_ ?_ (hL₅ (hL₄ (hL₃ (hL₂ hkr)))) hrr₅
          hstate hscope).bind ?_
        · exact fun x => (hframe _).1
        · exact fun x => (hframe _).2.1
        · exact fun _ _ => rfl
        · intro now r hr _
          simp [ResumeRequest.active, hr]
        rintro b L₆ w₆ t₆ ⟨now₂, rfl, hck, rfl⟩ hr₆ hL₆
        rw [ensures_done]
        intro t hrt
        have hto : Rely Inv Guar L₄ t₄ t :=
          hr₅.trans ((hr₆.mono hL₅).trans (hrt.mono fun x hx => hL₆ (hL₅ hx)))
        have hlocked : ResumeLocked t id scope rr clar task := by
          refine ⟨?_, hscope, ?_, ?_, Bool.eq_false_iff.mpr hopen, not_not.mp hver⟩
          · rw [rely_resumeRequest hto (hL₄ (hL₃ (hL₂ hkr))),
              rely_resumeRequest hr₄ (hL₃ (hL₂ hkr)), rely_resumeRequest hr₃ (hL₂ hkr),
              rely_resumeRequest hr₂ hkr, hrr]
          · rw [rely_clarification hto (hL₄ (hL₃ hkc)), rely_clarification hr₄ (hL₃ hkc),
              rely_clarification hr₃ hkc, hc]
          · rw [rely_task hto (hL₄ hkt), rely_task hr₄ hkt, ht]
        have hemit' := hemit t (hr₆.trans (hrt.mono hL₆))
        refine ⟨.executionPrepared hlocked hstate (hcons t hto) hck hemit',
          .of_emits rfl rfl hemit' ?_⟩
        show (u _).outbox.insert eventId _ = _
        rw [(hframe _).2.2]

/-- An outcome of a confirmation that wrote nothing. -/
theorem ensures_quiet {c : Call} {r' : ResumeResult} (h : ∀ r, Quiet c r) :
    Ensures Inv Guar (.done r' : TaskTxn ResumeResult) L (fun s => s) s fun r _ w t =>
      Effect cfg Inv c (.resume r) t (w t) :=
  ensures_done.mpr fun _ _ => .quiet (h _)

/-- Reading why a confirmation had no effect writes nothing. -/
theorem ensures_classifyConfirmFailure {c : Call} {commandId : Uuid} {target : ResumeState}
    {reason : ReasonCode} (hquiet : ∀ r, Quiet c r) :
    Ensures Inv Guar (classifyConfirmFailure id commandId target reason) L (fun s => s) s
      fun r _ w t => Effect cfg Inv c (.resume r) t (w t) := by
  unfold classifyConfirmFailure
  simp only [bind_eq, pure_eq]
  apply (ensures_select resumeRequests_evolve Kept.refl Kept.trans fun _ => rfl).bind
  rintro b L₁ w₁ t₁ ⟨rfl, -⟩ _ _
  cases b with
  | none => exact ensures_quiet hquiet
  | some current =>
    refine ensures_ite (fun _ => ensures_quiet hquiet) fun _ => ?_
    refine ensures_ite (fun _ => ensures_quiet hquiet) fun _ => ?_
    exact ensures_ite (fun _ => ensures_quiet hquiet) fun _ => ensures_quiet hquiet

/-- What `confirm_resumed` and `confirm_failed` share. -/
theorem ensures_confirm {c : Call} {commandId : Uuid} {set : Time → ResumeRequest → ResumeRequest}
    {target : ResumeState} {type : EventType} {keyInfix : String} {reason : ReasonCode}
    (hc : ResumeConfirm c eventId id commandId set type)
    (hset : ∀ now r, Kept ResumeRequest.asRequested r (set now r))
    (hinactive : ∀ now r, (set now r).active = false) :
    Ensures Inv Guar (confirm eventId id commandId set target type keyInfix reason) []
      (fun s => s) s fun r _ w t => Effect cfg Inv c (.resume r) t (w t) := by
  have hquiet : ∀ r, Quiet c r := by
    intro r
    cases hc with
    | resumed _ _ _ => trivial
    | failed _ _ _ _ => trivial
  unfold confirm confirmResumeRequest
  simp only [bind_eq, pure_eq]
  refine (ensures_stamped resumeRequests_evolve ?_ ?_ ?_).bind ?_
  · exact fun _ => rfl
  · exact fun _ => rfl
  · intro now L s x hk hx _ _
    refine Guar.modifyResumeRequest hx hk (hset now x) fun hact => ?_
    rw [hinactive now x] at hact
    cases hact
  rintro b L₁ w₁ t₁ ⟨now, -, -, hb⟩ _ _
  rcases hb with ⟨rfl, rfl, -⟩ | ⟨rr, hrr, hcond, hck, rfl, hk, rfl⟩
  · exact ensures_classifyConfirmFailure hquiet
  simp only [Bool.and_eq_true, beq_iff_eq] at hcond
  dsimp only
  refine (ensures_insertLifecycleOutboxEvent ?_ ?_).bind ?_
  · exact fun _ => Iff.rfl
  · exact fun _ => rfl
  rintro e L₂ w₂ t₂ ⟨now₁, hemit, -, rfl⟩ hr₂ hL₂
  rw [ensures_done]
  intro t hrt
  have hrr' : t.resumeRequests.find? id = some rr := by
    rw [rely_resumeRequest hrt (hL₂ hk), rely_resumeRequest hr₂ hk]
    exact hrr
  have hclar : (set now rr).clarificationId = rr.clarificationId :=
    (hset now rr).field ResumeRequest.clarificationId fun _ => rfl
  have htask : (set now rr).taskId = rr.taskId :=
    (hset now rr).field ResumeRequest.taskId fun _ => rfl
  rw [hclar, htask] at hemit ⊢
  exact .resumeConfirmed hc hrr' hcond.1 hcond.2 hck (hemit t hrt)

/-- The expiry scan ends requests that may expire, each of them under its lock. -/
theorem ensures_expireDueRequests {before : Time} {limit : Nat} {rank : Uuid → Nat} :
    Ensures Inv Guar (expireDueRequests before limit rank) [] (fun s => s) s fun n _ w t =>
      Effect cfg Inv (.expireDueRequests before limit rank) (.count n) t (w t) := by
  unfold expireDueRequests Txn.select
  simp only [bind_eq]
  apply (ensures_now fun _ => rfl).bind
  rintro now L₁ w₁ t₁ ⟨rfl, -, hle⟩ _ _
  rw [query_bind, ensures_query]
  intro t₂ ht₂
  rw [done_bind, query_bind, ensures_query]
  intro t₃ ht₃
  rw [done_bind]
  refine (ensures_updateEach (nodup_selectLimit _ _ _ _) resumeRequests_evolve ?_ ?_).track.mono ?_
  · exact fun _ _ _ => rfl
  · intro L s k x hk hx _
    refine Guar.modifyResumeRequest hx hk rfl fun hact => ?_
    cases hact
  rintro n L' w' t ⟨⟨ids, hsub, rfl, -, hall⟩, hr, -⟩
  refine .resumesExpired (hsub.nodup (nodup_selectLimit _ _ _ _)) ?_ fun k hk => ?_
  · exact Nat.le_trans hle (Nat.le_trans (rely_now ht₂)
      (Nat.le_trans (rely_now ht₃) (rely_now hr)))
  · rcases (hall k hk).2 with ⟨rr, hrr, hdue, hck⟩
    unfold ResumeRequest.due at hdue
    rw [Bool.and_eq_true] at hdue
    exact ⟨rr, hrr, hdue.1, hck⟩

end Service

end AiAgentsSwd.Tasks
