import AiAgentsSwd.Tasks.ReplaySpec

/-!
# Tasks.WorkroomSpec — the other transactions, and what every run is made of

The workroom, the poller and the rest of the program first, then the calls that are one shared
operation of `Tasks.AuthorizationSpec`. `effect_of_call` collects them: whatever a session
runs, its commit is one of the effects of `Tasks.Effects`. `effects_of_reachable` is what later
modules use: the log of a reachable system is a run of effects.
-/

namespace AiAgentsSwd.Tasks

open Keyed (Table Evolves)
open Planning (Uuid Time)
open ReadCommitted Txn TableAt

variable {cfg : Settings} {Inv : Db → Prop} {s : Db}

/-! ## The workroom -/

section Workroom

variable {id : Uuid}

theorem ensures_createClarification {taskId : Uuid} {dueAt reminderAt : Time} :
    Ensures Inv Guar (createClarification id taskId dueAt reminderAt) [] (fun s => s) s
      fun _ _ w t => Effect cfg Inv (.createClarification id taskId dueAt reminderAt) .done t (w t)
    := by
  unfold createClarification
  simp only [bind_eq]
  apply (ensures_taken clarifications_evolve fun _ h => h).bind
  rintro taken L₁ w₁ t₁ ⟨rfl, hk, hfree⟩ _ _
  refine ensures_ite (fun _ => ensures_raise) fun htaken => ?_
  have habsent := hfree (Bool.eq_false_iff.mpr htaken)
  have hrow : ∀ t, Rely Inv Guar L₁ t₁ t → t.clarifications.find? id = none := by
    intro t ht
    rw [rely_clarification ht hk]
    exact habsent
  unfold Txn.modify
  rw [ensures_write]
  constructor
  · exact fun t ht => Guar.insertClarification (hrow t ht) hk
  · rw [ensures_done]
    exact fun t ht => .clarificationCreated (hrow t ht)

/-- A row that one statement sets whatever it holds. -/
theorem ensures_setClarification {c : Call} {f : Clarification → Clarification} {e : Failure}
    (hf : ∀ c, Kept Clarification.asCreated c (f c)) (hquiet : Quiet c (.clarification none))
    (heffect : ∀ t x, t.clarifications.find? id = some x → Effect cfg Inv c
      (.clarification (some (f x))) t (At.clarifications.modify id f t)) :
    Ensures Inv Guar (At.clarifications.update id (fun _ => true) f Clarification.check e) []
      (fun s => s) s fun r _ w t => Effect cfg Inv c (.clarification r) t (w t) := by
  refine (ensures_update clarifications_evolve (fun _ => rfl) ?_).mono ?_
  · exact fun L' v x hk _ _ _ => Guar.modifyClarification hk hf
  rintro b L' w t hb
  rcases hb with ⟨rfl, rfl, -⟩ | ⟨x, hx, -, -, rfl, -, rfl⟩
  · exact .quiet hquiet
  · exact heffect t x hx

theorem ensures_claimClarificationAnswer :
    Ensures Inv Guar (claimClarificationAnswer id) [] (fun s => s) s fun r _ w t =>
      Effect cfg Inv (.claimClarificationAnswer id) (.clarification r) t (w t) := by
  unfold claimClarificationAnswer
  refine (ensures_stamped clarifications_evolve (fun _ => rfl) (fun _ => rfl) ?_).mono ?_
  · exact fun now L' v x hk _ _ _ => Guar.modifyClarification hk fun _ => rfl
  rintro b L' w t ⟨now, -, hle, hb⟩
  rcases hb with ⟨rfl, rfl, -⟩ | ⟨clar, hc, hguard, -, rfl, -, rfl⟩
  · exact .quiet trivial
  · simp only [Bool.and_eq_true, beq_iff_eq, Option.isNone_iff_eq_none, decide_eq_true_eq]
      at hguard
    exact .answered hc hguard.1.1 hguard.1.2 hguard.2 hle

theorem ensures_setAnswerMessage {answerMessageId : Uuid} :
    Ensures Inv Guar (setAnswerMessage id answerMessageId) [] (fun s => s) s fun r _ w t =>
      Effect cfg Inv (.setAnswerMessage id answerMessageId) (.clarification r) t (w t) := by
  unfold setAnswerMessage
  refine ensures_ite (fun _ => ensures_raise) fun hid => ?_
  refine ensures_setClarification (fun _ => rfl) trivial fun t x hx => ?_
  exact .messaged hx (Nat.not_le.mp hid)

theorem ensures_setClarificationState {c : Call} {status : TaskStatus}
    {clarificationStatus : TaskClarificationStatus} (hquiet : Quiet c (.task none))
    (heffect : ∀ t x, t.tasks.find? id = some x → Effect cfg Inv c
      (.task (some (Task.clarificationRow status clarificationStatus x))) t
      (At.tasks.modify id (Task.clarificationRow status clarificationStatus) t)) :
    Ensures Inv Guar (setClarificationState id status clarificationStatus) [] (fun s => s) s
      fun r _ w t => Effect cfg Inv c (.task r) t (w t) := by
  unfold setClarificationState
  refine (ensures_update tasks_evolve (fun _ => rfl) ?_).mono ?_
  · exact fun L' v x hk _ _ _ => Guar.modifyTask hk
  rintro b L' w t hb
  rcases hb with ⟨rfl, rfl, -⟩ | ⟨x, hx, -, -, rfl, -, rfl⟩
  · exact .quiet hquiet
  · exact heffect t x hx

theorem ensures_openTaskClarification :
    Ensures Inv Guar (openTaskClarification id) [] (fun s => s) s fun r _ w t =>
      Effect cfg Inv (.openTaskClarification id) (.task r) t (w t) :=
  ensures_setClarificationState trivial fun _ _ hx => .taskOpened hx

theorem ensures_answerTaskClarification :
    Ensures Inv Guar (answerTaskClarification id) [] (fun s => s) s fun r _ w t =>
      Effect cfg Inv (.answerTaskClarification id) (.task r) t (w t) :=
  ensures_setClarificationState trivial fun _ _ hx => .taskAnswered hx

end Workroom

/-! ## The poller -/

section Poller

variable {skipped : Uuid → Bool} {eventId : Uuid}

/-- A clarification that is locked and not yet written is there: it is set. -/
theorem ensures_writeClarification {L : List Lock} {w : Db → Db} {id : Uuid}
    {set : Time → Clarification → Clarification} {e : Failure}
    (hw : ∀ t, (w t).clarifications = t.clarifications) (hnow : ∀ t, (w t).now = t.now)
    (hset : ∀ now c, Kept Clarification.asCreated c (set now c)) (hk : .clarification id ∈ L)
    {clar : Clarification} (hc : s.clarifications.find? id = some clar) :
    Ensures Inv Guar (statementTimestamp.bind fun now =>
        At.clarifications.update id (fun _ => true) (set now) Clarification.check e) L w s
      fun _ _ w' t => ∃ now, s.now ≤ now ∧ now ≤ t.now ∧
        w' = At.clarifications.modify id (set now) ∘ w := by
  refine (ensures_stamped clarifications_evolve hw hnow ?_).track.mono ?_
  · exact fun now L' v x hk' _ _ _ => Guar.modifyClarification hk' (hset now)
  rintro b L' w' t ⟨⟨now, hlo, hhi, hb⟩, hr, -⟩
  rcases hb with ⟨-, -, t₁, ht₁, -, hfalse⟩ | ⟨x, -, -, -, -, -, rfl⟩
  · have hno := hfalse clar (by
      show t₁.clarifications.find? id = some clar
      rw [rely_clarification ht₁ hk, hc])
    cases hno
  · exact ⟨now, hlo, hhi, rfl⟩

theorem ensures_claimOneReminder :
    Ensures Inv Guar (claimOneReminder skipped eventId) [] (fun s => s) s fun r _ w t =>
      Effect cfg Inv (.claimOneReminder skipped eventId) (.poll r) t (w t) := by
  unfold claimOneReminder
  simp only [bind_eq, pure_eq]
  apply (ensures_now fun _ => rfl).bind
  rintro now L₁ w₁ t₁ ⟨rfl, -, -⟩ _ _
  apply (ensures_claimFirst clarifications_evolve fun _ _ => rfl).bind
  rintro b L₂ w₂ t₂ ⟨rfl, hb⟩ hr₂ hL₂
  cases b with
  | none => exact ensures_done.mpr fun t _ => .quiet rfl
  | some e =>
    rcases e with ⟨id, clar⟩
    rcases hb id clar rfl with ⟨hclaim, hc, hk⟩
    dsimp only
    rw [← Txn.bind_assoc]
    refine (ensures_writeClarification ?_ ?_ ?_ hk hc).bind ?_
    · exact fun _ => rfl
    · exact fun _ => rfl
    · exact fun _ _ => rfl
    rintro b L₃ w₃ t₃ ⟨now₁, -, -, rfl⟩ hr₃ hL₃
    refine (ensures_insertLifecycleOutboxEvent ?_ ?_).bind ?_
    · exact fun _ => Iff.rfl
    · exact fun _ => rfl
    rintro e L₄ w₄ t₄ ⟨now₂, hemit, -, rfl⟩ hr₄ hL₄
    rw [ensures_done]
    intro t ht
    have hrow : t.clarifications.find? id = some clar := by
      rw [rely_clarification ht (hL₄ (hL₃ hk)), rely_clarification hr₄ (hL₃ hk),
        rely_clarification hr₃ hk]
      exact hc
    exact .reminded hrow hclaim (hemit t ht)

theorem ensures_claimOneExpiry :
    Ensures Inv Guar (claimOneExpiry skipped eventId) [] (fun s => s) s fun r _ w t =>
      Effect cfg Inv (.claimOneExpiry skipped eventId) (.poll r) t (w t) := by
  unfold claimOneExpiry
  simp only [bind_eq, pure_eq]
  apply (ensures_now fun _ => rfl).bind
  rintro now L₁ w₁ t₁ ⟨rfl, -, hle⟩ _ _
  apply (ensures_claimFirst clarifications_evolve fun _ _ => rfl).bind
  rintro b L₂ w₂ t₂ ⟨rfl, hb⟩ hr₂ hL₂
  cases b with
  | none => exact ensures_done.mpr fun t _ => .quiet rfl
  | some e =>
    rcases e with ⟨id, clar⟩
    rcases hb id clar rfl with ⟨hclaim, hc, hk⟩
    dsimp only
    apply (ensures_selectForUpdate tasks_evolve fun _ => rfl).bind
    rintro b L₃ w₃ t₃ ⟨rfl, hb, -⟩ hr₃ hL₃
    cases b with
    | none => exact ensures_raise
    | some task =>
      rcases hb task rfl with ⟨-, ht, hkt⟩
      refine ensures_ite (fun _ => ensures_raise) fun _ => ?_
      refine ensures_ite (fun _ => ensures_raise) fun hst => ?_
      have hopen : task.status = .clarificationNeeded := not_not.mp hst
      refine (ensures_update tasks_evolve ?_ ?_).bind ?_
      · exact fun _ => rfl
      · exact fun L' v x hk' _ _ _ => Guar.modifyTask hk'
      rintro b L₄ w₄ t₄ hb hr₄ hL₄
      rcases hb with ⟨rfl, rfl, -⟩ | ⟨x, -, -, -, rfl, -, rfl⟩
      · exact ensures_raise
      dsimp only
      have hc₄ : t₄.clarifications.find? id = some clar := by
        rw [rely_clarification hr₄ (hL₃ hk), rely_clarification hr₃ hk]
        exact hc
      rw [← Txn.bind_assoc]
      refine (ensures_writeClarification ?_ ?_ ?_ (hL₄ (hL₃ hk)) hc₄).bind ?_
      · exact fun _ => rfl
      · exact fun _ => rfl
      · exact fun _ _ => rfl
      rintro b L₅ w₅ t₅ ⟨now₁, hlo, hhi, rfl⟩ hr₅ hL₅
      refine (ensures_insertLifecycleOutboxEvent ?_ ?_).bind ?_
      · exact fun _ => Iff.rfl
      · exact fun _ => rfl
      rintro e L₆ w₆ t₆ ⟨now₂, hemit, -, rfl⟩ hr₆ hL₆
      rw [ensures_done]
      intro t hrt
      have hto : Rely Inv Guar L₄ t₄ t :=
        hr₅.trans ((hr₆.mono hL₅).trans (hrt.mono fun x hx => hL₆ (hL₅ hx)))
      have hrow : t.clarifications.find? id = some clar := by
        rw [rely_clarification hto (hL₄ (hL₃ hk)), hc₄]
      have htask : t.tasks.find? clar.taskId = some task := by
        rw [rely_task hto (hL₄ hkt), rely_task hr₄ hkt]
        exact ht
      have hclock : now ≤ now₁ := Nat.le_trans hle (Nat.le_trans (rely_now hr₂)
        (Nat.le_trans (rely_now hr₃) (Nat.le_trans (rely_now hr₄) hlo)))
      have hend : now₁ ≤ t.now :=
        Nat.le_trans hhi (Nat.le_trans (rely_now hr₆) (rely_now hrt))
      exact .clarificationExpired hrow hclaim hclock hend htask hopen (hemit t hrt)

end Poller

/-! ## An event by itself -/

theorem effect_of_insertLifecycleOutboxEvent {eventId clarificationId taskId : Uuid}
    {eventType : EventType} {key : String} {payload : List (String × PayloadValue)} :
    Ensures Inv Guar (insertLifecycleOutboxEvent eventId clarificationId taskId eventType key
      payload) [] (fun s => s) s fun _ _ w t => Effect cfg Inv
        (.insertLifecycleOutboxEvent eventId clarificationId taskId eventType key payload) .done t
        (w t) := by
  refine (ensures_insertLifecycleOutboxEvent (fun _ => Iff.rfl) fun _ => rfl).mono ?_
  rintro r L w t ⟨now, hemit, -, rfl⟩
  exact .emitted (hemit t Rely.refl)

/-! ## The rest of the program -/

section World

theorem ensures_tick {elapsed : Time} :
    Ensures Inv Guar (tick elapsed) [] (fun s => s) s fun _ _ w t =>
      Effect cfg Inv (.tick elapsed) .done t (w t) :=
  ensures_write.mpr ⟨fun _ _ => Guar.tick elapsed, ensures_done.mpr fun _ _ => .ticked elapsed⟩

theorem ensures_saveTask {id : Uuid} {row : Task} :
    Ensures Inv Guar (saveTask id row) [] (fun s => s) s fun _ _ w t =>
      Effect cfg Inv (.saveTask id row) .done t (w t) := by
  unfold saveTask Txn.modify
  simp only [bind_eq]
  rw [lockRow_bind, ensures_lock]
  intro t _
  rw [ensures_write]
  constructor
  · exact fun _ _ => Guar.insertTask (by simp)
  · exact ensures_done.mpr fun _ _ => .taskSaved id row

theorem ensures_markResumeEligible {id : Uuid} {eligibleAt : Time} :
    Ensures Inv Guar (markResumeEligible id eligibleAt) [] (fun s => s) s fun r _ w t =>
      Effect cfg Inv (.markResumeEligible id eligibleAt) (.clarification r) t (w t) :=
  ensures_setClarification (fun _ => rfl) trivial fun _ _ hx => .madeEligible id eligibleAt hx

end World

/-! ## Authorizations and approvals by themselves -/

section Authorizations

variable {id : Uuid} {actor : Actor} {scope : Scope}

theorem effect_of_requestAuthorization {resourceScope : Scope} {actionType : ActionType}
    {resourceType : ResourceType} {resourceId : Uuid} {version key : String} {expiresAt : Time}
    {production : Bool} {reference : Option Reference} :
    Ensures Inv Guar (requestAuthorization id actor scope resourceScope actionType resourceType
      resourceId version expiresAt key production reference) [] (fun s => s) s fun r _ w t =>
        Effect cfg Inv (.requestAuthorization id actor scope resourceScope actionType resourceType
          resourceId version expiresAt key production reference) (.service r) t (w t) := by
  by_cases hscope : ∃ teamId projectId, resourceScope = ⟨some teamId, some projectId⟩
  · rcases hscope with ⟨teamId, projectId, rfl⟩
    refine (ensures_requestAuthorization (fun _ => rfl) fun _ => rfl).mono ?_
    rintro r L w t hb
    rcases hb with ⟨-, rfl, -⟩ | ⟨now, authorizationId, x, u, -, rfl, hrel⟩
    · exact .quiet trivial
    · cases (hrel t Rely.refl).1 with
      | new h => exact .requested h
      | same_key _ _ => exact .quiet trivial
  · -- without a whole scope the insertion fails, and nothing else writes
    unfold requestAuthorization requestAuthorizationSavepoint
    simp only [bind_eq, pure_eq]
    refine Ensures.bind (R := fun b _ w _ => (b.2 = fun s => s) ∧ w = fun s => s) ?_ ?_
    · refine ensures_ite (fun _ => ensures_done.mpr fun _ _ => ⟨rfl, rfl⟩) fun _ => ?_
      rcases resourceScope with ⟨_ | teamId, _ | projectId⟩
      · exact ensures_raise
      · exact ensures_raise
      · exact ensures_raise
      · exact absurd ⟨teamId, projectId, rfl⟩ hscope
    rintro ⟨r, release⟩ L₁ w₁ t₁ ⟨hrelease, rfl⟩ _ _
    dsimp only at hrelease
    subst hrelease
    rw [modify_bind, ensures_write]
    exact ⟨fun _ _ => Guar.refl, ensures_done.mpr fun _ _ => .quiet trivial⟩

theorem effect_of_authorize {policyVersion : String} :
    Ensures Inv Guar (authorize id actor scope policyVersion) [] (fun s => s) s fun r _ w t =>
      Effect cfg Inv (.authorize id actor scope policyVersion) (.service r) t (w t) := by
  refine (ensures_authorize (fun _ => rfl) fun _ => rfl).mono ?_
  rintro r L w t hb
  rcases hb with ⟨-, rfl⟩ | ⟨now, a, happ, -, -, rfl⟩
  · exact .quiet trivial
  · exact .authorized happ

theorem effect_of_decideSimple {op : SimpleOp} :
    Ensures Inv Guar (decideSimple op id actor scope) [] (fun s => s) s fun r _ w t =>
      Effect cfg Inv (.decideSimple op id actor scope) (.service r) t (w t) := by
  refine (ensures_decideSimple (fun _ => rfl) fun _ => rfl).mono ?_
  rintro r L w t hb
  rcases hb with ⟨-, rfl⟩ | ⟨now, a, hdec, -, -, rfl⟩
  · exact .quiet trivial
  · exact .decided hdec

theorem effect_of_consume {version : String} :
    Ensures Inv Guar (consume id actor scope version) [] (fun s => s) s fun r _ w t =>
      Effect cfg Inv (.consume id actor scope version) (.service r) t (w t) := by
  refine (ensures_consume (fun _ => rfl) (fun _ => rfl) fun _ => rfl).mono ?_
  rintro r L w t hb
  rcases hb with ⟨hno, rfl⟩ | ⟨u, hcons, -, rfl⟩
  · refine .quiet fun x hx => ?_
    cases hx
    exact hno
  · exact .consumed (hcons t Rely.refl)

theorem effect_of_expireDueAuthorizations {limit : Nat} {rank : Uuid → Nat} :
    Ensures Inv Guar (expireDueAuthorizations limit rank) [] (fun s => s) s fun n _ w t =>
      Effect cfg Inv (.expireDueAuthorizations limit rank) (.count n) t (w t) := by
  refine (ensures_expireDueAuthorizations (fun _ => rfl) fun _ => rfl).mono ?_
  rintro n L w t ⟨now, ids, hle, hnd, hall, rfl⟩
  exact .authorizationsExpired hnd hle hall

theorem effect_of_grantProductionApproval {actionType : ActionType} {resourceType : ResourceType}
    {resourceId : Uuid} {version key : String} {expiresAt : Time} {reason : Option ReasonCode} :
    Ensures Inv Guar (grantProductionApproval id actor scope actionType resourceType resourceId
      version expiresAt key reason) [] (fun s => s) s fun r _ w t =>
        Effect cfg Inv (.grantProductionApproval id actor scope actionType resourceType resourceId
          version expiresAt key reason) (.approval r) t (w t) := by
  refine ensures_grantProductionApproval.mono ?_
  rintro r L w t hb
  rcases hb with rfl | ⟨teamId, projectId, now, rfl, habsent, hcan, rfl⟩
  · exact .quiet trivial
  · exact .granted habsent hcan

theorem effect_of_revokeProductionApproval {reason : ReasonCode} :
    Ensures Inv Guar (revokeProductionApproval id actor scope reason) [] (fun s => s) s
      fun r _ w t => Effect cfg Inv (.revokeProductionApproval id actor scope reason)
        (.approval r) t (w t) := by
  refine ensures_revokeProductionApproval.mono ?_
  rintro r L w t hb
  rcases hb with rfl | ⟨now, p, hp, hstate, hfree, rfl⟩
  · exact .quiet trivial
  · exact .approvalRevoked hp hstate hfree

end Authorizations

/-! ## Every call -/

/-- Whatever a session runs, its commit is one of the effects. -/
theorem effect_of_call (c : Call) (hs : Inv s) :
    Ensures Inv Guar (program cfg c) [] id s fun r _ w t => Effect cfg Inv c r t (w t) := by
  cases c with
  | requestAuthorization => exact effect_of_requestAuthorization.map
  | authorize => exact effect_of_authorize.map
  | decideSimple => exact effect_of_decideSimple.map
  | consume => exact effect_of_consume.map
  | expireDueAuthorizations => exact effect_of_expireDueAuthorizations.map
  | grantProductionApproval => exact effect_of_grantProductionApproval.map
  | revokeProductionApproval => exact effect_of_revokeProductionApproval.map
  | requestResume => exact ((ensures_requestResume hs).mono fun _ _ _ _ h => h.1).map
  | authorizeResume => exact (ensures_authorizeResume.mono fun _ _ _ _ h => h.1).map
  | rejectResume => exact ((ensures_rejectResume hs).mono fun _ _ _ _ h => h.1).map
  | cancelResume => exact ((ensures_cancelResume hs).mono fun _ _ _ _ h => h.1).map
  | prepareExecution => exact (ensures_prepareExecution.mono fun _ _ _ _ h => h.1).map
  | confirmResumed eventId id commandId =>
    exact (ensures_confirm (.resumed eventId id commandId) (fun _ _ => rfl) fun _ _ => rfl).map
  | confirmFailed eventId id commandId reason =>
    exact (ensures_confirm (.failed eventId id commandId reason) (fun _ _ => rfl)
      fun _ _ => rfl).map
  | expireDueRequests => exact ensures_expireDueRequests.map
  | requestReplay => exact (ensures_requestReplay.mono fun _ _ _ _ h => h.1).map
  | authorizeReplay => exact (ensures_authorizeReplay.mono fun _ _ _ _ h => h.1).map
  | rejectReplay => exact (ensures_rejectReplay.mono fun _ _ _ _ h => h.1).map
  | cancelReplay => exact (ensures_cancelReplay.mono fun _ _ _ _ h => h.1).map
  | executeAuthorizedReplay => exact (ensures_executeAuthorizedReplay hs).map
  | expireDueReplayRequests => exact ensures_expireDueReplayRequests.map
  | insertLifecycleOutboxEvent => exact effect_of_insertLifecycleOutboxEvent.map
  | publishOne => exact ensures_publishOne.map
  | replayDead => exact ensures_replayDead.map
  | createClarification => exact ensures_createClarification.map
  | openTaskClarification => exact ensures_openTaskClarification.map
  | claimClarificationAnswer => exact ensures_claimClarificationAnswer.map
  | setAnswerMessage => exact ensures_setAnswerMessage.map
  | answerTaskClarification => exact ensures_answerTaskClarification.map
  | claimOneReminder => exact ensures_claimOneReminder.map
  | claimOneExpiry => exact ensures_claimOneExpiry.map
  | tick => exact ensures_tick.map
  | saveTask => exact ensures_saveTask.map
  | markResumeEligible => exact ensures_markResumeEligible.map

/-! ## Every run -/

/-- What a commit of a reachable system is. `f` says which transaction each call of the system
runs. -/
structure IsEffect {C : Type} (cfg : Settings) (Inv : Db → Prop) (f : C → Call)
    (m : Commit Db Reply C) : Prop where
  inv : Inv m.before
  effect : Effect cfg Inv (f m.call) m.reply m.before m.after
  guar : ∃ L, Guar L m.before m.after

/-- **Every run is a run of effects**, for whatever the effects of its calls keep. -/
theorem effects_of_reachable {ι C : Type} [DecidableEq ι] {f : C → Call} {Start : Db → Prop}
    (hstart : ∀ s, Start s → Inv s)
    (hinv : ∀ c r s t L, Inv s → Effect cfg Inv (f c) r s t → Guar L s t → Inv t)
    {y : Sys Db Lock Failure Reply C ι} (hy : Reachable (fun c => program cfg (f c)) Start y) :
    ∃ s, Start s ∧ Commits (IsEffect cfg Inv f) s y.log y.db ∧ Inv y.db := by
  have hrun : ∃ s, Start s ∧ Commits (Commit.Meets Inv Guar
      fun c r _ s t => Effect cfg Inv (f c) r s t) s y.log y.db ∧ Inv y.db :=
    commits_of_reachable hstart (fun _ => Guar.refl) (fun _ _ _ _ => Guar.mono)
      (fun _ _ _ _ => Guar.trans) (fun c _ hs => effect_of_call (f c) hs)
      (fun c r L s t hs he hg => hinv c r s t L hs he hg) hy
  rcases hrun with ⟨s, hs, hcommits, hdb⟩
  refine ⟨s, hs, hcommits.mono fun m _ hm => ?_, hdb⟩
  rcases hm with ⟨hbefore, L, he, hg⟩
  exact ⟨hbefore, he, L, hg⟩

/-- The same, where nothing has to be kept. -/
theorem run_of_reachable {ι C : Type} [DecidableEq ι] {f : C → Call} {Start : Db → Prop}
    {y : Sys Db Lock Failure Reply C ι} (hy : Reachable (fun c => program cfg (f c)) Start y) :
    ∃ s, Start s ∧ Commits (IsEffect cfg (fun _ => True) f) s y.log y.db := by
  have hrun : ∃ s, Start s ∧ Commits (IsEffect cfg (fun _ => True) f) s y.log y.db ∧ True :=
    effects_of_reachable (fun _ _ => trivial) (fun _ _ _ _ _ _ _ _ => trivial) hy
  rcases hrun with ⟨s, hs, h, -⟩
  exact ⟨s, hs, h⟩

end AiAgentsSwd.Tasks
