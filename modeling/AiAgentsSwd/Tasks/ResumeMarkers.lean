import AiAgentsSwd.Tasks.ResumeRequests

/-!
# Tasks.ResumeMarkers — the live marker of a clarification

`resume_requested_at` is meant to say that the clarification has a live resume request. A
request ends in five ways; `reject_resume` and `cancel_resume` release the marker, and
`confirm_failed` and `expire_due_requests` do not. `markers_iff` says that a run keeps the
marker's meaning exactly when neither of the two has ended a request in it.
-/

namespace AiAgentsSwd.Tasks

open Keyed (Table)
open Planning (Uuid Time)
open ReadCommitted

variable {cfg : Settings} {Inv : Db → Prop} {c : Call} {r : Reply} {s t : Db}

namespace ResumeRequest

/-- The request is on its way, or it has been resumed. -/
def live (r : ResumeRequest) : Bool := r.active || r.state == .resumed

/-- `confirm_failed` or `expire_due_requests` has ended the request. -/
def abandoned (r : ResumeRequest) : Bool := r.state == .failed || r.state == .expired

theorem live_iff {r : ResumeRequest} : r.live = true ↔ r.state = .authorizationPending ∨
    r.state = .authorized ∨ r.state = .executionPending ∨ r.state = .resumed := by
  unfold live active
  simp only [Bool.or_eq_true, beq_iff_eq, or_assoc]

theorem abandoned_iff {r : ResumeRequest} :
    r.abandoned = true ↔ r.state = .failed ∨ r.state = .expired := by
  unfold abandoned
  simp only [Bool.or_eq_true, beq_iff_eq]

theorem live_of_expirable {r : ResumeRequest} (h : r.expirable = true) : r.live = true := by
  unfold expirable at h
  simp only [Bool.or_eq_true, beq_iff_eq] at h
  rw [live_iff]
  rcases h with h | h
  · exact Or.inl h
  · exact Or.inr (Or.inl h)

end ResumeRequest

/-- The clarification is there, and marked. -/
def Marked (s : Db) (cid : Uuid) : Prop :=
  ∃ clar, s.clarifications.find? cid = some clar ∧ clar.resumeRequestedAt ≠ none

/-- The clarification has a live request. -/
def HasLive (s : Db) (cid : Uuid) : Prop :=
  ∃ id rr, s.resumeRequests.find? id = some rr ∧ rr.clarificationId = cid ∧ rr.live = true

/-- The marker says what it is meant to say. -/
def MarkersLive (s : Db) : Prop := ∀ cid, Marked s cid ↔ HasLive s cid

/-! ## What always holds -/

/-- The request `rr` is the one that an active authorization `a` of the key `k` is for. -/
def Backs (k : Uuid) (a : Authorization) (rr : ResumeRequest) : Prop :=
  rr.authorizationId = k ∧ rr.clarificationId = a.resourceId ∧
    (rr.state = .authorizationPending ∨ rr.state = .authorized ∨ rr.state = .expired)

/-- What every run keeps. -/
structure ResumeInv (s : Db) : Prop where
  present : ∀ id rr, s.resumeRequests.find? id = some rr →
    ∃ clar, s.clarifications.find? rr.clarificationId = some clar
  marked : ∀ cid, HasLive s cid → Marked s cid
  unique : ∀ id id' rr rr', s.resumeRequests.find? id = some rr → rr.live = true →
    s.resumeRequests.find? id' = some rr' → rr'.live = true →
    rr'.clarificationId = rr.clarificationId → id' = id
  backed : ∀ k a, s.authorizations.find? k = some a → a.active = true → a.actionType = .resume →
    ∃ id rr, s.resumeRequests.find? id = some rr ∧ Backs k a rr
  forgotten : ∀ id rr, s.resumeRequests.find? id = some rr → rr.abandoned = true →
    Marked s rr.clarificationId ∧ ¬ HasLive s rr.clarificationId

/-- A marker is missing or where it was. -/
theorem MarkersKept.marked_iff (h : MarkersKept s t) (hkeep : ∀ id clar,
    s.clarifications.find? id = some clar → ∃ clar', t.clarifications.find? id = some clar')
    (cid : Uuid) : Marked t cid ↔ Marked s cid := by
  constructor
  · rintro ⟨clar, hc, hmarker⟩
    rcases h cid clar hc with ⟨-, hnone⟩ | ⟨clar₀, hc₀, heq⟩
    · exact absurd hnone hmarker
    · exact ⟨clar₀, hc₀, by rw [← heq]; exact hmarker⟩
  · rintro ⟨clar, hc, hmarker⟩
    rcases hkeep cid clar hc with ⟨clar', hc'⟩
    rcases h cid clar' hc' with ⟨hnone, -⟩ | ⟨clar₀, hc₀, heq⟩
    · rw [hc] at hnone
      cases hnone
    · have hsame : clar = clar₀ := Option.some.inj (hc.symm.trans hc₀)
      exact ⟨clar', hc', by rw [heq, ← hsame]; exact hmarker⟩

/-! ## Steps -/

/-- A step that keeps the markers and brings no request to life. -/
structure Calm (s t : Db) : Prop where
  markers : MarkersKept s t
  rows : ∀ id rr', t.resumeRequests.find? id = some rr' → ∃ rr,
    s.resumeRequests.find? id = some rr ∧ rr'.clarificationId = rr.clarificationId ∧
      (rr'.live = true → rr.live = true) ∧
      (rr'.abandoned = true → rr.abandoned = true ∨ rr.live = true)

theorem Calm.of_puts {id : Uuid} {rr rr' : ResumeRequest} (hmarkers : MarkersKept s t)
    (hrr : s.resumeRequests.find? id = some rr)
    (hrows : s.resumeRequests.Puts t.resumeRequests id rr')
    (hsame : rr'.clarificationId = rr.clarificationId) (hlive : rr.live = true) : Calm s t where
  markers := hmarkers
  rows := fun k x hx => by
    rcases hrows.find hx with ⟨rfl, rfl⟩ | ⟨-, hx⟩
    · exact ⟨rr, hrr, hsame, fun _ => hlive, fun _ => Or.inr hlive⟩
    · exact ⟨x, hx, rfl, fun h => h, Or.inl⟩

/-- No clarification is ever deleted. -/
theorem clarification_stays {L : List Lock} (hg : Guar L s t) (id : Uuid) (clar : Clarification)
    (hc : s.clarifications.find? id = some clar) :
    ∃ clar', t.clarifications.find? id = some clar' := by
  rcases hg.clarifications.find_same hc with ⟨clar', hc', -⟩
  exact ⟨clar', hc'⟩

theorem ResumeInv.present_after {L : List Lock} (hg : Guar L s t)
    (hrows : ∀ id rr', t.resumeRequests.find? id = some rr' →
      ∃ clar, s.clarifications.find? rr'.clarificationId = some clar) :
    ∀ id rr', t.resumeRequests.find? id = some rr' →
      ∃ clar, t.clarifications.find? rr'.clarificationId = some clar := by
  intro id rr' hrr'
  rcases hrows id rr' hrr' with ⟨clar, hc⟩
  exact clarification_stays hg _ clar hc

/-- Calm steps keep all but the backing of authorizations, which is given. -/
theorem Calm.inv {L : List Lock} (h : Calm s t) (hs : ResumeInv s) (hg : Guar L s t)
    (hbacked : ∀ k a, t.authorizations.find? k = some a → a.active = true →
      a.actionType = .resume → ∃ id rr, t.resumeRequests.find? id = some rr ∧ Backs k a rr) :
    ResumeInv t := by
  have hmarked := h.markers.marked_iff (clarification_stays hg)
  have hlive : ∀ cid, HasLive t cid → HasLive s cid := by
    rintro cid ⟨id, rr', hrr', hcid, hl⟩
    rcases h.rows id rr' hrr' with ⟨rr, hrr, hsame, hback, -⟩
    exact ⟨id, rr, hrr, by rw [← hsame, hcid], hback hl⟩
  have hunique : ∀ id id' rr rr', t.resumeRequests.find? id = some rr → rr.live = true →
      t.resumeRequests.find? id' = some rr' → rr'.live = true →
      rr'.clarificationId = rr.clarificationId → id' = id := by
    intro id id' x x' hx hl hx' hl' hcid
    rcases h.rows id x hx with ⟨rr, hrr, hsame, hback, -⟩
    rcases h.rows id' x' hx' with ⟨rr', hrr', hsame', hback', -⟩
    exact hs.unique id id' rr rr' hrr (hback hl) hrr' (hback' hl') (by rw [← hsame, ← hsame', hcid])
  refine ⟨ResumeInv.present_after hg fun id rr' hrr' => ?_, fun cid hl => ?_, hunique, hbacked,
    fun id x hx habandoned => ?_⟩
  · rcases h.rows id rr' hrr' with ⟨rr, hrr, hsame, -, -⟩
    rw [hsame]
    exact hs.present id rr hrr
  · exact (hmarked cid).mpr (hs.marked cid (hlive cid hl))
  · rcases h.rows id x hx with ⟨rr, hrr, hsame, -, hback⟩
    rw [hsame]
    rcases hback habandoned with hold | hl
    · have hforgotten := hs.forgotten id rr hrr hold
      exact ⟨(hmarked _).mpr hforgotten.1, fun hno => hforgotten.2 (hlive _ hno)⟩
    · -- the request was live until now, so it was the only one
      refine ⟨(hmarked _).mpr (hs.marked _ ⟨id, rr, hrr, rfl, hl⟩), ?_⟩
      rintro ⟨id', y, hy, hcid, hyl⟩
      rcases h.rows id' y hy with ⟨rr', hrr', hsame', hback', -⟩
      have hid : id' = id :=
        hs.unique id id' rr rr' hrr hl hrr' (hback' hyl) (by rw [← hsame', hcid])
      rw [hid, hx, Option.some.injEq] at hy
      rw [ResumeRequest.abandoned_iff] at habandoned
      rw [ResumeRequest.live_iff, ← hy] at hyl
      rcases habandoned with h | h <;> simp [h] at hyl

/-- The request that an authorization is for is there after the step. -/
theorem ResumeStep.backed (h : ResumeStep Inv s t) {k : Uuid} {a : Authorization}
    (ha : t.authorizations.find? k = some a) (hactive : a.active = true) {id : Uuid}
    {rr : ResumeRequest} (hrr : s.resumeRequests.find? id = some rr) (hbacks : Backs k a rr) :
    ∃ id rr, t.resumeRequests.find? id = some rr ∧ Backs k a rr := by
  rcases hbacks with ⟨hauth, hcid, hstate⟩
  -- a write of another row leaves it there
  have hkeep : ∀ {j x}, s.resumeRequests.Puts t.resumeRequests j x → id ≠ j →
      ∃ id rr, t.resumeRequests.find? id = some rr ∧ Backs k a rr := by
    intro j x hrows hj
    exact ⟨id, rr, by rw [hrows.of_ne hj, hrr], hauth, hcid, hstate⟩
  cases h with
  | other hrows _ => exact ⟨id, rr, by rw [hrows, hrr], hauth, hcid, hstate⟩
  | @requested j _ _ _ _ _ _ _ _ _ _ _ habsent _ hrows _ =>
    refine hkeep hrows ?_
    rintro rfl
    rw [habsent] at hrr
    cases hrr
  | late _ _ _ _ _ _ _ _ hrows => exact ⟨id, rr, by rw [hrows, hrr], hauth, hcid, hstate⟩
  | @authorized j x now hx _ _ hrows _ =>
    by_cases hj : id = j
    · subst hj
      have heq : rr = x := Option.some.inj (hrr.symm.trans hx)
      subst heq
      exact ⟨id, _, hrows.self, hauth, hcid, Or.inr (Or.inl rfl)⟩
    · exact hkeep hrows hj
  | @declined j x _ hx _ _ _ _ hrows hinactive _ =>
    refine hkeep hrows ?_
    rintro rfl
    have heq : rr = x := Option.some.inj (hrr.symm.trans hx)
    rw [← heq, hauth] at hinactive
    rw [hinactive a ha] at hactive
    cases hactive
  | @prepared j _ x _ h =>
    refine hkeep h.rows ?_
    rintro rfl
    have heq : rr = x := Option.some.inj (hrr.symm.trans h.request)
    rcases h.consumed with ⟨b, hb, -, hinactive⟩
    rw [← heq, hauth] at hb
    have hsame : a = b := Option.some.inj (ha.symm.trans hb)
    rw [hsame, hinactive] at hactive
    cases hactive
  | @confirmed j x _ hx hpending _ _ _ _ hrows _ =>
    refine hkeep hrows ?_
    rintro rfl
    have heq : rr = x := Option.some.inj (hrr.symm.trans hx)
    rw [heq, hpending] at hstate
    simp at hstate
  | @expired ids now _ hrows _ =>
    by_cases hj : id ∈ ids
    · exact ⟨id, rr.expiredRow now, by rw [hrows, if_pos hj, hrr, Option.map_some], hauth, hcid,
        Or.inr (Or.inr rfl)⟩
    · exact ⟨id, rr, by rw [hrows, if_neg hj, hrr], hauth, hcid, hstate⟩

theorem Effect.backed (h : Effect cfg ResumeInv c r s t) (hc : c.direct = false)
    (hs : ResumeInv s) : ∀ k a, t.authorizations.find? k = some a → a.active = true →
      a.actionType = .resume → ∃ id rr, t.resumeRequests.find? id = some rr ∧ Backs k a rr := by
  intro k a ha hactive htype
  have hmove := h.moves k
  rw [ha] at hmove
  rcases hmove.active hactive with hnone | ⟨a₀, ha₀, hactive₀, hkept⟩
  · -- a new authorization comes with the request that it is for
    rcases h.obtained hnone ha with hdirect | ⟨id, row, hrow, hnew, hauth, hcid, -⟩ |
      ⟨_, _, _, _, _, _, hreplay, _⟩
    · rw [hc] at hdirect
      cases hdirect
    · refine ⟨id, row, hrow, hauth, hcid, Or.inl ?_⟩
      rw [← hnew]
      rfl
    · rw [htype] at hreplay
      cases hreplay
  · have htype₀ : a₀.actionType = .resume := by
      rw [← hkept.field Authorization.actionType fun _ => rfl]
      exact htype
    rcases hs.backed k a₀ ha₀ hactive₀ htype₀ with ⟨id, rr, hrr, hauth, hcid, hstate⟩
    refine h.resumeStep.backed ha hactive hrr ⟨hauth, ?_, hstate⟩
    rw [hkept.field Authorization.resourceId fun _ => rfl]
    exact hcid

/-- An unmarked clarification has no request that is live or abandoned. -/
theorem ResumeInv.of_unmarked (hs : ResumeInv s) {cid : Uuid} {clar : Clarification}
    (hc : s.clarifications.find? cid = some clar) (hmarker : clar.resumeRequestedAt = none) :
    ∀ id rr, s.resumeRequests.find? id = some rr → rr.clarificationId = cid →
      rr.live = false ∧ rr.abandoned = false := by
  have hunmarked : ¬ Marked s cid := by
    rintro ⟨clar', hc', hmarked⟩
    have heq : clar = clar' := Option.some.inj (hc.symm.trans hc')
    rw [← heq] at hmarked
    exact hmarked hmarker
  intro id rr hrr hcid
  constructor
  · by_contra hl
    rw [Bool.not_eq_false] at hl
    exact hunmarked (hs.marked cid ⟨id, rr, hrr, hcid, hl⟩)
  · by_contra habandoned
    rw [Bool.not_eq_false] at habandoned
    rw [← hcid] at hunmarked
    exact hunmarked (hs.forgotten id rr hrr habandoned).1

/-- No request is refused after it has taken the marker: an active authorization for the
clarification is one of a request that is live or abandoned, and either has left a marker. -/
theorem ResumeInv.not_late (hs : ResumeInv s) {cid id : Uuid} {clar : Clarification}
    {a : Authorization} (hc : s.clarifications.find? cid = some clar)
    (hmarker : clar.resumeRequestedAt = none) (ha : s.authorizations.find? id = some a)
    (hactive : a.active = true) (htype : a.actionType = .resume) (hresource : a.resourceId = cid) :
    False := by
  rcases hs.backed id a ha hactive htype with ⟨k, rr, hrr, -, hcid, hstate⟩
  rcases hs.of_unmarked hc hmarker k rr hrr (by rw [hcid, hresource]) with ⟨hl, habandoned⟩
  rcases hstate with h | h | h
  · simp [ResumeRequest.live, ResumeRequest.active, h] at hl
  · simp [ResumeRequest.live, ResumeRequest.active, h] at hl
  · simp [ResumeRequest.abandoned, h] at habandoned

/-- A new request, on a clarification that was unmarked. -/
theorem ResumeInv.requested {L : List Lock} (hs : ResumeInv s) (hg : Guar L s t)
    (hbacked : ∀ k a, t.authorizations.find? k = some a → a.active = true →
      a.actionType = .resume → ∃ id rr, t.resumeRequests.find? id = some rr ∧ Backs k a rr)
    {id : Uuid} {row : ResumeRequest} {clar : Clarification} {requestedBy : String} {now : Time}
    (hc : s.clarifications.find? row.clarificationId = some clar)
    (hmarker : clar.resumeRequestedAt = none) (hnew : row.asRequested = row)
    (hrows : s.resumeRequests.Puts t.resumeRequests id row)
    (hclars : s.clarifications.Puts t.clarifications row.clarificationId
      (clar.claimedRow requestedBy now)) : ResumeInv t := by
  have hclear := hs.of_unmarked hc hmarker
  have hpending : row.state = .authorizationPending := by
    rw [← hnew]
    rfl
  have hself : Marked t row.clarificationId :=
    ⟨_, hclars.self, by simp [Clarification.claimedRow]⟩
  -- a marked clarification is another one, and stays marked
  have hother : ∀ cid, Marked s cid → cid ≠ row.clarificationId ∧ Marked t cid := by
    rintro cid ⟨clar', hc', hmarked⟩
    have hne : cid ≠ row.clarificationId := by
      rintro rfl
      have heq : clar = clar' := Option.some.inj (hc.symm.trans hc')
      rw [← heq] at hmarked
      exact hmarked hmarker
    exact ⟨hne, clar', by rw [hclars.of_ne hne, hc'], hmarked⟩
  refine ⟨ResumeInv.present_after hg ?_, ?_, ?_, hbacked, ?_⟩
  · exact hrows.all ⟨clar, hc⟩ hs.present
  · rintro cid ⟨k, rr, hrr, hcid, hl⟩
    rcases hrows.find hrr with ⟨-, rfl⟩ | ⟨-, hrr⟩
    · rw [← hcid]
      exact hself
    · exact (hother cid (hs.marked cid ⟨k, rr, hrr, hcid, hl⟩)).2
  · intro k k' rr rr' hrr hl hrr' hl' hcid
    rcases hrows.find hrr with ⟨hk, heq⟩ | ⟨-, hrr⟩
    · rcases hrows.find hrr' with ⟨hk', -⟩ | ⟨-, hrr'⟩
      · rw [hk, hk']
      · rw [heq] at hcid
        rw [(hclear k' rr' hrr' hcid).1] at hl'
        cases hl'
    · rcases hrows.find hrr' with ⟨-, heq⟩ | ⟨-, hrr'⟩
      · rw [heq] at hcid
        rw [(hclear k rr hrr hcid.symm).1] at hl
        cases hl
      · exact hs.unique k k' rr rr' hrr hl hrr' hl' hcid
  · intro k rr hrr habandoned
    rcases hrows.find hrr with ⟨-, heq⟩ | ⟨-, hrr⟩
    · simp [ResumeRequest.abandoned, heq, hpending] at habandoned
    · rcases hs.forgotten k rr hrr habandoned with ⟨hmarked, hno⟩
      rcases hother _ hmarked with ⟨hne, hmarked'⟩
      refine ⟨hmarked', ?_⟩
      rintro ⟨k', x, hx, hcid, hl⟩
      rcases hrows.find hx with ⟨-, heq⟩ | ⟨-, hx⟩
      · exact hne (by rw [← hcid, heq])
      · exact hno ⟨k', x, hx, hcid, hl⟩

/-- A pending request that is declined, and the release of the marker. -/
theorem ResumeInv.declined {L : List Lock} (hs : ResumeInv s) (hg : Guar L s t)
    (hbacked : ∀ k a, t.authorizations.find? k = some a → a.active = true →
      a.actionType = .resume → ∃ id rr, t.resumeRequests.find? id = some rr ∧ Backs k a rr)
    {id : Uuid} {rr rr' : ResumeRequest} (hrr : s.resumeRequests.find? id = some rr)
    (hstate : rr.state = .authorizationPending)
    (hkept : Kept ResumeRequest.asRequested rr rr')
    (hstate' : rr'.state = .rejected ∨ rr'.state = .canceled)
    (hrows : s.resumeRequests.Puts t.resumeRequests id rr')
    (hclars : t.clarifications =
      s.clarifications.modify rr.clarificationId Clarification.releasedRow) : ResumeInv t := by
  have hl : rr.live = true := ResumeRequest.live_iff.mpr (Or.inl hstate)
  have hdead : rr'.live = false ∧ rr'.abandoned = false := by
    rcases hstate' with h | h
    · simp [ResumeRequest.live, ResumeRequest.active, ResumeRequest.abandoned, h]
    · simp [ResumeRequest.live, ResumeRequest.active, ResumeRequest.abandoned, h]
  -- what is live or abandoned after the step is another row
  have hfind : ∀ k x, t.resumeRequests.find? k = some x → x.live = true ∨ x.abandoned = true →
      k ≠ id ∧ s.resumeRequests.find? k = some x := by
    intro k x hx hor
    rcases hrows.find hx with ⟨-, rfl⟩ | h
    · rw [hdead.1, hdead.2] at hor
      simp at hor
    · exact h
  have hmark : ∀ cid, cid ≠ rr.clarificationId → Marked s cid → Marked t cid := by
    rintro cid hne ⟨clar, hc, hmarked⟩
    exact ⟨clar, by rw [hclars, Table.find?_modify_of_ne _ _ hne, hc], hmarked⟩
  refine ⟨ResumeInv.present_after hg ?_, ?_, ?_, hbacked, ?_⟩
  · refine hrows.all ?_ hs.present
    rw [hkept.field ResumeRequest.clarificationId fun _ => rfl]
    exact hs.present id rr hrr
  · rintro cid ⟨k, x, hx, hcid, hxl⟩
    rcases hfind k x hx (Or.inl hxl) with ⟨hne, hx⟩
    refine hmark cid (fun h => hne ?_) (hs.marked cid ⟨k, x, hx, hcid, hxl⟩)
    exact hs.unique id k rr x hrr hl hx hxl (by rw [hcid, h])
  · intro k k' x x' hx hxl hx' hxl' hcid
    exact hs.unique k k' x x' (hfind k x hx (Or.inl hxl)).2 hxl (hfind k' x' hx' (Or.inl hxl')).2
      hxl' hcid
  · intro k x hx habandoned
    rcases hfind k x hx (Or.inr habandoned) with ⟨-, hx⟩
    rcases hs.forgotten k x hx habandoned with ⟨hmarked, hno⟩
    constructor
    · refine hmark _ (fun h => hno ⟨id, rr, hrr, h.symm, hl⟩) hmarked
    · rintro ⟨k', x', hx', hcid, hxl⟩
      exact hno ⟨k', x', (hfind k' x' hx' (Or.inl hxl)).2, hcid, hxl⟩

/-- The step lemma. -/
theorem Effect.resumeInv {L : List Lock} (h : Effect cfg ResumeInv c r s t)
    (hc : c.direct = false) (hs : ResumeInv s) (hg : Guar L s t) : ResumeInv t := by
  have hbacked := h.backed hc hs
  cases h.resumeStep with
  | other hrows hmarkers =>
    refine Calm.inv ⟨hmarkers, fun id rr hrr => ?_⟩ hs hg hbacked
    rw [hrows] at hrr
    exact ⟨rr, hrr, rfl, fun h => h, Or.inl⟩
  | requested hc _ _ hmarker _ hnew _ _ hrows hclars =>
    exact hs.requested hg hbacked hc hmarker hnew hrows hclars
  | late _ hmarker hinv hc₁ ha hactive htype hresource _ =>
    exact (hinv.not_late hc₁ hmarker ha hactive htype hresource).elim
  | authorized hrr hstate _ hrows hmarkers =>
    refine Calm.inv (.of_puts hmarkers hrr hrows rfl ?_) hs hg hbacked
    exact ResumeRequest.live_iff.mpr (Or.inl hstate)
  | declined hrr hstate hkept hstate' _ hrows _ hclars =>
    rcases hclars with hclars | ⟨-, t₁, hinv, hrr₁, hnone⟩
    · exact hs.declined hg hbacked hrr hstate hkept hstate' hrows hclars
    · rcases hinv.present _ _ hrr₁ with ⟨clar, hpresent⟩
      rw [hnone] at hpresent
      cases hpresent
  | prepared h =>
    refine Calm.inv (.of_puts h.markers h.request h.rows rfl ?_) hs hg hbacked
    exact ResumeRequest.live_iff.mpr (Or.inr (Or.inl h.state))
  | confirmed hrr hstate hkept _ _ _ hrows hmarkers =>
    refine Calm.inv (.of_puts hmarkers hrr hrows ?_ ?_) hs hg hbacked
    · exact hkept.field ResumeRequest.clarificationId fun _ => rfl
    · exact ResumeRequest.live_iff.mpr (Or.inr (Or.inr (Or.inl hstate)))
  | @expired ids _ h hrows hmarkers =>
    refine Calm.inv ⟨hmarkers, fun id rr' hrr' => ?_⟩ hs hg hbacked
    rw [hrows] at hrr'
    by_cases hid : id ∈ ids
    · rcases h id hid with ⟨rr, hrr, hexp, -⟩
      rw [if_pos hid, hrr, Option.map_some, Option.some.injEq] at hrr'
      have hl := ResumeRequest.live_of_expirable hexp
      exact ⟨rr, hrr, by rw [← hrr']; rfl, fun _ => hl, fun _ => Or.inr hl⟩
    · rw [if_neg hid] at hrr'
      exact ⟨rr', hrr', rfl, fun h => h, Or.inl⟩

/-! ## Runs -/

/-- Nothing has been requested, and no clarification is marked. -/
structure Unmarked (s : Db) : Prop where
  requests : ∀ id, s.resumeRequests.find? id = none
  authorizations : ∀ id, s.authorizations.find? id = none
  markers : ∀ id clar, s.clarifications.find? id = some clar → clar.resumeRequestedAt = none

theorem Unmarked.inv (h : Unmarked s) : ResumeInv s where
  present := fun id rr hrr => by
    rw [h.requests id] at hrr
    cases hrr
  marked := fun cid ⟨id, rr, hrr, _⟩ => by
    rw [h.requests id] at hrr
    cases hrr
  unique := fun id _ rr _ hrr => by
    rw [h.requests id] at hrr
    cases hrr
  backed := fun k a ha => by
    rw [h.authorizations k] at ha
    cases ha
  forgotten := fun id rr hrr => by
    rw [h.requests id] at hrr
    cases hrr

theorem Unmarked.live (h : Unmarked s) : MarkersLive s := by
  intro cid
  constructor
  · rintro ⟨clar, hc, hmarked⟩
    exact absurd (h.markers cid clar hc) hmarked
  · exact fun hl => h.inv.marked cid hl

variable {C : Type} {f : C → Call} {ms ns : List (Commit Db Reply C)} {m : Commit Db Reply C}

/-- The commit ends a live request as `confirm_failed` or `expire_due_requests` does. -/
def Abandons (m : Commit Db Reply C) : Prop :=
  ∃ id rr rr', m.before.resumeRequests.find? id = some rr ∧ rr.live = true ∧
    m.after.resumeRequests.find? id = some rr' ∧ rr'.abandoned = true

/-- A marker stays live in a step that abandons no request. -/
theorem ResumeStep.markersLive (h : ResumeStep ResumeInv s t) {L : List Lock} (hg : Guar L s t)
    (ht : ResumeInv t) (hlive : MarkersLive s)
    (hno : ∀ id rr rr', s.resumeRequests.find? id = some rr → rr.live = true →
      t.resumeRequests.find? id = some rr' → rr'.abandoned = false) : MarkersLive t := by
  intro cid
  refine ⟨fun hmarked => ?_, ht.marked cid⟩
  -- a live request of `s` is one of `t` when its row is not written, or written as live
  have hputs : ∀ {id rr'}, s.resumeRequests.Puts t.resumeRequests id rr' →
      (∀ rr, s.resumeRequests.find? id = some rr → rr.clarificationId = cid →
        rr'.clarificationId = cid ∧ rr'.live = true) → Marked s cid → HasLive t cid := by
    intro id rr' hrows hrow hm
    rcases (hlive cid).mp hm with ⟨k, x, hx, hcid, hxl⟩
    by_cases hk : k = id
    · subst hk
      rcases hrow x hx hcid with ⟨hcid', hl'⟩
      exact ⟨k, rr', hrows.self, hcid', hl'⟩
    · exact ⟨k, x, by rw [hrows.of_ne hk, hx], hcid, hxl⟩
  have hback : MarkersKept s t → Marked s cid :=
    fun hmarkers => (hmarkers.marked_iff (clarification_stays hg) cid).mp hmarked
  cases h with
  | other hrows hmarkers =>
    rcases (hlive cid).mp (hback hmarkers) with ⟨k, x, hx, hcid, hxl⟩
    exact ⟨k, x, by rw [hrows, hx], hcid, hxl⟩
  | @requested id row _ _ _ _ _ _ _ _ _ hnew habsent _ hrows hclars =>
    by_cases hc : cid = row.clarificationId
    · refine ⟨id, row, hrows.self, hc.symm, ResumeRequest.live_iff.mpr (Or.inl ?_)⟩
      rw [← hnew]
      rfl
    · refine hputs hrows (fun rr hrr _ => ?_) ?_
      · rw [habsent] at hrr
        cases hrr
      · rcases hmarked with ⟨clar, hclar, hm⟩
        rw [hclars.of_ne hc] at hclar
        exact ⟨clar, hclar, hm⟩
  | late _ hmarker hinv hc₁ ha hactive htype hresource _ =>
    exact (hinv.not_late hc₁ hmarker ha hactive htype hresource).elim
  | @authorized id rr _ hrr _ _ hrows hmarkers =>
    refine hputs hrows (fun x hx hcid => ?_) (hback hmarkers)
    have heq : rr = x := Option.some.inj (hrr.symm.trans hx)
    rw [← heq] at hcid
    exact ⟨hcid, ResumeRequest.live_iff.mpr (Or.inr (Or.inl rfl))⟩
  | @declined id rr _ hrr hstate _ _ _ hrows _ hclars =>
    rcases hclars with hclars | ⟨-, t₁, hinv, hrr₁, hnone⟩
    · -- the released clarification is not marked any more
      have hne : cid ≠ rr.clarificationId := by
        rintro rfl
        rcases hmarked with ⟨clar, hclar, hm⟩
        rw [hclars] at hclar
        rcases Table.exists_of_find?_modify hclar with ⟨_, -, rfl⟩
        simp [Clarification.releasedRow] at hm
      refine hputs hrows (fun x hx hcid => ?_) ?_
      · have heq : rr = x := Option.some.inj (hrr.symm.trans hx)
        rw [← heq] at hcid
        exact absurd hcid.symm hne
      · rcases hmarked with ⟨clar, hclar, hm⟩
        rw [hclars, Table.find?_modify_of_ne _ _ hne] at hclar
        exact ⟨clar, hclar, hm⟩
    · rcases hinv.present _ _ hrr₁ with ⟨clar, hpresent⟩
      rw [hnone] at hpresent
      cases hpresent
  | @prepared id _ rr _ h =>
    refine hputs h.rows (fun x hx hcid => ?_) (hback h.markers)
    have heq : rr = x := Option.some.inj (h.request.symm.trans hx)
    rw [← heq] at hcid
    exact ⟨hcid, ResumeRequest.live_iff.mpr (Or.inr (Or.inr (Or.inl rfl)))⟩
  | @confirmed id rr rr' hrr hstate hkept _ hstate' _ hrows hmarkers =>
    refine hputs hrows (fun x hx hcid => ?_) (hback hmarkers)
    have heq : rr = x := Option.some.inj (hrr.symm.trans hx)
    have hl : rr.live = true := ResumeRequest.live_iff.mpr (Or.inr (Or.inr (Or.inl hstate)))
    have hno' := hno id rr rr' hrr hl hrows.self
    rw [← heq] at hcid
    refine ⟨by rw [hkept.field ResumeRequest.clarificationId fun _ => rfl, hcid], ?_⟩
    rcases hstate' with h | h
    · exact ResumeRequest.live_iff.mpr (Or.inr (Or.inr (Or.inr h)))
    · simp [ResumeRequest.abandoned, h] at hno'
  | @expired ids now h hrows hmarkers =>
    rcases (hlive cid).mp (hback hmarkers) with ⟨k, x, hx, hcid, hxl⟩
    by_cases hk : k ∈ ids
    · have hk' : t.resumeRequests.find? k = some (x.expiredRow now) := by
        rw [hrows, if_pos hk, hx, Option.map_some]
      have hno' := hno k x _ hx hxl hk'
      simp [ResumeRequest.abandoned, ResumeRequest.expiredRow] at hno'
    · exact ⟨k, x, by rw [hrows, if_neg hk, hx], hcid, hxl⟩

/-- A request is refused as a second one only where the clarification is marked. -/
theorem Effect.refused {ids : ResumeIds} {actor : Actor} {scope : Scope} {cid : Uuid}
    {key : String} {expiresAt : Time} {reference : Option Reference}
    (h : Effect cfg ResumeInv (.requestResume ids actor scope cid key expiresAt reference)
      (.resume (.deny .conflict .activeRequestExists)) s t) : Marked s cid := by
  cases h with
  | quiet hq => exact absurd rfl hq
  | resumeRequested _ _ _ _ _ _ _ _ _ _ hr _ => exact absurd rfl hr
  | resumeRefused hc hmarker => exact ⟨_, hc, hmarker⟩
  | resumeLate _ hinv hc₁ hmarker ha hactive =>
    simp only [Bool.and_eq_true, beq_iff_eq] at hactive
    exact (hinv.not_late hc₁ hmarker ha hactive.1.1 hactive.1.2 hactive.2).elim
  | resumeDeclined hc _ _ _ _ _ _ _ => cases hc
  | resumeConfirmed hc _ _ _ _ _ => cases hc
  | replayDeclined hc _ _ _ _ _ _ => cases hc

/-- A clarification is marked exactly while it has a live request, in every state of a run, and a
request is refused as a second one only where there is a first, if and only if no commit of the
run has ended a live request as failed or expired. -/
theorem markers_iff {ι : Type} [DecidableEq ι] {y : Sys Db Lock Failure Reply ServiceCall ι}
    (hy : Reachable (fun c => program cfg c.val) Unmarked y) :
    (MarkersLive y.db ∧ ∀ m ∈ y.log, MarkersLive m.before ∧ MarkersLive m.after ∧
      ∀ ids actor scope cid key expiresAt reference,
        m.call.val = .requestResume ids actor scope cid key expiresAt reference →
        m.reply = .resume (.deny .conflict .activeRequestExists) → HasLive m.before cid) ↔
      ∀ m ∈ y.log, ¬ Abandons m := by
  have hrun : ∃ s, Unmarked s ∧ Commits (IsEffect cfg ResumeInv Subtype.val) s y.log y.db ∧
      ResumeInv y.db :=
    effects_of_reachable (fun _ hs => hs.inv)
      (fun c _ _ _ _ hs he hg => he.resumeInv c.property hs hg) hy
  rcases hrun with ⟨s, hs, hrun, -⟩
  have hafter : ∀ m : Commit Db Reply ServiceCall, IsEffect cfg ResumeInv Subtype.val m →
      ResumeInv m.after := by
    intro m hm
    rcases hm.guar with ⟨L, hg⟩
    exact hm.effect.resumeInv m.call.property hm.inv hg
  constructor
  · rintro ⟨-, hall⟩ m hm ⟨id, rr, rr', -, -, hrr', habandoned⟩
    -- the marker of an abandoned request stays, and no live request is left
    rcases (hafter m (hrun.all m hm)).forgotten id rr' hrr' habandoned with ⟨hmarked, hno⟩
    exact hno (((hall m hm).2.1 _).mp hmarked)
  · intro hno
    have hstep : ∀ m ∈ y.log, MarkersLive m.before → MarkersLive m.after := by
      intro m hm hlive
      have hm' := hrun.all m hm
      rcases hm'.guar with ⟨L, hg⟩
      refine hm'.effect.resumeStep.markersLive hg (hafter m hm') hlive ?_
      intro id rr rr' hrr hl hrr'
      by_contra habandoned
      rw [Bool.not_eq_false] at habandoned
      exact hno m hm ⟨id, rr, rr', hrr, hl, hrr', habandoned⟩
    have hlive : ∀ {ns : List (Commit Db Reply ServiceCall)} {t : Db},
        Commits (IsEffect cfg ResumeInv Subtype.val) s ns t → (∀ m ∈ ns, m ∈ y.log) →
        MarkersLive t := by
      intro ns t h
      refine h.history (J := fun ns t => (∀ m ∈ ns, m ∈ y.log) → MarkersLive t) ?_ fun _ => hs.live
      intro ns m _ _ ih hsub
      exact hstep m (hsub m (by simp)) (ih fun n hn => hsub n (List.mem_append_left _ hn))
    refine ⟨hlive hrun fun _ h => h, fun m hm => ?_⟩
    rcases hrun.mem hm with ⟨ns, ls, hlog, hto, hm', -⟩
    have hbefore : MarkersLive m.before := by
      refine hlive hto fun n hn => ?_
      rw [hlog]
      exact List.mem_append_left _ hn
    refine ⟨hbefore, hstep m hm hbefore, ?_⟩
    intro ids actor scope cid key expiresAt reference hcall hreply
    have heffect := hm'.effect
    rw [hcall, hreply] at heffect
    exact (hbefore cid).mp heffect.refused

/-! ### A run -/

theorem savedTask_direct : (Call.saveTask ⟨3⟩
    { status := .intakeReview, projectId := some ⟨2⟩, productionEffect := false }).direct =
      false := rfl

theorem askedClarification_direct : (Call.createClarification ⟨5⟩ ⟨3⟩ 100 50).direct = false := rfl

/-- A request expires before it is authorized, and another one follows. -/
def markerCalls : List ServiceCall := [
  ⟨.saveTask ⟨3⟩ { status := .intakeReview, projectId := some ⟨2⟩, productionEffect := false },
    savedTask_direct⟩,
  ⟨.createClarification ⟨5⟩ ⟨3⟩ 100 50, askedClarification_direct⟩,
  ⟨.claimClarificationAnswer ⟨5⟩, rfl⟩,
  ⟨.markResumeEligible ⟨5⟩ 0, rfl⟩,
  ⟨.requestResume ⟨⟨10⟩, ⟨11⟩, ⟨12⟩⟩ olga home ⟨5⟩ "k1" 60 none, rfl⟩,
  ⟨.tick 60, rfl⟩,
  ⟨.expireDueRequests 60 500 (fun _ => 0), rfl⟩,
  ⟨.requestResume ⟨⟨20⟩, ⟨21⟩, ⟨22⟩⟩ olga home ⟨5⟩ "k2" 120 none, rfl⟩]

def markerRun : Sys Db Lock Failure Reply ServiceCall Unit :=
  Sys.calls (fun c => program openGates c.val) emptyDb markerCalls

theorem unmarked_emptyDb : Unmarked emptyDb where
  requests := fun _ => rfl
  authorizations := fun _ => rfl
  markers := fun _ _ h => by cases h

theorem markerRun_marked : Marked markerRun.db ⟨5⟩ := by
  have h : ((markerRun.db.clarifications.find? ⟨5⟩).any
      fun clar => clar.resumeRequestedAt.isSome) = true := by decide +kernel
  rcases (Option.any_eq_true _ _).mp h with ⟨clar, hc, hsome⟩
  refine ⟨clar, hc, fun hnone => ?_⟩
  rw [hnone] at hsome
  cases hsome

theorem markerRun_not_live : ¬ HasLive markerRun.db ⟨5⟩ := by
  have h : (markerRun.db.resumeRequests.rows.any fun e => e.2.live) = false := by decide +kernel
  rintro ⟨id, rr, hrr, -, hl⟩
  rw [Table.any_rows_eq_false] at h
  have hno := h id rr hrr
  rw [hl] at hno
  cases hno

/-- The expired request blocks the next one. -/
theorem expired_request_blocks :
    Reachable (fun c : ServiceCall => program openGates c.val) Unmarked markerRun ∧
      ((markerRun.db.resumeRequests.find? ⟨11⟩).map ResumeRequest.state) = some .expired ∧
      Marked markerRun.db ⟨5⟩ ∧ ¬ HasLive markerRun.db ⟨5⟩ ∧
      (markerRun.log.getLast?).map Commit.reply =
        some (.resume (.deny .conflict .activeRequestExists)) :=
  ⟨reachable_calls unmarked_emptyDb markerCalls, by decide +kernel, markerRun_marked,
    markerRun_not_live, by decide +kernel⟩

theorem markers_run : ∃ m ∈ markerRun.log, Abandons m := by
  by_contra hno
  have hnone : ∀ m ∈ markerRun.log, ¬ Abandons m := fun m hm h => hno ⟨m, hm, h⟩
  have hall := (markers_iff (reachable_calls unmarked_emptyDb markerCalls)).mpr hnone
  exact markerRun_not_live ((hall.1 ⟨5⟩).mp markerRun_marked)

end AiAgentsSwd.Tasks
