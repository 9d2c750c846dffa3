import AiAgentsSwd.Reasoning.Lifecycle

/-!
# Reasoning.Canonical — a returned artifact is the stored one

A call that lost its row finds out by comparing attempt tokens on the row it reads back. Every
way to lose the row changes the token, except one: `fail_exhausted_invocation` ends the row
under the token of the attempt that was still being answered.

1. `Custody`: what the token tells about the row, along every run;
2. `Canonical`, the promise: every artifact ever returned is the one in the row;
3. `canonical_iff`: a run keeps the promise exactly when no call that came back with an
   artifact reads back, under its own token, a failed row.
-/

namespace AiAgentsSwd.Reasoning

open Planning (Uuid)
open Transition

variable {ι α : Type}

/-! ## Fresh results -/

/-- The caller that was told its result is fresh. -/
def Event.fresh? : Event ι α → Option ι
  | .returned i ⟨_, _, .fresh⟩ => some i
  | _ => none

/-- The callers that got a fresh result, oldest first. -/
def freshes (h : List (Event ι α)) : List ι := h.filterMap Event.fresh?

@[simp] theorem freshes_append (h h' : List (Event ι α)) :
    freshes (h ++ h') = freshes h ++ freshes h' := List.filterMap_append

theorem Event.fresh?_returned {i : ι} {result : ReasoningResult α}
    (h : result.disposition ≠ .fresh) : (Event.returned i result).fresh? = none := by
  obtain ⟨artifact, invocation, disposition⟩ := result
  cases disposition with
  | fresh => exact absurd rfl h
  | replay => rfl
  | inProgress => rfl

/-- What is settled describes the row, and is not fresh. -/
theorem settled_eq_some {M : ArtifactModels α} {r : Invocation} {result : ReasoningResult α}
    (h : settled M r = some result) :
    result.invocation = r ∧ result.disposition ≠ .fresh ∧
      ∀ a, result.artifact = some a → r.status = .succeeded ∧ rehydrate M r = some (some a) := by
  unfold settled at h
  split at h
  · obtain rfl := Option.some.inj h
    refine ⟨rfl, by simp, ?_⟩
    intro a ha
    cases ha
  · obtain ⟨artifact, hartifact, rfl⟩ := Option.map_eq_some_iff.mp h
    refine ⟨rfl, by simp, ?_⟩
    intro a ha
    obtain rfl : artifact = some a := ha
    refine ⟨?_, hartifact⟩
    by_contra hne
    unfold rehydrate at hartifact
    rw [if_pos hne] at hartifact
    cases hartifact

/-! ## Custody of the row -/

/-- Nobody owns the attempt of the token any more. -/
def Released (w : World ι α) (token : Uuid) : Prop :=
  ∀ i c row, w.callers i = some c → c.phase.owned = some row → row.attemptToken ≠ token

/-- What the token tells about the row. -/
structure Custody (M : ArtifactModels α) (w : World ι α) : Prop where
  /-- The outcomes the calls carry are as `_attempt` makes them. -/
  valid : ∀ i c o, w.callers i = some c → c.phase.outcome = some o → o.Valid M c.request
  /-- An attempt is one of the row's. -/
  ids : ∀ i c row r, w.callers i = some c → c.phase.owned = some row → w.row = some r →
    row.invocationId = r.invocationId
  /-- A refused terminal write means another token or a terminal row. -/
  lost : ∀ i request row o r, w.callers i = some ⟨request, .completeReading row o⟩ →
    w.row = some r → r.attemptToken = row.attemptToken → r.status ≠ .started
  /-- The attempt that succeeded is over for its owner. -/
  succeeded : ∀ r, w.row = some r → r.status = .succeeded → Released w r.attemptToken
  /-- So is the attempt whose result was fresh. -/
  fresh : freshes w.history ≠ [] →
    ∃ r, w.row = some r ∧ r.status ≠ .started ∧ Released w r.attemptToken
  once : (freshes w.history).length ≤ 1

theorem custody_initial (M : ArtifactModels α) (clock : Int) :
    Custody M (World.initial ι α clock) where
  valid i c o hi := by cases hi
  ids i c row r hi := by cases hi
  lost i request row o r hi := by cases hi
  succeeded r hr := by cases hr
  fresh h := absurd rfl h
  once := Nat.zero_le 1

section Steps

variable {M : ArtifactModels α} {cfg : StoreConfig} {w w' : World ι α} {i : ι}

/-- A step that leaves the row alone keeps custody, if what the calls hold afterwards they held
before, and a result is fresh only for the owner of a terminal row. -/
theorem Custody.frame (h : Custody M w) (hrow : w'.row = w.row) (es : List (Event ι α))
    (hhistory : w'.history = w.history ++ es)
    (hvalid : ∀ i c o, w'.callers i = some c → c.phase.outcome = some o → o.Valid M c.request)
    (howned : ∀ i c row, w'.callers i = some c → c.phase.owned = some row →
      ∃ c₀, w.callers i = some c₀ ∧ c₀.phase.owned = some row)
    (hlost : ∀ i request row o r, w'.callers i = some ⟨request, .completeReading row o⟩ →
      w.row = some r → r.attemptToken = row.attemptToken → r.status ≠ .started)
    (hfresh : freshes es = [] ∨ freshes w.history = [] ∧ (freshes es).length = 1 ∧
      ∃ r, w.row = some r ∧ r.status ≠ .started ∧ Released w' r.attemptToken) :
    Custody M w' := by
  have hreleased : ∀ t, Released w t → Released w' t := by
    intro t ht i c row hi hc
    obtain ⟨c₀, hi₀, hc₀⟩ := howned i c row hi hc
    exact ht i c₀ row hi₀ hc₀
  refine ⟨hvalid, ?_, ?_, ?_, ?_, ?_⟩
  · intro i c row r hi hc hr
    obtain ⟨c₀, hi₀, hc₀⟩ := howned i c row hi hc
    exact h.ids i c₀ row r hi₀ hc₀ (hrow.symm.trans hr)
  · intro i request row o r hi hr
    exact hlost i request row o r hi (hrow.symm.trans hr)
  · intro r hr hs
    exact hreleased _ (h.succeeded r (hrow.symm.trans hr) hs)
  · intro hne
    rw [hhistory, freshes_append] at hne
    rw [hrow]
    rcases hfresh with hnone | ⟨-, -, hspent⟩
    · rw [hnone, List.append_nil] at hne
      obtain ⟨r, hr, hs, hfree⟩ := h.fresh hne
      exact ⟨r, hr, hs, hreleased _ hfree⟩
    · exact hspent
  · rw [hhistory, freshes_append, List.length_append]
    rcases hfresh with hnone | ⟨hfirst, hone, -⟩
    · rw [hnone]
      exact h.once
    · rw [hfirst, hone]
      exact le_refl 1

/-- While the row is started nobody has a fresh result. -/
theorem Custody.no_fresh (h : Custody M w) (hs : ∀ r ∈ w.row, r.status = .started) :
    freshes w.history = [] := by
  by_contra hne
  obtain ⟨r, hr, hend, -⟩ := h.fresh hne
  exact hend (hs r hr)

variable [DecidableEq ι]

/-- A call that goes on keeps custody. -/
theorem Custody.goto (h : Custody M w) {a : Act ι α} {request : Request} {p q : Phase α}
    (hi : w.callers i = some ⟨request, p⟩) (hpq : p.Follows q)
    (hcarries : Carries M cfg w a i request p q) : Custody M (w.goto i request q) := by
  refine h.frame rfl [] (List.append_nil _).symm ?_ ?_ ?_ (Or.inl rfl)
  · intro j c o hj ho
    rcases World.callers_setCaller hj with ⟨rfl, hc⟩ | ⟨-, hj⟩
    · obtain rfl := Option.some.inj hc
      rcases hcarries.outcome o ho with hvalid | hp
      · exact hvalid
      · exact h.valid j ⟨request, p⟩ o hi hp
    · exact h.valid j c o hj ho
  · intro j c row hj hrow
    rcases World.callers_setCaller hj with ⟨rfl, hc⟩ | ⟨-, hj⟩
    · obtain rfl := Option.some.inj hc
      exact ⟨_, hi, hpq.owned row hrow⟩
    · exact ⟨c, hj, hrow⟩
  · intro j request' row o r hj hr htoken
    rcases World.callers_setCaller hj with ⟨rfl, hc⟩ | ⟨-, hj⟩
    · -- the write was refused though the row is the call's own, so the row is terminal
      obtain ⟨rfl, hq⟩ := Caller.mk.inj (Option.some.inj hc)
      obtain ⟨rfl, hrefused, -⟩ := hcarries.refused row o hq
      have hid : row.invocationId = r.invocationId := h.ids j _ row r hi rfl hr
      intro hstarted
      rw [hr] at hrefused
      unfold completeInvocation at hrefused
      simp only at hrefused
      rw [if_pos ⟨hid.symm, htoken, hstarted⟩] at hrefused
      split at hrefused <;> cases hrefused
    · exact h.lost j request' row o r hj hr htoken

/-- A call that ends keeps custody, if its result is fresh only for the owner of a terminal
row. -/
theorem Custody.leave (h : Custody M w) (es : List (Event ι α))
    (hfresh : freshes es = [] ∨ freshes w.history = [] ∧ (freshes es).length = 1 ∧
      ∃ r, w.row = some r ∧ r.status ≠ .started ∧
        Released (w.setCaller i none) r.attemptToken) :
    Custody M { w.setCaller i none with history := w.history ++ es } := by
  have hleft : ∀ {j : ι} {c : Caller α}, (w.setCaller i none).callers j = some c →
      w.callers j = some c := by
    intro j c hj
    rcases World.callers_setCaller hj with ⟨-, hc⟩ | ⟨-, hj⟩
    · cases hc
    · exact hj
  refine h.frame rfl es rfl ?_ ?_ ?_ hfresh
  · exact fun j c o hj ho => h.valid j c o (hleft hj) ho
  · exact fun j c row hj hrow => ⟨c, hleft hj, hrow⟩
  · exact fun j request row o r hj hr htoken => h.lost j request row o r (hleft hj) hr htoken

/-- Once the owner of a token is gone, nobody owns it. -/
theorem Inv.released (hinv : Inv cfg w) {request : Request} {p : Phase α} {row : Invocation}
    (hi : w.callers i = some ⟨request, p⟩) (hp : p.owned = some row) :
    Released (w.setCaller i none) row.attemptToken := by
  intro j c x hj hx heq
  rcases World.callers_setCaller hj with ⟨-, hc⟩ | ⟨hne, hj⟩
  · cases hc
  · have hother := hinv.owners j c x hj hx
    rw [heq] at hother
    exact hne (hinv.token_unique hother (hinv.owners i _ row hi hp)).1

/-- A call that ends with an honest result keeps custody. -/
theorem Custody.finish (h : Custody M w) (hinv : Inv cfg w) {a : Act ι α}
    {result : Option (ReasoningResult α)} (hr : ∀ r ∈ result, Honest M w a i r) :
    Custody M (w.finish i result) := by
  cases result with
  | none =>
    have hleave := h.leave (i := i) [] (Or.inl rfl)
    rw [List.append_nil] at hleave
    exact hleave
  | some result =>
    refine h.leave [.returned i result] ?_
    have hstale : result.disposition ≠ .fresh → freshes [Event.returned i result] = [] := by
      intro hne
      show List.filterMap _ _ = _
      rw [List.filterMap_cons_none (Event.fresh?_returned hne), List.filterMap_nil]
    rcases hr result rfl with ⟨-, hprogress⟩ | ⟨r, -, hsettled⟩ |
      ⟨-, request, row, o, r, hi, hrow, hconcluded⟩
    · refine Or.inl (hstale ?_)
      rw [hprogress]
      decide
    · exact Or.inl (hstale (settled_eq_some hsettled).2.1)
    · unfold concluded at hconcluded
      split at hconcluded
      · exact Or.inl (hstale (settled_eq_some hconcluded).2.1)
      · next htoken =>
        -- the row is still the call's own, so nobody has had a fresh result before
        obtain rfl := Option.some.inj hconcluded
        have htoken := not_not.mp htoken
        refine Or.inr ⟨?_, rfl, r, hrow, h.lost i request row o r hi hrow htoken, ?_⟩
        · by_contra hne
          obtain ⟨x, hx, -, hfree⟩ := h.fresh hne
          obtain rfl := Option.some.inj (hrow.symm.trans hx)
          exact hfree i _ row hi rfl htoken.symm
        · rw [htoken]
          exact hinv.released hi rfl

/-- A claim starts the row, or its next attempt. -/
theorem Moves.claims {row : Option Invocation} {r : Invocation} (h : Moves cfg row r)
    (hnext : r.attempt = row.elim 0 Invocation.attempt + 1) :
    r.status = .started ∧ ∀ x ∈ row, x.invocationId = r.invocationId := by
  cases h with
  | begun now verb invocationId token => exact ⟨rfl, fun x hx => by cases hx⟩
  | nextAttempt now token hs hlt =>
    refine ⟨hs, fun x hx => ?_⟩
    obtain rfl := Option.some.inj hx
    rfl
  | @completed t x hs hc =>
    have hsame : x.attempt = x.attempt + 1 := hnext
    omega
  | @exhausted reason x hs =>
    have hsame : x.attempt = x.attempt + 1 := hnext
    omega

/-- A claim keeps custody. -/
theorem Custody.claim (h : Custody M w) (hinv : Inv cfg w) {request : Request}
    {refusal : Option LiveProviderError} {row : Invocation} (hmove : Moves cfg w.row row)
    (hnext : row.attempt = w.row.elim 0 Invocation.attempt + 1)
    (htoken : row.attemptToken ∉ w.issued) :
    Custody M ((w.claim i row).goto i request (.attempting refusal row)) := by
  obtain ⟨hstarted, hid⟩ := hmove.claims hnext
  have hnofresh : freshes (w.history ++ [Event.claimed i row.attempt row.attemptToken]) = [] := by
    rw [freshes_append, h.no_fresh hmove.started]
    rfl
  refine ⟨?_, ?_, ?_, ?_, ?_, ?_⟩
  · intro j c o hj ho
    rcases World.callers_setCaller hj with ⟨rfl, hc⟩ | ⟨-, hj⟩
    · obtain rfl := Option.some.inj hc
      cases ho
    · exact h.valid j c o hj ho
  · intro j c x r hj hx hr
    obtain rfl : row = r := Option.some.inj hr
    rcases World.callers_setCaller hj with ⟨rfl, hc⟩ | ⟨-, hj⟩
    · obtain rfl := Option.some.inj hc
      obtain rfl := Option.some.inj hx
      rfl
    · -- an owner has claimed an attempt, so the row was there
      obtain ⟨r, hr, -⟩ := hinv.attempt_le (hinv.owners j c x hj hx)
      exact (h.ids j c x r hj hx hr).trans (hid r hr)
  · intro j request' x o r hj hr heq
    obtain rfl : row = r := Option.some.inj hr
    rcases World.callers_setCaller hj with ⟨rfl, hc⟩ | ⟨-, hj⟩
    · cases hc
    · -- the token is new
      have hissued := hinv.issued _ (hinv.owners j _ x hj rfl)
      exact absurd (heq ▸ hissued) htoken
  · intro r hr hs
    obtain rfl : row = r := Option.some.inj hr
    rw [hstarted] at hs
    cases hs
  · exact fun hne => absurd hnofresh hne
  · show (freshes (w.history ++ _)).length ≤ 1
    rw [hnofresh]
    exact Nat.zero_le 1

/-- The end of the row by one of the calls keeps custody. -/
theorem Custody.terminate (h : Custody M w) {r : Invocation} (r' : Invocation)
    (e e' : Event ι α) (hrow : w.row = some r) (hs : r.status = .started)
    (hid : r'.invocationId = r.invocationId) (hend : r'.status ≠ .started) (he : e.fresh? = none)
    (hfree : r'.status = .succeeded ∨ freshes [e'] ≠ [] →
      Released (w.setCaller i none) r'.attemptToken) :
    Custody M { w.setCaller i none with row := some r', history := w.history ++ [e, e'] } := by
  have hleft : ∀ {j : ι} {c : Caller α}, (w.setCaller i none).callers j = some c →
      w.callers j = some c := by
    intro j c hj
    rcases World.callers_setCaller hj with ⟨-, hc⟩ | ⟨-, hj⟩
    · cases hc
    · exact hj
  have hstarted : ∀ x ∈ w.row, x.status = .started := by
    intro x hx
    obtain rfl := Option.some.inj (hrow.symm.trans hx)
    exact hs
  have hfreshes : freshes (w.history ++ [e, e']) = freshes [e'] := by
    rw [freshes_append, h.no_fresh hstarted, List.nil_append]
    exact List.filterMap_cons_none he
  refine ⟨?_, ?_, ?_, ?_, ?_, ?_⟩
  · exact fun j c o hj ho => h.valid j c o (hleft hj) ho
  · intro j c x y hj hx hy
    obtain rfl : r' = y := Option.some.inj hy
    exact (h.ids j c x r (hleft hj) hx hrow).trans hid.symm
  · intro j request x o y hj hy htoken
    obtain rfl : r' = y := Option.some.inj hy
    exact hend
  · intro y hy hsucceeded
    obtain rfl : r' = y := Option.some.inj hy
    exact hfree (Or.inl hsucceeded)
  · intro hne
    have hne : freshes (w.history ++ [e, e']) ≠ [] := hne
    rw [hfreshes] at hne
    exact ⟨r', rfl, hend, hfree (Or.inr hne)⟩
  · show (freshes (w.history ++ [e, e'])).length ≤ 1
    rw [hfreshes]
    exact List.length_filterMap_le _ _

/-- **Every effect keeps custody.** -/
theorem Custody.effect (h : Custody M w) (hinv : Inv cfg w) {a : Act ι α}
    (he : Effect M cfg w a w') : Custody M w' := by
  cases he with
  | ticked t =>
    exact h.frame rfl [] (List.append_nil _).symm h.valid (fun i c row hi hc => ⟨c, hi, hc⟩)
      h.lost (Or.inl rfl)
  | started i request hi =>
    refine h.frame rfl [] (List.append_nil _).symm ?_ ?_ ?_ (Or.inl rfl)
    · intro j c o hj ho
      rcases World.callers_setCaller hj with ⟨rfl, hc⟩ | ⟨-, hj⟩
      · obtain rfl := Option.some.inj hc
        cases ho
      · exact h.valid j c o hj ho
    · intro j c row hj hrow
      rcases World.callers_setCaller hj with ⟨rfl, hc⟩ | ⟨-, hj⟩
      · obtain rfl := Option.some.inj hc
        cases hrow
      · exact ⟨c, hj, hrow⟩
    · intro j request' row o r hj hr htoken
      rcases World.callers_setCaller hj with ⟨rfl, hc⟩ | ⟨-, hj⟩
      · cases hc
      · exact h.lost j request' row o r hj hr htoken
  | moved i hi hpq hcarries => exact h.goto hi hpq hcarries
  | ended i hr => exact h.finish hinv hr
  | claimed i hmove hnext hmax htoken => exact h.claim hinv hmove hnext htoken
  | @called i request row hi =>
    have hcarries : Carries M cfg w a i request (.attempting none row) (.awaiting row) :=
      carries_none rfl
    have hmoved : Custody M (w.goto i request (.awaiting row)) :=
      h.goto hi (follows_owner (fun _ h => h) rfl rfl) hcarries
    exact hmoved.frame rfl [.called i row.attempt] rfl hmoved.valid
      (fun j c x hj hx => ⟨c, hj, hx⟩) hmoved.lost (Or.inl rfl)
  | @completed i request row r o hi hrow htoken hs hc =>
    have hended := h.terminate (i := i) (r.completed cfg (o.terminal request))
      (.completed i row.attempt)
      (.returned i ⟨o.artifact, r.completed cfg (o.terminal request), .fresh⟩)
      hrow hs rfl o.status.toStatus_ne_started rfl ?_
    · rw [World.finish]
      simp only [List.append_assoc]
      exact hended
    · intro _
      show Released _ r.attemptToken
      rw [htoken]
      exact hinv.released hi rfl
  | @exhausted i request current r reason hi hrow hs =>
    have hended := h.terminate (i := i) (r.exhausted cfg reason) (.exhausted i)
      (.returned i ⟨none, r.exhausted cfg reason, .replay⟩) hrow hs rfl ?_ rfl ?_
    · rw [World.finish]
      simp only [List.append_assoc]
      exact hended
    · show InvocationStatus.failed ≠ .started
      decide
    · rintro (hsucceeded | hfresh)
      · cases hsucceeded
      · exact absurd rfl hfresh

theorem step_custody (h : Custody M w) (hinv : Inv cfg w) {a : Act ι α}
    (hs : step M cfg w a = some w') : Custody M w' := h.effect hinv (step_effect hinv.copies hs)

variable (M) in
theorem reachable_custody {clock : Int}
    (h : Reaches (step M cfg) (World.initial ι α clock) w) : Inv cfg w ∧ Custody M w :=
  h.invariant (P := fun w => Inv cfg w ∧ Custody M w)
    (fun _ _ _ hinv hs => ⟨step_inv hinv.1 hs, step_custody hinv.2 hinv.1 hs⟩)
    ⟨inv_initial cfg clock, custody_initial M clock⟩

end Steps

/-! ## The promise -/

/-- The result carries the artifact of the row, and the row is terminal. -/
def Stored (M : ArtifactModels α) (w : World ι α) (result : ReasoningResult α) : Prop :=
  ∀ a, result.artifact = some a → result.invocation.status = .succeeded ∧
    rehydrate M result.invocation = some (some a) ∧ w.row = some result.invocation

/-- Every artifact returned so far is the stored one, all callers got the same, and at most one
of them was told it is fresh. -/
structure Canonical (M : ArtifactModels α) (w : World ι α) : Prop where
  stored : ∀ i result, .returned i result ∈ w.history → Stored M w result
  agree : ∀ i j result result' a a', .returned i result ∈ w.history →
    .returned j result' ∈ w.history → result.artifact = some a → result'.artifact = some a' →
    a = a'
  once : (freshes w.history).length ≤ 1

/-- The call comes back with an artifact and reads a failed row under its own token. -/
def readsOwnFailedRow (w : World ι α) : Act ι α → Bool
  | .run i _ _ _ =>
    match w.callers i, w.row with
    | some ⟨_, .completeReading row o⟩, some r =>
      o.status = .succeeded ∧ r.status = .failed ∧ r.attemptToken = row.attemptToken
    | _, _ => false
  | _ => false

section Promise

variable {M : ArtifactModels α} {cfg : StoreConfig} {w w' : World ι α} {i : ι} {a : α}

omit ι in
/-- What a terminal write stores rehydrates to the artifact the call returns. -/
theorem rehydrate_completed {request : Request} {r : Invocation} {o : AttemptOutcome α}
    (hvalid : o.Valid M request) (hc : (r.completed cfg (o.terminal request)).Checked)
    (ha : o.artifact = some a) :
    (r.completed cfg (o.terminal request)).status = .succeeded ∧
      rehydrate M (r.completed cfg (o.terminal request)) = some (some a) := by
  cases hs : o.status with
  | failed =>
    rw [hvalid.failed hs] at ha
    cases ha
  | succeeded =>
    obtain ⟨a', d, ha', hd, hdict, hverb⟩ := hvalid.succeeded hs
    obtain rfl := Option.some.inj (ha.symm.trans ha')
    have hstatus : (r.completed cfg (o.terminal request)).status = .succeeded := by
      show o.status.toStatus = _
      rw [hs]
      rfl
    have hstored : (r.completed cfg (o.terminal request)).artifact = some d := by
      show (if o.status = .succeeded then o.artifactPayload else none) = some d
      rw [if_pos hs, hd]
    -- the CHECK on the type ties the verb of the row to the verb of the artifact
    have htype : artifactTypeForVerb request.verb = artifactTypeForVerb r.reasoningVerb := by
      refine hc.2.2.2.2 _ ?_
      show _ ∈ (if o.status = .succeeded then _ else none)
      rw [if_pos hs]
      exact rfl
    have hrow : r.reasoningVerb = M.verb a := (artifactTypeForVerb_inj htype).symm.trans hverb.symm
    refine ⟨hstatus, ?_⟩
    unfold rehydrate
    rw [if_neg (not_not.mpr hstatus), hstored]
    simp only
    rw [if_neg (M.dict_ne_nil hdict)]
    show Option.map some (M.modelValidate r.reasoningVerb d) = _
    rw [hrow, M.validate_dict hdict]
    rfl

theorem readsOwnFailedRow_iff {act : Act ι α} :
    readsOwnFailedRow w act = true ↔ ∃ i now invocationId token request row o r,
      act = .run i now invocationId token ∧
        w.callers i = some ⟨request, .completeReading row o⟩ ∧ w.row = some r ∧
        o.status = .succeeded ∧ r.status = .failed ∧ r.attemptToken = row.attemptToken := by
  constructor
  · intro h
    unfold readsOwnFailedRow at h
    split at h
    · next i now invocationId token =>
      split at h
      · next request row o r hi hrow =>
        exact ⟨i, now, invocationId, token, request, row, o, r, rfl, hi, hrow,
          of_decide_eq_true h⟩
      · cases h
    · cases h
  · rintro ⟨i, now, invocationId, token, request, row, o, r, rfl, hi, hrow, h⟩
    unfold readsOwnFailedRow
    simp only [hi, hrow]
    exact decide_eq_true h

variable [DecidableEq ι]

omit [DecidableEq ι] in
/-- What is settled from the row is stored. -/
theorem stored_settled {r : Invocation} {result : ReasoningResult α} (hrow : w.row = some r)
    (h : settled M r = some result) : Stored M w result := by
  obtain ⟨rfl, -, hstored⟩ := settled_eq_some h
  exact fun a ha => ⟨(hstored a ha).1, (hstored a ha).2, hrow⟩

omit [DecidableEq ι] in
/-- The result of a step that does not read the call's own failed row is stored. -/
theorem stored_honest (hcust : Custody M w) {act : Act ι α}
    (hok : ¬ readsOwnFailedRow w act = true) {result : ReasoningResult α}
    (h : Honest M w act i result) : Stored M w result := by
  rcases h with ⟨hnone, -⟩ | ⟨r, hrow, hsettled⟩ |
    ⟨⟨now, invocationId, token, hact⟩, request, row, o, r, hi, hrow, hconcluded⟩
  · intro a ha
    rw [hnone] at ha
    cases ha
  · exact stored_settled hrow hsettled
  · unfold concluded at hconcluded
    split at hconcluded
    · exact stored_settled hrow hconcluded
    · next htoken =>
      obtain rfl := Option.some.inj hconcluded
      have htoken := not_not.mp htoken
      intro a ha
      exfalso
      have hsucceeded : o.status = .succeeded := by
        cases hs : o.status with
        | succeeded => rfl
        | failed =>
          have hnone := (hcust.valid i _ o hi rfl).failed hs
          exact absurd (hnone.symm.trans ha) (by simp)
      -- the row is terminal; had it succeeded, its owner would be gone
      have hend := hcust.lost i request row o r hi hrow htoken
      cases hs : r.status with
      | started => exact hend hs
      | succeeded => exact hcust.succeeded r hrow hs i _ row hi rfl htoken.symm
      | failed =>
        exact hok (readsOwnFailedRow_iff.mpr
          ⟨i, now, invocationId, token, request, row, o, r, hact, hi, hrow, hsucceeded, hs, htoken⟩)

/-- A terminal row keeps what was stored. -/
theorem Stored.step (hinv : Inv cfg w) {act : Act ι α} (hs : step M cfg w act = some w')
    {result : ReasoningResult α} (h : Stored M w result) : Stored M w' result := by
  intro a ha
  obtain ⟨hsucceeded, hrehydrate, hrow⟩ := h a ha
  refine ⟨hsucceeded, hrehydrate, step_terminal hinv hs hrow ?_⟩
  rw [hsucceeded]
  decide

/-- A step adds to the history; what it returns is stored, unless it reads its own failed row. -/
theorem step_returned (hinv : Inv cfg w) (hcust : Custody M w) {act : Act ι α}
    (hs : step M cfg w act = some w') :
    ∃ es, w'.history = w.history ++ es ∧ (¬ readsOwnFailedRow w act = true →
      ∀ j result, .returned j result ∈ es → Stored M w' result) := by
  cases step_effect hinv.copies hs with
  | ticked t => exact ⟨[], (List.append_nil _).symm, fun _ j result h => by cases h⟩
  | started i request hi => exact ⟨[], (List.append_nil _).symm, fun _ j result h => by cases h⟩
  | moved i hi hpq hcarries => exact ⟨[], (List.append_nil _).symm, fun _ j result h => by cases h⟩
  | @ended i result hr =>
    cases result with
    | none => exact ⟨[], (List.append_nil _).symm, fun _ j result h => by cases h⟩
    | some result =>
      refine ⟨[.returned i result], rfl, fun hok j x hx => ?_⟩
      obtain ⟨rfl, rfl⟩ : j = i ∧ x = result := by simpa using hx
      exact (stored_honest hcust hok (hr x rfl)).step hinv hs
  | @claimed i request refusal row hmove hnext hmax htoken =>
    refine ⟨[.claimed i row.attempt row.attemptToken], rfl, fun _ j result h => ?_⟩
    simp at h
  | @called i request row hi =>
    refine ⟨[.called i row.attempt], rfl, fun _ j result h => ?_⟩
    simp at h
  | @completed i request row r o hi hrow htoken hstarted hc =>
    refine ⟨[.completed i row.attempt, .returned i _], List.append_assoc _ _ _,
      fun _ j result h => ?_⟩
    obtain ⟨rfl, rfl⟩ : j = i ∧ result = _ := by simpa using h
    intro a ha
    obtain ⟨hsucceeded, hrehydrate⟩ := rehydrate_completed (hcust.valid j _ o hi rfl) hc ha
    exact ⟨hsucceeded, hrehydrate, rfl⟩
  | @exhausted i request current r reason hi hrow hstarted =>
    refine ⟨[.exhausted i, .returned i _], List.append_assoc _ _ _, fun _ j result h => ?_⟩
    obtain ⟨rfl, rfl⟩ : j = i ∧ result = _ := by simpa using h
    intro a ha
    cases ha

/-- A call that reads its own failed row returns an artifact that is not stored. -/
theorem returns_unstored (hcust : Custody M w) {act : Act ι α}
    (hs : step M cfg w act = some w') (hbad : readsOwnFailedRow w act = true) :
    ∃ j result a, .returned j result ∈ w'.history ∧ result.artifact = some a ∧
      result.invocation.status = .failed := by
  obtain ⟨i, now, invocationId, token, request, row, o, r, rfl, hi, hrow, hsucceeded, hfailed,
    htoken⟩ := readsOwnFailedRow_iff.mp hbad
  obtain ⟨a, d, ha, -⟩ := (hcust.valid i _ o hi rfl).succeeded hsucceeded
  refine ⟨i, ⟨o.artifact, r, .fresh⟩, a, ?_, ha, hfailed⟩
  rw [step, hi] at hs
  simp only at hs
  split at hs
  · have hconcluded : concluded M row o r = some ⟨o.artifact, r, .fresh⟩ := by
      unfold concluded
      exact if_neg (not_not.mpr htoken)
    rw [runStatement, hrow] at hs
    simp only [hconcluded] at hs
    obtain rfl := Option.some.inj hs
    exact List.mem_append_right _ List.mem_cons_self
  · cases hs

/-- A run keeps the promise, or some artifact was returned beside a failed row. -/
theorem guarded_or_unstored {clock : Int}
    (h : Reaches (step M cfg) (World.initial ι α clock) w) :
    Reaches (guard (fun w act => ¬ readsOwnFailedRow w act = true) (step M cfg))
        (World.initial ι α clock) w ∨
      ∃ j result a, .returned j result ∈ w.history ∧ result.artifact = some a ∧
        result.invocation.status = .failed := by
  induction h with
  | refl => exact Or.inl (.refl _)
  | @tail t u h act hs ih =>
    obtain ⟨hinv, hcust⟩ := reachable_custody M h
    rcases ih with hguarded | ⟨j, result, a, hj, ha, hfailed⟩
    · by_cases hbad : readsOwnFailedRow t act = true
      · exact Or.inr (returns_unstored hcust hs hbad)
      · exact Or.inl (hguarded.tail act (guard_eq_some.mpr ⟨hbad, hs⟩))
    · -- the history only grows
      obtain ⟨es, hes, -⟩ := step_returned hinv hcust hs
      refine Or.inr ⟨j, result, a, ?_, ha, hfailed⟩
      rw [hes]
      exact List.mem_append_left _ hj

/-- Along a run that reads no own failed row, everything returned is stored. -/
theorem guarded_stored {clock : Int}
    (h : Reaches (guard (fun w act => ¬ readsOwnFailedRow w act = true) (step M cfg))
      (World.initial ι α clock) w) :
    ∀ j result, .returned j result ∈ w.history → Stored M w result := by
  induction h with
  | refl => exact fun j result hj => by cases hj
  | @tail t u h act hs ih =>
    obtain ⟨hok, hs⟩ := guard_eq_some.mp hs
    obtain ⟨hinv, hcust⟩ := reachable_custody M h.of_guard
    obtain ⟨es, hes, hnew⟩ := step_returned hinv hcust hs
    intro j result hj
    rw [hes] at hj
    rcases List.mem_append.mp hj with hj | hj
    · exact (ih j result hj).step hinv hs
    · exact hnew hok j result hj

/-- **A returned artifact is the canonical one** exactly in the runs in which no call that
came back with an artifact reads a failed row under its own token. -/
theorem canonical_iff {clock : Int} (h : Reaches (step M cfg) (World.initial ι α clock) w) :
    Canonical M w ↔ Reaches (guard (fun w act => ¬ readsOwnFailedRow w act = true) (step M cfg))
      (World.initial ι α clock) w := by
  constructor
  · intro hcanonical
    rcases guarded_or_unstored h with hguarded | ⟨j, result, a, hj, ha, hfailed⟩
    · exact hguarded
    · have hsucceeded := (hcanonical.stored j result hj a ha).1
      rw [hfailed] at hsucceeded
      cases hsucceeded
  · intro hguarded
    have hstored := guarded_stored hguarded
    refine ⟨hstored, ?_, (reachable_custody M h).2.once⟩
    intro i j result result' a a' hi hj ha ha'
    -- both results describe the same row
    obtain ⟨-, hrehydrate, hrow⟩ := hstored i result hi a ha
    obtain ⟨-, hrehydrate', hrow'⟩ := hstored j result' hj a' ha'
    rw [Option.some.inj (hrow.symm.trans hrow'), hrehydrate'] at hrehydrate
    exact (Option.some.inj (Option.some.inj hrehydrate)).symm

end Promise

/-! ## A late answer -/

theorem canonical_iff_takeover :
    ∃ w, runActs (guard (fun w act => ¬ readsOwnFailedRow w act = true)
        (step shortProposals defaultStore)) (World.initial Nat ShortProposal 0) takeoverRun =
          some w ∧
      Canonical shortProposals w ∧ freshes w.history = [1] := by
  have hrun : (runActs (guard (fun w act => ¬ readsOwnFailedRow w act = true)
      (step shortProposals defaultStore)) (World.initial Nat ShortProposal 0) takeoverRun).map
        (fun w => freshes w.history) = some [1] := by decide +kernel
  obtain ⟨w, hw, hfresh⟩ := Option.map_eq_some_iff.mp hrun
  have hguarded := reaches_of_runActs hw
  exact ⟨w, hw, (canonical_iff hguarded.of_guard).mpr hguarded, hfresh⟩

/-- The attempt times out and the call tries again. -/
def timeoutActs (i token : Nat) : List (Act Nat ShortProposal) :=
  [.call i true, .answer i (.liveProviderError "timeout" .providerTimeout), .run i 0 ⟨8⟩ ⟨token⟩]

/-- The last attempt of the first worker hangs past its lease, the second worker ends the row,
and then the first one answers. -/
def exhaustedRun : List (Act Nat ShortProposal) :=
  claimActs 0 0 1 2 ++ timeoutActs 0 3 ++ timeoutActs 0 4 ++
    ([.call 0 true, .tick 120] : List (Act Nat ShortProposal)) ++ claimActs 1 120 5 6 ++
    ([.run 1 120 ⟨5⟩ ⟨6⟩, .run 1 120 ⟨5⟩ ⟨6⟩, .run 1 120 ⟨5⟩ ⟨6⟩, .run 1 120 ⟨5⟩ ⟨6⟩,
      .answer 0 (.artifact ⟨"late", "r", "c"⟩), .run 0 120 ⟨5⟩ ⟨6⟩,
      .run 0 120 ⟨5⟩ ⟨6⟩] : List (Act Nat ShortProposal))

/-- The caller of a result with an artifact, and the status of the row beside it. -/
def Event.delivered? : Event ι α → Option (ι × InvocationStatus)
  | .returned i ⟨some _, r, _⟩ => some (i, r.status)
  | _ => none

theorem late_answer_not_canonical :
    ∃ w, Reaches (step shortProposals defaultStore) (World.initial Nat ShortProposal 0) w ∧
      ¬ Canonical shortProposals w := by
  have hrun : (runActs (step shortProposals defaultStore) (World.initial Nat ShortProposal 0)
      exhaustedRun).map (fun w => w.history.filterMap Event.delivered?) =
        some [(0, .failed)] := by decide +kernel
  obtain ⟨w, hw, hdelivered⟩ := Option.map_eq_some_iff.mp hrun
  refine ⟨w, reaches_of_runActs hw, fun hcanonical => ?_⟩
  have hmem : (0, InvocationStatus.failed) ∈ w.history.filterMap Event.delivered? := by
    rw [hdelivered]
    exact List.mem_singleton_self _
  obtain ⟨e, he, hd⟩ := List.mem_filterMap.mp hmem
  unfold Event.delivered? at hd
  split at hd
  · next i a r d =>
    obtain ⟨rfl, hfailed⟩ := Prod.mk.inj (Option.some.inj hd)
    have hsucceeded := (hcanonical.stored 0 _ he a rfl).1
    rw [hfailed] at hsucceeded
    cases hsucceeded
  · cases hd

end AiAgentsSwd.Reasoning
