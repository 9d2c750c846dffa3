import AiAgentsSwd.Reasoning.Service

/-!
# Reasoning.Lifecycle — bounded attempts and one terminal outcome

1. `Effect`: everything a step can do to the world, and `step_effect`, that it does nothing
   else;
2. `Inv`: the attempts are numbered 1, 2, … as they are claimed, each has its own token, and
   a call holds the token of an attempt it claimed itself;
3. `reachable_inv`, and from it `bounded_attempts`.
-/

namespace AiAgentsSwd.Reasoning

open Planning (Uuid)
open Transition

variable {ι α : Type}

/-! ## Reading the history -/

/-- A claim of an attempt. -/
structure Claim (ι : Type) where
  caller : ι
  attempt : Nat
  token : Uuid

def Event.claim? : Event ι α → Option (Claim ι)
  | .claimed i n t => some ⟨i, n, t⟩
  | _ => none

def Event.call? : Event ι α → Option Nat
  | .called _ n => some n
  | _ => none

/-- The claims, oldest first. -/
def claims (h : List (Event ι α)) : List (Claim ι) := h.filterMap Event.claim?

/-- The attempts for which the provider's verb was called, oldest first. -/
def calls (h : List (Event ι α)) : List Nat := h.filterMap Event.call?

@[simp] theorem claims_nil : claims ([] : List (Event ι α)) = [] := rfl

@[simp] theorem calls_nil : calls ([] : List (Event ι α)) = [] := rfl

@[simp] theorem claims_append (h h' : List (Event ι α)) :
    claims (h ++ h') = claims h ++ claims h' := List.filterMap_append

@[simp] theorem calls_append (h h' : List (Event ι α)) :
    calls (h ++ h') = calls h ++ calls h' := List.filterMap_append

theorem mem_claims {h : List (Event ι α)} {i : ι} {n : Nat} {t : Uuid} :
    ⟨i, n, t⟩ ∈ claims h ↔ .claimed i n t ∈ h := by
  unfold claims
  rw [List.mem_filterMap]
  constructor
  · rintro ⟨e, he, hc⟩
    cases e <;> cases hc
    exact he
  · intro he
    exact ⟨_, he, rfl⟩

theorem mem_calls {h : List (Event ι α)} {n : Nat} :
    n ∈ calls h ↔ ∃ i, .called i n ∈ h := by
  unfold calls
  rw [List.mem_filterMap]
  constructor
  · rintro ⟨e, he, hc⟩
    cases e <;> cases hc
    exact ⟨_, he⟩
  · rintro ⟨i, he⟩
    exact ⟨_, he, rfl⟩

/-! ## What a phase holds -/

/-- The attempt the call owns, as it claimed it. -/
def Phase.owned : Phase α → Option Invocation
  | .attempting _ row => some row
  | .awaiting row => some row
  | .advancing row _ _ => some row
  | .completing row _ => some row
  | .completeReading row _ => some row
  | _ => none

/-- The attempt the call owns and has not called the provider for. -/
def Phase.uncalled : Phase α → Option Invocation
  | .attempting _ row => some row
  | _ => none

/-- The row of another attempt, as the call last read it. -/
def Phase.copied : Phase α → Option Invocation
  | .takingOver _ row => some row
  | .rereading row => some row
  | .exhausting row => some row
  | .exhaustReading row => some row
  | _ => none

/-- The outcome the call carries to its end. -/
def Phase.outcome : Phase α → Option (AttemptOutcome α)
  | .advancing _ o _ => some o
  | .completing _ o => some o
  | .completeReading _ o => some o
  | _ => none

/-- A phase that follows another one keeps its attempt or gives it up, and what it copied was
started when it was read. -/
structure Phase.Follows (p q : Phase α) : Prop where
  owned : ∀ row, q.owned = some row → p.owned = some row
  uncalled : q.uncalled = none
  copied : ∀ row, q.copied = some row → row.status = .started ∨ p.copied = some row

/-! ## What a step does -/

section Effects

variable [DecidableEq ι] (M : ArtifactModels α) (cfg : StoreConfig)

/-- Where a result comes from: the row is still in progress, or the result describes the row,
or it is what the call concludes from the row after its own terminal write was refused. -/
def Honest (w : World ι α) (a : Act ι α) (i : ι) (result : ReasoningResult α) : Prop :=
  (result.artifact = none ∧ result.disposition = .inProgress) ∨
    (∃ r, w.row = some r ∧ settled M r = some result) ∨
    (∃ now invocationId token, a = .run i now invocationId token) ∧
      ∃ request row o r, w.callers i = some ⟨request, .completeReading row o⟩ ∧ w.row = some r ∧
        concluded M row o r = some result

/-- An outcome as `_attempt` makes it. -/
structure AttemptOutcome.Valid (request : Request) (o : AttemptOutcome α) : Prop where
  succeeded : o.status = .succeeded → ∃ a d, o.artifact = some a ∧ o.artifactPayload = some d ∧
    M.asSafeDict a = .ok d ∧ M.verb a = request.verb
  failed : o.status = .failed → o.artifact = none

/-- What the action `a` of the caller carries from one phase to the next: the outcome it had
or a new one; and a call that reads its row back has seen its terminal write refused. -/
structure Carries (w : World ι α) (a : Act ι α) (i : ι) (request : Request) (p q : Phase α) :
    Prop where
  outcome : ∀ o, q.outcome = some o → o.Valid M request ∨ p.outcome = some o
  refused : ∀ row o, q = .completeReading row o → p = .completing row o ∧
    completeInvocation cfg row.invocationId row.attemptToken (o.terminal request) w.row = .noRow ∧
    ∃ now invocationId token, a = .run i now invocationId token

/-- Everything a step can do. -/
inductive Effect (w : World ι α) (a : Act ι α) : World ι α → Prop where
  /-- The clock moves. -/
  | ticked (t : Int) : Effect w a { w with clock := t }
  /-- A call starts. -/
  | started (i : ι) (request : Request) (hi : w.callers i = none) :
      Effect w a (w.goto i request .reading)
  /-- A call goes on without a write. -/
  | moved (i : ι) {request : Request} {p q : Phase α} (hi : w.callers i = some ⟨request, p⟩)
      (hpq : p.Follows q) (hcarries : Carries M cfg w a i request p q) :
      Effect w a (w.goto i request q)
  /-- A call ends without a write. -/
  | ended (i : ι) {result : Option (ReasoningResult α)} (hr : ∀ r ∈ result, Honest M w a i r) :
      Effect w a (w.finish i result)
  /-- A call comes to own the next attempt. -/
  | claimed (i : ι) {request : Request} {refusal : Option LiveProviderError} {row : Invocation}
      (hmove : Moves cfg w.row row) (hnext : row.attempt = w.row.elim 0 Invocation.attempt + 1)
      (hmax : row.attempt ≤ cfg.maxAttempts) (htoken : row.attemptToken ∉ w.issued) :
      Effect w a ((w.claim i row).goto i request (.attempting refusal row))
  /-- A call calls the provider. -/
  | called (i : ι) {request : Request} {row : Invocation}
      (hi : w.callers i = some ⟨request, .attempting none row⟩) :
      Effect w a { w.goto i request (.awaiting row) with
        history := w.history ++ [.called i row.attempt] }
  /-- A call writes the terminal outcome of its attempt. -/
  | completed (i : ι) {request : Request} {row r : Invocation} {o : AttemptOutcome α}
      (hi : w.callers i = some ⟨request, .completing row o⟩) (hrow : w.row = some r)
      (htoken : r.attemptToken = row.attemptToken) (hs : r.status = .started)
      (hc : (r.completed cfg (o.terminal request)).Checked) :
      Effect w a ({ w with
        row := some (r.completed cfg (o.terminal request))
        history := w.history ++ [Event.completed i row.attempt] }.finish i
          (some ⟨o.artifact, r.completed cfg (o.terminal request), .fresh⟩))
  /-- A call ends a row that nobody may attempt again. -/
  | exhausted (i : ι) {request : Request} {current r : Invocation} {reason : String}
      (hi : w.callers i = some ⟨request, .exhausting current⟩) (hrow : w.row = some r)
      (hs : r.status = .started) :
      Effect w a ({ w with
        row := some (r.exhausted cfg reason)
        history := w.history ++ [Event.exhausted i] }.finish i
          (some ⟨none, r.exhausted cfg reason, .replay⟩))

variable {M cfg} {w w' : World ι α} {i : ι}

/-- A phase of an owner follows one of the same owner. -/
theorem follows_owner {p q : Phase α} (h : ∀ row, q.owned = some row → p.owned = some row)
    (huncalled : q.uncalled = none) (hcopied : q.copied = none) : p.Follows q where
  owned := h
  uncalled := huncalled
  copied row hrow := by
    rw [hcopied] at hrow
    cases hrow

/-- A phase that owns nothing follows any phase, if its copy was started. -/
theorem follows_reader {p q : Phase α} (howned : q.owned = none) (huncalled : q.uncalled = none)
    (h : ∀ row, q.copied = some row → row.status = .started ∨ p.copied = some row) :
    p.Follows q where
  owned row hrow := by
    rw [howned] at hrow
    cases hrow
  uncalled := huncalled
  copied := h

variable (cfg) in
theorem afterAttempt_cases (row : Invocation) (refused : Bool) (o : AttemptOutcome α) :
    (∃ c, afterAttempt cfg row refused o = .advancing row o c) ∨
      afterAttempt cfg row refused o = .completing row o := by
  unfold afterAttempt
  split
  · split
    · exact Or.inl ⟨_, rfl⟩
    · exact Or.inr rfl
  · exact Or.inr rfl

/-- The phase after an attempt is one of the owner of the attempt. -/
theorem follows_afterAttempt {p : Phase α} {row : Invocation} {refused : Bool}
    {o : AttemptOutcome α} (hp : p.owned = some row) :
    p.Follows (afterAttempt cfg row refused o) := by
  rcases afterAttempt_cases cfg row refused o with ⟨c, heq⟩ | heq
  · rw [heq]
    exact follows_owner (fun _ h => hp.trans h) rfl rfl
  · rw [heq]
    exact follows_owner (fun _ h => hp.trans h) rfl rfl

theorem classify_valid (request : Request) (answer : Answer α) :
    (classify M request answer).Valid M request := by
  have hunstorable : ∀ e : String, (unstorable e : AttemptOutcome α).Valid M request :=
    fun e => ⟨fun h => (by cases h), fun _ => rfl⟩
  cases answer with
  | artifact a =>
    unfold classify
    simp only
    split
    · exact ⟨fun h => (by cases h), fun _ => rfl⟩
    · next hverb =>
      cases hdict : M.asSafeDict a with
      | error e => exact hunstorable e
      | ok d =>
        simp only
        split
        · exact hunstorable _
        · exact ⟨fun _ => ⟨a, d, rfl, rfl, hdict, not_not.mp hverb⟩, fun h => by cases h⟩
  | other typeName => exact ⟨fun h => (by cases h), fun _ => rfl⟩
  | liveProviderError message c => exact ⟨fun h => (by cases h), fun _ => rfl⟩
  | reasoningProviderError message => exact ⟨fun h => (by cases h), fun _ => rfl⟩
  | exception className => exact ⟨fun h => (by cases h), fun _ => rfl⟩

omit [DecidableEq ι] in
/-- A phase without an outcome carries nothing. -/
theorem carries_none {a : Act ι α} {request : Request} {p q : Phase α} (h : q.outcome = none) :
    Carries M cfg w a i request p q where
  outcome o ho := by
    rw [h] at ho
    cases ho
  refused row o hq := by
    rw [hq] at h
    cases h

omit [DecidableEq ι] in
/-- The phase after an attempt carries the attempt's outcome. -/
theorem carries_afterAttempt {a : Act ι α} {request : Request} {p : Phase α} {row : Invocation}
    {refused : Bool} {o : AttemptOutcome α} (ho : o.Valid M request) :
    Carries M cfg w a i request p (afterAttempt cfg row refused o) := by
  rcases afterAttempt_cases cfg row refused o with ⟨c, heq⟩ | heq
  · rw [heq]
    exact ⟨fun x hx => Or.inl (Option.some.inj hx ▸ ho), fun _ _ h => by cases h⟩
  · rw [heq]
    exact ⟨fun x hx => Or.inl (Option.some.inj hx ▸ ho), fun _ _ h => by cases h⟩

theorem settled_started {r : Invocation} (hs : r.status = .started) :
    settled M r = some ⟨none, r, .inProgress⟩ := by
  unfold settled
  rw [if_pos hs]

omit [DecidableEq ι] in
theorem honest_settled {a : Act ι α} {r : Invocation} (hr : w.row = some r) :
    ∀ x ∈ settled M r, Honest M w a i x :=
  fun _ hx => Or.inr (Or.inl ⟨r, hr, hx⟩)

omit [DecidableEq ι] in
/-- What is settled from the row, or from a copy of a started row, is honest. -/
theorem honest_settled_getD {a : Act ι α} {r : Invocation} (hs : r.status = .started) :
    ∀ x ∈ settled M (w.row.getD r), Honest M w a i x := by
  intro x hx
  cases hrow : w.row with
  | none =>
    rw [hrow, Option.getD_none, settled_started hs] at hx
    obtain rfl := Option.some.inj hx
    exact Or.inl ⟨rfl, rfl⟩
  | some c =>
    rw [hrow, Option.getD_some] at hx
    exact Or.inr (Or.inl ⟨c, hrow, hx⟩)

/-- The copies the calls hold were of a started row. -/
def CopiesStarted (w : World ι α) : Prop :=
  ∀ i c row, w.callers i = some c → c.phase.copied = some row → row.status = .started

/-- A statement of a call does one of the effects. -/
theorem runStatement_effect (hcopies : CopiesStarted w) {request : Request} {phase : Phase α}
    (hi : w.callers i = some ⟨request, phase⟩) {now : Int} {invocationId token : Uuid}
    (htoken : token ∉ w.issued)
    (h : runStatement M cfg w i now invocationId token request phase = some w') :
    Effect M cfg w (.run i now invocationId token) w' := by
  cases phase with
  | preflighting => cases h
  | attempting refusal row => cases h
  | awaiting row => cases h
  | reading =>
    obtain rfl := Option.some.inj h
    have hgoto : Effect M cfg w (.run i now invocationId token)
        (w.goto i request .preflighting) :=
      .moved i hi (follows_owner (fun _ h => by cases h) rfl rfl) (carries_none rfl)
    cases hrow : w.row with
    | none => exact hgoto
    | some r =>
      by_cases hs : r.status = .started
      · simp only [hs, ne_eq, not_true_eq_false, if_false]
        exact hgoto
      · simp only [hs, ne_eq, not_false_eq_true, if_true]
        exact .ended i (honest_settled hrow)
  | claiming refusal =>
    obtain rfl := Option.some.inj h
    cases hrow : w.row with
    | none =>
      refine .claimed i ?_ ?_ cfg.one_le_maxAttempts htoken
      · rw [hrow]
        exact .begun now request.verb invocationId token
      · rw [hrow]
        rfl
    | some r =>
      exact .moved i hi (follows_owner (fun _ h => by cases h) rfl rfl) (carries_none rfl)
  | conflicted refusal =>
    obtain rfl := Option.some.inj h
    cases hrow : w.row with
    | none => exact .ended i fun r hr => by cases hr
    | some r =>
      by_cases hs : r.status = .started
      · simp only [hs, ne_eq, not_true_eq_false, if_false]
        refine .moved i hi (follows_reader rfl rfl fun row h => Or.inl ?_) (carries_none rfl)
        obtain rfl := Option.some.inj h
        exact hs
      · simp only [hs, ne_eq, not_false_eq_true, if_true]
        exact .ended i (honest_settled hrow)
  | takingOver refusal row =>
    obtain rfl := Option.some.inj h
    cases htake : tryTakeOverInvocation cfg now token w.row with
    | none => exact .moved i hi (follows_reader rfl rfl fun _ h => Or.inr h) (carries_none rfl)
    | some taken =>
      obtain ⟨r, hrow, hs, hlt, rfl⟩ := tryTakeOverInvocation_eq_some htake
      refine .claimed i ?_ ?_ hlt htoken
      · rw [hrow]
        exact .nextAttempt now token hs hlt
      · rw [hrow]
        rfl
  | rereading row =>
    obtain rfl := Option.some.inj h
    have hs := hcopies i _ row hi rfl
    unfold recovered
    by_cases hcur : (w.row.getD row).status = .started
    · rw [if_neg (not_not.mpr hcur)]
      split
      · refine .moved i hi (follows_reader rfl rfl fun r h => Or.inl ?_) (carries_none rfl)
        obtain rfl := Option.some.inj h
        exact hcur
      · refine .ended i fun r hr => Or.inl ?_
        obtain rfl := Option.some.inj hr
        exact ⟨rfl, rfl⟩
    · rw [if_pos hcur]
      exact .ended i (honest_settled_getD hs)
  | exhausting current =>
    obtain rfl := Option.some.inj h
    cases hfail : failExhaustedInvocation cfg now current.invocationId (exhaustedReason current)
        w.row with
    | none => exact .moved i hi (follows_reader rfl rfl fun _ h => Or.inr h) (carries_none rfl)
    | some row =>
      obtain ⟨r, hrow, hs, rfl⟩ := failExhaustedInvocation_eq_some hfail
      exact .exhausted i hi hrow hs
  | exhaustReading current =>
    obtain rfl := Option.some.inj h
    exact .ended i (honest_settled_getD (hcopies i _ current hi rfl))
  | advancing row o c =>
    obtain rfl := Option.some.inj h
    cases hadv : advanceRetryableAttempt cfg now token row.invocationId row.attemptToken c
        w.row with
    | none =>
      exact .moved i hi (follows_owner (fun _ h => h) rfl rfl)
        ⟨fun _ h => Or.inr h, fun _ _ h => by cases h⟩
    | some advanced =>
      obtain ⟨r, hrow, -, hs, hlt, rfl⟩ := advanceRetryableAttempt_eq_some hadv
      refine .claimed i ?_ ?_ hlt htoken
      · rw [hrow]
        exact .nextAttempt now token hs hlt
      · rw [hrow]
        rfl
  | completing row o =>
    obtain rfl := Option.some.inj h
    cases hcomp : completeInvocation cfg row.invocationId row.attemptToken (o.terminal request)
        w.row with
    | noRow =>
      refine .moved i hi (follows_owner (fun _ h => h) rfl rfl) ⟨fun _ h => Or.inr h, ?_⟩
      intro row' o' hq
      obtain ⟨rfl, rfl⟩ := Phase.completeReading.inj hq
      exact ⟨rfl, hcomp, now, invocationId, token, rfl⟩
    | violation => exact .ended i fun r hr => by cases hr
    | wrote row' =>
      obtain ⟨r, hrow, htok, hs, hchecked, rfl⟩ := completeInvocation_eq_wrote hcomp
      have hconcluded : concluded M row o (r.completed cfg (o.terminal request)) =
          some ⟨o.artifact, r.completed cfg (o.terminal request), .fresh⟩ := by
        unfold concluded
        exact if_neg (not_not.mpr htok)
      simp only [hconcluded]
      exact .completed i hi hrow htok hs hchecked
  | completeReading row o =>
    obtain rfl := Option.some.inj h
    cases hrow : w.row with
    | none => exact .ended i fun r hr => by cases hr
    | some r =>
      exact .ended i fun x hx => Or.inr (Or.inr
        ⟨⟨now, invocationId, token, rfl⟩, request, row, o, r, hi, hrow, hx⟩)

/-- **Every step does one of the effects.** -/
theorem step_effect (hcopies : CopiesStarted w) {a : Act ι α} (h : step M cfg w a = some w') :
    Effect M cfg w a w' := by
  cases a with
  | tick t =>
    rw [step] at h
    split at h
    · obtain rfl := Option.some.inj h
      exact .ticked t
    · cases h
  | start i request =>
    rw [step] at h
    split at h
    · next hi =>
      obtain rfl := Option.some.inj h
      exact .started i request hi
    · cases h
  | crash i =>
    obtain rfl := Option.some.inj h
    show Effect M cfg w (.crash i) (w.finish i none)
    exact .ended i fun r hr => by cases hr
  | run i now invocationId token =>
    rw [step] at h
    split at h
    · next c hi =>
      split at h
      · next hfresh => exact runStatement_effect hcopies hi hfresh.2.1 h
      · cases h
    · cases h
  | preflight i answer =>
    rw [step] at h
    split at h
    · next request hi =>
      obtain rfl := Option.some.inj h
      exact .moved i hi (follows_owner (fun _ h => by cases h) rfl rfl) (carries_none rfl)
    · cases h
  | call i hasVerb =>
    rw [step] at h
    split at h
    · next request e row hi =>
      obtain rfl := Option.some.inj h
      have hvalid : (e.outcome : AttemptOutcome α).Valid M request :=
        ⟨fun h => (by cases h), fun _ => rfl⟩
      exact .moved i hi (follows_afterAttempt rfl) (carries_afterAttempt hvalid)
    · next request row hi =>
      cases hasVerb with
      | true =>
        obtain rfl := Option.some.inj h
        exact .called i hi
      | false =>
        obtain rfl := Option.some.inj h
        have hvalid : (missingVerb (step.verbName request.verb) : AttemptOutcome α).Valid M
            request := ⟨fun h => (by cases h), fun _ => rfl⟩
        exact .moved i hi (follows_afterAttempt rfl) (carries_afterAttempt hvalid)
    · cases h
  | answer i answer =>
    rw [step] at h
    split at h
    · next request row hi =>
      obtain rfl := Option.some.inj h
      exact .moved i hi (follows_afterAttempt rfl) (carries_afterAttempt (classify_valid _ _))
    · cases h

end Effects

/-! ## The invariant -/

/-- The attempts are numbered as they are claimed, and a call holds what it claimed. -/
structure Inv (cfg : StoreConfig) (w : World ι α) : Prop where
  numbered : (claims w.history).map Claim.attempt =
    List.range' 1 (w.row.elim 0 Invocation.attempt)
  bounded : ∀ r ∈ w.row, r.attempt ≤ cfg.maxAttempts
  current : ∀ r ∈ w.row, ∃ i, ⟨i, r.attempt, r.attemptToken⟩ ∈ claims w.history
  tokens : ((claims w.history).map Claim.token).Nodup
  issued : ∀ c ∈ claims w.history, c.token ∈ w.issued
  owners : ∀ i c row, w.callers i = some c → c.phase.owned = some row →
    ⟨i, row.attempt, row.attemptToken⟩ ∈ claims w.history
  copies : CopiesStarted w
  callers : ∀ i n, .called i n ∈ w.history → ∃ t, ⟨i, n, t⟩ ∈ claims w.history
  once : (calls w.history).Nodup
  uncalled : ∀ i c row, w.callers i = some c → c.phase.uncalled = some row →
    row.attempt ∉ calls w.history
  wellFormed : ∀ r ∈ w.row, r.WellFormed
  completed : ∀ i n, .completed i n ∈ w.history →
    ∃ r ∈ w.row, r.status ≠ .started ∧ r.attempt = n ∧ ∃ t, ⟨i, n, t⟩ ∈ claims w.history

section Invariant

variable {cfg : StoreConfig} {w w' : World ι α} {i j : ι} {n m : Nat} {t u : Uuid}

theorem inv_initial (cfg : StoreConfig) (clock : Int) : Inv cfg (World.initial ι α clock) where
  numbered := rfl
  bounded r hr := by cases hr
  current r hr := by cases hr
  tokens := List.nodup_nil
  issued c hc := by cases hc
  owners i c row hi := by cases hi
  copies i c row hi := by cases hi
  callers i n he := by cases he
  once := List.nodup_nil
  uncalled i c row hi := by cases hi
  wellFormed r hr := by cases hr
  completed i n he := by cases he

/-- An attempt is claimed once. -/
theorem Inv.attempt_unique (h : Inv cfg w) (hc : ⟨i, n, t⟩ ∈ claims w.history)
    (hc' : ⟨j, n, u⟩ ∈ claims w.history) : i = j ∧ t = u := by
  have hnodup : ((claims w.history).map Claim.attempt).Nodup := by
    rw [h.numbered]
    exact List.nodup_range'
  have heq := List.inj_on_of_nodup_map hnodup hc hc' rfl
  exact ⟨congrArg Claim.caller heq, congrArg Claim.token heq⟩

/-- A token belongs to one attempt. -/
theorem Inv.token_unique (h : Inv cfg w) (hc : ⟨i, n, t⟩ ∈ claims w.history)
    (hc' : ⟨j, m, t⟩ ∈ claims w.history) : i = j ∧ n = m := by
  have heq := List.inj_on_of_nodup_map h.tokens hc hc' rfl
  exact ⟨congrArg Claim.caller heq, congrArg Claim.attempt heq⟩

theorem Inv.attempt_le (h : Inv cfg w) (hc : ⟨i, n, t⟩ ∈ claims w.history) :
    ∃ r ∈ w.row, 1 ≤ n ∧ n ≤ r.attempt := by
  have hmem : n ∈ List.range' 1 (w.row.elim 0 Invocation.attempt) := by
    rw [← h.numbered]
    exact List.mem_map_of_mem hc
  rw [List.mem_range'_1] at hmem
  cases hrow : w.row with
  | none =>
    rw [hrow, Option.elim_none] at hmem
    omega
  | some r =>
    rw [hrow, Option.elim_some] at hmem
    exact ⟨r, rfl, by omega, by omega⟩

/-! ### Steps without a write -/

/-- A step that writes neither the row nor a claim nor a call keeps the invariant. -/
theorem Inv.frame (h : Inv cfg w) (hrow : w'.row = w.row) (hissued : w'.issued = w.issued)
    (es : List (Event ι α)) (hhistory : w'.history = w.history ++ es)
    (hes : ∀ e ∈ es, ∃ i r, e = .returned i r)
    (howned : ∀ i c row, w'.callers i = some c → c.phase.owned = some row →
      ∃ c₀, w.callers i = some c₀ ∧ c₀.phase.owned = some row)
    (huncalled : ∀ i c row, w'.callers i = some c → c.phase.uncalled = some row →
      ∃ c₀, w.callers i = some c₀ ∧ c₀.phase.uncalled = some row)
    (hcopies : CopiesStarted w') : Inv cfg w' := by
  have hnoclaim : claims es = [] := by
    rw [claims, List.filterMap_eq_nil_iff]
    intro e he
    obtain ⟨i, r, rfl⟩ := hes e he
    rfl
  have hnocall : calls es = [] := by
    rw [calls, List.filterMap_eq_nil_iff]
    intro e he
    obtain ⟨i, r, rfl⟩ := hes e he
    rfl
  have hclaims : claims w'.history = claims w.history := by
    rw [hhistory, claims_append, hnoclaim, List.append_nil]
  have hcalls : calls w'.history = calls w.history := by
    rw [hhistory, calls_append, hnocall, List.append_nil]
  have hold : ∀ e ∈ w'.history, (∀ i r, e ≠ .returned i r) → e ∈ w.history := by
    intro e he hne
    rw [hhistory, List.mem_append] at he
    rcases he with he | he
    · exact he
    · obtain ⟨i, r, rfl⟩ := hes e he
      exact absurd rfl (hne i r)
  refine ⟨?_, ?_, ?_, ?_, ?_, ?_, hcopies, ?_, ?_, ?_, ?_, ?_⟩
  · rw [hclaims, hrow]
    exact h.numbered
  · rw [hrow]
    exact h.bounded
  · rw [hclaims, hrow]
    exact h.current
  · rw [hclaims]
    exact h.tokens
  · rw [hclaims, hissued]
    exact h.issued
  · intro i c row hi hc
    obtain ⟨c₀, hi₀, hc₀⟩ := howned i c row hi hc
    rw [hclaims]
    exact h.owners i c₀ row hi₀ hc₀
  · intro i n he
    rw [hclaims]
    exact h.callers i n (hold _ he fun _ _ heq => by cases heq)
  · rw [hcalls]
    exact h.once
  · intro i c row hi hc
    obtain ⟨c₀, hi₀, hc₀⟩ := huncalled i c row hi hc
    rw [hcalls]
    exact h.uncalled i c₀ row hi₀ hc₀
  · rw [hrow]
    exact h.wellFormed
  · intro i n he
    rw [hclaims, hrow]
    exact h.completed i n (hold _ he fun _ _ heq => by cases heq)

section Callers

variable [DecidableEq ι]

@[simp] theorem World.setCaller_callers (w : World ι α) (i j : ι) (c : Option (Caller α)) :
    (w.setCaller i c).callers j = if j = i then c else w.callers j := rfl

theorem World.callers_setCaller {w : World ι α} {i j : ι} {c : Option (Caller α)} {x : Caller α}
    (h : (w.setCaller i c).callers j = some x) :
    (j = i ∧ c = some x) ∨ (j ≠ i ∧ w.callers j = some x) := by
  rw [setCaller_callers] at h
  by_cases hji : j = i
  · rw [if_pos hji] at h
    exact Or.inl ⟨hji, h⟩
  · rw [if_neg hji] at h
    exact Or.inr ⟨hji, h⟩

/-- A call that goes on keeps the invariant. -/
theorem Inv.goto (h : Inv cfg w) {request : Request} {p q : Phase α}
    (hi : w.callers i = some ⟨request, p⟩) (hpq : p.Follows q) :
    Inv cfg (w.goto i request q) := by
  refine h.frame rfl rfl [] (List.append_nil _).symm (by simp) ?_ ?_ ?_
  · intro j c row hj hc
    rcases World.callers_setCaller hj with ⟨rfl, hc'⟩ | ⟨-, hj⟩
    · obtain rfl := Option.some.inj hc'
      exact ⟨_, hi, hpq.owned row hc⟩
    · exact ⟨c, hj, hc⟩
  · intro j c row hj hc
    rcases World.callers_setCaller hj with ⟨rfl, hc'⟩ | ⟨-, hj⟩
    · obtain rfl := Option.some.inj hc'
      rw [hpq.uncalled] at hc
      cases hc
    · exact ⟨c, hj, hc⟩
  · intro j c row hj hc
    rcases World.callers_setCaller hj with ⟨rfl, hc'⟩ | ⟨-, hj⟩
    · obtain rfl := Option.some.inj hc'
      rcases hpq.copied row hc with hs | hs
      · exact hs
      · exact h.copies j _ row hi hs
    · exact h.copies j c row hj hc

/-- A call that holds nothing keeps the invariant. -/
theorem Inv.setCaller (h : Inv cfg w) {c : Option (Caller α)} (es : List (Event ι α))
    (hes : ∀ e ∈ es, ∃ i r, e = .returned i r) (howned : ∀ x ∈ c, x.phase.owned = none)
    (huncalled : ∀ x ∈ c, x.phase.uncalled = none) (hcopied : ∀ x ∈ c, x.phase.copied = none) :
    Inv cfg { w.setCaller i c with history := w.history ++ es } := by
  refine h.frame rfl rfl es rfl hes ?_ ?_ ?_
  · intro j x row hj hx
    rcases World.callers_setCaller hj with ⟨-, hc⟩ | ⟨-, hj⟩
    · rw [howned x hc] at hx
      cases hx
    · exact ⟨x, hj, hx⟩
  · intro j x row hj hx
    rcases World.callers_setCaller hj with ⟨-, hc⟩ | ⟨-, hj⟩
    · rw [huncalled x hc] at hx
      cases hx
    · exact ⟨x, hj, hx⟩
  · intro j x row hj hx
    rcases World.callers_setCaller hj with ⟨-, hc⟩ | ⟨-, hj⟩
    · rw [hcopied x hc] at hx
      cases hx
    · exact h.copies j x row hj hx

/-- A call that ends keeps the invariant. -/
theorem Inv.finish (h : Inv cfg w) (result : Option (ReasoningResult α)) :
    Inv cfg (w.finish i result) := by
  have hnone : ∀ es : List (Event ι α), (∀ e ∈ es, ∃ i r, e = .returned i r) →
      Inv cfg { w.setCaller i none with history := w.history ++ es } :=
    fun es hes => h.setCaller es hes (by simp) (by simp) (by simp)
  cases result with
  | none =>
    have hempty := hnone [] (by simp)
    rw [List.append_nil] at hempty
    exact hempty
  | some r => exact hnone [.returned i r] (by simp)

/-! ### Steps that write -/

/-- A claim keeps the invariant. -/
theorem Inv.claim (h : Inv cfg w) {request : Request} {refusal : Option LiveProviderError}
    {row : Invocation} (hmove : Moves cfg w.row row)
    (hnext : row.attempt = w.row.elim 0 Invocation.attempt + 1)
    (hmax : row.attempt ≤ cfg.maxAttempts) (htoken : row.attemptToken ∉ w.issued) :
    Inv cfg ((w.claim i row).goto i request (.attempting refusal row)) := by
  have hclaims : claims ((w.claim i row).goto i request (.attempting refusal row)).history =
      claims w.history ++ [⟨i, row.attempt, row.attemptToken⟩] := claims_append _ _
  have hcalls : calls ((w.claim i row).goto i request (.attempting refusal row)).history =
      calls w.history := by
    show calls (w.history ++ _) = _
    rw [calls_append]
    exact List.append_nil _
  have hnew : (⟨i, row.attempt, row.attemptToken⟩ : Claim ι) ∈
      claims w.history ++ [⟨i, row.attempt, row.attemptToken⟩] := by simp
  have hold : ∀ {c : Claim ι}, c ∈ claims w.history →
      c ∈ claims w.history ++ [⟨i, row.attempt, row.attemptToken⟩] :=
    fun hc => List.mem_append_left _ hc
  -- no attempt made so far has the new number
  have hfresh : row.attempt ∉ calls w.history := by
    intro hmem
    obtain ⟨j, hj⟩ := mem_calls.mp hmem
    obtain ⟨t, ht⟩ := h.callers j _ hj
    obtain ⟨r, hr, -, hle⟩ := h.attempt_le ht
    rw [Option.mem_def.mp hr, Option.elim_some] at hnext
    omega
  refine ⟨?_, ?_, ?_, ?_, ?_, ?_, ?_, ?_, ?_, ?_, ?_, ?_⟩
  · rw [hclaims, List.map_append, h.numbered]
    show _ ++ [row.attempt] = List.range' 1 row.attempt
    rw [hnext, List.range'_concat]
    simp [Nat.add_comm]
  · intro r hr
    obtain rfl := Option.some.inj hr
    exact hmax
  · intro r hr
    obtain rfl := Option.some.inj hr
    rw [hclaims]
    exact ⟨i, hnew⟩
  · rw [hclaims, List.map_append, List.nodup_append]
    refine ⟨h.tokens, by simp, ?_⟩
    intro t ht u hu heq
    obtain ⟨c, hc, rfl⟩ := List.mem_map.mp ht
    have hu : u = row.attemptToken := by simpa using hu
    rw [heq, hu] at ht
    obtain ⟨c', hc', heq'⟩ := List.mem_map.mp ht
    exact htoken (heq' ▸ h.issued c' hc')
  · intro c hc
    rw [hclaims, List.mem_append, List.mem_singleton] at hc
    rcases hc with hc | rfl
    · exact List.mem_cons_of_mem _ (List.mem_cons_of_mem _ (h.issued c hc))
    · exact List.mem_cons_self
  · intro j c r hj hc
    rw [hclaims]
    rcases World.callers_setCaller hj with ⟨rfl, hc'⟩ | ⟨-, hj⟩
    · obtain rfl := Option.some.inj hc'
      obtain rfl := Option.some.inj hc
      exact hnew
    · exact hold (h.owners j c r hj hc)
  · intro j c r hj hc
    rcases World.callers_setCaller hj with ⟨rfl, hc'⟩ | ⟨-, hj⟩
    · obtain rfl := Option.some.inj hc'
      cases hc
    · exact h.copies j c r hj hc
  · intro j n he
    rw [hclaims]
    have he' : Event.called j n ∈ w.history := by
      have he' : Event.called j n ∈ w.history ++ [.claimed i row.attempt row.attemptToken] := he
      simpa using he'
    obtain ⟨t, ht⟩ := h.callers j n he'
    exact ⟨t, hold ht⟩
  · rw [hcalls]
    exact h.once
  · intro j c r hj hc
    rw [hcalls]
    rcases World.callers_setCaller hj with ⟨rfl, hc'⟩ | ⟨-, hj⟩
    · obtain rfl := Option.some.inj hc'
      obtain rfl := Option.some.inj hc
      exact hfresh
    · exact h.uncalled j c r hj hc
  · intro r hr
    obtain rfl := Option.some.inj hr
    exact hmove.wellFormed h.wellFormed
  · intro j n he
    have he' : Event.completed j n ∈ w.history := by
      have he' : Event.completed j n ∈ w.history ++ [.claimed i row.attempt row.attemptToken] :=
        he
      simpa using he'
    -- the row was started, so nothing had completed
    obtain ⟨r, hr, hne, -⟩ := h.completed j n he'
    exact absurd (hmove.started r hr) hne

omit [DecidableEq ι] in
/-- The end of the row keeps the invariant. -/
theorem Inv.terminate (h : Inv cfg w) {r r' : Invocation} (hrow : w.row = some r)
    (hmove : Moves cfg w.row r') (hattempt : r'.attempt = r.attempt)
    (htoken : r'.attemptToken = r.attemptToken) (hend : r'.status ≠ .started) (e : Event ι α)
    (he : e = .exhausted i ∨
      (e = .completed i r.attempt ∧ ∃ t, ⟨i, r.attempt, t⟩ ∈ claims w.history)) :
    Inv cfg { w with row := some r', history := w.history ++ [e] } := by
  have hclaims : claims (w.history ++ [e]) = claims w.history := by
    rw [claims_append]
    rcases he with rfl | ⟨rfl, -⟩ <;> exact List.append_nil _
  have hcalls : calls (w.history ++ [e]) = calls w.history := by
    rw [calls_append]
    rcases he with rfl | ⟨rfl, -⟩ <;> exact List.append_nil _
  refine ⟨?_, ?_, ?_, ?_, ?_, ?_, h.copies, ?_, ?_, ?_, ?_, ?_⟩
  · show (claims (w.history ++ [e])).map _ = List.range' 1 r'.attempt
    rw [hclaims, hattempt, h.numbered, hrow]
    rfl
  · intro x hx
    obtain rfl := Option.some.inj hx
    rw [hattempt]
    exact h.bounded r hrow
  · intro x hx
    obtain rfl := Option.some.inj hx
    show ∃ i, _ ∈ claims (w.history ++ [e])
    rw [hclaims, hattempt, htoken]
    exact h.current r hrow
  · show ((claims (w.history ++ [e])).map _).Nodup
    rw [hclaims]
    exact h.tokens
  · show ∀ c ∈ claims (w.history ++ [e]), _
    rw [hclaims]
    exact h.issued
  · intro j c x hj hc
    show _ ∈ claims (w.history ++ [e])
    rw [hclaims]
    exact h.owners j c x hj hc
  · intro j n hn
    show ∃ t, _ ∈ claims (w.history ++ [e])
    rw [hclaims]
    refine h.callers j n ?_
    rcases List.mem_append.mp hn with hn | hn
    · exact hn
    · rcases he with rfl | ⟨rfl, -⟩ <;> simp at hn
  · show (calls (w.history ++ [e])).Nodup
    rw [hcalls]
    exact h.once
  · intro j c x hj hc
    show _ ∉ calls (w.history ++ [e])
    rw [hcalls]
    exact h.uncalled j c x hj hc
  · intro x hx
    obtain rfl := Option.some.inj hx
    exact hmove.wellFormed h.wellFormed
  · intro j n hn
    show ∃ x ∈ some r', _ ∧ _ ∧ ∃ t, _ ∈ claims (w.history ++ [e])
    rw [hclaims]
    rcases List.mem_append.mp hn with hn | hn
    · obtain ⟨x, hx, hne, -⟩ := h.completed j n hn
      exact absurd (hmove.started x hx) hne
    · rcases he with rfl | ⟨rfl, hc⟩
      · simp at hn
      · obtain ⟨rfl, rfl⟩ : j = i ∧ n = r.attempt := by simpa using hn
        exact ⟨r', rfl, hend, hattempt, hc⟩

/-- The call of the provider keeps the invariant. -/
theorem Inv.called (h : Inv cfg w) {request : Request} {row : Invocation}
    (hi : w.callers i = some ⟨request, .attempting none row⟩) :
    Inv cfg { w.goto i request (.awaiting row) with
      history := w.history ++ [.called i row.attempt] } := by
  have howner := h.owners i _ row hi rfl
  have hfresh := h.uncalled i _ row hi rfl
  have hclaims : claims (w.history ++ [Event.called i row.attempt]) = claims w.history := by
    rw [claims_append]
    exact List.append_nil _
  have hcalls : calls (w.history ++ [Event.called i row.attempt]) =
      calls w.history ++ [row.attempt] := calls_append _ _
  refine ⟨?_, h.bounded, ?_, ?_, ?_, ?_, ?_, ?_, ?_, ?_, h.wellFormed, ?_⟩
  · show (claims (w.history ++ _)).map _ = _
    rw [hclaims]
    exact h.numbered
  · show ∀ r ∈ w.row, ∃ i, _ ∈ claims (w.history ++ _)
    rw [hclaims]
    exact h.current
  · show ((claims (w.history ++ _)).map _).Nodup
    rw [hclaims]
    exact h.tokens
  · show ∀ c ∈ claims (w.history ++ _), _
    rw [hclaims]
    exact h.issued
  · intro j c x hj hc
    show _ ∈ claims (w.history ++ _)
    rw [hclaims]
    rcases World.callers_setCaller hj with ⟨rfl, hc'⟩ | ⟨-, hj⟩
    · obtain rfl := Option.some.inj hc'
      obtain rfl := Option.some.inj hc
      exact howner
    · exact h.owners j c x hj hc
  · intro j c x hj hc
    rcases World.callers_setCaller hj with ⟨rfl, hc'⟩ | ⟨-, hj⟩
    · obtain rfl := Option.some.inj hc'
      cases hc
    · exact h.copies j c x hj hc
  · intro j n hn
    show ∃ t, _ ∈ claims (w.history ++ _)
    rw [hclaims]
    rcases List.mem_append.mp hn with hn | hn
    · exact h.callers j n hn
    · obtain ⟨rfl, rfl⟩ : j = i ∧ n = row.attempt := by simpa using hn
      exact ⟨_, howner⟩
  · show (calls (w.history ++ _)).Nodup
    rw [hcalls, List.nodup_append]
    refine ⟨h.once, by simp, fun n hn m hm heq => hfresh ?_⟩
    have hm : m = row.attempt := by simpa using hm
    rw [← hm, ← heq]
    exact hn
  · intro j c x hj hc
    show _ ∉ calls (w.history ++ _)
    rw [hcalls]
    rcases World.callers_setCaller hj with ⟨rfl, hc'⟩ | ⟨hne, hj⟩
    · obtain rfl := Option.some.inj hc'
      cases hc
    · rw [List.mem_append, List.mem_singleton, not_or]
      refine ⟨h.uncalled j c x hj hc, fun heq => hne ?_⟩
      -- the other call owns another attempt
      have howned : c.phase.owned = some x := by
        cases hp : c.phase <;> rw [hp] at hc <;> cases hc
        rfl
      have hother := h.owners j c x hj howned
      rw [heq] at hother
      exact (h.attempt_unique hother howner).1
  · intro j n hn
    show ∃ r ∈ w.row, _ ∧ _ ∧ ∃ t, _ ∈ claims (w.history ++ _)
    rw [hclaims]
    refine h.completed j n ?_
    rcases List.mem_append.mp hn with hn | hn
    · exact hn
    · simp at hn

/-- **Every effect keeps the invariant.** -/
theorem Inv.effect {M : ArtifactModels α} {a : Act ι α} (h : Inv cfg w)
    (he : Effect M cfg w a w') : Inv cfg w' := by
  cases he with
  | ticked t =>
    exact h.frame rfl rfl [] (List.append_nil _).symm (by simp) (fun i c row hi hc => ⟨c, hi, hc⟩)
      (fun i c row hi hc => ⟨c, hi, hc⟩) h.copies
  | started i request hi =>
    have hstart := h.setCaller (i := i) (c := some ⟨request, .reading⟩) [] (by simp)
      (by simp [Phase.owned]) (by simp [Phase.uncalled]) (by simp [Phase.copied])
    rw [List.append_nil] at hstart
    exact hstart
  | moved i hi hpq hcarries => exact h.goto hi hpq
  | ended i hr => exact h.finish _
  | claimed i hmove hnext hmax htoken => exact h.claim hmove hnext hmax htoken
  | called i hi => exact h.called hi
  | @completed i request row r o hi hrow htoken hs hc =>
    have howner := h.owners i _ row hi rfl
    obtain ⟨j, hj⟩ := h.current r hrow
    rw [htoken] at hj
    -- the row still carries the token, so the attempt is the current one
    obtain ⟨rfl, hattempt⟩ := h.token_unique howner hj
    have hended : Inv cfg { w with
        row := some (r.completed cfg (o.terminal request))
        history := w.history ++ [Event.completed i row.attempt] } := by
      refine h.terminate (i := i) hrow ?_ ?_ ?_ ?_ _ (Or.inr ⟨?_, ?_⟩)
      · rw [hrow]
        exact .completed hs hc
      · rfl
      · rfl
      · exact o.status.toStatus_ne_started
      · rw [hattempt]
      · rw [← hattempt]
        exact ⟨_, howner⟩
    exact hended.finish _
  | @exhausted i request current r reason hi hrow hs =>
    have hended : Inv cfg { w with
        row := some (r.exhausted cfg reason), history := w.history ++ [Event.exhausted i] } := by
      refine h.terminate (i := i) hrow ?_ ?_ ?_ ?_ _ (Or.inl rfl)
      · rw [hrow]
        exact .exhausted hs
      · rfl
      · rfl
      · show InvocationStatus.failed ≠ .started
        decide
    exact hended.finish _

theorem step_inv {M : ArtifactModels α} {a : Act ι α} (h : Inv cfg w)
    (hs : step M cfg w a = some w') : Inv cfg w' := h.effect (step_effect h.copies hs)

/-- **The run lemma.** -/
theorem reachable_inv {M : ArtifactModels α} {clock : Int}
    (h : Reaches (step M cfg) (World.initial ι α clock) w) : Inv cfg w :=
  h.invariant (fun _ _ _ hinv hs => step_inv hinv hs) (inv_initial cfg clock)

/-- A step leaves a terminal row alone. -/
theorem step_terminal {M : ArtifactModels α} {a : Act ι α} (h : Inv cfg w)
    (hs : step M cfg w a = some w') {r : Invocation} (hrow : w.row = some r)
    (hend : r.status ≠ .started) : w'.row = some r := by
  cases step_effect h.copies hs with
  | ticked t => exact hrow
  | started i request hi => exact hrow
  | moved i hi hpq hcarries => exact hrow
  | @ended i result hr => cases result <;> exact hrow
  | claimed i hmove hnext hmax htoken => exact absurd (hmove.started r hrow) hend
  | called i hi => exact hrow
  | completed i hi hrow' htoken hstarted hc =>
    rw [hrow] at hrow'
    obtain rfl := Option.some.inj hrow'
    exact absurd hstarted hend
  | exhausted i hi hrow' hstarted =>
    rw [hrow] at hrow'
    obtain rfl := Option.some.inj hrow'
    exact absurd hstarted hend

/-- **Bounded attempts and one terminal outcome.** In every interleaving the provider is
called at most `max_attempts` times, each time for another attempt and by the call that
claimed it; an attempt is claimed once; the row has an artifact exactly when it succeeded; a
terminal outcome is written by the last attempt ever claimed; and a terminal row stays as
it is. -/
theorem bounded_attempts {M : ArtifactModels α} {clock : Int}
    (h : Reaches (step M cfg) (World.initial ι α clock) w) :
    (calls w.history).length ≤ cfg.maxAttempts ∧
      ((claims w.history).map Claim.attempt).Nodup ∧
      (∀ i n, .called i n ∈ w.history → ∃ t, .claimed i n t ∈ w.history) ∧
      (∀ r, w.row = some r → (r.artifact.isSome = true ↔ r.status = .succeeded)) ∧
      (∀ i n, .completed i n ∈ w.history →
        (∃ t, .claimed i n t ∈ w.history) ∧ ∀ j m t, .claimed j m t ∈ w.history → m ≤ n) ∧
      ∀ w', Reaches (step M cfg) w w' → ∀ r, w.row = some r → r.status ≠ .started →
        w'.row = some r := by
  have hinv := reachable_inv h
  refine ⟨?_, ?_, ?_, ?_, ?_, ?_⟩
  · -- the calls are of distinct attempts, numbered from 1 to the budget
    have hsub : calls w.history ⊆ List.range' 1 cfg.maxAttempts := by
      intro n hn
      obtain ⟨i, hi⟩ := mem_calls.mp hn
      obtain ⟨t, ht⟩ := hinv.callers i n hi
      obtain ⟨r, hr, hpos, hle⟩ := hinv.attempt_le ht
      have hmax := hinv.bounded r hr
      rw [List.mem_range'_1]
      omega
    have hlen := (List.subperm_of_subset hinv.once hsub).length_le
    rwa [List.length_range'] at hlen
  · rw [hinv.numbered]
    exact List.nodup_range'
  · intro i n hn
    obtain ⟨t, ht⟩ := hinv.callers i n hn
    exact ⟨t, mem_claims.mp ht⟩
  · exact fun r hr => hinv.wellFormed r hr
  · intro i n hn
    obtain ⟨r, hr, -, rfl, t, ht⟩ := hinv.completed i n hn
    refine ⟨⟨t, mem_claims.mp ht⟩, fun j m u hm => ?_⟩
    obtain ⟨r', hr', -, hle⟩ := hinv.attempt_le (mem_claims.mpr hm)
    obtain rfl := Option.some.inj (hr.symm.trans hr')
    exact hle
  · intro w' hw' r hrow hend
    have hkeep := hw'.relates (P := Inv cfg)
      (R := fun s t => ∀ r, s.row = some r → r.status ≠ .started → t.row = some r)
      (fun _ _ _ hs hst => step_inv hs hst) (fun _ _ hr _ => hr)
      (fun _ _ _ h₁ h₂ r hr hne => h₂ r (h₁ r hr hne) hne)
      (fun _ _ _ hs hst r hr hne => step_terminal hs hst hr hne) hinv
    exact hkeep r hrow hend

end Callers

end Invariant

/-! ## A run with a takeover -/

/-- A proposal with the fields that have no default. -/
structure ShortProposal where
  summary : String
  rationaleSummary : String
  recommendation : String
deriving DecidableEq

/-- What `ProposalArtifact` dumps and validates. -/
def shortProposals : ArtifactModels ShortProposal where
  verb _ := .propose
  asSafeDict a := .ok [("summary", .str a.summary), ("rationale_summary", .str a.rationaleSummary),
    ("confidence", .null), ("assumptions", .arr []), ("constraints", .arr []), ("risks", .arr []),
    ("questions", .arr []), ("recommendation", .str a.recommendation)]
  modelValidate
    | .propose, [("summary", .str s), ("rationale_summary", .str r), ("confidence", .null),
        ("assumptions", .arr []), ("constraints", .arr []), ("risks", .arr []),
        ("questions", .arr []), ("recommendation", .str c)] => some ⟨s, r, c⟩
    | _, _ => none
  dict_ne_nil h := by
    obtain rfl := Except.ok.inj h
    simp
  validate_dict h := by
    obtain rfl := Except.ok.inj h
    rfl

def defaultStore : StoreConfig := ⟨120, 3, by decide, id⟩

def proposeRequest : Request := ⟨.propose, "mock"⟩

/-- A new call that claims the row, or takes an expired attempt over, and calls the provider. -/
def claimActs (i now id token : Nat) : List (Act Nat ShortProposal) :=
  [.start i proposeRequest, .run i now ⟨id⟩ ⟨token⟩, .preflight i .passed, .run i now ⟨id⟩ ⟨token⟩]

/-- The first worker hangs past its lease, the second one takes over and answers, and then
the first one answers too. -/
def takeoverRun : List (Act Nat ShortProposal) :=
  claimActs 0 0 1 2 ++ ([.call 0 true, .tick 120] : List (Act Nat ShortProposal)) ++
    claimActs 1 120 3 4 ++
    ([.run 1 120 ⟨3⟩ ⟨4⟩, .run 1 120 ⟨3⟩ ⟨4⟩, .call 1 true, .answer 1 (.artifact ⟨"s", "r", "c"⟩),
      .run 1 120 ⟨5⟩ ⟨6⟩, .answer 0 (.artifact ⟨"late", "r", "c"⟩), .run 0 120 ⟨5⟩ ⟨6⟩,
      .run 0 120 ⟨5⟩ ⟨6⟩] : List (Act Nat ShortProposal))

theorem bounded_attempts_takeover :
    ∃ w, runActs (step shortProposals defaultStore) (World.initial Nat ShortProposal 0)
        takeoverRun = some w ∧
      (calls w.history).length ≤ defaultStore.maxAttempts ∧ calls w.history = [1, 2] := by
  have hrun : (runActs (step shortProposals defaultStore) (World.initial Nat ShortProposal 0)
      takeoverRun).map (fun w => calls w.history) = some [1, 2] := by decide +kernel
  obtain ⟨w, hw, hcalls⟩ := Option.map_eq_some_iff.mp hrun
  exact ⟨w, hw, (bounded_attempts (reaches_of_runActs hw)).1, hcalls⟩

end AiAgentsSwd.Reasoning
