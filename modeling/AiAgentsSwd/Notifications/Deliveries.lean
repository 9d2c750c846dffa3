import AiAgentsSwd.Notifications.Worker

/-!
# Notifications.Deliveries — what the posts and the table say of each other

Most requests leave the table and the posts alone. The others insert a row, post a message that a
worker has a row for, or set the status of that row. A row is inserted before its message is posted,
and the worker that inserted it is the only one to post. The unique index makes any later call for
the message a duplicate, so nothing is posted twice and nothing is posted again, a failed post
included.

- `effect_of_step`: what a step does to the table and to the posts;
- `Sound`: the invariant;
- `Sound.effect`, `sound_of_reaches`: what a step keeps, and what a run keeps.
-/

namespace AiAgentsSwd.Notifications

open ApprovalPolicy (Unicode)
open Json (Value)
open Python (Runtime)
open Transition

/-! ## What a worker holds -/

/-- What was done for a row that waits for its update. -/
inductive Posted where
  | notYet
  | taken
  | refused
deriving Repr, DecidableEq

/-- The row that a call has inserted and not yet updated. -/
def Stage.holding : Stage → Option (Nat × Posted)
  | .sending deliveryId => some (deliveryId, .notYet)
  | .sent deliveryId _ => some (deliveryId, .taken)
  | .refused deliveryId _ => some (deliveryId, .refused)
  | _ => none

/-- The message that a worker is at, and the row that it has for it. -/
def Process.held (p : Process) : Option (String × Nat × Posted) :=
  p.call.bind fun call => call.2.holding.map fun row => (call.1, row)

theorem held_of_call {p : Process} {m : String} {s : Stage} (hcall : p.call = some (m, s)) :
    p.held = s.holding.map fun row => (m, row) := by
  unfold Process.held
  rw [hcall, Option.bind_some]

/-- A failure ends the hold of a row. -/
theorem held_fail (p : Process) (m reason : String) : (p.fail m reason).held = none := by
  unfold Process.fail Process.held
  simp only
  by_cases h : maxFailuresBeforeDeadletter ≤ p.retries m + 1
  · simp [h, Stage.holding]
  · simp [h, Stage.holding]

theorem held_next {result : Write} {p done : Process} {m : String} (hdone : done.held = none) :
    (result.next p m done).held = none := by
  cases result with
  | done => exact hdone
  | notDone error => exact held_fail p m error
  | doneButRaised error => exact held_fail p m error

/-! ## Effects -/

section Effects

variable {ω : Type} [DecidableEq ω]
variable (rt : Runtime) (u : Unicode) (conf : ω → Config) (payloads : String → Value)

/-- The updates of the table. -/
inductive Settles : Posted → (Row → Row) → Prop where
  | delivered (id : String) : Settles .taken fun row =>
      { row with status := .delivered, messageId := some id, externalSent := true }
  | failed (error : String) : Settles .refused fun row =>
      { row with status := .failed, error := some error }

/-- What the steps do to the table and to the posts. -/
inductive Effect (w : World ω) : World ω → Prop where
  | none (k : ω) (p : Process) (letters : List (String × Payload)) (lost acked : List String)
      (hp : p.held = .none) :
      Effect w ({ w with deadLetters := letters, lostLetters := lost, acked := acked }.put k p)
  | insert (k : ω) (m : String) (payload : Payload) (p : Process)
      (hpayload : payloads m = .obj payload)
      (hfresh : ∀ r ∈ w.rows, r.sourceMessageId ≠ some m)
      (hp : p.held = some (m, w.rows.length, .notYet) ∧
          externalSendEnabled rt u (conf k) payload = true ∨
        p.held = .none) :
      Effect w ({ w with rows := w.rows ++ [newRow rt u (conf k) m payload] }.put k p)
  | post (k : ω) (m : String) (payload : Payload) (i : Nat) (p : Process) (s : Posted)
      (request : NotificationDiscordClient.Request) (accepted : Bool)
      (hheld : (w.workers k).held = some (m, i, .notYet)) (hpayload : payloads m = .obj payload)
      (hrequest : (conf k).client.sendTestMessage (renderDiscordMessage rt (conf k) payload) =
        .ok request)
      (hp : p.held = some (m, i, s))
      (hs : s = .taken ∧ accepted = true ∨ s = .refused) :
      Effect w ({ w with posts := ⟨k, m, request, accepted⟩ :: w.posts }.put k p)
  | unsafePost (k : ω) (m : String) (payload : Payload) (i : Nat) (error : String) (t : World ω)
      (hheld : (w.workers k).held = some (m, i, .notYet)) (hpayload : payloads m = .obj payload)
      (hrequest : (conf k).client.sendTestMessage (renderDiscordMessage rt (conf k) payload) =
        .error error) :
      Effect w t
  | settle (k : ω) (m : String) (i : Nat) (s : Posted) (f : Row → Row) (p : Process)
      (hheld : (w.workers k).held = some (m, i, s)) (hf : Settles s f) (hp : p.held = .none) :
      Effect w ({ w with rows := w.rows.modify i f }.put k p)
  | other (row : Row) (hsource : row.sourceMessageId = .none) :
      Effect w { w with rows := w.rows ++ [row] }

variable {rt u conf payloads} {w t : World ω} {k : ω} {m : String} {payload : Payload}

theorem dictOf_eq_some {v : Value} : dictOf v = some payload ↔ v = .obj payload := by
  cases v <;> simp [dictOf]

theorem createDelivery_newRow {rows rows' : List Row} {c : Config} {i : Nat}
    (h : createDelivery rows (newRow rt u c m payload) = some (i, rows')) :
    (∀ r ∈ rows, r.sourceMessageId ≠ some m) ∧ i = rows.length ∧
      rows' = rows ++ [newRow rt u c m payload] := by
  unfold createDelivery at h
  have hsource : (newRow rt u c m payload).sourceMessageId = some m := rfl
  rw [hsource] at h
  split at h
  · cases h
  · rename_i hnew
    simp only [ne_eq, reduceCtorEq, not_false_eq_true, true_and, List.any_eq_true,
      decide_eq_true_eq, not_exists, not_and] at hnew
    rw [Option.some.injEq, Prod.mk.injEq] at h
    exact ⟨hnew, h.1.symm, h.2.symm⟩

theorem effect_of_record {result : Write}
    (hpayload : payloads m = .obj payload) :
    Effect rt u conf payloads w (recordStep rt u conf w k m payload result) := by
  unfold recordStep
  simp only
  cases hcreate : createDelivery w.rows (newRow rt u (conf k) m payload) with
  | none =>
    cases result with
    | done => exact .none k _ w.deadLetters w.lostLetters w.acked rfl
    | notDone error | doneButRaised error =>
      exact .none k _ w.deadLetters w.lostLetters w.acked (held_fail _ m error)
  | some created =>
    rcases createDelivery_newRow (i := created.1) hcreate with ⟨hfresh, hid, hrows⟩
    cases result with
    | done =>
      simp only
      rw [hrows, hid]
      refine .insert k m payload _ hpayload hfresh ?_
      unfold stageAfterInsert
      by_cases hsend : externalSendEnabled rt u (conf k) payload = true
      · exact Or.inl ⟨by simp [Process.goto, hsend, Process.held, Stage.holding], hsend⟩
      · exact Or.inr (by simp [Process.goto, hsend, Process.held, Stage.holding])
    | notDone error =>
      exact .none k _ w.deadLetters w.lostLetters w.acked (held_fail _ m error)
    | doneButRaised error =>
      simp only
      rw [hrows]
      exact .insert k m payload _ hpayload hfresh (Or.inr (held_fail _ m error))

theorem effect_of_send {i : Nat} {answer : Answer}
    (hcall : (w.workers k).call = some (m, .sending i)) (hpayload : payloads m = .obj payload) :
    Effect rt u conf payloads w (sendStep rt conf w k m payload i answer) := by
  have hheld : (w.workers k).held = some (m, i, .notYet) := held_of_call hcall
  unfold sendStep
  cases hrequest : (conf k).client.sendTestMessage (renderDiscordMessage rt (conf k) payload) with
  | error error => exact .unsafePost k m payload i error _ hheld hpayload hrequest
  | ok request =>
    cases answer with
    | ok id =>
      exact .post k m payload i _ .taken request true hheld hpayload hrequest rfl
        (Or.inl ⟨rfl, rfl⟩)
    | lost error =>
      exact .post k m payload i _ .refused request true hheld hpayload hrequest rfl
        (Or.inr rfl)
    | refused error =>
      exact .post k m payload i _ .refused request false hheld hpayload hrequest rfl
        (Or.inr rfl)

theorem effect_of_mark {result : Write} {i : Nat} {s : Posted} {f : Row → Row} {p : Process}
    (hheld : (w.workers k).held = some (m, i, s)) (hf : Settles s f) (hp : p.held = none) :
    Effect rt u conf payloads w
      ({ w with rows := result.apply w.rows (w.rows.modify i f) }.put k p) := by
  cases result with
  | done => exact .settle k m i s f _ hheld hf hp
  | doneButRaised error => exact .settle k m i s f _ hheld hf hp
  | notDone error => exact .none k _ w.deadLetters w.lostLetters w.acked hp

/-- **The effects of the steps.** -/
theorem effect_of_step {a : Act ω} (h : step rt u conf payloads w a = some t) :
    Effect rt u conf payloads w t := by
  cases a with
  | receive k m =>
    unfold step at h
    simp only at h
    split at h
    · cases h
    · split at h
      all_goals
        rw [← Option.some.inj h]
        exact .none k _ w.deadLetters w.lostLetters w.acked rfl
  | record k result =>
    unfold step at h
    simp only at h
    split at h
    · rename_i m hcall
      rcases Option.map_eq_some_iff.mp h with ⟨payload, hpayload, rfl⟩
      exact effect_of_record (dictOf_eq_some.mp hpayload)
    · cases h
  | send k answer =>
    unfold step at h
    simp only at h
    split at h
    · rename_i m i hcall
      rcases Option.map_eq_some_iff.mp h with ⟨payload, hpayload, rfl⟩
      exact effect_of_send hcall (dictOf_eq_some.mp hpayload)
    · cases h
  | mark k result =>
    unfold step at h
    simp only at h
    split at h
    · rename_i m i id hcall
      rw [← Option.some.inj h]
      exact effect_of_mark (held_of_call hcall) (.delivered id) (held_next rfl)
    · rename_i m i error hcall
      rw [← Option.some.inj h]
      exact effect_of_mark (held_of_call hcall) (.failed error) (held_next (held_fail _ m error))
    · cases h
  | deadletter k published =>
    unfold step at h
    simp only at h
    split at h
    · rename_i m reason hcall
      rw [← Option.some.inj h]
      exact .none k _ _ _ w.acked rfl
    · cases h
  | finish k acked =>
    unfold step at h
    simp only at h
    split at h
    · rename_i m outcome hcall
      rw [← Option.some.inj h]
      exact .none k _ w.deadLetters w.lostLetters _ rfl
    · cases h
  | crash k =>
    unfold step at h
    rw [← Option.some.inj h]
    exact .none k _ w.deadLetters w.lostLetters w.acked rfl
  | other row =>
    unfold step at h
    simp only at h
    split at h
    · rename_i hsource
      rw [← Option.some.inj h]
      exact .other row hsource
    · cases h

end Effects

/-! ## The invariant -/

section Invariant

variable {ω : Type} (rt : Runtime) (u : Unicode) (conf : ω → Config) (payloads : String → Value)

/-- No two rows name the same message. -/
def Keyed (rows : List Row) : Prop :=
  ∀ (m : String) (i j : Nat) (r r' : Row), rows[i]? = some r → rows[j]? = some r' →
    r.sourceMessageId = some m → r'.sourceMessageId = some m → i = j

/-- What a worker that holds a row knows of the posts of its message. -/
def Says (posts : List (Post ω)) (m : String) : Posted → Prop
  | .notYet => ∀ p ∈ posts, p.message ≠ m
  | .taken => ∃ p ∈ posts, p.message = m ∧ p.accepted = true
  | .refused => ∃ p ∈ posts, p.message = m

/-- What the status of a row says of the posts of its message. -/
def Fate (posts : List (Post ω)) (m : String) (r : Row) : Prop :=
  match r.status with
  | .simulated | .skipped => r.externalSent = false ∧ ∀ p ∈ posts, p.message ≠ m
  | .pending => r.externalSent = false
  | .delivered => r.externalSent = true ∧ ∃ p ∈ posts, p.message = m ∧ p.accepted = true
  | .failed => r.externalSent = false ∧ ∃ p ∈ posts, p.message = m

/-- The row of a message that a worker has to settle. -/
structure Owes (rows : List Row) (k : ω) (m : String) (i : Nat) : Prop where
  row : ∃ r, rows[i]? = some r ∧ r.sourceMessageId = some m ∧ r.status = .pending ∧
    r.externalSent = false
  sendable : ∃ payload, payloads m = .obj payload ∧
    externalSendEnabled rt u (conf k) payload = true

/-- What holds of the row that a worker is at. -/
def HoldSound (rows : List Row) (posts : List (Post ω)) (k : ω) (p : Process) : Prop :=
  ∀ m i s, p.held = some (m, i, s) →
    Owes rt u conf payloads rows k m i ∧ Says posts m s

/-- What a worker may have posted. -/
def Licensed (p : Post ω) : Prop :=
  ∃ payload, payloads p.message = .obj payload ∧
    externalSendEnabled rt u (conf p.worker) payload = true ∧
    (conf p.worker).client.sendTestMessage (renderDiscordMessage rt (conf p.worker) payload) =
      .ok p.request

/-- **The invariant.** -/
structure Sound (w : World ω) : Prop where
  keyed : Keyed w.rows
  holds : ∀ k, HoldSound rt u conf payloads w.rows w.posts k (w.workers k)
  alone : ∀ k k' m h h', (w.workers k).held = some (m, h) → (w.workers k').held = some (m, h') →
    k = k'
  once : (w.posts.map Post.message).Nodup
  licensed : ∀ p ∈ w.posts, Licensed rt u conf payloads p
  logged : ∀ p ∈ w.posts, ∃ r ∈ w.rows, r.sourceMessageId = some p.message
  fates : ∀ r ∈ w.rows, ∀ m, r.sourceMessageId = some m → Fate w.posts m r

variable {rt u conf payloads} {w t : World ω} {k : ω} {m : String} {p : Process} {i : Nat}
variable {rows : List Row} {posts : List (Post ω)} {row : Row}

theorem sound_start : Sound rt u conf payloads (World.start : World ω) where
  keyed m i j r r' hi := by cases hi
  holds k m i s hheld := by cases hheld
  alone k k' m h h' hheld := by cases hheld
  once := List.nodup_nil
  licensed p hp := by cases hp
  logged p hp := by cases hp
  fates r hr := by cases hr

/-! ### The table -/

theorem Keyed.append (h : Keyed rows)
    (hfresh : ∀ m, row.sourceMessageId = some m → ∀ r ∈ rows, r.sourceMessageId ≠ some m) :
    Keyed (rows ++ [row]) := by
  intro m i j r r' hi hj hr hr'
  -- a place of the longer table is an old one, or the last one
  have hsplit : ∀ i r, (rows ++ [row])[i]? = some r →
      rows[i]? = some r ∨ i = rows.length ∧ r = row := by
    intro i r h
    rcases Nat.lt_or_ge i rows.length with hlt | hge
    · rw [List.getElem?_append_left hlt] at h
      exact Or.inl h
    · rw [List.getElem?_append_right hge, List.getElem?_singleton] at h
      split at h
      · exact Or.inr ⟨by omega, (Option.some.inj h).symm⟩
      · cases h
  rcases hsplit i r hi with hold | ⟨hi, rfl⟩
  · rcases hsplit j r' hj with hold' | ⟨hj, rfl⟩
    · exact h m i j r r' hold hold' hr hr'
    · exact absurd hr (hfresh m hr' r (List.mem_of_getElem? hold))
  · rcases hsplit j r' hj with hold' | ⟨hj, rfl⟩
    · exact absurd hr' (hfresh m hr r' (List.mem_of_getElem? hold'))
    · omega

theorem Owes.append (h : Owes rt u conf payloads rows k m i) (row : Row) :
    Owes rt u conf payloads (rows ++ [row]) k m i where
  row := by
    rcases h.row with ⟨r, hr, hrest⟩
    refine ⟨r, ?_, hrest⟩
    rw [List.getElem?_append_left (List.getElem?_eq_some_iff.mp hr).1]
    exact hr
  sendable := h.sendable

/-- The row of a message is the one that a worker owes. -/
theorem Owes.row_eq (howes : Owes rt u conf payloads rows k m i) (h : Keyed rows) {r : Row}
    (hr : r ∈ rows) (hm : r.sourceMessageId = some m) :
    rows[i]? = some r ∧ r.status = .pending := by
  rcases howes.row with ⟨r', hr', hm', hstatus, -⟩
  rcases List.mem_iff_getElem?.mp hr with ⟨j, hj⟩
  have hij : i = j := h m i j r' r hr' hj hm' hm
  rw [← hij, hr', Option.some.injEq] at hj
  rw [← hj]
  exact ⟨hr', hstatus⟩

theorem getElem?_modify_cases {f : Row → Row}
    (hf : ∀ r, (f r).sourceMessageId = r.sourceMessageId) {j : Nat} {r : Row}
    (h : (rows.modify i f)[j]? = some r) :
    ∃ r', rows[j]? = some r' ∧ r.sourceMessageId = r'.sourceMessageId ∧
      (i = j ∧ r = f r' ∨ i ≠ j ∧ r = r') := by
  rw [List.getElem?_modify] at h
  rcases Option.map_eq_some_iff.mp h with ⟨r', hr', heq⟩
  by_cases hij : i = j
  · rw [if_pos hij] at heq
    exact ⟨r', hr', by rw [← heq, hf], Or.inl ⟨hij, heq.symm⟩⟩
  · rw [if_neg hij] at heq
    exact ⟨r', hr', congrArg Row.sourceMessageId heq.symm, Or.inr ⟨hij, heq.symm⟩⟩

/-! ### New rows and posts -/

/-- A row that nothing was posted for may be inserted; it is pending if its message may be
posted. -/
theorem fate_newRow {c : Config} {payload : Payload} (hnone : ∀ p ∈ posts, p.message ≠ m) :
    Fate posts m (newRow rt u c m payload) ∧
      ((newRow rt u c m payload).status = .pending ↔
        externalSendEnabled rt u c payload = true) := by
  have hexternal : (newRow rt u c m payload).externalSent = false := rfl
  have hstatus : (newRow rt u c m payload).status = (initialState rt u c payload).2.1 := rfl
  unfold Fate
  rw [hstatus]
  unfold initialState
  by_cases hsend : externalSendEnabled rt u c payload = true
  · simp [hsend, hexternal]
  · simp only [hsend]
    cases (decisionFor rt u c payload).decision with
    | simulated | realAllowed | realBlocked | skipped =>
      exact ⟨⟨hexternal, hnone⟩, by simp⟩

/-- A call that is about to post may do so. -/
theorem sendTestMessage_of_enabled {c : Config} {payload : Payload} (content : String)
    (h : externalSendEnabled rt u c payload = true) :
    c.client.sendTestMessage content =
      .ok ⟨c.client.channelId, "[AI-Agents-SWD sandbox] " ++ content⟩ := by
  unfold externalSendEnabled NotificationDiscordClient.canDeliver at h
  simp only [Bool.and_eq_true] at h
  rcases h with ⟨-, ⟨htoken, hchannel⟩, hreal⟩
  unfold NotificationDiscordClient.sendTestMessage
  simp [htoken, hchannel, hreal]

theorem Sound.not_unsafe (h : Sound rt u conf payloads w) {payload : Payload}
    {error : String} (hheld : (w.workers k).held = some (m, i, .notYet))
    (hpayload : payloads m = .obj payload)
    (hrequest : (conf k).client.sendTestMessage (renderDiscordMessage rt (conf k) payload) =
      .error error) : False := by
  rcases (h.holds k m i _ hheld).1.sendable with ⟨payload', hpayload', hsend⟩
  rw [hpayload, Value.obj.injEq] at hpayload'
  rw [hpayload', sendTestMessage_of_enabled _ hsend] at hrequest
  cases hrequest

/-- A post of another message changes nothing of what is said of this one. -/
theorem Says.cons {s : Posted} (h : Says posts m s) {new : Post ω} (hne : new.message ≠ m) :
    Says (new :: posts) m s := by
  cases s with
  | notYet =>
    intro q hq
    rcases List.mem_cons.mp hq with rfl | hq
    · exact hne
    · exact h q hq
  | taken | refused =>
    rcases h with ⟨p, hp, hposted⟩
    exact ⟨p, List.mem_cons_of_mem _ hp, hposted⟩

theorem Fate.cons {r : Row} (h : Fate posts m r) {new : Post ω}
    (hne : new.message = m → r.status = .pending) : Fate (new :: posts) m r := by
  unfold Fate at h ⊢
  cases hstatus : r.status with
  | pending =>
    rw [hstatus] at h
    exact h
  | simulated | skipped =>
    rw [hstatus] at h hne
    exact ⟨h.1, (show Says posts m .notYet from h.2).cons fun heq => by cases hne heq⟩
  | delivered =>
    rw [hstatus] at h hne
    exact ⟨h.1, (show Says posts m .taken from h.2).cons fun heq => by cases hne heq⟩
  | failed =>
    rw [hstatus] at h hne
    exact ⟨h.1, (show Says posts m .refused from h.2).cons fun heq => by cases hne heq⟩

theorem externalSent_iff_of_fate {r : Row} (h : Fate posts m r) :
    r.externalSent = true ↔ r.status = .delivered := by
  unfold Fate at h
  cases hstatus : r.status with
  | pending =>
    rw [hstatus] at h
    simp [show r.externalSent = false from h]
  | simulated | skipped | delivered | failed =>
    rw [hstatus] at h
    simp [h.1]

theorem Settles.source {s : Posted} {f : Row → Row} (h : Settles s f) (r : Row) :
    (f r).sourceMessageId = r.sourceMessageId := by
  cases h with
  | delivered id => rfl
  | failed error => rfl

theorem Settles.fate {s : Posted} {f : Row → Row} (h : Settles s f) (hs : Says posts m s)
    {r : Row} (hr : r.externalSent = false) :
    Fate posts m (f r) := by
  cases h with
  | delivered id => exact ⟨rfl, hs⟩
  | failed error => exact ⟨hr, hs⟩

theorem holdSound_none (hp : p.held = none) :
    HoldSound rt u conf payloads rows posts k p := by
  intro m i s hheld
  rw [hp] at hheld
  cases hheld

/-! ### What each effect keeps -/

variable [DecidableEq ω]

/-- What holds of the other workers and of the one that went on holds of all. -/
theorem forall_put {P : ω → Process → Prop} (hold : ∀ k', k' ≠ k → P k' (w.workers k'))
    (hnew : P k p) (k' : ω) : P k' ((w.put k p).workers k') := by
  show P k' (Function.update w.workers k p k')
  by_cases hk : k' = k
  · rw [hk, Function.update_self]
    exact hnew
  · rw [Function.update_of_ne hk]
    exact hold k' hk

theorem held_put_of_ne {k' : ω} (hk : k' ≠ k) :
    ((w.put k p).workers k').held = (w.workers k').held :=
  congrArg Process.held (Function.update_of_ne hk ..)

/-- A worker may hold a message that no other worker holds. -/
theorem alone_put
    (h : ∀ k k' m h h', (w.workers k).held = some (m, h) → (w.workers k').held = some (m, h') →
      k = k')
    (hp : ∀ m h, p.held = some (m, h) → ∀ k', k' ≠ k → ∀ h', (w.workers k').held ≠ some (m, h'))
    (k₁ k₂ : ω) (m : String) (h₁ h₂ : Nat × Posted)
    (hk₁ : ((w.put k p).workers k₁).held = some (m, h₁))
    (hk₂ : ((w.put k p).workers k₂).held = some (m, h₂)) : k₁ = k₂ := by
  have hself : ((w.put k p).workers k).held = p.held :=
    congrArg Process.held (Function.update_self ..)
  by_cases e₁ : k₁ = k
  · by_cases e₂ : k₂ = k
    · rw [e₁, e₂]
    · rw [held_put_of_ne e₂] at hk₂
      rw [e₁, hself] at hk₁
      exact absurd hk₂ (hp m h₁ hk₁ k₂ e₂ h₂)
  · rw [held_put_of_ne e₁] at hk₁
    by_cases e₂ : k₂ = k
    · rw [e₂, hself] at hk₂
      exact absurd hk₁ (hp m h₂ hk₂ k₁ e₁ h₁)
    · rw [held_put_of_ne e₂] at hk₂
      exact h k₁ k₂ m h₁ h₂ hk₁ hk₂

theorem alone_put_none
    (h : ∀ k k' m h h', (w.workers k).held = some (m, h) → (w.workers k').held = some (m, h') →
      k = k')
    (hp : p.held = none) (k₁ k₂ : ω) (m : String) (h₁ h₂ : Nat × Posted)
    (hk₁ : ((w.put k p).workers k₁).held = some (m, h₁))
    (hk₂ : ((w.put k p).workers k₂).held = some (m, h₂)) : k₁ = k₂ := by
  refine alone_put h ?_ k₁ k₂ m h₁ h₂ hk₁ hk₂
  intro m h hheld
  rw [hp] at hheld
  cases hheld

theorem Sound.insert (h : Sound rt u conf payloads w) {payload : Payload}
    (hpayload : payloads m = .obj payload)
    (hfresh : ∀ r ∈ w.rows, r.sourceMessageId ≠ some m)
    (hp : p.held = some (m, w.rows.length, .notYet) ∧
        externalSendEnabled rt u (conf k) payload = true ∨ p.held = none) :
    Sound rt u conf payloads
      ({ w with rows := w.rows ++ [newRow rt u (conf k) m payload] }.put k p) := by
  have hunposted : ∀ p ∈ w.posts, p.message ≠ m := by
    rintro q hq rfl
    rcases h.logged q hq with ⟨r, hr, hsource⟩
    exact hfresh r hr hsource
  have hnew : Fate w.posts m (newRow rt u (conf k) m payload) ∧
      ((newRow rt u (conf k) m payload).status = .pending ↔
        externalSendEnabled rt u (conf k) payload = true) := fate_newRow hunposted
  refine ⟨h.keyed.append ?_, forall_put ?_ ?_, alone_put h.alone ?_, h.once, h.licensed, ?_, ?_⟩
  · intro m' hm'
    rw [← Option.some.inj hm']
    exact hfresh
  · intro k' _ m' i s hheld
    exact ⟨(h.holds k' m' i s hheld).1.append _, (h.holds k' m' i s hheld).2⟩
  · rcases hp with ⟨hheld, hsend⟩ | hheld
    · intro m' i s hheld'
      rw [hheld, Option.some.injEq, Prod.mk.injEq, Prod.mk.injEq] at hheld'
      rcases hheld' with ⟨rfl, rfl, rfl⟩
      refine ⟨⟨⟨newRow rt u (conf k) m payload, ?_, rfl, hnew.2.mpr hsend, rfl⟩,
        payload, hpayload, hsend⟩, hunposted⟩
      show (w.rows ++ [newRow rt u (conf k) m payload])[w.rows.length]? = _
      rw [List.getElem?_append_right (Nat.le_refl _), Nat.sub_self]
      rfl
    · exact holdSound_none hheld
  · -- another worker that holds the message would have a row for it
    intro m' hrow hheld k' _ hrow' hheld'
    rcases hp with ⟨hp, -⟩ | hp
    · rw [hp, Option.some.injEq, Prod.mk.injEq] at hheld
      rcases (h.holds k' m' hrow'.1 hrow'.2 hheld').1.row with ⟨r, hr, hm, -⟩
      rw [← hheld.1] at hm
      exact hfresh r (List.mem_of_getElem? hr) hm
    · rw [hp] at hheld
      cases hheld
  · intro p hp
    rcases h.logged p hp with ⟨r, hr, hsource⟩
    exact ⟨r, List.mem_append_left _ hr, hsource⟩
  · intro r hr m' hm'
    rcases List.mem_append.mp hr with hr | hr
    · exact h.fates r hr m' hm'
    · rw [List.mem_singleton] at hr
      rw [hr] at hm' ⊢
      rw [← Option.some.inj hm']
      exact hnew.1

theorem Sound.post (h : Sound rt u conf payloads w) {payload : Payload} {s : Posted}
    {request : NotificationDiscordClient.Request} {accepted : Bool}
    (hheld : (w.workers k).held = some (m, i, .notYet)) (hpayload : payloads m = .obj payload)
    (hrequest : (conf k).client.sendTestMessage (renderDiscordMessage rt (conf k) payload) =
      .ok request)
    (hp : p.held = some (m, i, s))
    (hs : s = .taken ∧ accepted = true ∨ s = .refused) :
    Sound rt u conf payloads
      ({ w with posts := ⟨k, m, request, accepted⟩ :: w.posts }.put k p) := by
  rcases h.holds k m i _ hheld with ⟨howes, hunposted⟩
  refine ⟨h.keyed, forall_put ?_ ?_, alone_put h.alone ?_, ?_, ?_, ?_, ?_⟩
  · -- another worker holds another message
    intro k' hne m' j s' hheld'
    have hother : m ≠ m' := by
      rintro rfl
      exact hne (h.alone k' k m _ _ hheld' hheld)
    exact ⟨(h.holds k' m' j s' hheld').1, (h.holds k' m' j s' hheld').2.cons hother⟩
  · intro m' j s' hheld'
    rw [hp, Option.some.injEq, Prod.mk.injEq, Prod.mk.injEq] at hheld'
    rcases hheld' with ⟨rfl, rfl, rfl⟩
    refine ⟨howes, ?_⟩
    rcases hs with ⟨rfl, hok⟩ | rfl
    · exact ⟨_, List.mem_cons_self, rfl, hok⟩
    · exact ⟨_, List.mem_cons_self, rfl⟩
  · intro m' row hheld' k' hne row' hk'
    rw [hp, Option.some.injEq, Prod.mk.injEq] at hheld'
    rw [← hheld'.1] at hk'
    exact hne (h.alone k' k m _ _ hk' hheld)
  · refine List.nodup_cons.mpr ⟨?_, h.once⟩
    intro hmem
    rcases List.mem_map.mp hmem with ⟨q, hq, heq⟩
    exact hunposted q hq heq
  · intro q hq
    rcases List.mem_cons.mp hq with rfl | hq
    · rcases howes.sendable with ⟨payload', hpayload', hsend⟩
      rw [hpayload, Value.obj.injEq] at hpayload'
      rw [← hpayload'] at hsend
      exact ⟨payload, hpayload, hsend, hrequest⟩
    · exact h.licensed q hq
  · intro q hq
    rcases List.mem_cons.mp hq with rfl | hq
    · rcases howes.row with ⟨r, hr, hm, -⟩
      exact ⟨r, List.mem_of_getElem? hr, hm⟩
    · exact h.logged q hq
  · intro r hr m' hm'
    refine (h.fates r hr m' hm').cons ?_
    rintro rfl
    exact (howes.row_eq h.keyed hr hm').2

/-- A worker settles the row that it holds. -/
theorem Sound.settle (h : Sound rt u conf payloads w) {s : Posted} {f : Row → Row}
    (hheld : (w.workers k).held = some (m, i, s)) (hf : Settles s f) (hp : p.held = none) :
    Sound rt u conf payloads ({ w with rows := w.rows.modify i f }.put k p) := by
  rcases h.holds k m i s hheld with ⟨howes, hsays⟩
  rcases howes.row with ⟨row, hrow, hm, -, hexternal⟩
  -- a row of the new table is the settled one, or an old one with another message
  have hcases : ∀ r ∈ w.rows.modify i f, ∀ m', r.sourceMessageId = some m' →
      m' = m ∧ r = f row ∨ m' ≠ m ∧ r ∈ w.rows := by
    intro r hr m' hm'
    rcases List.mem_iff_getElem?.mp hr with ⟨j, hj⟩
    rcases getElem?_modify_cases hf.source hj with ⟨r', hr', hsame, ⟨rfl, heq⟩ | ⟨hij, rfl⟩⟩
    · rw [hrow, Option.some.injEq] at hr'
      rw [hsame, ← hr', hm, Option.some.injEq] at hm'
      exact Or.inl ⟨hm'.symm, by rw [heq, hr']⟩
    · refine Or.inr ⟨?_, List.mem_of_getElem? hr'⟩
      rintro rfl
      exact hij (h.keyed m' i j row r hrow hr' hm hm')
  have hget : ∀ j r, w.rows[j]? = some r →
      (w.rows.modify i f)[j]? = some (if i = j then f r else r) := by
    intro j r hj
    rw [List.getElem?_modify, hj]
    by_cases hij : i = j
    · simp [hij]
    · simp [hij]
  refine ⟨?_, forall_put ?_ (holdSound_none hp), alone_put_none h.alone hp, h.once, h.licensed,
    ?_, ?_⟩
  · intro m' j j' r r' hr hr' hm hm'
    rcases getElem?_modify_cases hf.source hr with ⟨q, hq, hsame, -⟩
    rcases getElem?_modify_cases hf.source hr' with ⟨q', hq', hsame', -⟩
    rw [hsame] at hm
    rw [hsame'] at hm'
    exact h.keyed m' j j' q q' hq hq' hm hm'
  · intro k' hne m' j s' hheld'
    rcases h.holds k' m' j s' hheld' with ⟨howes', hsays'⟩
    rcases howes'.row with ⟨r, hr, hm', hrest⟩
    have hij : i ≠ j := by
      rintro rfl
      rw [hrow, Option.some.injEq] at hr
      rw [← hr, hm, Option.some.injEq] at hm'
      rw [← hm'] at hheld'
      exact hne (h.alone k' k m _ _ hheld' hheld)
    refine ⟨⟨⟨r, ?_, hm', hrest⟩, howes'.sendable⟩, hsays'⟩
    have hkeep := hget j r hr
    rwa [if_neg hij] at hkeep
  · intro q hq
    rcases h.logged q hq with ⟨r, hr, hm'⟩
    rcases List.mem_iff_getElem?.mp hr with ⟨j, hj⟩
    refine ⟨_, List.mem_of_getElem? (hget j r hj), ?_⟩
    by_cases hij : i = j
    · rw [if_pos hij, hf.source, hm']
    · rw [if_neg hij, hm']
  · intro r hr m' hm'
    rcases hcases r hr m' hm' with ⟨rfl, rfl⟩ | ⟨-, hold⟩
    · exact hf.fate hsays hexternal
    · exact h.fates r hold m' hm'

/-- **What a step keeps.** -/
theorem Sound.effect (h : Sound rt u conf payloads w)
    (he : Effect rt u conf payloads w t) : Sound rt u conf payloads t := by
  cases he with
  | none k p letters lost acked hp =>
    exact ⟨h.keyed, forall_put (fun k' _ => h.holds k') (holdSound_none hp),
      alone_put_none h.alone hp, h.once, h.licensed, h.logged, h.fates⟩
  | insert k m payload p hpayload hfresh hp => exact h.insert hpayload hfresh hp
  | post k m payload i p s request accepted hheld hpayload hrequest hp hs =>
    exact h.post hheld hpayload hrequest hp hs
  | unsafePost k m payload i error t hheld hpayload hrequest =>
    exact (h.not_unsafe hheld hpayload hrequest).elim
  | settle k m i s f p hheld hf hp => exact h.settle hheld hf hp
  | other row hsource =>
    have hold : ∀ r ∈ w.rows ++ [row], ∀ m, r.sourceMessageId = some m → r ∈ w.rows := by
      intro r hr m hm
      rcases List.mem_append.mp hr with hr | hr
      · exact hr
      · rw [List.mem_singleton.mp hr, hsource] at hm
        cases hm
    refine ⟨h.keyed.append ?_, ?_, h.alone, h.once, h.licensed, ?_, ?_⟩
    · intro m hm
      rw [hsource] at hm
      cases hm
    · intro k m i s hheld
      exact ⟨(h.holds k m i s hheld).1.append row, (h.holds k m i s hheld).2⟩
    · intro p hp
      rcases h.logged p hp with ⟨r, hr, hm⟩
      exact ⟨r, List.mem_append_left _ hr, hm⟩
    · intro r hr m hm
      exact h.fates r (hold r hr m hm) m hm

/-- **What every run keeps.** -/
theorem sound_of_reaches (h : Reaches (step rt u conf payloads) World.start w) :
    Sound rt u conf payloads w := by
  refine h.invariant ?_ sound_start
  intro s a t hs hstep
  exact hs.effect (effect_of_step hstep)

end Invariant

end AiAgentsSwd.Notifications
