import AiAgentsSwd.Notifications.Deliveries

/-!
# Notifications.Guarantees — what leaves the platform, and what the table says of it

Whatever the workers are handed, and wherever one of them fails:

- `posts_permitted`: a message is posted at most once, and only if the policy of the worker lets it
  through, to the channel of its client;
- `rows_truthful`: what the status of a row says of the posts of its message;
- `settled_row_stays`: a row that no worker holds is final, and so are the posts of its message.
-/

namespace AiAgentsSwd.Notifications

open ApprovalPolicy (Unicode)
open Json (Value)
open Python (Runtime)
open Transition

variable {ω : Type} {rt : Runtime} {u : Unicode} {conf : ω → Config} {payloads : String → Value}
variable {w t : World ω} {k : ω} {m : String} {i : Nat} {r : Row}

/-! ## The posts -/

theorem externalSendEnabled_iff {c : Config} {payload : Payload} :
    externalSendEnabled rt u c payload = true ↔
      Permitted rt u c.policy payload ∧ c.client.canDeliver = true := by
  unfold externalSendEnabled
  rw [Bool.and_eq_true, decide_eq_true_eq, classify_realAllowed_iff]

/-- A worker that reads its environment has one channel, that of its client. -/
theorem testChannelId_load (env : Env) (token : Option String) :
    (Config.load u env (clientFromEnv u env token)).policy.testChannelId =
      (clientFromEnv u env token).channelId := by
  unfold Config.load
  simp only
  split
  · rfl
  · rfl

variable [DecidableEq ω]

/-- **A message is posted at most once, and only where the policy lets it through.** -/
theorem posts_permitted (h : Reaches (step rt u conf payloads) World.start w) :
    (w.posts.map Post.message).Nodup ∧
    ∀ p ∈ w.posts, ∃ payload, payloads p.message = .obj payload ∧
      Permitted rt u (conf p.worker).policy payload ∧
      (conf p.worker).client.canDeliver = true ∧
      p.request = ⟨(conf p.worker).client.channelId,
        "[AI-Agents-SWD sandbox] " ++ renderDiscordMessage rt (conf p.worker) payload⟩ ∧
      ∀ env token, conf p.worker = Config.load u env (clientFromEnv u env token) →
        targetOf rt payload = "" ∨ targetOf rt payload = p.request.channel := by
  have hsound := sound_of_reaches h
  refine ⟨hsound.once, ?_⟩
  intro p hp
  rcases hsound.licensed p hp with ⟨payload, hpayload, hsend, hrequest⟩
  rcases externalSendEnabled_iff.mp hsend with ⟨hpermitted, hclient⟩
  rw [sendTestMessage_of_enabled _ hsend, Except.ok.injEq] at hrequest
  refine ⟨payload, hpayload, hpermitted, hclient, hrequest.symm, ?_⟩
  intro env token hconf
  -- the channel of the policy is the channel of the request
  have hchannel : (conf p.worker).policy.testChannelId = p.request.channel := by
    rw [← hrequest, hconf]
    exact testChannelId_load env token
  rw [← hchannel]
  exact hpermitted.target

/-- The environment of a worker that may post. -/
def openEnv : Env
  | "DISCORD_TEST_CHANNEL_ID" => some "42"
  | "RUN_REAL_DISCORD_TEST" => some "true"
  | _ => none

def plainRuntime : Runtime := ⟨fun _ => .notANumber, fun _ => ""⟩

def asciiUnicode : Unicode where
  isWord c := c.isAlphanum
  variants c := [c.toLower, c.toUpper]
  lower := List.map Char.toLower

def openConfig : Config :=
  Config.load asciiUnicode openEnv (clientFromEnv asciiUnicode openEnv (some "token"))

/-- Every message is one that the allowlist names. -/
def allowedPayload : Value := .obj [("event_type", .str "discord.real_test_sent")]

/-- The steps of the one worker. -/
abbrev openStep : World Unit → Act Unit → Option (World Unit) :=
  step plainRuntime asciiUnicode (fun _ => openConfig) fun _ => allowedPayload

/-- A worker posts the message, and its update fails. -/
def postActs : List (Act Unit) :=
  [.receive () "1-0", .record () .done, .send () (.ok "7"), .mark () (.notDone "timeout")]

theorem posts_permitted_once :
    ∃ t, runActs openStep World.start postActs = some t ∧
      t.posts.length = 1 ∧ (t.posts.map Post.message).Nodup := by
  have hrun : (runActs openStep World.start postActs).map (fun t => t.posts.length) = some 1 := by
    decide +kernel
  rcases Option.map_eq_some_iff.mp hrun with ⟨t, ht, hposts⟩
  exact ⟨t, ht, hposts, (posts_permitted (reaches_of_runActs ht)).1⟩

/-! ## The rows -/

/-- **The status of a row is true of the posts of its message.** -/
theorem rows_truthful (h : Reaches (step rt u conf payloads) World.start w) :
    Keyed w.rows ∧
    (∀ r ∈ w.rows, ∀ m, r.sourceMessageId = some m →
      (r.externalSent = true ↔ r.status = .delivered) ∧
      (r.status = .delivered → ∃ p ∈ w.posts, p.message = m ∧ p.accepted = true) ∧
      (r.status = .failed → ∃ p ∈ w.posts, p.message = m) ∧
      (r.status = .simulated ∨ r.status = .skipped → ∀ p ∈ w.posts, p.message ≠ m)) ∧
    ∀ p ∈ w.posts, ∃ r ∈ w.rows, r.sourceMessageId = some p.message ∧
      (r.status = .pending ∨ r.status = .delivered ∨ r.status = .failed) := by
  have hsound := sound_of_reaches h
  refine ⟨hsound.keyed, ?_, ?_⟩
  · intro r hr m hm
    have hfate := hsound.fates r hr m hm
    refine ⟨externalSent_iff_of_fate hfate, ?_, ?_, ?_⟩
    · intro hstatus
      unfold Fate at hfate
      rw [hstatus] at hfate
      exact hfate.2
    · intro hstatus
      unfold Fate at hfate
      rw [hstatus] at hfate
      exact hfate.2
    · intro hstatus
      unfold Fate at hfate
      rcases hstatus with hstatus | hstatus
      · rw [hstatus] at hfate
        exact hfate.2
      · rw [hstatus] at hfate
        exact hfate.2
  · intro p hp
    rcases hsound.logged p hp with ⟨r, hr, hm⟩
    refine ⟨r, hr, hm, ?_⟩
    have hfate := hsound.fates r hr _ hm
    unfold Fate at hfate
    cases hstatus : r.status with
    | pending => exact Or.inl rfl
    | delivered => exact Or.inr (Or.inl rfl)
    | failed => exact Or.inr (Or.inr rfl)
    | simulated =>
      rw [hstatus] at hfate
      exact absurd rfl (hfate.2 p hp)
    | skipped =>
      rw [hstatus] at hfate
      exact absurd rfl (hfate.2 p hp)

theorem rows_truthful_pending :
    ∃ t, runActs openStep World.start postActs = some t ∧
      t.rows.map Row.status = [.pending] ∧ Keyed t.rows := by
  have hrun : (runActs openStep World.start postActs).map (fun t => t.rows.map Row.status) =
      some [.pending] := by
    decide +kernel
  rcases Option.map_eq_some_iff.mp hrun with ⟨t, ht, hrows⟩
  exact ⟨t, ht, hrows, (rows_truthful (reaches_of_runActs ht)).1⟩

/-! ## Rows that are final -/

/-- A worker does not hold a row of the message. -/
def Process.Free (m : String) (p : Process) : Prop := ∀ h, p.held ≠ some (m, h)

/-- A row whose message no worker holds, and the posts of the message. -/
structure Settled (m : String) (i : Nat) (r : Row) (posts : List (Post ω)) (w : World ω) :
    Prop where
  row : w.rows[i]? = some r
  message : r.sourceMessageId = some m
  free : ∀ k, (w.workers k).Free m
  posts : w.posts.filter (fun p => p.message = m) = posts

variable {posts : List (Post ω)}

theorem Settled.effect (h : Settled m i r posts w) (hs : Sound rt u conf payloads w)
    (he : Effect rt u conf payloads w t) : Settled m i r posts t := by
  have hold : ∀ row, (w.rows ++ [row])[i]? = some r := by
    intro row
    rw [List.getElem?_append_left (List.getElem?_eq_some_iff.mp h.row).1]
    exact h.row
  have hnone : ∀ {p : Process}, p.held = none → p.Free m := by
    intro p hp h heq
    rw [hp] at heq
    cases heq
  have hput : ∀ {k : ω} {p : Process}, p.Free m → ∀ k', ((w.put k p).workers k').Free m :=
    forall_put (P := fun _ p => p.Free m) fun k' _ => h.free k'
  cases he with
  | none k p letters lost acked hp => exact ⟨h.row, h.message, hput (hnone hp), h.posts⟩
  | insert k m' payload p hpayload hfresh hp =>
    refine ⟨hold _, h.message, hput ?_, h.posts⟩
    rcases hp with ⟨hp, -⟩ | hp
    · -- the new row is that of another message
      intro row heq
      rw [hp, Option.some.injEq, Prod.mk.injEq] at heq
      exact hfresh r (List.mem_of_getElem? h.row) (by rw [heq.1, h.message])
    · exact hnone hp
  | post k m' payload j p s request accepted hheld hpayload hrequest hp hsays =>
    have hne : m' ≠ m := by
      rintro rfl
      exact h.free k _ hheld
    refine ⟨h.row, h.message, hput ?_, ?_⟩
    · intro row heq
      rw [hp, Option.some.injEq, Prod.mk.injEq] at heq
      exact hne heq.1
    · show List.filter _ (_ :: w.posts) = posts
      rw [List.filter_cons_of_neg (by simpa using hne)]
      exact h.posts
  | unsafePost k m' payload j error t hheld hpayload hrequest =>
    exact (hs.not_unsafe hheld hpayload hrequest).elim
  | settle k m' j s f p hheld hf hp =>
    have hij : j ≠ i := by
      rintro rfl
      rcases (hs.holds k m' j s hheld).1.row with ⟨r', hr', hm', -⟩
      rw [h.row, Option.some.injEq] at hr'
      rw [← hr', h.message, Option.some.injEq] at hm'
      rw [← hm'] at hheld
      exact h.free k _ hheld
    refine ⟨?_, h.message, hput (hnone hp), h.posts⟩
    show (w.rows.modify j f)[i]? = some r
    rw [List.getElem?_modify, h.row]
    simp [hij]
  | other row hsource => exact ⟨hold row, h.message, h.free, h.posts⟩

theorem createDelivery_of_mem {rows : List Row} {c : Config} {payload : Payload}
    (hr : r ∈ rows) (hm : r.sourceMessageId = some m) :
    createDelivery rows (newRow rt u c m payload) = none := by
  unfold createDelivery
  have hsource : (newRow rt u c m payload).sourceMessageId = some m := rfl
  rw [hsource, if_pos]
  refine ⟨by simp, ?_⟩
  rw [List.any_eq_true]
  exact ⟨r, hr, by simp [hm]⟩

/-- **What was settled stays so**: a failed post is not tried again, and a call for the message is
told that it is a duplicate. -/
theorem settled_row_stays (h : Reaches (step rt u conf payloads) World.start w)
    (hrow : w.rows[i]? = some r) (hm : r.sourceMessageId = some m)
    (hfree : ∀ k, (w.workers k).Free m) (hrun : Reaches (step rt u conf payloads) w t) :
    t.rows[i]? = some r ∧
    t.posts.filter (fun p => p.message = m) = w.posts.filter (fun p => p.message = m) ∧
    ∀ k payload, (t.workers k).call = some (m, .recording) → payloads m = .obj payload →
      step rt u conf payloads t (.record k .done) =
        some (t.put k ((t.workers k).goto m (.returned .duplicate))) := by
  have hsettled : Settled m i r (w.posts.filter fun p => p.message = m) t ∧
      Sound rt u conf payloads t := by
    refine hrun.invariant (P := fun s => Settled m i r (w.posts.filter fun p => p.message = m) s ∧
      Sound rt u conf payloads s) ?_ ⟨⟨hrow, hm, hfree, rfl⟩, sound_of_reaches h⟩
    intro s a t hs hstep
    have heffect := effect_of_step hstep
    exact ⟨hs.1.effect hs.2 heffect, hs.2.effect heffect⟩
  refine ⟨hsettled.1.row, hsettled.1.posts, ?_⟩
  intro k payload hcall hpayload
  have hdup : createDelivery t.rows (newRow rt u (conf k) m payload) = none :=
    createDelivery_of_mem (List.mem_of_getElem? hsettled.1.row) hm
  unfold step
  simp only [hcall, hpayload, dictOf, Option.map_some]
  unfold recordStep
  simp only [hdup]

/-- The message is handed out again, after a post that Discord refused. -/
def againActs : List (Act Unit) := [.finish () true, .receive () "1-0"]

/-- A failed post, and the row that says so. -/
def failedActs : List (Act Unit) :=
  [.receive () "1-0", .record () .done, .send () (.refused "discord: 500"), .mark () .done]

theorem settled_row_stays_failed :
    ∃ w t r, runActs openStep World.start failedActs = some w ∧
      runActs openStep w againActs = some t ∧ r.status = .failed ∧ t.rows[0]? = some r := by
  have hrun : (runActs openStep World.start failedActs).map (fun w =>
      (w.rows.map fun r => (r.status, r.sourceMessageId), (w.workers ()).held.isNone,
        (runActs openStep w againActs).isSome)) = some ([(.failed, some "1-0")], true, true) := by
    decide +kernel
  rcases Option.map_eq_some_iff.mp hrun with ⟨w, hw, hfacts⟩
  rw [Prod.mk.injEq, Prod.mk.injEq] at hfacts
  rcases hfacts with ⟨hrows, hheld, hagain⟩
  rcases Option.isSome_iff_exists.mp hagain with ⟨t, ht⟩
  rcases List.map_eq_singleton_iff.mp hrows with ⟨r, hr, hfields⟩
  rw [Prod.mk.injEq] at hfields
  have hrow : w.rows[0]? = some r := by
    rw [hr]
    rfl
  have hfree : ∀ k : Unit, (w.workers k).Free "1-0" := by
    intro k h
    rw [Option.isNone_iff_eq_none.mp hheld]
    simp
  exact ⟨w, t, r, hw, ht, hfields.1, (settled_row_stays (reaches_of_runActs hw) hrow hfields.2
    hfree (reaches_of_runActs ht)).1⟩

end AiAgentsSwd.Notifications
