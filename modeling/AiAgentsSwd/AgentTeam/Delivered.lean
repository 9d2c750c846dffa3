import AiAgentsSwd.PlanningDecision.Admissibility
import AiAgentsSwd.Transition.Basic

/-!
# AgentTeam.Delivered — who reads what was posted

Model of `TeamService.inbox` of `shared/sdk/agent_team/service.py` over every history of a
team. Both `inbox` and the finalization of a discussion read one page of `list_messages`, whose
default counts from the oldest message on (`delivered_iff`).
-/

namespace AiAgentsSwd.AgentTeam

open Planning (Uuid Time)
open PlanningDecision
open Transition
open Listing

/-! ## The inbox -/

/-- `principal_for_agent(project_id, agent_key)` -/
def principalForAgent (members : List TeamMember) (projectId : Uuid) (agentKey : String) :
    Option Uuid :=
  ((listTeam members projectId).find? fun m => m.agentKey = agentKey).map
    TeamMember.agentPrincipalId

/-- The `functional_role` that the roster has for the agent: a later row replaces an earlier. -/
def rosterRole (members : List TeamMember) (projectId : Uuid) (agentKey : String) :
    Option String :=
  ((listTeam members projectId).reverse.find? fun m => m.agentKey = agentKey).map
    TeamMember.functionalRole

/-- The test of `inbox` for one message. -/
def received (principalId : Option Uuid) (role : Option String) (m : Message) : Bool :=
  if some m.senderPrincipalId = principalId then false
  else
    (principalId.isSome && m.recipientPrincipalId == principalId) ||
      (role.any (fun r => r != "") && m.recipientRole == role) || m.recipientTeam

/-- `inbox(project_id, agent_key)` -/
def inbox (order : List Message → List Message) (members : List TeamMember)
    (messages : List Message) (projectId : Uuid) (agentKey : String) : List Message :=
  (listMessages order messages projectId none defaultLimit).filter
    (received (principalForAgent members projectId agentKey)
      (rosterRole members projectId agentKey))

/-! ## Histories -/

/-- The tables: the teams, the threads, the messages and the discussions. -/
structure World where
  members : List TeamMember
  threads : List Uuid
  messages : List Message
  discussions : List Discussion

def World.empty : World where
  members := []
  threads := []
  messages := []
  discussions := []

inductive Act where
  | addMember (m : TeamMember)
  | setMembershipState (projectId : Uuid) (agentKey : String) (state : MembershipState)
  | openThread (threadId : Uuid)
  | postMessage (m : Message)
  /-- A discussion is opened on its thread. -/
  | start (d : Discussion)
  /-- `_converge`: the discussion is closed with a message that it has posted as its result. -/
  | converge (discussionId : Uuid) (m : Message)
  /-- A discussion is closed for another reason. -/
  | close (discussionId : Uuid) (reason : Deliberation.StopReason)

/-- The row of a discussion is written again while it is open. -/
def updateOpen (discussions : List Discussion) (id : Uuid) (f : Discussion → Discussion) :
    List Discussion :=
  discussions.map fun d => if d.discussionId = id ∧ d.state = .open then f d else d

def step (w : World) : Act → Option World
  | .addMember m =>
    -- `chk_ptm_role`
    if Planning.btrimNonempty m.functionalRole then
      some { w with members := addMember w.members m }
    else none
  | .setMembershipState projectId agentKey state =>
    some { w with members := setMembershipState w.members projectId agentKey state }
  | .openThread id => some { w with threads := id :: w.threads }
  | .postMessage m =>
    (postMessage w.threads w.messages m).map fun messages => { w with messages := messages }
  | .start d =>
    some
      { w with
        threads := d.threadId :: w.threads
        discussions :=
          { d with state := .open, stopReason := none, resultMessageId := none } :: w.discussions }
  | .converge id m =>
    if m ∈ w.messages then
      some
        { w with
          discussions := updateOpen w.discussions id fun d =>
            if m.threadId = d.threadId ∧ m.projectId = d.projectId then
              { d with
                state := .converged
                stopReason := some .convergenceReached
                resultMessageId := some m.messageId }
            else d }
    else none
  | .close id reason =>
    if reason = .convergenceReached then none
    else
      some
        { w with
          discussions := updateOpen w.discussions id fun d =>
            { d with
              state := Deliberation.stateForStopReason reason
              stopReason := some reason } }

/-! ## What is promised -/

/-- The message is for the member, and by somebody else. -/
def addressedTo (member : TeamMember) (m : Message) : Bool :=
  m.senderPrincipalId != member.agentPrincipalId &&
    (m.recipientPrincipalId == some member.agentPrincipalId ||
      m.recipientRole == some member.functionalRole || m.recipientTeam)

variable (order : List Message → List Message)

/-- Every member finds the messages of the project that are for it, and no others. -/
def World.InboxExact (w : World) : Prop :=
  ∀ member ∈ w.members,
    (inbox order w.members w.messages member.projectId member.agentKey).Perm
      (w.messages.filter fun m => m.projectId == member.projectId && addressedTo member m)

/-- The result of every discussion that is admissible is found. -/
def World.ResultsFound (w : World) : Prop :=
  ∀ d ∈ w.discussions, ∀ goalId current,
    (evaluateAdmissibility (some d) goalId current).admissible = true →
      ∃ m, resultMessage order w.messages (some d) goalId current = .ok m ∧
        some m.messageId = d.resultMessageId

/-- How many messages a listing puts before this one. -/
def preceding (w : World) (projectId : Uuid) (threadId : Option Uuid) (m : Message) : Nat :=
  (arranged order w.messages projectId threadId).idxOf m

/-- No message for a member has a page of messages of the project before it. -/
def World.InboxEarly (w : World) : Prop :=
  ∀ member ∈ w.members, ∀ m ∈ w.messages, m.projectId = member.projectId →
    addressedTo member m = true → preceding order w member.projectId none m < defaultLimit

/-- No result of a converged discussion has a page of messages of its thread before it. -/
def World.ResultsEarly (w : World) : Prop :=
  ∀ d ∈ w.discussions, d.state = .converged → ∀ m ∈ w.messages,
    some m.messageId = d.resultMessageId →
      preceding order w d.projectId (some d.threadId) m < defaultLimit

/-! ## Invariant -/

structure World.Inv (w : World) : Prop where
  keys : KeysUnique w.members
  roles : ∀ m ∈ w.members, Planning.btrimNonempty m.functionalRole = true
  ids : (w.messages.map Message.messageId).Nodup
  /-- A converged discussion names a message of its thread. -/
  results : ∀ d ∈ w.discussions, d.state = .converged →
    d.stopReason = some .convergenceReached ∧ ∃ m ∈ w.messages,
      m.threadId = d.threadId ∧ m.projectId = d.projectId ∧ d.resultMessageId = some m.messageId

theorem inv_empty : World.empty.Inv where
  keys := List.nodup_nil
  roles _ hm := absurd hm List.not_mem_nil
  ids := List.nodup_nil
  results _ hd := absurd hd List.not_mem_nil

theorem mem_updateOpen {discussions : List Discussion} {id : Uuid} {f : Discussion → Discussion}
    {d : Discussion} (h : d ∈ updateOpen discussions id f) :
    d ∈ discussions ∨ ∃ e ∈ discussions, e.state = .open ∧ d = f e := by
  rcases List.mem_map.mp h with ⟨e, he, hd⟩
  by_cases hopen : e.discussionId = id ∧ e.state = .open
  · rw [if_pos hopen] at hd
    exact Or.inr ⟨e, he, hopen.2, hd.symm⟩
  · rw [if_neg hopen] at hd
    rw [← hd]
    exact Or.inl he

theorem step_inv (w : World) (a : Act) (t : World) (h : w.Inv) (ht : step w a = some t) :
    t.Inv := by
  unfold step at ht
  cases a with
  | addMember m =>
    simp only at ht
    split at ht
    next hrole =>
      rw [← Option.some.inj ht]
      refine ⟨h.keys.addMember m, ?_, h.ids, h.results⟩
      intro e he
      rcases List.mem_append.mp he with hold | hnew
      · exact h.roles e (List.mem_of_mem_filter hold)
      · rw [List.mem_singleton.mp hnew]
        exact hrole
    next => cases ht
  | setMembershipState projectId agentKey state =>
    rw [← Option.some.inj ht]
    refine ⟨h.keys.setMembershipState projectId agentKey state, ?_, h.ids, h.results⟩
    intro e he
    rcases List.mem_map.mp he with ⟨m, hm, hsame⟩
    have hrole : e.functionalRole = m.functionalRole := by
      rw [← hsame]
      split
      · rfl
      · rfl
    rw [hrole]
    exact h.roles m hm
  | openThread id =>
    rw [← Option.some.inj ht]
    exact ⟨h.keys, h.roles, h.ids, h.results⟩
  | postMessage m =>
    rcases Option.map_eq_some_iff.mp ht with ⟨messages, hposted, hsame⟩
    rw [← hsame]
    refine ⟨h.keys, h.roles, nodup_postMessage h.ids hposted, ?_⟩
    intro d hd hconverged
    rcases h.results d hd hconverged with ⟨hreason, e, he, hthere⟩
    refine ⟨hreason, e, ?_, hthere⟩
    unfold postMessage at hposted
    split at hposted
    · rw [← Option.some.inj hposted]
      exact List.mem_append_left _ he
    · cases hposted
  | start d =>
    rw [← Option.some.inj ht]
    refine ⟨h.keys, h.roles, h.ids, ?_⟩
    intro e he hconverged
    rcases List.mem_cons.mp he with hnew | hold
    · rw [hnew] at hconverged
      cases hconverged
    · exact h.results e hold hconverged
  | converge id m =>
    simp only at ht
    split at ht
    next hm =>
      rw [← Option.some.inj ht]
      refine ⟨h.keys, h.roles, h.ids, ?_⟩
      intro d hd hconverged
      rcases mem_updateOpen hd with hold | ⟨e, he, hopen, hsame⟩
      · exact h.results d hold hconverged
      · -- it is closed with a message of its own thread, or it is still open
        split at hsame
        next hthread =>
          rw [hsame]
          exact ⟨rfl, m, hm, hthread.1, hthread.2, rfl⟩
        next =>
          rw [hsame, hopen] at hconverged
          cases hconverged
    next => cases ht
  | close id reason =>
    simp only at ht
    split at ht
    · cases ht
    next hreason =>
      rw [← Option.some.inj ht]
      refine ⟨h.keys, h.roles, h.ids, ?_⟩
      intro d hd hconverged
      rcases mem_updateOpen hd with hold | ⟨e, he, hopen, hsame⟩
      · exact h.results d hold hconverged
      · rw [hsame] at hconverged
        exact absurd (Deliberation.stateForStopReason_eq_converged.mp hconverged) hreason

/-! ## What a member is sent -/

variable {order} {w : World} {member : TeamMember}

/-- Whatever row of the team has the key of a member is the member. -/
theorem eq_member {e : TeamMember} (h : w.Inv) (hmember : member ∈ w.members)
    (he : e ∈ listTeam w.members member.projectId) (hkey : e.agentKey = member.agentKey) :
    e = member := by
  have hlisted := List.mem_filter.mp he
  exact h.keys.eq hlisted.1 hmember (of_decide_eq_true hlisted.2) hkey

theorem mem_listTeam (hmember : member ∈ w.members) :
    member ∈ listTeam w.members member.projectId :=
  List.mem_filter.mpr ⟨hmember, decide_eq_true rfl⟩

/-- A search for the key of a member among rows of its team finds the member. -/
theorem find_member (h : w.Inv) (hmember : member ∈ w.members) {rows : List TeamMember}
    (hrows : ∀ e, e ∈ rows ↔ e ∈ listTeam w.members member.projectId) :
    (rows.find? fun m => m.agentKey = member.agentKey) = some member := by
  cases hfound : rows.find? fun m => m.agentKey = member.agentKey with
  | none =>
    have hmiss := List.find?_eq_none.mp hfound member ((hrows member).mpr (mem_listTeam hmember))
    exact absurd (decide_eq_true rfl) hmiss
  | some e =>
    have hkey : e.agentKey = member.agentKey := by
      have hkeys := List.find?_some hfound
      exact of_decide_eq_true hkeys
    have hlisted := (hrows e).mp (List.mem_of_find?_eq_some hfound)
    rw [eq_member h hmember hlisted hkey]

theorem received_eq (h : w.Inv) (hmember : member ∈ w.members) :
    received (principalForAgent w.members member.projectId member.agentKey)
      (rosterRole w.members member.projectId member.agentKey) = addressedTo member := by
  have hprincipal : principalForAgent w.members member.projectId member.agentKey =
      some member.agentPrincipalId := by
    unfold principalForAgent
    rw [find_member h hmember fun _ => Iff.rfl]
    rfl
  have hrole : rosterRole w.members member.projectId member.agentKey =
      some member.functionalRole := by
    unfold rosterRole
    rw [find_member h hmember fun _ => List.mem_reverse]
    rfl
  have hnonempty : (member.functionalRole != "") = true := by
    refine bne_iff_ne.mpr ?_
    intro hempty
    have hblank := h.roles member hmember
    rw [hempty] at hblank
    cases hblank
  rw [hprincipal, hrole]
  funext m
  unfold received addressedTo
  by_cases hmine : m.senderPrincipalId = member.agentPrincipalId
  · rw [if_pos (congrArg some hmine), hmine, bne_self_eq_false, Bool.false_and]
  · have hother : (m.senderPrincipalId != member.agentPrincipalId) = true := bne_iff_ne.mpr hmine
    rw [if_neg fun hsome => hmine (Option.some.inj hsome), hother]
    simp only [Option.isSome_some, Option.any_some, hnonempty, Bool.true_and]

theorem nodup_arranged (horder : Arranges Message.createdAt order) (h : w.Inv) (projectId : Uuid)
    (threadId : Option Uuid) : (arranged order w.messages projectId threadId).Nodup := by
  have hrows : (w.messages.filter (inListing projectId threadId)).Nodup :=
    (h.ids.of_map Message.messageId).filter _
  exact (horder.perm _).nodup_iff.mpr hrows

theorem mem_arranged (horder : Arranges Message.createdAt order) {projectId : Uuid}
    {threadId : Option Uuid} {m : Message} :
    m ∈ arranged order w.messages projectId threadId ↔
      m ∈ w.messages ∧ inListing projectId threadId m = true := by
  unfold arranged
  rw [(horder.perm _).mem_iff, List.mem_filter]

theorem inListing_none {projectId : Uuid} {m : Message} :
    inListing projectId none m = true ↔ m.projectId = projectId := by
  unfold inListing
  simp

theorem inbox_iff (horder : Arranges Message.createdAt order) (h : w.Inv)
    (hmember : member ∈ w.members) :
    (inbox order w.members w.messages member.projectId member.agentKey).Perm
        (w.messages.filter fun m => m.projectId == member.projectId && addressedTo member m) ↔
      ∀ m ∈ w.messages, m.projectId = member.projectId → addressedTo member m = true →
        preceding order w member.projectId none m < defaultLimit := by
  have hrows : (w.messages.filter fun m => m.projectId == member.projectId &&
      addressedTo member m) =
        (w.messages.filter (inListing member.projectId none)).filter (addressedTo member) := by
    rw [List.filter_filter]
    refine List.filter_congr ?_
    intro m _
    unfold inListing
    rw [Option.all_none, Bool.and_true, Bool.and_comm]
  have hperm : (arranged order w.messages member.projectId none).Perm
      (w.messages.filter (inListing member.projectId none)) := horder.perm _
  unfold inbox listMessages
  rw [received_eq h hmember, hrows, perm_filter_take_iff hperm,
    filter_drop_eq_nil_iff (nodup_arranged horder h _ _)]
  unfold preceding
  constructor
  · intro hearly m hm hproject haddressed
    exact hearly m ((mem_arranged horder).mpr ⟨hm, inListing_none.mpr hproject⟩) haddressed
  · intro hearly m hm haddressed
    have hlisted := (mem_arranged horder).mp hm
    exact hearly m hlisted.1 (inListing_none.mp hlisted.2) haddressed

/-! ## What a finalization finds -/

variable {d : Discussion}

/-- An admissible discussion is finalized exactly with what the page holds under its result. -/
theorem resultMessage_of_admissible {messages : List Message} {goalId : Uuid}
    {current : Option Uuid}
    (h : (evaluateAdmissibility (some d) goalId current).admissible = true) {m : Message} :
    resultMessage order messages (some d) goalId current = .ok m ↔
      (listMessages order messages d.projectId (some d.threadId) defaultLimit).find?
        (fun m => some m.messageId == d.resultMessageId) = some m := by
  unfold resultMessage
  simp only [h]
  cases hfound : (listMessages order messages d.projectId (some d.threadId) defaultLimit).find?
      fun m => some m.messageId == d.resultMessageId with
  | none => simp
  | some e => simp

/-- A converged discussion is admissible for its own goal while its revision is current. -/
theorem admissible_of_converged (hstate : d.state = .converged)
    (hreason : d.stopReason = some .convergenceReached) {id : Uuid}
    (hresult : d.resultMessageId = some id) :
    (evaluateAdmissibility (some d) d.goalId d.planRevisionId).admissible = true := by
  unfold evaluateAdmissibility
  simp only [hstate, hreason, hresult]
  cases d.planRevisionId with
  | none => simp
  | some bound => simp

theorem results_iff (horder : Arranges Message.createdAt order) (h : w.Inv)
    (hd : d ∈ w.discussions) :
    (∀ goalId current, (evaluateAdmissibility (some d) goalId current).admissible = true →
        ∃ m, resultMessage order w.messages (some d) goalId current = .ok m ∧
          some m.messageId = d.resultMessageId) ↔
      (d.state = .converged → ∀ m ∈ w.messages, some m.messageId = d.resultMessageId →
        preceding order w d.projectId (some d.threadId) m < defaultLimit) := by
  constructor
  · intro hfound hstate m hm hid
    rcases h.results d hd hstate with ⟨hreason, e, he, hthread, hproject, hresult⟩
    rcases hfound d.goalId d.planRevisionId (admissible_of_converged hstate hreason hresult) with
      ⟨a, ha, haid⟩
    rw [resultMessage_of_admissible (admissible_of_converged hstate hreason hresult)] at ha
    have hpage := List.mem_of_find?_eq_some ha
    have hlisted : a ∈ arranged order w.messages d.projectId (some d.threadId) :=
      List.mem_of_mem_take hpage
    have hmem := (mem_arranged horder).mp hlisted
    -- there is one message with this id
    have hsame : a = m :=
      List.inj_on_of_nodup_map h.ids hmem.1 hm (Option.some.inj (haid.trans hid.symm))
    rw [hsame] at hpage hlisted
    exact (List.mem_take_iff_idxOf_lt hlisted).mp hpage
  · intro hearly goalId current hadmissible
    rcases admissible_converged hadmissible with ⟨hstate, -, -⟩
    rcases h.results d hd hstate with ⟨-, m, hm, hthread, hproject, hresult⟩
    have hin : inListing d.projectId (some d.threadId) m = true := by
      unfold inListing
      rw [hproject, Option.all_some, hthread]
      simp
    have hlisted : m ∈ arranged order w.messages d.projectId (some d.threadId) :=
      (mem_arranged horder).mpr ⟨hm, hin⟩
    have hpage : m ∈ listMessages order w.messages d.projectId (some d.threadId) defaultLimit :=
      (List.mem_take_iff_idxOf_lt hlisted).mpr (hearly hstate m hm hresult.symm)
    have hfound : ((listMessages order w.messages d.projectId (some d.threadId)
        defaultLimit).find? fun m => some m.messageId == d.resultMessageId).isSome = true := by
      refine List.find?_isSome.mpr ⟨m, hpage, ?_⟩
      exact beq_iff_eq.mpr hresult.symm
    rcases Option.isSome_iff_exists.mp hfound with ⟨a, ha⟩
    refine ⟨a, (resultMessage_of_admissible hadmissible).mpr ha, ?_⟩
    have hid := List.find?_some ha
    exact beq_iff_eq.mp hid

theorem delivered_of_inv (horder : Arranges Message.createdAt order) (h : w.Inv) :
    (w.InboxExact order ↔ w.InboxEarly order) ∧
      (w.ResultsFound order ↔ w.ResultsEarly order) := by
  constructor
  · exact forall₂_congr fun member hmember => inbox_iff horder h hmember
  · exact forall₂_congr fun d hd => results_iff horder h hd

/-- **After every history, the members find what is for them, and the finalization the results,
exactly where a page of the listing reaches that far.** -/
theorem delivered_iff {order : List Message → List Message}
    (horder : Arranges Message.createdAt order) {w : World} (hreach : Reaches step .empty w) :
    (w.InboxExact order ↔ w.InboxEarly order) ∧
      (w.ResultsFound order ↔ w.ResultsEarly order) :=
  delivered_of_inv horder (hreach.invariant step_inv inv_empty)

/-! ## The message behind the page -/

/-- The rows in the order of `created_at`, rows of equal time as the table has them. -/
def byCreatedAt (rows : List Message) : List Message :=
  rows.mergeSort fun a b => decide (a.createdAt ≤ b.createdAt)

theorem arranges_byCreatedAt : Arranges Message.createdAt byCreatedAt where
  perm rows := List.mergeSort_perm rows _
  sorted rows := by
    have hsorted := @List.pairwise_mergeSort Message
      (fun a b => decide (a.createdAt ≤ b.createdAt)) (by simpa using fun _ _ _ => Nat.le_trans)
      (by simpa using fun a b : Message => Nat.le_total a.createdAt b.createdAt) rows
    exact hsorted.imp of_decide_eq_true

/-- A developer of the project. -/
def developer : TeamMember where
  projectId := ⟨1⟩
  agentPrincipalId := ⟨2⟩
  agentKey := "development-agent"
  functionalRole := "developer"
  membershipState := .active

/-- The `n`-th message to the team, from another principal. -/
def broadcast (n : Nat) : Message where
  messageId := ⟨n⟩
  threadId := ⟨3⟩
  projectId := ⟨1⟩
  senderPrincipalId := ⟨4⟩
  recipientPrincipalId := none
  recipientRole := none
  recipientTeam := true
  parentMessageId := none
  messageType := .message
  summary := "status"
  createdAt := n

/-- The team with its first `n` messages. -/
def busy (n : Nat) : World where
  members := [developer]
  threads := [⟨3⟩]
  messages := (List.range n).map broadcast
  discussions := []

theorem reaches_busy (n : Nat) : Reaches step .empty (busy n) := by
  induction n with
  | zero =>
    have hmember : step .empty (.addMember developer) =
        some { World.empty with members := [developer] } := by
      have hrole : Planning.btrimNonempty developer.functionalRole = true := by decide +kernel
      unfold step
      simp only [if_pos hrole]
      rfl
    exact (Reaches.single _ hmember).tail (.openThread ⟨3⟩) rfl
  | succ n ih =>
    refine ih.tail (.postMessage (broadcast n)) ?_
    have hnew : ((busy n).messages.map Message.messageId).contains (broadcast n).messageId =
        false := by
      refine Bool.eq_false_iff.mpr ?_
      intro hmem
      rcases List.mem_map.mp (List.contains_iff_mem.mp hmem) with ⟨m, hm, hid⟩
      rcases List.mem_map.mp hm with ⟨i, hi, hsame⟩
      rw [← hsame] at hid
      have hlt := List.mem_range.mp hi
      have heq : i = n := congrArg Uuid.value hid
      omega
    have hpostable : postable (busy n).threads (busy n).messages (broadcast n) = true := by
      have hthread : (busy n).threads.contains (broadcast n).threadId = true := by rfl
      have hsummary : (broadcast n).summarized = true := by
        have hstatus : (Planning.btrimNonempty "status" && decide ("status".length ≤ 2000)) =
            true := by
          decide +kernel
        exact hstatus
      unfold postable
      rw [hnew, hthread, hsummary]
      rfl
    have hposted : postMessage (busy n).threads (busy n).messages (broadcast n) =
        some ((busy n).messages ++ [broadcast n]) := if_pos hpostable
    unfold step
    simp only [hposted, Option.map_some, Option.some.injEq]
    unfold busy
    rw [List.range_succ, List.map_append, List.map_singleton]

theorem preceding_busy {n i : Nat} (h : i < n) :
    preceding byCreatedAt (busy n) ⟨1⟩ none (broadcast i) = i := by
  have hrows : (busy n).messages.filter (inListing ⟨1⟩ none) = (List.range n).map broadcast := by
    refine List.filter_eq_self.mpr ?_
    intro m hm
    rcases List.mem_map.mp hm with ⟨i, -, hsame⟩
    rw [← hsame]
    rfl
  have hsorted : ((List.range n).map broadcast).Pairwise fun a b =>
      decide (a.createdAt ≤ b.createdAt) = true := by
    rw [List.pairwise_map]
    refine List.pairwise_lt_range.imp ?_
    intro i j hlt
    exact decide_eq_true (Nat.le_of_lt hlt)
  have hinj : Function.Injective broadcast := by
    intro i j hsame
    exact congrArg Message.createdAt hsame
  unfold preceding arranged byCreatedAt
  rw [hrows, List.mergeSort_of_pairwise hsorted]
  have hnodup : ((List.range n).map broadcast).Nodup := List.nodup_range.map hinj
  have hlength : i < ((List.range n).map broadcast).length := by
    rw [List.length_map, List.length_range]
    exact h
  have hget : ((List.range n).map broadcast)[i] = broadcast i := by
    rw [List.getElem_map, List.getElem_range]
  rw [← hget]
  exact hnodup.idxOf_getElem i hlength

/-- As long as the project has at most 200 messages, everybody is told everything. -/
theorem delivered_busy : (busy 200).InboxExact byCreatedAt := by
  refine ((delivered_iff arranges_byCreatedAt (reaches_busy 200)).1).mpr ?_
  intro member hmember m hm hproject _
  rcases List.mem_map.mp hm with ⟨i, hi, hsame⟩
  rw [List.mem_singleton.mp hmember, ← hsame]
  have hlt : i < 200 := List.mem_range.mp hi
  have hplace := preceding_busy hlt
  exact lt_of_eq_of_lt hplace hlt

/-- The 201st message to the team is delivered to nobody. -/
theorem broadcast_undelivered :
    Reaches step .empty (busy 201) ∧ ¬(busy 201).InboxExact byCreatedAt := by
  refine ⟨reaches_busy 201, ?_⟩
  intro hexact
  have hinv : (busy 201).Inv := (reaches_busy 201).invariant step_inv inv_empty
  have hearly := (delivered_of_inv arranges_byCreatedAt hinv).1.mp hexact
  have hlast : broadcast 200 ∈ (busy 201).messages :=
    List.mem_map_of_mem (List.mem_range.mpr (by omega))
  have hplace := hearly developer (List.mem_singleton_self _) _ hlast rfl (by decide)
  have hbehind := preceding_busy (n := 201) (i := 200) (by omega)
  have hproject : developer.projectId = ⟨1⟩ := rfl
  have hlimit : defaultLimit = 200 := rfl
  rw [hproject, hbehind, hlimit] at hplace
  omega

end AiAgentsSwd.AgentTeam
