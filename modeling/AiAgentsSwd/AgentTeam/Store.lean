import AiAgentsSwd.Deliberation.Models
import AiAgentsSwd.Listing.Page

/-!
# AgentTeam.Store — members and messages

Model of the parts of `shared/sdk/agent_team/store.py` that read and write `team_messages` and
read the team of a project, with the tables of `migrations/036_at_m2_team_core.sql`. Rows of
equal `created_at` come in any order, so that a listing is taken over an arrangement of the rows.
-/

namespace AiAgentsSwd.AgentTeam

open Planning (Uuid Time btrimNonempty)

/-! ## Rows -/

/-- `chk_ptm_state` -/
inductive MembershipState where
  | invited
  | active
  | paused
  | left
deriving Repr, DecidableEq

/-- A row of `list_team`: a membership with the profile it is joined with. -/
structure TeamMember where
  projectId : Uuid
  agentPrincipalId : Uuid
  agentKey : String
  functionalRole : String
  membershipState : MembershipState
deriving Repr, DecidableEq

/-- `chk_team_messages_type` -/
inductive MessageType where
  | message
  | proposal
  | challenge
  | decisionSummary
  | handoff
  | blocker
  | clarificationQuestion
  | clarificationAnswer
  | debugHypothesis
  | debugResult
  | replan
  | systemEvent
  | auditEvent
deriving Repr, DecidableEq

/-- A row of `team_messages`, without its `content` and references. -/
structure Message where
  messageId : Uuid
  threadId : Uuid
  projectId : Uuid
  senderPrincipalId : Uuid
  recipientPrincipalId : Option Uuid
  recipientRole : Option String
  recipientTeam : Bool
  parentMessageId : Option Uuid
  messageType : MessageType
  summary : String
  createdAt : Time
deriving Repr, DecidableEq

/-- `chk_team_messages_addressed` -/
def Message.addressed (m : Message) : Bool :=
  m.recipientPrincipalId.isSome || m.recipientRole.isSome || m.recipientTeam

/-- `chk_team_messages_summary` -/
def Message.summarized (m : Message) : Bool :=
  btrimNonempty m.summary && decide (m.summary.length ≤ 2000)

/-! ## Listings -/

/-- The `limit` of `list_messages`. -/
def defaultLimit : Nat := 200

/-- The rows that `list_messages` selects. -/
def inListing (projectId : Uuid) (threadId : Option Uuid) (m : Message) : Bool :=
  m.projectId == projectId && threadId.all fun id => m.threadId == id

/-- The selected rows in the order of `created_at`. -/
def arranged (order : List Message → List Message) (messages : List Message) (projectId : Uuid)
    (threadId : Option Uuid) : List Message :=
  order (messages.filter (inListing projectId threadId))

/-- `list_messages(project_id, thread_id, limit)` -/
def listMessages (order : List Message → List Message) (messages : List Message) (projectId : Uuid)
    (threadId : Option Uuid) (limit : Nat) : List Message :=
  (arranged order messages projectId threadId).take limit

/-- `list_team(project_id)` -/
def listTeam (members : List TeamMember) (projectId : Uuid) : List TeamMember :=
  members.filter fun m => m.projectId = projectId

/-! ## Writes -/

/-- What `post_message` can insert: a message whose id is new and whose thread exists, and that
the checks of the table let through. -/
def postable (threads : List Uuid) (messages : List Message) (m : Message) : Bool :=
  !(messages.map Message.messageId).contains m.messageId && threads.contains m.threadId &&
    m.addressed && m.summarized

/-- `post_message(message)` -/
def postMessage (threads : List Uuid) (messages : List Message) (m : Message) :
    Option (List Message) :=
  if postable threads messages m then some (messages ++ [m]) else none

/-- `add_member`: the role of a member of the project is written again. -/
def addMember (members : List TeamMember) (m : TeamMember) : List TeamMember :=
  members.filter (fun e => ¬(e.projectId = m.projectId ∧ e.agentKey = m.agentKey)) ++
    [{ m with membershipState := .active }]

/-- `set_membership_state(project_id, agent_key, state)` -/
def setMembershipState (members : List TeamMember) (projectId : Uuid) (agentKey : String)
    (state : MembershipState) : List TeamMember :=
  members.map fun m =>
    if m.projectId = projectId ∧ m.agentKey = agentKey then { m with membershipState := state }
    else m

/-! ## Laws -/

/-- In one project, different members have different keys. -/
def KeysUnique (members : List TeamMember) : Prop :=
  (members.map fun m => (m.projectId, m.agentKey)).Nodup

variable {members : List TeamMember} {messages : List Message}

theorem KeysUnique.addMember (h : KeysUnique members) (m : TeamMember) :
    KeysUnique (addMember members m) := by
  unfold KeysUnique AgentTeam.addMember
  rw [List.map_append, List.map_singleton]
  have hkept : ((members.filter fun e =>
      ¬(e.projectId = m.projectId ∧ e.agentKey = m.agentKey)).map
        fun e => (e.projectId, e.agentKey)).Nodup :=
    h.sublist (List.Sublist.map _ List.filter_sublist)
  refine hkept.append (List.nodup_singleton _) ?_
  intro key hold hnew
  rcases List.mem_map.mp hold with ⟨e, he, hsame⟩
  rw [List.mem_singleton.mp hnew] at hsame
  have hother := of_decide_eq_true (List.mem_filter.mp he).2
  exact hother ⟨congrArg Prod.fst hsame, congrArg Prod.snd hsame⟩

theorem KeysUnique.setMembershipState (h : KeysUnique members) (projectId : Uuid)
    (agentKey : String) (state : MembershipState) :
    KeysUnique (setMembershipState members projectId agentKey state) := by
  have hkeys : (AgentTeam.setMembershipState members projectId agentKey state).map
      (fun m => (m.projectId, m.agentKey)) = members.map fun m => (m.projectId, m.agentKey) := by
    unfold AgentTeam.setMembershipState
    rw [List.map_map]
    refine List.map_congr_left ?_
    intro m _
    simp only [Function.comp]
    split
    · rfl
    · rfl
  unfold KeysUnique
  rw [hkeys]
  exact h

/-- Members of one project with the same key are the same. -/
theorem KeysUnique.eq (h : KeysUnique members) {a b : TeamMember} (ha : a ∈ members)
    (hb : b ∈ members) (hproject : a.projectId = b.projectId) (hkey : a.agentKey = b.agentKey) :
    a = b :=
  List.inj_on_of_nodup_map h ha hb (Prod.ext hproject hkey)

theorem nodup_postMessage {threads : List Uuid} {m : Message} {t : List Message}
    (h : (messages.map Message.messageId).Nodup)
    (ht : postMessage threads messages m = some t) : (t.map Message.messageId).Nodup := by
  unfold postMessage postable at ht
  split at ht
  next hpostable =>
    simp only [Bool.and_eq_true, Bool.not_eq_true'] at hpostable
    have hnew : m.messageId ∉ messages.map Message.messageId := by
      intro hmem
      have hcontains := hpostable.1.1.1
      rw [List.contains_iff_mem.mpr hmem] at hcontains
      cases hcontains
    rw [← Option.some.inj ht, List.map_append, List.map_singleton]
    refine h.append (List.nodup_singleton _) ?_
    intro id hold hid
    rw [List.mem_singleton.mp hid] at hold
    exact hnew hold
  next => cases ht

end AiAgentsSwd.AgentTeam
