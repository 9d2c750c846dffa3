import AiAgentsSwd.ApprovalPolicy.Promotion
import AiAgentsSwd.ApprovalPolicy.Rails
import AiAgentsSwd.Keyed.Counts
import AiAgentsSwd.Keyed.Holds

/-!
# ApprovalPolicy.Authorised — when promotions stay inside what was granted

Between the evaluation of a policy and the count of the promotion nothing keeps the policy, and
nothing keeps the approval between its read and the promotion. `careful` says what has to hold
of the single steps: a policy serves one request at a time, an approval one promotion, neither
is taken back meanwhile, and what a policy has authorised is counted. Under it `Inv` holds in
every state, and with it `PromotedProperly`.
-/

namespace AiAgentsSwd.ApprovalPolicy

open Keyed (Table)
open Planning (Uuid)
open Transition

variable {ρ : Type} [DecidableEq ρ] {rt : Runtime}

/-! ## What is promised -/

/-- The authority of a promotion, and what its evaluation said. -/
structure LlmProposalPromotion.Proper (p : LlmProposalPromotion) : Prop where
  authorised : (∃ a, p.found = some a ∧ a.proposal = p.proposal ∧ a.status = .approved) ∨
    ∃ result, p.evaluation = some result ∧ result.allowed = true ∧
      p.policyId = some result.policyId
  unblocked : ∃ result, p.evaluation = some result ∧ result.hardPolicyBlock = false

/-- The promotion was authorised by the policy, whether or not a file was stored. -/
def LlmProposalPromotion.byPolicy (p : LlmProposalPromotion) (id : String) : Bool :=
  p.decisionSource == some .policyAllows && p.policyId == some id

/-- The promotion succeeded and was authorised by an approval. -/
def LlmProposalPromotion.byApproval (p : LlmProposalPromotion) : Bool :=
  p.status == .promoted && p.decisionSource == some .explicitApproval

/-- The promotions authorised by the policy. -/
def World.authorised (s : World ρ) (id : String) : Nat :=
  s.promotions.countP (·.byPolicy id)

/-- The policy whose counter is still to be incremented for a promotion. -/
def Phase.owes : Phase → Option String
  | .stamping d _ => d.effectivePolicyId
  | .counting d _ => d.effectivePolicyId
  | _ => none

/-- The increments that are still to come. -/
def World.owed (s : World ρ) (id : String) : Nat :=
  s.requests.rows.countP fun e => e.2.owes == some id

/-- Promotions are authorised and not blocked, policies keep their budget and count, a revoked
policy authorises nothing, and an approval one success at most. -/
structure PromotedProperly (s : World ρ) : Prop where
  proper : ∀ p ∈ s.promotions, p.status = .promoted → p.Proper
  budget : ∀ id row most, s.policies.find? id = some row → row.policy.maxActions = some most →
    s.authorised id ≤ most.toNat
  counted : ∀ id row, s.policies.find? id = some row →
    row.policy.actionsUsed + s.owed id = s.authorised id
  unrevoked : ∀ p ∈ s.promotions, p.decisionSource = some .policyAllows → p.revoked = false
  once : (s.promotions.filter (·.byApproval)).Pairwise fun p q => p.approvalId ≠ q.approvalId

/-! ## Careful steps -/

/-- The policy that a request has evaluated and not counted yet. -/
def Phase.policyHeld : Phase → Option String
  | .approving _ _ chosen _ => chosen.map HumanApprovalPolicy.policyId
  | .locating d => d.effectivePolicyId
  | .materialising d _ _ _ => d.effectivePolicyId
  | .promoting d _ _ => d.effectivePolicyId
  | .stamping d _ => d.effectivePolicyId
  | .counting d _ => d.effectivePolicyId
  | _ => none

/-- The approval that authorises a decision. -/
def Decision.authorising (d : Decision) : Option Uuid :=
  if d.explicitOk then d.approval.map (·.1) else none

/-- The approval that a request has read and not promoted by yet. -/
def Phase.approvalHeld : Phase → Option Uuid
  | .locating d => d.authorising
  | .materialising d _ _ _ => d.authorising
  | .promoting d _ _ => d.authorising
  | _ => none

def World.holdsPolicy (s : World ρ) (id : String) : Bool :=
  s.requests.holds Phase.policyHeld id

def World.holdsApproval (s : World ρ) (id : Uuid) : Bool :=
  s.requests.holds Phase.approvalHeld id

/-- The approval has authorised a success before. -/
def World.approvalUsed (s : World ρ) (id : Uuid) : Bool :=
  s.promotions.any fun p => p.byApproval && p.approvalId == some id

/-- What has to hold of the next call of a request. -/
def carefulNext (rt : Runtime) (s : World ρ) (d : Draw) : Phase → Bool
  | .selecting c changes =>
    (s.select rt c changes d).1.all fun p => !s.holdsPolicy p.policyId
  | .approving c changes chosen result =>
    let decision := s.decision c changes chosen result
    -- an approval takes no policy with it, and is neither used nor in use
    !decision.explicitOk || (decision.effectivePolicyId.isNone &&
      decision.approval.all fun e => !s.approvalUsed e.1 && !s.holdsApproval e.1)
  | .settling approval verdict => verdict == .approve || !s.holdsApproval approval
  | .counting decision _ => decision.effectivePolicyId.isNone || !d.raises
  | _ => true

/-- Steps that leave what others hold alone, and lose no count. -/
def careful (rt : Runtime) (s : World ρ) : Act ρ → Bool
  | .next r d => (s.requests.find? r).all (carefulNext rt s d)
  | .stop r => (s.requests.find? r).all fun p => p.owes.isNone
  | .activatePolicy id => !s.revoked.contains id
  | .revokePolicy id => !s.holdsPolicy id
  | _ => true

/-! ## The gates -/

theorem violation_eq_nil {rule filePath : String} {check : Bool × String} :
    violation rule filePath check = [] ↔ check.1 = true := by
  unfold violation
  cases check.1 <;> simp

/-- What the safety policy lets pass, the hard rails do. -/
theorem hardSafetyCheck_of_violations {changes : List LlmFileChange}
    (h : applyLlmSafetyPolicy rt.unicode changes (changes.map LlmFileChange.filePath) = []) :
    hardSafetyCheck rt "llm_proposal_promote" (changes.map LlmFileChange.filePath)
      (changes.map LlmFileChange.proposedContent) = none := by
  unfold applyLlmSafetyPolicy at h
  simp only [List.append_eq_nil_iff, List.flatMap_eq_nil_iff] at h
  have hchange := h.1.2
  have hpaths : (changes.map LlmFileChange.filePath).findSome? (pathRail rt) = none := by
    rw [List.findSome?_eq_none_iff]
    intro path hpath
    have hok := violation_eq_nil.mp (h.2 path hpath)
    unfold checkPath at hok
    unfold pathRail
    rcases hcheck : validateAllowedPath rt.unicode path defaultAllowedPaths defaultDeniedPaths
      with ⟨ok, why⟩
    rw [hcheck] at hok
    cases ok with
    | false => cases hok
    | true => rfl
  have hcontents :
      (changes.map LlmFileChange.proposedContent).findSome? (contentRail rt) = none := by
    rw [List.findSome?_eq_none_iff]
    intro sample hsample
    rcases List.mem_map.mp hsample with ⟨change, hmem, rfl⟩
    have hnone := hchange change hmem
    unfold checkChange at hnone
    simp only [List.append_eq_nil_iff, violation_eq_nil] at hnone
    unfold contentRail
    rcases hsecret : validateNoSecretContent rt.unicode change.proposedContent with ⟨ok, why⟩
    rcases hdestructive : validateNoDestructiveChange rt.unicode change.proposedContent
      with ⟨ok', why'⟩
    rw [hsecret, hdestructive] at hnone
    have hok : ok = true := hnone.1.1.2
    have hok' : ok' = true := hnone.1.2
    subst hok hok'
    rfl
  have hsoft : hardSafetyActions.contains "llm_proposal_promote" = false := by decide
  unfold hardSafetyCheck
  rw [hsoft, hpaths, hcontents]
  rfl

theorem hardPolicyBlock_tryPolicies (a : Action) (i : Nat) (last : String)
    (candidates : List HumanApprovalPolicy) :
    (tryPolicies rt a i last candidates).hardPolicyBlock = false := by
  induction candidates generalizing i last with
  | nil => rfl
  | cons policy rest ih =>
    unfold tryPolicies
    split
    · exact ih _ _
    · split
      · rfl
      · exact ih _ _

theorem hardPolicyBlock_evaluateAction {a : Action} {candidates : List HumanApprovalPolicy}
    (h : hardSafetyCheck rt a.actionType a.paths a.contentSamples = none) :
    (evaluateAction rt a candidates).hardPolicyBlock = false := by
  unfold evaluateAction
  rw [h]
  exact hardPolicyBlock_tryPolicies a 0 _ candidates

/-- Who allows an action is an active candidate with an action left. -/
theorem candidate_of_allowed {a : Action} {candidates : List HumanApprovalPolicy}
    (h : (evaluateAction rt a candidates).allowed = true) :
    ∃ policy ∈ candidates, (evaluateAction rt a candidates).policyId = policy.policyId ∧
      policy.status = "active" ∧
      ∀ most, policy.maxActions = some most → policy.actionsUsed < most := by
  unfold evaluateAction at h ⊢
  cases hhard : hardSafetyCheck rt a.actionType a.paths a.contentSamples with
  | some why =>
    rw [hhard] at h
    cases h
  | none =>
    rw [hhard] at h
    rcases permits_of_tryPolicies h with ⟨i, policy, hi, hpermits, hid⟩
    exact ⟨policy, List.mem_of_getElem? hi, hid, hpermits.active, hpermits.actions⟩

theorem mem_newestFirst {K R : Type} {createdAt : R → Nat} {rows : List (K × R)} {e : K × R} :
    e ∈ newestFirst createdAt rows ↔ e ∈ rows := by
  unfold newestFirst
  exact List.mem_insertionSort _

/-- A candidate is a row as it stands, the one that the payload names if it names one. -/
theorem mem_candidates {s : World ρ} {c : PromoteIn} {now : Time} {policy : HumanApprovalPolicy}
    (h : policy ∈ s.candidates rt c now) :
    (∃ row, s.policies.find? policy.policyId = some row ∧
      policy = World.readPolicy (policy.policyId, row)) ∧
    ∀ id, c.named = some id → policy.policyId = id := by
  unfold World.candidates at h
  cases hnamed : c.named with
  | some id =>
    simp only [hnamed, World.getPolicy, Option.mem_toList, Option.map_eq_some_iff] at h
    rcases h with ⟨row, hrow, rfl⟩
    exact ⟨⟨row, hrow, rfl⟩, fun id' heq => Option.some.inj heq⟩
  | none =>
    simp only [hnamed, World.listActivePolicies, List.mem_map, mem_newestFirst,
      List.mem_filter] at h
    rcases h with ⟨e, ⟨hmem, -⟩, rfl⟩
    refine ⟨⟨e.2, Table.mem_rows.mp hmem, rfl⟩, ?_⟩
    intro id heq
    cases heq

theorem mem_explicitApproval {s : World ρ} {c : PromoteIn} {e : Uuid × LlmProposalApproval}
    (h : s.explicitApproval c = some e) :
    s.approvals.find? e.1 = some e.2 ∧ e.2.proposal = c.proposal ∧
      ∀ id, c.approvalId = some id → id = e.1 := by
  unfold World.explicitApproval at h
  cases hid : c.approvalId with
  | some id =>
    simp only [hid] at h
    have hmem := List.mem_of_mem_take (List.mem_of_find?_eq_some h)
    rw [mem_newestFirst, List.mem_filter, Bool.and_eq_true, beq_iff_eq, beq_iff_eq] at hmem
    have hsame := List.find?_some h
    rw [beq_iff_eq] at hsame
    refine ⟨Table.mem_rows.mp hmem.1, hmem.2.2, ?_⟩
    intro id' heq
    rw [← Option.some.inj heq, hsame]
  | none =>
    simp only [hid, World.getLatestApproval] at h
    have hmem := List.mem_of_head? h
    rw [mem_newestFirst, List.mem_filter, beq_iff_eq] at hmem
    refine ⟨Table.mem_rows.mp hmem.1, hmem.2, ?_⟩
    intro id heq
    cases heq

/-! ## The invariant -/

/-- The policy has an action left, and has not been revoked. -/
structure Affordable (s : World ρ) (id : String) : Prop where
  row : ∃ row, s.policies.find? id = some row ∧
    ∀ most, row.policy.maxActions = some most → s.authorised id + 1 ≤ most.toNat
  unrevoked : id ∉ s.revoked

/-- The approval is one of the proposal, approved, and has authorised no success. -/
structure Approved (s : World ρ) (id proposal : Uuid) : Prop where
  row : ∃ a, s.approvals.find? id = some a ∧ a.proposal = proposal ∧ a.status = .approved
  unused : ∀ p ∈ s.promotions, p.byApproval = true → p.approvalId ≠ some id

/-- A policy has been selected, or none allows the promotion. -/
structure Selected (s : World ρ) (c : PromoteIn) (chosen : Option HumanApprovalPolicy)
    (result : EvaluationResult) : Prop where
  unblocked : result.hardPolicyBlock = false
  allowed : result.allowed = true →
    chosen.map HumanApprovalPolicy.policyId = some result.policyId ∧
    (∀ id, c.named = some id → result.policyId = id) ∧ Affordable s result.policyId

/-- A decision that may be carried out. -/
structure Cleared (s : World ρ) (d : Decision) : Prop where
  unblocked : d.result.hardPolicyBlock = false
  byApproval : d.explicitOk = true → d.effectivePolicyId = none ∧
    ∃ e, d.approval = some e ∧ (∀ id, d.call.approvalId = some id → id = e.1) ∧
      Approved s e.1 d.call.proposal
  byPolicy : d.explicitOk = false → d.result.allowed = true ∧
    d.effectivePolicyId = some d.result.policyId ∧ Affordable s d.result.policyId

/-- What a request has made sure of when it comes to a phase. -/
def Phase.Sound (rt : Runtime) (s : World ρ) : Phase → Prop
  | .selecting _ changes =>
    hardSafetyCheck rt "llm_proposal_promote" (changes.map LlmFileChange.filePath)
      (changes.map LlmFileChange.proposedContent) = none
  | .approving c _ chosen result => Selected s c chosen result
  | .locating d => Cleared s d
  | .materialising d _ _ _ => Cleared s d
  | .promoting d _ _ => Cleared s d
  | .stamping d _ => ∀ id, d.effectivePolicyId = some id → s.policies.find? id ≠ none
  | .counting d _ => ∀ id, d.effectivePolicyId = some id → s.policies.find? id ≠ none
  | _ => True

/-- What holds of the tables. -/
structure Records (s : World ρ) : Prop where
  budget : ∀ id row most, s.policies.find? id = some row → row.policy.maxActions = some most →
    s.authorised id ≤ most.toNat
  gone : ∀ id row, id ∈ s.revoked → s.policies.find? id = some row →
    row.policy.status = "revoked"
  proper : ∀ p ∈ s.promotions, p.status = .promoted → p.Proper
  unrevoked : ∀ p ∈ s.promotions, p.decisionSource = some .policyAllows → p.revoked = false
  once : (s.promotions.filter (·.byApproval)).Pairwise fun p q => p.approvalId ≠ q.approvalId
  known : ∀ p ∈ s.promotions, ∀ id, p.byPolicy id = true → s.policies.find? id ≠ none
  unnamed : s.policies.find? "" = none
  existed : ∀ id ∈ s.revoked, s.policies.find? id ≠ none

/-- Every promotion of the policy is counted, or is about to be. -/
def Counted (s : World ρ) : Prop :=
  ∀ id row, s.policies.find? id = some row →
    row.policy.actionsUsed + s.owed id = s.authorised id

structure Inv (rt : Runtime) (s : World ρ) : Prop where
  records : Records s
  counted : Counted s
  sound : ∀ r p, s.requests.find? r = some p → p.Sound rt s
  policies : s.requests.Exclusive Phase.policyHeld
  approvals : s.requests.Exclusive Phase.approvalHeld

/-! ### What others leave alone -/

/-- What the phase counts on is still there. -/
structure Frame (s t : World ρ) (p : Phase) : Prop where
  policy : ∀ id, p.policyHeld = some id → Affordable s id → Affordable t id
  approval : ∀ id proposal, p.approvalHeld = some id → Approved s id proposal →
    Approved t id proposal
  exist : ∀ id, s.policies.find? id ≠ none → t.policies.find? id ≠ none

theorem Frame.trans {s t u : World ρ} {p : Phase} (h : Frame s t p) (h' : Frame t u p) :
    Frame s u p where
  policy := fun id hid ha => h'.policy id hid (h.policy id hid ha)
  approval := fun id proposal hid ha => h'.approval id proposal hid (h.approval id proposal hid ha)
  exist := fun id hne => h'.exist id (h.exist id hne)

theorem Decision.authorising_eq {d : Decision} (hok : d.explicitOk = true)
    {e : Uuid × LlmProposalApproval} (he : d.approval = some e) : d.authorising = some e.1 := by
  unfold authorising
  rw [if_pos hok, he]
  rfl

theorem Cleared.frame {s t : World ρ} {d : Decision} (hd : Cleared s d)
    (hpolicy : ∀ id, d.effectivePolicyId = some id → Affordable s id → Affordable t id)
    (happroval : ∀ id proposal, d.authorising = some id → Approved s id proposal →
      Approved t id proposal) : Cleared t d where
  unblocked := hd.unblocked
  byApproval := by
    intro hok
    rcases hd.byApproval hok with ⟨hnone, e, he, hsame, happroved⟩
    exact ⟨hnone, e, he, hsame, happroval _ _ (Decision.authorising_eq hok he) happroved⟩
  byPolicy := by
    intro hok
    rcases hd.byPolicy hok with ⟨hallowed, heffective, haffordable⟩
    exact ⟨hallowed, heffective, hpolicy _ heffective haffordable⟩

/-- **The frame rule**: what a request has made sure of stays, as long as others leave alone
what it holds. -/
theorem sound_frame {s t : World ρ} {p : Phase} (hf : Frame s t p) (hp : p.Sound rt s) :
    p.Sound rt t := by
  cases p with
  | selecting c changes => exact hp
  | approving c changes chosen result =>
    have hs : Selected s c chosen result := hp
    refine ⟨hs.unblocked, fun hallowed => ?_⟩
    have h := hs.allowed hallowed
    exact ⟨h.1, h.2.1, hf.policy _ h.1 h.2.2⟩
  | locating d => exact Cleared.frame hp hf.policy hf.approval
  | materialising d workspace rest accepted => exact Cleared.frame hp hf.policy hf.approval
  | promoting d workspace accepted => exact Cleared.frame hp hf.policy hf.approval
  | stamping d status => exact fun id hid => hf.exist id (hp id hid)
  | counting d status => exact fun id hid => hf.exist id (hp id hid)
  | asking a => trivial
  | requesting a => trivial
  | finding proposal verdict => trivial
  | settling approval verdict => trivial
  | loading c => trivial
  | refusing c evaluation => trivial
  | marking d status => trivial
  | «over» => trivial

/-- An increment that is owed is one of a policy that is held. -/
theorem Phase.policyHeld_of_owes {p : Phase} {id : String} (h : p.owes = some id) :
    p.policyHeld = some id := by
  cases p with
  | stamping d status => exact h
  | counting d status => exact h
  | _ => cases h

theorem owed_eq_zero {s : World ρ} {id : String} (h : s.holdsPolicy id = false) :
    s.owed id = 0 := by
  unfold World.owed
  rw [List.countP_eq_zero]
  intro e he howes
  have hheld := Phase.policyHeld_of_owes (beq_iff_eq.mp howes)
  exact Table.holds_eq_false.mp h e.1 e.2 (Table.mem_rows.mp he) hheld

/-- The request that moves leaves the count with what it owed and enters it with what it owes. -/
theorem owed_modify {s t : World ρ} {r : ρ} {p p' : Phase} (hr : s.requests.find? r = some p)
    (hreq : t.requests = s.requests.modify r fun _ => p') (id : String) :
    t.owed id + (if p.owes = some id then 1 else 0) =
      s.owed id + if p'.owes = some id then 1 else 0 := by
  unfold World.owed
  rw [hreq]
  have hcount := Table.countP_rows_modify (p := fun e => e.2.owes == some id) hr fun _ => p'
  simpa only [beq_iff_eq] using hcount

/-! ### One request moves on -/

/-- **The move lemma**: one request moves and changes the tables, the others find what they
count on. -/
theorem Inv.move {s t : World ρ} (hs : Inv rt s) {r : ρ} {p' : Phase}
    (hput : s.requests.Puts t.requests r p') (hrecords : Records t) (hcounted : Counted t)
    (hframe : ∀ r' q, r' ≠ r → s.requests.find? r' = some q → Frame s t q)
    (hsound : p'.Sound rt t)
    (hpolicy : ∀ id, p'.policyHeld = some id → s.requests.Alone Phase.policyHeld r id)
    (happroval : ∀ id, p'.approvalHeld = some id → s.requests.Alone Phase.approvalHeld r id) :
    Inv rt t where
  records := hrecords
  counted := hcounted
  sound := by
    intro r' q hq
    rcases hput.find hq with ⟨-, rfl⟩ | ⟨hne, hold⟩
    · exact hsound
    · exact sound_frame (hframe r' q hne hold) (hs.sound r' q hold)
  policies := hs.policies.puts hput hpolicy
  approvals := hs.approvals.puts hput happroval

/-- The two states have the same tables, up to the proposals. -/
structure SameTables (s t : World ρ) : Prop where
  policies : t.policies = s.policies
  approvals : t.approvals = s.approvals
  promotions : t.promotions = s.promotions
  revoked : t.revoked = s.revoked

theorem SameTables.authorised {s t : World ρ} (h : SameTables s t) (id : String) :
    t.authorised id = s.authorised id := by
  unfold World.authorised
  rw [h.promotions]

theorem SameTables.affordable {s t : World ρ} (h : SameTables s t) {id : String}
    (ha : Affordable s id) : Affordable t id := by
  constructor
  · rw [h.policies, h.authorised]
    exact ha.row
  · rw [h.revoked]
    exact ha.unrevoked

theorem SameTables.frame {s t : World ρ} (h : SameTables s t) (p : Phase) : Frame s t p where
  policy := fun _ _ ha => h.affordable ha
  approval := by
    intro id proposal _ ha
    constructor
    · rw [h.approvals]
      exact ha.row
    · rw [h.promotions]
      exact ha.unused
  exist := by
    rw [h.policies]
    exact fun _ hne => hne

theorem SameTables.records {s t : World ρ} (h : SameTables s t) (hs : Records s) :
    Records t where
  budget := by
    simp only [h.policies, h.authorised]
    exact hs.budget
  gone := by
    rw [h.policies, h.revoked]
    exact hs.gone
  proper := by
    rw [h.promotions]
    exact hs.proper
  unrevoked := by
    rw [h.promotions]
    exact hs.unrevoked
  once := by
    rw [h.promotions]
    exact hs.once
  known := by
    rw [h.promotions, h.policies]
    exact hs.known
  unnamed := by
    rw [h.policies]
    exact hs.unnamed
  existed := by
    rw [h.revoked, h.policies]
    exact hs.existed

theorem SameTables.counted {s t : World ρ} (h : SameTables s t) (hs : Counted s)
    (howed : ∀ id, t.owed id = s.owed id) : Counted t := by
  intro id row hrow
  rw [h.policies] at hrow
  rw [howed, h.authorised]
  exact hs id row hrow

/-- A request moves on and nothing else happens. -/
theorem Inv.goto {s : World ρ} (hs : Inv rt s) {r : ρ} {p p' : Phase}
    (hr : s.requests.find? r = some p) (howes : p'.owes = p.owes) (hsound : p'.Sound rt s)
    (hpolicy : ∀ id, p'.policyHeld = some id → s.requests.Alone Phase.policyHeld r id)
    (happroval : ∀ id, p'.approvalHeld = some id → s.requests.Alone Phase.approvalHeld r id) :
    Inv rt (s.goto r p') := by
  have hsame : SameTables s (s.goto r p') := ⟨rfl, rfl, rfl, rfl⟩
  refine hs.move (Table.puts_modify hr _) (hsame.records hs.records) ?_
    (fun _ q _ _ => hsame.frame q) (sound_frame (hsame.frame p') hsound) hpolicy happroval
  refine hsame.counted hs.counted fun id => ?_
  have hmove := owed_modify (t := s.goto r p') hr rfl id
  rw [howes] at hmove
  exact Nat.add_right_cancel hmove

/-- A request moves on, and holds what it held. -/
theorem Inv.keep {s : World ρ} (hs : Inv rt s) {r : ρ} {p p' : Phase}
    (hr : s.requests.find? r = some p) (howes : p'.owes = p.owes) (hsound : p'.Sound rt s)
    (hpolicy : ∀ id, p'.policyHeld = some id → p.policyHeld = some id)
    (happroval : ∀ id, p'.approvalHeld = some id → p.approvalHeld = some id) :
    Inv rt (s.goto r p') :=
  hs.goto hr howes hsound (fun id hid => hs.policies r p id hr (hpolicy id hid))
    fun id hid => hs.approvals r p id hr (happroval id hid)

/-- The tables change, and every request finds what it counts on. -/
theorem Inv.tables {s t : World ρ} (hs : Inv rt s) (hreq : t.requests = s.requests)
    (hrecords : Records t) (hcounted : Counted t)
    (hframe : ∀ r q, s.requests.find? r = some q → Frame s t q) : Inv rt t where
  records := hrecords
  counted := hcounted
  sound := by
    intro r q hq
    rw [hreq] at hq
    exact sound_frame (hframe r q hq) (hs.sound r q hq)
  policies := by
    rw [hreq]
    exact hs.policies
  approvals := by
    rw [hreq]
    exact hs.approvals

theorem owed_of_requests {s t : World ρ} (h : t.requests = s.requests) (id : String) :
    t.owed id = s.owed id := by
  unfold World.owed
  rw [h]

/-- Only the proposals change. -/
theorem Inv.outside {s t : World ρ} (hs : Inv rt s) (hreq : t.requests = s.requests)
    (hsame : SameTables s t) : Inv rt t :=
  hs.tables hreq (hsame.records hs.records) (hsame.counted hs.counted (owed_of_requests hreq))
    fun _ q _ => hsame.frame q

/-! ### The tables -/

/-- A refused promotion counts for nothing. -/
theorem Inv.refuse {s : World ρ} (hs : Inv rt s) (c : PromoteIn)
    (evaluation : Option EvaluationResult) : Inv rt (s.createPromotion (c.refused evaluation)) := by
  have hmem : ∀ {q}, q ∈ (s.createPromotion (c.refused evaluation)).promotions →
      q ∈ s.promotions ∨ q = c.refused evaluation := by
    intro q hq
    rcases List.mem_append.mp hq with hold | hnew
    · exact Or.inl hold
    · exact Or.inr (List.mem_singleton.mp hnew)
  have hcount : ∀ id, (s.createPromotion (c.refused evaluation)).authorised id =
      s.authorised id := by
    intro id
    have hno : (c.refused evaluation).byPolicy id = false := rfl
    unfold World.authorised World.createPromotion
    rw [List.countP_append, List.countP_singleton, hno]
    rfl
  refine hs.tables rfl ⟨?_, hs.records.gone, ?_, ?_, ?_, ?_, hs.records.unnamed,
    hs.records.existed⟩ ?_ fun r q hq => ⟨?_, ?_, fun _ hne => hne⟩
  · intro id row most hrow hmost
    rw [hcount]
    exact hs.records.budget id row most hrow hmost
  · intro q hq hstatus
    rcases hmem hq with hold | rfl
    · exact hs.records.proper q hold hstatus
    · cases hstatus
  · intro q hq hsource
    rcases hmem hq with hold | rfl
    · exact hs.records.unrevoked q hold hsource
    · cases hsource
  · have hnone : [c.refused evaluation].filter (·.byApproval) = [] := rfl
    unfold World.createPromotion
    rw [List.filter_append, hnone, List.append_nil]
    exact hs.records.once
  · intro q hq id hid
    rcases hmem hq with hold | rfl
    · exact hs.records.known q hold id hid
    · cases hid
  · intro id row hrow
    rw [hcount]
    exact hs.counted id row hrow
  · intro id _ ha
    refine ⟨?_, ha.unrevoked⟩
    rw [hcount]
    exact ha.row
  · intro id proposal _ ha
    refine ⟨ha.row, fun q hq happroval => ?_⟩
    rcases hmem hq with hold | rfl
    · exact ha.unused q hold happroval
    · cases happroval

/-- An approval is requested, or settled while no request counts on it or in its favour. -/
theorem Inv.approvals_change {s t : World ρ} (hs : Inv rt s) (hreq : t.requests = s.requests)
    (hpolicies : t.policies = s.policies) (hpromotions : t.promotions = s.promotions)
    (hrevoked : t.revoked = s.revoked)
    (happroved : ∀ id a, s.holdsApproval id = true → s.approvals.find? id = some a →
      a.status = .approved → ∃ a', t.approvals.find? id = some a' ∧ a'.proposal = a.proposal ∧
        a'.status = .approved) : Inv rt t := by
  have hsame : SameTables s { t with approvals := s.approvals } :=
    ⟨hpolicies, rfl, hpromotions, hrevoked⟩
  have hrecords := hsame.records hs.records
  have hcounted := hsame.counted hs.counted (owed_of_requests hreq)
  refine hs.tables hreq ⟨hrecords.budget, hrecords.gone, hrecords.proper, hrecords.unrevoked,
    hrecords.once, hrecords.known, hrecords.unnamed, hrecords.existed⟩ hcounted fun r q hq => ?_
  have hframe := hsame.frame q
  refine ⟨fun id hid ha => ?_, fun id proposal hid ha => ?_, hframe.exist⟩
  · have h := hframe.policy id hid ha
    exact ⟨h.row, h.unrevoked⟩
  · have hheld : s.holdsApproval id = true := by
      by_contra hno
      rw [Bool.not_eq_true] at hno
      exact Table.holds_eq_false.mp hno r q hq hid
    rcases ha.row with ⟨a, ha₁, hproposal, hstatus⟩
    rcases happroved id a hheld ha₁ hstatus with ⟨a', ha', hproposal', hstatus'⟩
    exact ⟨⟨a', ha', hproposal'.trans hproposal, hstatus'⟩,
      (hframe.approval id proposal hid ha).unused⟩

/-! ### Promotion -/

/-- What `_select_authorising_policy` selects, where nobody else holds it. -/
theorem Inv.selected {s : World ρ} (hs : Inv rt s) {c : PromoteIn} {changes : List LlmFileChange}
    {d : Draw} (hsound : (Phase.selecting c changes).Sound rt s)
    (hok : (s.select rt c changes d).1.all (fun p => !s.holdsPolicy p.policyId) = true) :
    Selected s c (s.select rt c changes d).1 (s.select rt c changes d).2 := by
  refine ⟨hardPolicyBlock_evaluateAction hsound, fun hallowed => ?_⟩
  rcases candidate_of_allowed hallowed with ⟨policy, hmem, hid, hactive, hmost⟩
  rcases mem_candidates hmem with ⟨⟨row, hrow, heq⟩, hnamed⟩
  have hresult : (s.select rt c changes d).2.policyId = policy.policyId := hid
  have hnonempty : (s.select rt c changes d).2.policyId ≠ "" := by
    intro hempty
    rw [← hresult, hempty, hs.records.unnamed] at hrow
    cases hrow
  -- the candidate that the result names is among the candidates
  rcases hchosen : (s.select rt c changes d).1 with _ | chosen
  · have hnone := hchosen
    unfold World.select at hnone
    simp only at hnone
    rw [if_pos (by rw [Bool.and_eq_true]; exact ⟨hallowed, bne_iff_ne.mpr hnonempty⟩),
      List.find?_eq_none] at hnone
    exact absurd (beq_iff_eq.mpr hid.symm) (hnone policy hmem)
  have hsame : chosen.policyId = policy.policyId := by
    have hsome := hchosen
    unfold World.select at hsome
    simp only at hsome
    rw [if_pos (by rw [Bool.and_eq_true]; exact ⟨hallowed, bne_iff_ne.mpr hnonempty⟩)] at hsome
    have hfound := List.find?_some hsome
    rw [beq_iff_eq] at hfound
    exact hfound.trans hid
  rw [hchosen, Option.all_some, Bool.not_eq_true', hsame] at hok
  have howed := owed_eq_zero hok
  have hcounted := hs.counted _ _ hrow
  have hused : policy.actionsUsed = row.policy.actionsUsed := by rw [heq]; rfl
  have hmax : policy.maxActions = row.policy.maxActions := by rw [heq]; rfl
  have hstatus : policy.status = row.policy.status := by rw [heq]; rfl
  rw [hresult]
  refine ⟨by rw [Option.map_some, hsame], hnamed, ⟨row, hrow, fun most hm => ?_⟩, fun hgone => ?_⟩
  · have hlt := hmost most (hmax.trans hm)
    omega
  · rw [hs.records.gone _ row hgone hrow] at hstatus
    rw [hstatus] at hactive
    exact absurd hactive (by decide)

theorem Inv.select {s : World ρ} (hs : Inv rt s) {r : ρ} {c : PromoteIn}
    {changes : List LlmFileChange} {d : Draw}
    (hr : s.requests.find? r = some (.selecting c changes))
    (hok : (s.select rt c changes d).1.all (fun p => !s.holdsPolicy p.policyId) = true) :
    Inv rt (s.goto r (.approving c changes (s.select rt c changes d).1
      (s.select rt c changes d).2)) := by
  refine hs.goto hr rfl (hs.selected (hs.sound r _ hr) hok) ?_ ?_
  · intro id hid r' q _ hq
    rcases Option.map_eq_some_iff.mp hid with ⟨policy, hpolicy, rfl⟩
    rw [hpolicy, Option.all_some, Bool.not_eq_true'] at hok
    exact Table.holds_eq_false.mp hok r' q hq
  · intro id hid
    cases hid

/-- The gates are passed. -/
theorem Inv.decide {s : World ρ} (hs : Inv rt s) {r : ρ} {c : PromoteIn}
    {changes : List LlmFileChange} {chosen : Option HumanApprovalPolicy}
    {result : EvaluationResult} {d : Draw}
    (hr : s.requests.find? r = some (.approving c changes chosen result))
    (hok : carefulNext rt s d (.approving c changes chosen result) = true)
    (hgate : ¬(!result.allowed && !(s.decision c changes chosen result).explicitOk) = true) :
    Inv rt (s.goto r (.locating (s.decision c changes chosen result))) := by
  have hselected : Selected s c chosen result := hs.sound r _ hr
  unfold carefulNext at hok
  dsimp only at hok
  generalize hd : s.decision c changes chosen result = decision at hok hgate ⊢
  have happroval : decision.approval = s.explicitApproval c := by rw [← hd]; rfl
  have hcall : decision.call = c := by rw [← hd]; rfl
  have hresult : decision.result = result := by rw [← hd]; rfl
  have heffective : decision.effectivePolicyId =
      c.named.or (chosen.map HumanApprovalPolicy.policyId) := by rw [← hd]; rfl
  cases hexplicit : decision.explicitOk with
  | true =>
    rw [hexplicit, Bool.not_true, Bool.false_or, Bool.and_eq_true, Option.isNone_iff_eq_none]
      at hok
    have hexists : ∃ e, decision.approval = some e ∧ e.2.status = .approved := by
      unfold Decision.explicitOk at hexplicit
      rcases (Option.any_eq_true _ _).mp hexplicit with ⟨e, he, hstatus⟩
      exact ⟨e, he, beq_iff_eq.mp hstatus⟩
    rcases hexists with ⟨e, he, hstatus⟩
    have hfree := hok.2
    rw [he, Option.all_some, Bool.and_eq_true, Bool.not_eq_true', Bool.not_eq_true'] at hfree
    rcases mem_explicitApproval (happroval.symm.trans he) with ⟨hrow, hproposal, hsame⟩
    have hunused : ∀ p ∈ s.promotions, p.byApproval = true → p.approvalId ≠ some e.1 := by
      intro p hp hby heq
      have hno := hfree.1
      unfold World.approvalUsed at hno
      rw [List.any_eq_false] at hno
      refine hno p hp ?_
      rw [hby, heq]
      simp
    refine hs.goto hr rfl ⟨by rw [hresult]; exact hselected.unblocked, fun _ => ⟨hok.1, e, he, ?_,
      ⟨e.2, hrow, ?_, hstatus⟩, hunused⟩, fun hno => ?_⟩ ?_ ?_
    · rw [hcall]
      exact hsame
    · rw [hcall]
      exact hproposal
    · rw [hexplicit] at hno
      cases hno
    · intro id hid
      have hnone : decision.effectivePolicyId = some id := hid
      rw [hok.1] at hnone
      cases hnone
    · intro id hid r' q _ hq
      have hauth : decision.authorising = some id := hid
      rw [Decision.authorising_eq hexplicit he, Option.some.injEq] at hauth
      rw [← hauth]
      exact Table.holds_eq_false.mp hfree.2 r' q hq
  | false =>
    rw [hexplicit, Bool.not_false, Bool.and_true, Bool.not_eq_true', Bool.not_eq_false] at hgate
    have hallowed := hselected.allowed hgate
    have hpolicy : decision.effectivePolicyId = some decision.result.policyId := by
      rw [heffective, hresult, hallowed.1]
      cases hnamed : c.named with
      | none => rfl
      | some id =>
        rw [hallowed.2.1 id hnamed]
        rfl
    have hnone : decision.authorising = none := by
      unfold Decision.authorising
      rw [hexplicit]
      rfl
    refine hs.goto hr rfl ⟨by rw [hresult]; exact hselected.unblocked, fun hyes => ?_,
      fun _ => ⟨by rw [hresult]; exact hgate, hpolicy, by rw [hresult]; exact hallowed.2.2⟩⟩ ?_ ?_
    · rw [hexplicit] at hyes
      cases hyes
    · intro id hid
      have heq : decision.effectivePolicyId = some id := hid
      rw [hpolicy, hresult] at heq
      exact hs.policies r _ id hr (hallowed.1.trans heq)
    · intro id hid
      have heq : decision.authorising = some id := hid
      rw [hnone] at heq
      cases heq

section Promotion

variable {s : World ρ} {d : Decision} {workspace : Option Uuid} {accepted : List String}

theorem Cleared.affordable (hd : Cleared s d) {id : String} (hid : d.effectivePolicyId = some id) :
    Affordable s id := by
  cases hexplicit : d.explicitOk with
  | true =>
    rw [(hd.byApproval hexplicit).1] at hid
    cases hid
  | false =>
    have hpolicy := hd.byPolicy hexplicit
    rw [hpolicy.2.1, Option.some.injEq] at hid
    rw [← hid]
    exact hpolicy.2.2

theorem Affordable.exists {id : String} (h : Affordable s id) : s.policies.find? id ≠ none := by
  rcases h.row with ⟨row, hrow, -⟩
  rw [hrow]
  intro hno
  cases hno

/-- A promotion is attributed to the policy that it is counted for. -/
theorem Cleared.byPolicy_iff (hd : Cleared s d) (id : String) :
    (d.promotion s workspace accepted).byPolicy id = true ↔ d.effectivePolicyId = some id := by
  unfold LlmProposalPromotion.byPolicy Decision.promotion Decision.decisionSource
  cases hexplicit : d.explicitOk with
  | true => simp [(hd.byApproval hexplicit).1]
  | false => simp

/-- A success by approval is attributed to the approval that is held. -/
theorem Cleared.approved (hd : Cleared s d)
    (h : (d.promotion s workspace accepted).decisionSource = some .explicitApproval) :
    ∃ id, (d.promotion s workspace accepted).approvalId = some id ∧ d.authorising = some id ∧
      Approved s id d.call.proposal := by
  cases hexplicit : d.explicitOk with
  | true =>
    rcases (hd.byApproval hexplicit).2 with ⟨e, he, hsame, happroved⟩
    refine ⟨e.1, ?_, Decision.authorising_eq hexplicit he, happroved⟩
    have hid : (d.promotion s workspace accepted).approvalId =
        d.call.approvalId.or (d.approval.map (·.1)) := rfl
    rw [hid, he]
    cases hcall : d.call.approvalId with
    | none => rfl
    | some id =>
      rw [hsame id hcall]
      rfl
  | false =>
    unfold Decision.promotion Decision.decisionSource at h
    simp [hexplicit] at h

theorem source_of_byApproval {p : LlmProposalPromotion} (h : p.byApproval = true) :
    p.decisionSource = some .explicitApproval := by
  unfold LlmProposalPromotion.byApproval at h
  rw [Bool.and_eq_true, beq_iff_eq, beq_iff_eq] at h
  exact h.2

theorem Cleared.proper (hd : Cleared s d) : (d.promotion s workspace accepted).Proper := by
  refine ⟨?_, d.result, rfl, hd.unblocked⟩
  cases hexplicit : d.explicitOk with
  | true =>
    have hsource : (d.promotion s workspace accepted).decisionSource = some .explicitApproval := by
      unfold Decision.promotion Decision.decisionSource
      rw [hexplicit]
      rfl
    rcases hd.approved hsource with ⟨id, hid, -, happroved⟩
    rcases happroved.row with ⟨a, ha, hproposal, hstatus⟩
    refine Or.inl ⟨a, ?_, hproposal, hstatus⟩
    have hfound : (d.promotion s workspace accepted).found =
        (d.promotion s workspace accepted).approvalId.bind s.approvals.find? := rfl
    rw [hfound, hid]
    exact ha
  | false =>
    have hpolicy := hd.byPolicy hexplicit
    exact Or.inr ⟨d.result, rfl, hpolicy.1, hpolicy.2.1⟩

theorem Cleared.unrevoked (hd : Cleared s d) :
    (d.promotion s workspace accepted).revoked = false := by
  have hrevoked : (d.promotion s workspace accepted).revoked =
      d.effectivePolicyId.any s.revoked.contains := rfl
  rw [hrevoked]
  cases hid : d.effectivePolicyId with
  | none => rfl
  | some id =>
    rw [Option.any_some, Bool.eq_false_iff]
    intro hgone
    exact (hd.affordable hid).unrevoked (List.contains_iff_mem.mp hgone)

theorem mem_createPromotion {p q : LlmProposalPromotion}
    (h : q ∈ (s.createPromotion p).promotions) : q ∈ s.promotions ∨ q = p := by
  rcases List.mem_append.mp h with hold | hnew
  · exact Or.inl hold
  · exact Or.inr (List.mem_singleton.mp hnew)

theorem Cleared.authorised (hd : Cleared s d) (id : String) :
    (s.createPromotion (d.promotion s workspace accepted)).authorised id =
      s.authorised id + if d.effectivePolicyId = some id then 1 else 0 := by
  unfold World.authorised World.createPromotion
  rw [List.countP_append, List.countP_singleton]
  simp only [hd.byPolicy_iff]

theorem Cleared.records (hd : Cleared s d) (hs : Records s) :
    Records (s.createPromotion (d.promotion s workspace accepted)) where
  budget := by
    intro id row most hrow hmost
    rw [hd.authorised]
    by_cases hid : d.effectivePolicyId = some id
    · rcases (hd.affordable hid).row with ⟨row', hrow', hbudget⟩
      have hsame : row = row' := Option.some.inj (hrow.symm.trans hrow')
      rw [if_pos hid]
      exact hbudget most (by rw [← hsame]; exact hmost)
    · rw [if_neg hid]
      exact hs.budget id row most hrow hmost
  gone := hs.gone
  proper := by
    intro q hq hstatus
    rcases mem_createPromotion hq with hold | rfl
    · exact hs.proper q hold hstatus
    · exact hd.proper
  unrevoked := by
    intro q hq hsource
    rcases mem_createPromotion hq with hold | rfl
    · exact hs.unrevoked q hold hsource
    · exact hd.unrevoked
  once := by
    unfold World.createPromotion
    rw [List.filter_append, List.pairwise_append]
    refine ⟨hs.once, (List.pairwise_singleton _ _).sublist List.filter_sublist, ?_⟩
    intro q hq q' hq'
    rw [List.mem_filter] at hq hq'
    obtain rfl := List.mem_singleton.mp hq'.1
    rcases hd.approved (source_of_byApproval hq'.2) with ⟨id, hid, -, happroved⟩
    rw [hid]
    exact happroved.unused q hq.1 hq.2
  known := by
    intro q hq id hid
    rcases mem_createPromotion hq with hold | rfl
    · exact hs.known q hold id hid
    · exact (hd.affordable ((hd.byPolicy_iff id).mp hid)).exists
  unnamed := hs.unnamed
  existed := hs.existed

/-- Other requests hold other policies and other approvals. -/
theorem Cleared.frame_other (hd : Cleared s d) {q : Phase}
    (hpolicy : ∀ id, d.effectivePolicyId = some id → q.policyHeld ≠ some id)
    (happroval : ∀ id, d.authorising = some id → q.approvalHeld ≠ some id) :
    Frame s (s.createPromotion (d.promotion s workspace accepted)) q where
  policy := by
    intro id hid ha
    have hother : d.effectivePolicyId ≠ some id := fun heq => hpolicy id heq hid
    refine ⟨?_, ha.unrevoked⟩
    rw [hd.authorised, if_neg hother]
    exact ha.row
  approval := by
    intro id proposal hid ha
    refine ⟨ha.row, fun q' hq' hby heq => ?_⟩
    rcases mem_createPromotion hq' with hold | rfl
    · exact ha.unused q' hold hby heq
    · rcases hd.approved (source_of_byApproval hby) with ⟨e, he, hauth, -⟩
      rw [he] at heq
      rw [heq] at hauth
      exact happroval id hauth hid
  exist := fun _ hne => hne

/-- **The promotion**: what has cleared the decision is recorded with it. -/
theorem Inv.promote (hs : Inv rt s) {r : ρ}
    (hr : s.requests.find? r = some (.promoting d workspace accepted)) :
    Inv rt ((s.createPromotion (d.promotion s workspace accepted)).goto r
      (.stamping d (d.promotion s workspace accepted).status)) := by
  have hd : Cleared s d := hs.sound r _ hr
  generalize hp : d.promotion s workspace accepted = p
  have hsame : SameTables (s.createPromotion p) ((s.createPromotion p).goto r
    (.stamping d p.status)) := ⟨rfl, rfl, rfl, rfl⟩
  have hput : s.requests.Puts ((s.createPromotion p).goto r (.stamping d p.status)).requests r
      (.stamping d p.status) := Table.puts_modify hr _
  refine hs.move hput ?_ ?_ ?_ ?_ (fun id hid => hs.policies r _ id hr hid) ?_
  · rw [← hp] at hsame ⊢
    exact hsame.records (hd.records hs.records)
  · intro id row hrow
    have hmove := owed_modify (t := (s.createPromotion p).goto r (.stamping d p.status)) hr rfl id
    have hnone : (Phase.promoting d workspace accepted).owes ≠ some id := by intro h; cases h
    have howes : (Phase.stamping d p.status).owes = d.effectivePolicyId := rfl
    have hcounted := hs.counted id row hrow
    have hauthorised : (s.createPromotion (d.promotion s workspace accepted)).authorised id =
        s.authorised id + if d.effectivePolicyId = some id then 1 else 0 := hd.authorised id
    rw [hp] at hauthorised
    rw [hsame.authorised]
    rw [if_neg hnone, howes] at hmove
    omega
  · intro r' q hne hq
    have hframe : Frame s (s.createPromotion (d.promotion s workspace accepted)) q :=
      hd.frame_other (fun id hid => hs.policies r _ id hr hid r' q hne hq)
        fun id hid => hs.approvals r _ id hr hid r' q hne hq
    rw [hp] at hframe
    exact hframe.trans (hsame.frame q)
  · exact fun id hid => (hd.affordable hid).exists
  · intro id hid
    cases hid

end Promotion

/-! ### Policies -/

/-- A change of one policy that leaves its budget. -/
structure Adjusts (f : PolicyRow → PolicyRow) : Prop where
  maxActions : ∀ row, (f row).policy.maxActions = row.policy.maxActions

section Policies

variable {s t : World ρ} {id : String} {f : PolicyRow → PolicyRow}

theorem policies_modify (hf : Adjusts f) (hpolicies : t.policies = s.policies.modify id f)
    {id' : String} {row' : PolicyRow} (h : t.policies.find? id' = some row') :
    ∃ row, s.policies.find? id' = some row ∧
      row'.policy.maxActions = row.policy.maxActions ∧ row' = if id' = id then f row else row := by
  rw [hpolicies] at h
  rcases Table.exists_of_find?_modify h with ⟨row, hrow, rfl⟩
  refine ⟨row, hrow, ?_, rfl⟩
  split
  · exact hf.maxActions row
  · rfl

theorem policies_modify_ne_none (hpolicies : t.policies = s.policies.modify id f) {id' : String}
    (h : s.policies.find? id' ≠ none) : t.policies.find? id' ≠ none := by
  rw [hpolicies]
  exact fun hno => h (Table.find?_modify_eq_none.mp hno)

/-- The records, when a policy is adjusted that stays revoked if it is. -/
theorem Records.adjust (hs : Records s) (hf : Adjusts f)
    (hpolicies : t.policies = s.policies.modify id f) (hpromotions : t.promotions = s.promotions)
    (hrevoked : ∀ id' ∈ t.revoked, id' ∈ s.revoked ∨ id' = id ∧ s.policies.find? id ≠ none)
    (hstatus : ∀ row, id ∈ t.revoked → s.policies.find? id = some row →
      (f row).policy.status = "revoked") : Records t where
  budget := by
    intro id' row' most hrow' hmost
    rcases policies_modify hf hpolicies hrow' with ⟨row, hrow, hmax, -⟩
    unfold World.authorised
    rw [hpromotions]
    exact hs.budget id' row most hrow (hmax.symm.trans hmost)
  gone := by
    intro id' row' hgone hrow'
    rcases policies_modify hf hpolicies hrow' with ⟨row, hrow, -, rfl⟩
    by_cases heq : id' = id
    · rw [if_pos heq]
      rw [heq] at hgone hrow
      exact hstatus row hgone hrow
    · rw [if_neg heq]
      rcases hrevoked id' hgone with hold | hnew
      · exact hs.gone id' row hold hrow
      · exact absurd hnew.1 heq
  proper := by
    rw [hpromotions]
    exact hs.proper
  unrevoked := by
    rw [hpromotions]
    exact hs.unrevoked
  once := by
    rw [hpromotions]
    exact hs.once
  known := by
    rw [hpromotions]
    exact fun p hp id' hid => policies_modify_ne_none hpolicies (hs.known p hp id' hid)
  unnamed := by
    rw [hpolicies]
    exact Table.find?_modify_eq_none.mpr hs.unnamed
  existed := by
    intro id' hgone
    rcases hrevoked id' hgone with hold | ⟨rfl, hsome⟩
    · exact policies_modify_ne_none hpolicies (hs.existed id' hold)
    · exact policies_modify_ne_none hpolicies hsome

/-- What a policy promises stays, unless it is revoked. -/
theorem Adjusts.frame (hf : Adjusts f) (hpolicies : t.policies = s.policies.modify id f)
    (hpromotions : t.promotions = s.promotions) (happrovals : t.approvals = s.approvals)
    {q : Phase} (hrevoked : ∀ id', q.policyHeld = some id' → id' ∈ t.revoked → id' ∈ s.revoked) :
    Frame s t q where
  policy := by
    intro id' hheld ha
    rcases ha.row with ⟨row, hrow, hbudget⟩
    refine ⟨?_, fun hgone => ha.unrevoked (hrevoked id' hheld hgone)⟩
    unfold World.authorised
    rw [hpromotions, hpolicies, Table.find?_modify]
    by_cases heq : id' = id
    · rw [if_pos heq, ← heq, hrow]
      refine ⟨f row, rfl, fun most hmost => hbudget most ?_⟩
      rw [← hmost, hf.maxActions]
    · rw [if_neg heq]
      exact ⟨row, hrow, hbudget⟩
  approval := by
    intro id' proposal _ ha
    constructor
    · rw [happrovals]
      exact ha.row
    · rw [hpromotions]
      exact ha.unused
  exist := fun _ hne => policies_modify_ne_none hpolicies hne

end Policies

theorem adjusts_status (status : String) : Adjusts fun row =>
    { row with policy := { row.policy with status := status } } :=
  ⟨fun _ => rfl⟩

/-- A policy gets a status that a revoked one may have. -/
theorem Inv.status {s t : World ρ} (hs : Inv rt s) {id status : String}
    (ht : t = { s.updatePolicyStatus id status with revoked := t.revoked })
    (hrevoked : ∀ id' ∈ t.revoked, id' ∈ s.revoked ∨ id' = id ∧ s.policies.find? id ≠ none)
    (hstatus : id ∈ t.revoked → status = "revoked")
    (hheld : ∀ r q, s.requests.find? r = some q → ∀ id', q.policyHeld = some id' →
      id' ∈ t.revoked → id' ∈ s.revoked) : Inv rt t := by
  have hpolicies : t.policies = s.policies.modify id fun row =>
      { row with policy := { row.policy with status := status } } := by rw [ht]; rfl
  have hpromotions : t.promotions = s.promotions := by rw [ht]; rfl
  have happrovals : t.approvals = s.approvals := by rw [ht]; rfl
  have hrequests : t.requests = s.requests := by rw [ht]; rfl
  refine hs.tables hrequests (hs.records.adjust (adjusts_status status) hpolicies hpromotions
    hrevoked fun _ hgone _ => hstatus hgone) ?_ fun r q hq =>
      (adjusts_status status).frame hpolicies hpromotions happrovals (hheld r q hq)
  intro id' row' hrow'
  rcases policies_modify (adjusts_status status) hpolicies hrow' with ⟨row, hrow, -, heq⟩
  have hused : row'.policy.actionsUsed = row.policy.actionsUsed := by
    rw [heq]
    split <;> rfl
  rw [owed_of_requests hrequests, hused]
  unfold World.authorised
  rw [hpromotions]
  exact hs.counted id' row hrow

/-- **The count**: what was owed is paid. -/
theorem Inv.count {s : World ρ} (hs : Inv rt s) {r : ρ} {d : Decision} {status : PromotionStatus}
    (hr : s.requests.find? r = some (.counting d status)) {id : String}
    (hid : d.effectivePolicyId = some id) :
    Inv rt ((s.incrementActionsUsed id).goto r (.marking d status)) := by
  generalize ht : (s.incrementActionsUsed id).goto r (.marking d status) = t
  have hf : Adjusts fun row : PolicyRow =>
      { row with policy := { row.policy with actionsUsed := row.policy.actionsUsed + 1 } } :=
    ⟨fun _ => rfl⟩
  have hpolicies : t.policies = s.policies.modify id fun row =>
      { row with policy := { row.policy with actionsUsed := row.policy.actionsUsed + 1 } } := by
    rw [← ht]; rfl
  have hpromotions : t.promotions = s.promotions := by rw [← ht]; rfl
  have hrevoked : t.revoked = s.revoked := by rw [← ht]; rfl
  have hrequests : t.requests = s.requests.modify r fun _ => .marking d status := by
    rw [← ht]; rfl
  have hput : s.requests.Puts t.requests r (.marking d status) := by
    rw [hrequests]
    exact Table.puts_modify hr _
  refine hs.move hput ?_ ?_ ?_ trivial ?_ ?_
  · refine hs.records.adjust hf hpolicies hpromotions (fun id' hgone => ?_) fun row hgone hrow => ?_
    · rw [hrevoked] at hgone
      exact Or.inl hgone
    · rw [hrevoked] at hgone
      exact hs.records.gone id row hgone hrow
  · intro id' row' hrow'
    rcases policies_modify hf hpolicies hrow' with ⟨row, hrow, -, heq⟩
    have hcounted := hs.counted id' row hrow
    have hmove := owed_modify hr hrequests id'
    have howes : (Phase.counting d status).owes = some id := hid
    have hnone : (Phase.marking d status).owes ≠ some id' := by intro h; cases h
    have hauthorised : t.authorised id' = s.authorised id' := by
      unfold World.authorised
      rw [hpromotions]
    rw [howes, if_neg hnone] at hmove
    rw [hauthorised, heq]
    by_cases hsame : id' = id
    · rw [if_pos (by rw [hsame])] at hmove
      rw [if_pos hsame]
      dsimp only
      omega
    · rw [if_neg (fun h => hsame (Option.some.inj h).symm)] at hmove
      rw [if_neg hsame]
      omega
  · intro r' q _ _
    refine hf.frame hpolicies hpromotions (by rw [← ht]; rfl) fun id' _ hgone => ?_
    rw [hrevoked] at hgone
    exact hgone
  · intro id' hheld
    cases hheld
  · intro id' hheld
    cases hheld

theorem Inv.owes_exists {s : World ρ} (hs : Inv rt s) {r : ρ} {p : Phase} {id : String}
    (hr : s.requests.find? r = some p) (h : p.owes = some id) : s.policies.find? id ≠ none := by
  have hsound := hs.sound r p hr
  cases p with
  | stamping d status => exact hsound id h
  | counting d status => exact hsound id h
  | _ => cases h

theorem Inv.createPolicy {s : World ρ} (hs : Inv rt s) (id : String) (payload : CreatePolicyIn) :
    Inv rt (s.createPolicy rt id payload) := by
  unfold World.createPolicy
  dsimp only
  split
  · exact hs
  rename_i hnew
  simp only [Bool.or_eq_true, not_or, Option.not_isSome_iff_eq_none, beq_iff_eq] at hnew
  have hfresh : s.policies.find? id = none := hnew.2
  have hput := s.policies.puts_insert id ⟨payload.policy id, s.serial⟩
  have hnever : s.authorised id = 0 := by
    unfold World.authorised
    rw [List.countP_eq_zero]
    intro p hp hby
    exact hs.records.known p hp id hby hfresh
  have hkeeps : ∀ id', s.policies.find? id' ≠ none →
      (s.policies.insert id ⟨payload.policy id, s.serial⟩).find? id' ≠ none := by
    intro id' hne
    rw [hput]
    split
    · intro hno
      cases hno
    · exact hne
  have howed : s.owed id = 0 := by
    unfold World.owed
    rw [List.countP_eq_zero]
    intro e he howes
    exact hs.owes_exists (Table.mem_rows.mp he) (beq_iff_eq.mp howes) hfresh
  refine hs.tables rfl ⟨?_, ?_, hs.records.proper, hs.records.unrevoked, hs.records.once,
    fun p hp id' hid => hkeeps id' (hs.records.known p hp id' hid), ?_,
    fun id' hgone => hkeeps id' (hs.records.existed id' hgone)⟩ ?_ fun r q hq => ?_
  · intro id' row most hrow hmost
    rcases hput.find hrow with ⟨rfl, -⟩ | ⟨-, hold⟩
    · exact hnever.le.trans (Nat.zero_le _)
    · exact hs.records.budget id' row most hold hmost
  · intro id' row hgone hrow
    rcases hput.find hrow with ⟨rfl, -⟩ | ⟨-, hold⟩
    · exact absurd hfresh (hs.records.existed id' hgone)
    · exact hs.records.gone id' row hgone hold
  · rw [hput.of_ne (fun h => hnew.1.2 h.symm)]
    exact hs.records.unnamed
  · intro id' row hrow
    rcases hput.find hrow with ⟨rfl, rfl⟩ | ⟨-, hold⟩
    · have hused : (payload.policy id').actionsUsed + (s.owed id' : Int) = s.authorised id' := by
        rw [howed, hnever]
        rfl
      exact hused
    · exact hs.counted id' row hold
  · refine ⟨fun id' _ ha => ?_, fun id' proposal _ ha => ⟨ha.row, ha.unused⟩, hkeeps⟩
    rcases ha.row with ⟨row, hrow, hbudget⟩
    refine ⟨⟨row, ?_, hbudget⟩, ha.unrevoked⟩
    rw [hput.of_ne (fun h => by rw [h, hfresh] at hrow; cases hrow)]
    exact hrow

/-! ### Steps -/

theorem Inv.requestApproval {s : World ρ} (hs : Inv rt s) {id : Uuid}
    (hfresh : s.approvals.find? id = none) (a : ApprovalAsk) :
    Inv rt (s.requestApproval id a) := by
  refine hs.approvals_change rfl rfl rfl rfl fun id' row _ hrow hstatus => ?_
  have hne : id' ≠ id := by
    intro heq
    rw [heq, hfresh] at hrow
    cases hrow
  refine ⟨row, ?_, rfl, hstatus⟩
  rw [← hrow]
  exact Table.find?_insert_of_ne _ _ hne

theorem Inv.settleApproval {s : World ρ} (hs : Inv rt s) {id : Uuid} {verdict : Verdict}
    (hok : (verdict == .approve || !s.holdsApproval id) = true) :
    Inv rt (s.settleApproval id verdict) := by
  refine hs.approvals_change rfl rfl rfl rfl fun id' row hheld hrow hstatus => ?_
  have hfind := Table.find?_modify s.approvals id id' fun row =>
    { row with status := verdict.status }
  by_cases heq : id' = id
  · -- the approval of a promotion under way may only be approved once more
    subst heq
    rw [hheld, Bool.not_true, Bool.or_false, beq_iff_eq] at hok
    rw [if_pos rfl, hrow] at hfind
    exact ⟨_, hfind, rfl, by rw [hok]; rfl⟩
  · rw [if_neg heq] at hfind
    exact ⟨row, hfind.trans hrow, rfl, hstatus⟩

/-- A request makes its next call. -/
theorem Inv.next {s : World ρ} (hs : Inv rt s) {r : ρ} {p : Phase} {d : Draw}
    (hr : s.requests.find? r = some p) (hok : carefulNext rt s d p = true) :
    Inv rt (s.next rt r d p) := by
  have hp := hs.sound r p hr
  have hover : p.owes = none → Inv rt (s.goto r .over) := by
    intro howes
    refine hs.keep hr howes.symm trivial ?_ ?_
    · intro id hid
      cases hid
    · intro id hid
      cases hid
  unfold World.next
  cases p with
  | asking a =>
    dsimp only
    split
    · exact hs.keep hr rfl trivial (fun id hid => by cases hid) fun id hid => by cases hid
    · exact hover rfl
  | requesting a =>
    dsimp only
    split
    · exact hover rfl
    · rename_i hfresh
      rw [Option.not_isSome_iff_eq_none] at hfresh
      exact (hs.requestApproval hfresh a).keep hr rfl trivial (fun id hid => by cases hid)
        fun id hid => by cases hid
  | finding proposal verdict =>
    dsimp only
    split
    · exact hover rfl
    · exact hs.keep hr rfl trivial (fun id hid => by cases hid) fun id hid => by cases hid
  | settling approval verdict =>
    exact (hs.settleApproval hok).keep hr rfl trivial (fun id hid => by cases hid)
      fun id hid => by cases hid
  | loading c =>
    dsimp only
    split
    · exact hover rfl
    split
    · exact hs.keep hr rfl trivial (fun id hid => by cases hid) fun id hid => by cases hid
    · rename_i hsafe
      simp only [Bool.or_eq_true, not_or, Bool.not_eq_true', Bool.not_eq_false,
        List.isEmpty_iff] at hsafe
      exact hs.keep hr rfl (hardSafetyCheck_of_violations hsafe.2) (fun id hid => by cases hid)
        fun id hid => by cases hid
  | refusing c evaluation =>
    exact (hs.refuse c evaluation).keep hr rfl trivial (fun id hid => by cases hid)
      fun id hid => by cases hid
  | selecting c changes => exact hs.select hr hok
  | approving c changes chosen result =>
    dsimp only
    split
    · exact hs.keep hr rfl trivial (fun id hid => by cases hid) fun id hid => by cases hid
    · rename_i hgate
      exact hs.decide hr hok hgate
  | locating decision => exact hs.keep hr rfl hp (fun _ hid => hid) fun _ hid => hid
  | materialising decision workspace rest accepted =>
    cases rest with
    | nil => exact hs.keep hr rfl hp (fun _ hid => hid) fun _ hid => hid
    | cons change rest =>
      dsimp only
      split
      · exact hs.keep hr rfl hp (fun _ hid => hid) fun _ hid => hid
      · exact hs.keep hr rfl hp (fun _ hid => hid) fun _ hid => hid
  | promoting decision workspace accepted => exact hs.promote hr
  | stamping decision status =>
    exact hs.keep hr rfl hp (fun _ hid => hid) fun id hid => by cases hid
  | counting decision status =>
    dsimp only
    split
    · rename_i hnone
      exact hs.keep hr hnone.symm trivial (fun id hid => by cases hid) fun id hid => by cases hid
    · rename_i id hid
      split
      · -- a lost increment is excluded
        rename_i hraises
        unfold carefulNext at hok
        dsimp only at hok
        rw [hid, hraises] at hok
        cases hok
      · exact hs.count hr hid
  | marking decision status =>
    dsimp only
    split
    · exact hover rfl
    · have hsame : SameTables s
          (s.updateProposalStatus decision.call.proposal status.proposalStatus) :=
        ⟨rfl, rfl, rfl, rfl⟩
      have hmarked : Inv rt (s.updateProposalStatus decision.call.proposal status.proposalStatus) :=
        hs.outside rfl hsame
      exact hmarked.keep hr rfl trivial (fun id hid => by cases hid) fun id hid => by cases hid
  | «over» => exact hs

/-- A request comes in. -/
theorem Inv.incoming {s : World ρ} (hs : Inv rt s) {r : ρ} (hr : s.requests.find? r = none)
    (ask : Ask) : Inv rt { s with requests := s.requests.insert r ask.phase } := by
  have hsame : SameTables s { s with requests := s.requests.insert r ask.phase } :=
    ⟨rfl, rfl, rfl, rfl⟩
  have hasks : ask.phase.owes = none ∧ ask.phase.policyHeld = none ∧
      ask.phase.approvalHeld = none ∧ ∀ s : World ρ, ask.phase.Sound rt s := by
    cases ask <;> exact ⟨rfl, rfl, rfl, fun _ => trivial⟩
  refine hs.move (Table.puts_insert _ r ask.phase) (hsame.records hs.records)
    (hsame.counted hs.counted fun id => ?_) (fun _ q _ _ => hsame.frame q) (hasks.2.2.2 _) ?_ ?_
  · unfold World.owed
    dsimp only
    rw [Table.countP_rows_insert hr, hasks.1]
    rfl
  · intro id hid
    rw [hasks.2.1] at hid
    cases hid
  · intro id hid
    rw [hasks.2.2.1] at hid
    cases hid

/-- **The step lemma.** -/
theorem step_inv {s t : World ρ} {a : Act ρ} (hs : Inv rt s) (hok : careful rt s a = true)
    (h : step rt s a = some t) : Inv rt t := by
  unfold step at h
  cases a with
  | propose id taskId status proposedFiles =>
    dsimp only at h
    split at h
    · cases h
    · obtain rfl := Option.some.inj h
      exact hs.outside rfl ⟨rfl, rfl, rfl, rfl⟩
  | restate id status =>
    obtain rfl := Option.some.inj h
    exact hs.outside rfl ⟨rfl, rfl, rfl, rfl⟩
  | createPolicy id payload =>
    obtain rfl := Option.some.inj h
    exact hs.createPolicy id payload
  | activatePolicy id =>
    obtain rfl := Option.some.inj h
    have hactive : id ∉ s.revoked := by
      unfold careful at hok
      rw [Bool.not_eq_true', Bool.eq_false_iff] at hok
      exact fun hgone => hok (List.contains_iff_mem.mpr hgone)
    exact hs.status rfl (fun id' hgone => Or.inl hgone) (fun hgone => absurd hgone hactive)
      fun _ _ _ _ _ hgone => hgone
  | revokePolicy id =>
    dsimp only at h
    cases hrow : s.policies.find? id with
    | none =>
      simp only [hrow, Option.some.injEq] at h
      rw [← h]
      exact hs
    | some row =>
      simp only [hrow, Option.some.injEq] at h
      subst h
      unfold careful at hok
      rw [Bool.not_eq_true'] at hok
      refine hs.status rfl (fun id' hgone => ?_) (fun _ => rfl) fun r q hq id' hheld hgone => ?_
      · rcases List.mem_cons.mp hgone with rfl | hold
        · refine Or.inr ⟨rfl, ?_⟩
          rw [hrow]
          intro hno
          cases hno
        · exact Or.inl hold
      · rcases List.mem_cons.mp hgone with rfl | hold
        · exact absurd hheld (Table.holds_eq_false.mp hok r q hq)
        · exact hold
  | start r ask =>
    dsimp only at h
    split at h
    · cases h
    · rename_i hr
      obtain rfl := Option.some.inj h
      exact hs.incoming hr ask
  | next r d =>
    rcases Option.map_eq_some_iff.mp h with ⟨p, hr, rfl⟩
    unfold careful at hok
    dsimp only at hok
    rw [hr, Option.all_some] at hok
    exact hs.next hr hok
  | stop r =>
    rcases Option.map_eq_some_iff.mp h with ⟨p, hr, rfl⟩
    unfold careful at hok
    dsimp only at hok
    rw [hr, Option.all_some, Option.isNone_iff_eq_none] at hok
    exact hs.keep hr hok.symm trivial (fun id hid => by cases hid) fun id hid => by cases hid

/-! ## Runs -/

theorem inv_start : Inv rt (World.start : World ρ) where
  records := by
    refine ⟨?_, ?_, ?_, ?_, .nil, ?_, Table.find?_empty _, ?_⟩
    · intro id row most hrow
      cases (Table.find?_empty id).symm.trans hrow
    · intro id row hgone
      exact absurd hgone List.not_mem_nil
    · intro p hp
      exact absurd hp List.not_mem_nil
    · intro p hp
      exact absurd hp List.not_mem_nil
    · intro p hp
      exact absurd hp List.not_mem_nil
    · intro id hgone
      exact absurd hgone List.not_mem_nil
  counted := by
    intro id row hrow
    cases (Table.find?_empty id).symm.trans hrow
  sound := by
    intro r p hr
    cases (Table.find?_empty r).symm.trans hr
  policies := Table.exclusive_empty
  approvals := Table.exclusive_empty

theorem Inv.promotedProperly {s : World ρ} (hs : Inv rt s) : PromotedProperly s where
  proper := hs.records.proper
  budget := hs.records.budget
  counted := hs.counted
  unrevoked := hs.records.unrevoked
  once := hs.records.once

/-- In every run of careful steps promotions are authorised and inside their budget. -/
theorem promoted_properly {s : World ρ}
    (h : Reaches (guard (fun s a => careful rt s a = true) (step rt)) World.start s) :
    PromotedProperly s := by
  refine Inv.promotedProperly (h.invariant (P := Inv rt) (fun s a t hs ha => ?_) inv_start)
  rcases guard_eq_some.mp ha with ⟨hok, hstep⟩
  exact step_inv hs hok hstep

/-! ### Two runs -/

/-- A policy for one action, and a proposal that two operators want to promote. -/
def granting : List (Act Nat) := [
  .createPolicy "policy-1"
    { taskId := "task-1"
      approvalMode := "per_feature"
      allowedActions := ["llm_proposal_promote"]
      allowedPaths := ["docs/generated/"]
      maxActions := some 1 },
  .propose ⟨1⟩ "task-1" "policy_passed" [.file "docs/generated/a.md" "create" "a"],
  .start 1 (.promote { proposal := ⟨1⟩, taskId := "task-1" }),
  .start 2 (.promote { proposal := ⟨1⟩, taskId := "task-1" })]

/-- The next `n` calls of a request, in a task with a workspace. -/
def calls (r n : Nat) : List (Act Nat) := List.replicate n (.next r { workspace := some ⟨9⟩ })

theorem granted_run : ∃ s, runActs (guard (fun s a => careful asciiRuntime s a = true)
    (step asciiRuntime)) World.start (granting ++ calls 1 9) = some s ∧
    s.authorised "policy-1" = 1 ∧ PromotedProperly s := by
  have h : (runActs (guard (fun s a => careful asciiRuntime s a = true) (step asciiRuntime))
      World.start (granting ++ calls 1 9)).any
      (fun s => s.authorised "policy-1" == 1) = true := by decide +kernel
  rcases (Option.any_eq_true _ _).mp h with ⟨s, hs, hcount⟩
  exact ⟨s, hs, beq_iff_eq.mp hcount, promoted_properly (reaches_of_runActs hs)⟩

/-- Both operators' requests read the policy before either counts. -/
def racing : List (Act Nat) := calls 1 2 ++ calls 2 2 ++ calls 1 7 ++ calls 2 7

/-- A policy for one action authorises two promotions. -/
theorem promoted_twice : ¬∀ s : World Nat,
    Reaches (step asciiRuntime) World.start s → PromotedProperly s := by
  intro hall
  have h : (runActs (step asciiRuntime) World.start (granting ++ racing)).any
      (fun s => s.authorised "policy-1" == 2 && (s.policies.find? "policy-1").any fun row =>
        row.policy.maxActions == some 1) = true := by decide +kernel
  rcases (Option.any_eq_true _ _).mp h with ⟨s, hs, hboth⟩
  rw [Bool.and_eq_true, beq_iff_eq] at hboth
  rcases (Option.any_eq_true _ _).mp hboth.2 with ⟨row, hrow, hmax⟩
  have hbudget := (hall s (reaches_of_runActs hs)).budget _ row 1 hrow (beq_iff_eq.mp hmax)
  rw [hboth.1] at hbudget
  exact absurd hbudget (by decide)

end AiAgentsSwd.ApprovalPolicy
