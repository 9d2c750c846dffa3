import AiAgentsSwd.Operator.Actions

/-!
# Operator.Entitled — when an action is applied once, and by whom it may be

Nothing between the check of a confirmation and the effect looks at the action again, at other
requests or at the roles of who confirms. `careful` says of the one step where a confirmation is
found valid what the code does not ask there: that the action still awaits its confirmation, that
no other request has found it confirmed, and that the identity has a role for it. Under it `Inv`
holds in every state, and with it `AppliedProperly`.
-/

namespace AiAgentsSwd.Operator

open Keyed (Table)
open Planning (Uuid)
open Transition

variable {ρ : Type} [DecidableEq ρ] {hash : String → String}

/-! ## What is promised -/

/-- The catalog asks for a confirmation. -/
def requiresConfirmation (actionType : String) : Bool :=
  (getActionEntry actionType).any (·.requiresConfirmation)

/-- The confirmation of an execution was found unused and unexpired. -/
def Confirmed (validations : List Validation) (action : Uuid) (confirmation : Option Uuid) : Prop :=
  ∃ v ∈ validations, confirmation = some v.confirmation ∧ v.action = action ∧
    v.row.used = false ∧ v.time < v.row.expiresAt

/-- What is promised of an execution that found `row`. -/
structure Attempt.Proper (validations : List Validation) (a : Attempt) (row : ActionRow) :
    Prop where
  found : a.found = some row
  allowed : row.policyStatus = "allowed"
  confirmed : requiresConfirmation row.actionType = true →
    Confirmed validations a.action a.confirmation
  entitled : ∃ role ∈ a.roles, roleCan role row.actionType = true

/-- The executions that had an effect. -/
def World.applied (s : World ρ) : List Attempt := s.attempts.filter fun a => a.effect.isSome

/-- Effects are applied once, a confirmation serves once, and every effect is proper. -/
structure AppliedProperly (s : World ρ) : Prop where
  once : s.applied.Pairwise fun a b => a.action ≠ b.action
  nonces : s.attempts.Pairwise fun a b => a.confirmation = none ∨ a.confirmation ≠ b.confirmation
  proper : ∀ a ∈ s.applied, ∃ row, a.Proper s.validations row

/-! ## Careful checks -/

/-- The execution of a request that has found its action confirmed, up to the effect. -/
def Phase.held : Phase → Option Run
  | .marking run => some run
  | .confirmed run => some run
  | .approved run => some run
  | .applying run => some run
  | _ => none

/-- A request holds the action. -/
def World.holds (s : World ρ) (action : Uuid) : Bool :=
  s.requests.rows.any fun e => e.2.held.any (·.action == action)

/-- The confirmation of the action is valid for who asks. -/
def World.passes (hash : String → String) (s : World ρ) (run : Run) (nonce : String) : Bool :=
  (s.latestConfirmation run.action).any fun e =>
    (confirmationRefusal hash nonce e.2 run.ctx.identityKey s.now).isNone

/-- The action still awaits its confirmation. -/
def World.awaits (s : World ρ) (action : Uuid) : Bool :=
  (s.actions.find? action).any (·.status == .confirmationRequired)

/-- Where a confirmation is found valid, the action awaits it, no other request has found it
valid, and the identity has a role for the action. -/
def careful (hash : String → String) (s : World ρ) : Act ρ → Bool
  | .next r _ => (s.requests.find? r).all fun p =>
    match p with
    | .checking run nonce => !s.passes hash run nonce ||
      (s.awaits run.action && !s.holds run.action &&
        run.ctx.roles.any fun role => roleCan role run.actionType)
    | _ => true
  | _ => true

/-! ## Roles -/

/-- The highest role is one of the roles, or nothing better than a viewer. -/
theorem highestRole_mem (roles : List Role) :
    highestRole roles = .viewer ∨ highestRole roles ∈ roles := by
  have h : ∀ (roles : List Role) (best : Role × Int),
      (roles.foldl (fun best r => if best.2 < r.rank then (r, r.rank) else best) best).1 =
        best.1 ∨ (roles.foldl (fun best r => if best.2 < r.rank then (r, r.rank) else best)
        best).1 ∈ roles := by
    intro roles
    induction roles with
    | nil => exact fun best => Or.inl rfl
    | cons r roles ih =>
      intro best
      rw [List.foldl_cons]
      by_cases hr : best.2 < r.rank
      · rw [if_pos hr]
        rcases ih (r, r.rank) with h | h
        · exact Or.inr (by rw [h]; exact List.mem_cons_self)
        · exact Or.inr (List.mem_cons_of_mem _ h)
      · rw [if_neg hr]
        rcases ih best with h | h
        · exact Or.inl h
        · exact Or.inr (List.mem_cons_of_mem _ h)
  exact h roles (Role.viewer, -1)

theorem getActionEntry_cases {actionType : String} {entry : ActionPolicyEntry}
    (h : getActionEntry actionType = some entry) :
    entry = disabledEntry ∨ ∃ e ∈ enabledActions, e.2 = entry := by
  unfold getActionEntry at h
  cases hlookup : enabledActions.lookup actionType with
  | some e =>
    simp only [hlookup, Option.some.injEq] at h
    refine Or.inr ⟨(actionType, e), ?_, h⟩
    have hsome := List.lookup_eq_some_iff.mp hlookup
    rcases hsome with ⟨l₁, l₂, heq, -⟩
    rw [heq]
    simp
  | none =>
    simp only [hlookup] at h
    by_cases hdisabled : disabledActionTypes.contains actionType = true
    · rw [if_pos hdisabled, Option.some.injEq] at h
      exact Or.inl h.symm
    · rw [if_neg hdisabled] at h
      cases h

/-- No action is for viewers. -/
theorem roleCan_viewer (actionType : String) : roleCan .viewer actionType = false := by
  unfold roleCan
  cases h : getActionEntry actionType with
  | none => rfl
  | some entry =>
    rcases getActionEntry_cases h with rfl | ⟨e, he, rfl⟩
    · rfl
    · have hall : ∀ e ∈ enabledActions, e.2.allowedRoles.contains Role.viewer = false := by decide
      rw [Option.any_some, hall e he, Bool.and_false]

theorem Ctx.exists_role {ctx : Ctx} {actionType : String}
    (h : roleCan ctx.role actionType = true) :
    ∃ role ∈ ctx.roles, roleCan role actionType = true := by
  rcases highestRole_mem ctx.roles with hviewer | hmem
  · unfold Ctx.role at h
    rw [hviewer, roleCan_viewer] at h
    cases h
  · exact ⟨ctx.role, hmem, h⟩

/-- What the gate allows, the role may do; and it asks for what the catalog asks. -/
theorem evaluateAction_allowed {actionType : String} {role : Role} {verdict : Verdict}
    (h : (evaluateAction actionType role verdict).allowed = true) :
    (evaluateAction actionType role verdict).policyStatus = "allowed" ∧
    (evaluateAction actionType role verdict).requiresConfirmation =
      requiresConfirmation actionType ∧ roleCan role actionType = true := by
  unfold evaluateAction requiresConfirmation at *
  cases hentry : getActionEntry actionType with
  | none => simp [hentry] at h
  | some entry =>
    simp only [hentry] at h ⊢
    by_cases henabled : (!isEnabled actionType) = true
    · simp [henabled] at h
    by_cases hrole : (!roleCan role actionType) = true
    · simp [henabled, hrole] at h
    have hcan : roleCan role actionType = true := by simpa using hrole
    cases verdict <;> simp_all

/-! ## The invariant -/

def Attempted (s : World ρ) (action : Uuid) : Prop := ∃ a ∈ s.attempts, a.action = action

/-- The identity was authenticated with roles it still has. -/
def Known (s : World ρ) (ctx : Ctx) : Prop :=
  ∃ identity, s.identities.find? ctx.identityKey = some identity ∧
    ∀ role ∈ ctx.roles, role ∈ identity.roles

/-- The confirmation, if there is one, is one of the action. -/
def OwnConfirmation (s : World ρ) (action : Uuid) (confirmation : Option Uuid) : Prop :=
  ∀ id, confirmation = some id → ∃ c, s.confirmations.find? id = some c ∧ c.action = action

/-- An execution that may come to its effect, of the action that `row` was when it was read. -/
structure Cleared (s : World ρ) (run : Run) : Prop where
  known : Known s run.ctx
  entitled : ∃ role ∈ run.ctx.roles, roleCan role run.actionType = true
  row : ∃ row, s.actions.find? run.action = some row ∧ row.actionType = run.actionType ∧
    row.policyStatus = "allowed"
  confirmed : requiresConfirmation run.actionType = true →
    Confirmed s.validations run.action run.confirmation
  own : OwnConfirmation s run.action run.confirmation
  fresh : ¬Attempted s run.action

/-- What a request has made sure of when it comes to a phase. -/
def Phase.Sound (s : World ρ) : Phase → Prop
  | .creating ctx _ => Known s ctx
  | .deciding ctx _ => Known s ctx
  | .fetching _ ctx _ _ => Known s ctx
  | .checking run _ => Known s run.ctx ∧
    ∃ row, s.actions.find? run.action = some row ∧ row.actionType = run.actionType
  | .marking run => Cleared s run
  | .confirmed run => Cleared s run
  | .approved run => Cleared s run
  | .applying run => Cleared s run ∧ ∀ row, s.actions.find? run.action = some row →
    row.status ≠ .confirmationRequired
  | .finishing run rest onError => Attempted s run.action ∧
    ∀ op ∈ rest ++ onError, op ≠ .setStatus .confirmationRequired
  | _ => True

/-- What holds of the tables and of the record. -/
structure Records (s : World ρ) : Prop where
  once : s.attempts.Pairwise fun a b => a.action ≠ b.action
  proper : ∀ a ∈ s.attempts, ∃ row, a.Proper s.validations row
  own : ∀ a ∈ s.attempts, OwnConfirmation s a.action a.confirmation
  exist : ∀ a ∈ s.attempts, (s.actions.find? a.action).isSome
  awaiting : ∀ action row, s.actions.find? action = some row →
    row.status = .confirmationRequired → row.policyStatus = "allowed" ∧ ¬Attempted s action

structure Inv (s : World ρ) : Prop where
  records : Records s
  sound : ∀ r p, s.requests.find? r = some p → p.Sound s
  alone : ∀ r r' p p' run run', s.requests.find? r = some p → s.requests.find? r' = some p' →
    p.held = some run → p'.held = some run' → run.action = run'.action → r = r'

/-! ## What no call undoes -/

/-- Identities keep their roles, actions their type and policy status, confirmations their
action, and what is recorded stays so. -/
structure Later (s t : World ρ) : Prop where
  identities : ∀ key identity, s.identities.find? key = some identity →
    ∃ identity', t.identities.find? key = some identity' ∧
      ∀ role ∈ identity.roles, role ∈ identity'.roles
  actions : ∀ action row, s.actions.find? action = some row →
    ∃ row', t.actions.find? action = some row' ∧ row'.actionType = row.actionType ∧
      row'.policyStatus = row.policyStatus
  confirmations : ∀ id c, s.confirmations.find? id = some c →
    ∃ c', t.confirmations.find? id = some c' ∧ c'.action = c.action
  validations : ∀ v ∈ s.validations, v ∈ t.validations
  attempts : ∀ a ∈ s.attempts, a ∈ t.attempts

/-- The action is as it was, and not attempted meanwhile. -/
def Undisturbed (s t : World ρ) (action : Uuid) : Prop :=
  t.actions.find? action = s.actions.find? action ∧ (Attempted t action → Attempted s action)

theorem Attempted.later {s t : World ρ} (h : Later s t) {action : Uuid} (ha : Attempted s action) :
    Attempted t action := by
  rcases ha with ⟨a, hmem, heq⟩
  exact ⟨a, h.attempts a hmem, heq⟩

theorem Known.later {s t : World ρ} (h : Later s t) {ctx : Ctx} (hk : Known s ctx) :
    Known t ctx := by
  rcases hk with ⟨identity, hid, hroles⟩
  rcases h.identities _ _ hid with ⟨identity', hid', hkeeps⟩
  exact ⟨identity', hid', fun role hrole => hkeeps role (hroles role hrole)⟩

theorem OwnConfirmation.later {s t : World ρ} (h : Later s t) {action : Uuid}
    {confirmation : Option Uuid} (ho : OwnConfirmation s action confirmation) :
    OwnConfirmation t action confirmation := by
  intro id hid
  rcases ho id hid with ⟨c, hc, haction⟩
  rcases h.confirmations _ _ hc with ⟨c', hc', hkeeps⟩
  exact ⟨c', hc', hkeeps.trans haction⟩

theorem Confirmed.mono {l l' : List Validation} (h : ∀ v ∈ l, v ∈ l') {action : Uuid}
    {confirmation : Option Uuid} (hc : Confirmed l action confirmation) :
    Confirmed l' action confirmation := by
  rcases hc with ⟨v, hv, hrest⟩
  exact ⟨v, h v hv, hrest⟩

theorem Cleared.later {s t : World ρ} (h : Later s t) {run : Run}
    (hu : Undisturbed s t run.action) (hc : Cleared s run) : Cleared t run where
  known := hc.known.later h
  entitled := hc.entitled
  row := by
    rw [hu.1]
    exact hc.row
  confirmed := fun hr => (hc.confirmed hr).mono h.validations
  own := hc.own.later h
  fresh := fun ha => hc.fresh (hu.2 ha)

/-- **The frame rule**: what a request has made sure of stays, as long as nobody touches the
action it holds. -/
theorem sound_later {s t : World ρ} (h : Later s t) {p : Phase}
    (hu : ∀ run, p.held = some run → Undisturbed s t run.action) (hp : p.Sound s) : p.Sound t := by
  cases p with
  | creating ctx a => exact Known.later h hp
  | deciding ctx a => exact Known.later h hp
  | confirming ctx action => trivial
  | issuing ctx action => trivial
  | fetching kind ctx action nonce => exact Known.later h hp
  | checking run nonce =>
    rcases hp with ⟨hknown, row, hrow, htype⟩
    rcases h.actions _ _ hrow with ⟨row', hrow', htype', -⟩
    exact ⟨hknown.later h, row', hrow', htype'.trans htype⟩
  | marking run => exact Cleared.later h (hu run rfl) hp
  | confirmed run => exact Cleared.later h (hu run rfl) hp
  | approved run => exact Cleared.later h (hu run rfl) hp
  | applying run =>
    refine ⟨hp.1.later h (hu run rfl), ?_⟩
    rw [(hu run rfl).1]
    exact hp.2
  | finishing run rest onError => exact ⟨hp.1.later h, hp.2⟩
  | «over» => trivial

theorem Attempt.Proper.mono {l l' : List Validation} (h : ∀ v ∈ l, v ∈ l') {a : Attempt}
    {row : ActionRow} (ha : a.Proper l row) : a.Proper l' row where
  found := ha.found
  allowed := ha.allowed
  confirmed := fun hr => (ha.confirmed hr).mono h
  entitled := ha.entitled

/-- Calls that attempt nothing keep the records, as long as no attempted action awaits
confirmation afterwards. -/
theorem Records.later {s t : World ρ} (hs : Records s) (h : Later s t)
    (hattempts : t.attempts = s.attempts)
    (hawaiting : ∀ action row, t.actions.find? action = some row →
      row.status = .confirmationRequired → row.policyStatus = "allowed" ∧ ¬Attempted s action) :
    Records t where
  once := by
    rw [hattempts]
    exact hs.once
  proper := by
    intro a ha
    rw [hattempts] at ha
    rcases hs.proper a ha with ⟨row, hrow⟩
    exact ⟨row, hrow.mono h.validations⟩
  own := by
    intro a ha
    rw [hattempts] at ha
    exact (hs.own a ha).later h
  exist := by
    intro a ha
    rw [hattempts] at ha
    rcases Option.isSome_iff_exists.mp (hs.exist a ha) with ⟨row, hrow⟩
    rcases h.actions _ _ hrow with ⟨row', hrow', -⟩
    exact Option.isSome_iff_exists.mpr ⟨row', hrow'⟩
  awaiting := by
    intro action row hrow hstatus
    unfold Attempted
    rw [hattempts]
    exact hawaiting action row hrow hstatus

/-! ## One request moves on -/

theorem Later.refl (s : World ρ) : Later s s where
  identities := fun _ identity h => ⟨identity, h, fun _ hrole => hrole⟩
  actions := fun _ row h => ⟨row, h, rfl, rfl⟩
  confirmations := fun _ c h => ⟨c, h, rfl⟩
  validations := fun _ hv => hv
  attempts := fun _ ha => ha

theorem later_goto (s : World ρ) (r : ρ) (p : Phase) : Later s (s.goto r p) :=
  ⟨(Later.refl s).identities, (Later.refl s).actions, (Later.refl s).confirmations,
    (Later.refl s).validations, (Later.refl s).attempts⟩

theorem sound_goto {s : World ρ} {r : ρ} {p q : Phase} (h : q.Sound s) : q.Sound (s.goto r p) :=
  sound_later (later_goto s r p) (fun _ _ => ⟨rfl, fun ha => ha⟩) h

/-- The request goes to a phase it has made sure of, and holds what no other does. -/
theorem Inv.goto {s t : World ρ} (hs : Inv s) {r : ρ} {p : Phase}
    (hrequests : t.requests = s.requests) (hrecords : Records t) (hlater : Later s t)
    (hothers : ∀ r' p' run, r' ≠ r → s.requests.find? r' = some p' → p'.held = some run →
      Undisturbed s t run.action)
    (hp : p.Sound t)
    (halone : ∀ run, p.held = some run → ∀ r' p' run', r' ≠ r → s.requests.find? r' = some p' →
      p'.held = some run' → run'.action ≠ run.action) : Inv (t.goto r p) := by
  have hputs : s.requests.Puts (t.goto r p).requests r p := by
    unfold World.goto
    rw [hrequests]
    exact Table.puts_insert _ _ _
  refine ⟨⟨hrecords.once, hrecords.proper, hrecords.own, hrecords.exist, hrecords.awaiting⟩,
    ?_, ?_⟩
  · intro r' p' hp'
    rcases hputs.find hp' with ⟨-, rfl⟩ | ⟨hne, hold⟩
    · exact sound_goto hp
    · refine sound_goto (sound_later hlater (fun run hheld => ?_) (hs.sound r' p' hold))
      exact hothers r' p' run hne hold hheld
  · intro r₁ r₂ p₁ p₂ run₁ run₂ hp₁ hp₂ hheld₁ hheld₂ hsame
    rcases hputs.find hp₁ with ⟨rfl, rfl⟩ | ⟨hne₁, hold₁⟩
    · rcases hputs.find hp₂ with ⟨rfl, rfl⟩ | ⟨hne₂, hold₂⟩
      · rfl
      · exact absurd hsame.symm (halone run₁ hheld₁ r₂ p₂ run₂ hne₂ hold₂ hheld₂)
    · rcases hputs.find hp₂ with ⟨rfl, rfl⟩ | ⟨hne₂, hold₂⟩
      · exact absurd hsame (halone run₂ hheld₂ r₁ p₁ run₁ hne₁ hold₁ hheld₁)
      · exact hs.alone r₁ r₂ p₁ p₂ run₁ run₂ hold₁ hold₂ hheld₁ hheld₂ hsame

/-- A call that only reads. -/
theorem Inv.reads {s : World ρ} (hs : Inv s) {r : ρ} {p : Phase} (hp : p.Sound s)
    (halone : ∀ run, p.held = some run → ∀ r' p' run', r' ≠ r → s.requests.find? r' = some p' →
      p'.held = some run' → run'.action ≠ run.action) : Inv (s.goto r p) :=
  hs.goto rfl hs.records (.refl s) (fun _ _ _ _ _ _ => ⟨rfl, fun h => h⟩) hp halone

/-- A request that holds nothing afterwards. -/
theorem Inv.free {s : World ρ} (hs : Inv s) {r : ρ} {p : Phase} (hp : p.Sound s)
    (hfree : p.held = none) : Inv (s.goto r p) :=
  hs.reads hp fun run hrun => by
    rw [hfree] at hrun
    cases hrun

theorem Inv.cleared {s : World ρ} (hs : Inv s) {r : ρ} {p : Phase} {run : Run}
    (hr : s.requests.find? r = some p) (hheld : p.held = some run) : Cleared s run := by
  have hp := hs.sound r p hr
  cases p with
  | marking run' => exact Option.some.inj hheld ▸ hp
  | confirmed run' => exact Option.some.inj hheld ▸ hp
  | approved run' => exact Option.some.inj hheld ▸ hp
  | applying run' => exact Option.some.inj hheld ▸ hp.1
  | _ => cases hheld

/-- What the request held before, no other request holds. -/
theorem Inv.others {s : World ρ} (hs : Inv s) {r : ρ} {p : Phase} {run : Run}
    (hr : s.requests.find? r = some p) (hheld : p.held = some run) :
    ∀ r' p' run', r' ≠ r → s.requests.find? r' = some p' → p'.held = some run' →
      run'.action ≠ run.action :=
  fun r' p' run' hne hp' hheld' hsame => hne (hs.alone r' r p' p run' run hp' hr hheld' hheld hsame)

/-! ## The calls -/

/-- An action under a new id. -/
theorem later_createActionRequest {s : World ρ} {id : Uuid} (row : ActionRow)
    (hfresh : s.actions.find? id = none) : Later s (s.createActionRequest id row) where
  identities := (Later.refl s).identities
  actions := by
    intro action row' hrow'
    have hne : action ≠ id := by
      rintro rfl
      rw [hfresh] at hrow'
      cases hrow'
    exact ⟨row', by rw [← hrow']; exact Table.find?_insert_of_ne _ _ hne, rfl, rfl⟩
  confirmations := (Later.refl s).confirmations
  validations := (Later.refl s).validations
  attempts := (Later.refl s).attempts

theorem Records.createActionRequest {s : World ρ} (hs : Records s) {ctx : Ctx} {a : CreateAsk}
    {verdict : Verdict} {id : Uuid} (hfresh : s.actions.find? id = none) :
    Records (s.createActionRequest id
      (newAction ctx a (evaluateAction a.actionType ctx.role verdict))) ∧ ¬Attempted s id := by
  have hnever : ¬Attempted s id := by
    rintro ⟨x, hx, rfl⟩
    have hsome := hs.exist x hx
    rw [hfresh] at hsome
    cases hsome
  refine ⟨hs.later (later_createActionRequest _ hfresh) rfl ?_, hnever⟩
  intro action row hrow hstatus
  rcases (Table.puts_insert s.actions id _).find hrow with ⟨rfl, rfl⟩ | ⟨-, hold⟩
  · refine ⟨?_, hnever⟩
    by_cases hallowed : (evaluateAction a.actionType ctx.role verdict).allowed = true
    · exact (evaluateAction_allowed hallowed).1
    · simp [newAction, hallowed] at hstatus
  · exact hs.awaiting action row hold hstatus

/-- `create_action_request` and what follows it. -/
theorem Inv.createActionRequest {s : World ρ} (hs : Inv s) {r : ρ} {ctx : Ctx} {a : CreateAsk}
    {verdict : Verdict} {id : Uuid} (hknown : Known s ctx) (hfresh : s.actions.find? id = none)
    {p : Phase} (hp : p.held = none ∧ (∀ t : World ρ, p.Sound t) ∨ p = .approved (a.run ctx id) ∧
      (evaluateAction a.actionType ctx.role verdict).allowed = true ∧
      (evaluateAction a.actionType ctx.role verdict).requiresConfirmation = false) :
    Inv ((s.createActionRequest id
      (newAction ctx a (evaluateAction a.actionType ctx.role verdict))).goto r p) := by
  have hlater := later_createActionRequest
    (newAction ctx a (evaluateAction a.actionType ctx.role verdict)) hfresh
  rcases @Records.createActionRequest _ _ _ hs.records ctx a verdict id hfresh with
    ⟨hrecords, hnever⟩
  have hne : ∀ r' p' run, s.requests.find? r' = some p' → p'.held = some run →
      run.action ≠ id := by
    intro r' p' run hp' hheld heq
    rcases (hs.cleared hp' hheld).row with ⟨row, hrow, -⟩
    rw [heq, hfresh] at hrow
    cases hrow
  refine hs.goto rfl hrecords hlater ?_ ?_ ?_
  · intro r' p' run _ hp' hheld
    exact ⟨Table.find?_insert_of_ne _ _ (hne r' p' run hp' hheld), fun h => h⟩
  · rcases hp with ⟨-, hsound⟩ | ⟨rfl, hallowed, hconfirmation⟩
    · exact hsound _
    · rcases evaluateAction_allowed hallowed with ⟨hstatus, hrequires, hcan⟩
      exact {
        known := hknown.later hlater
        entitled := ctx.exists_role hcan
        row := ⟨_, Table.find?_insert_self _ _ _, rfl, hstatus⟩
        confirmed := fun hr => by
          rw [hrequires] at hconfirmation
          exact absurd (hr.symm.trans hconfirmation) nofun
        own := nofun
        fresh := hnever }
  · rcases hp with ⟨hfree, -⟩ | ⟨rfl, -⟩
    · intro run hheld
      rw [hfree] at hheld
      cases hheld
    · intro run hheld r' p' run' _ hp' hheld'
      obtain rfl := Option.some.inj hheld
      exact hne r' p' run' hp' hheld'

/-- `create_confirmation` -/
theorem Inv.createConfirmation {s : World ρ} (hs : Inv s) {r : ρ} {id action : Uuid}
    {identityKey nonceHash : String} (hfresh : s.confirmations.find? id = none) :
    Inv ((s.createConfirmation id action identityKey nonceHash).goto r .over) := by
  have hlater : Later s (s.createConfirmation id action identityKey nonceHash) := by
    refine ⟨(Later.refl s).identities, (Later.refl s).actions, ?_, (Later.refl s).validations,
      (Later.refl s).attempts⟩
    intro id' c hc
    have hne : id' ≠ id := by
      rintro rfl
      rw [hfresh] at hc
      cases hc
    exact ⟨c, by rw [← hc]; exact Table.find?_insert_of_ne _ _ hne, rfl⟩
  exact hs.goto rfl (hs.records.later hlater rfl hs.records.awaiting) hlater
    (fun _ _ _ _ _ _ => ⟨rfl, fun h => h⟩) trivial nofun

/-- A fold that keeps what it has or takes the element ends with one of them. -/
theorem kept_of_foldl {E : Type} {f : Option E → E → Option E}
    (hf : ∀ best e, f best e = best ∨ f best e = some e) {rows : List E} {best : Option E} {x : E}
    (h : rows.foldl f best = some x) : best = some x ∨ x ∈ rows := by
  induction rows generalizing best with
  | nil => exact Or.inl h
  | cons e rows ih =>
    rw [List.foldl_cons] at h
    rcases ih h with heq | hrest
    · rcases hf best e with hbest | he
      · exact Or.inl (hbest.symm.trans heq)
      · rw [he] at heq
        rw [← Option.some.inj heq]
        exact Or.inr List.mem_cons_self
    · exact Or.inr (List.mem_cons_of_mem _ hrest)

theorem World.latestConfirmation_eq_some {s : World ρ} {action id : Uuid} {c : Confirmation}
    (h : s.latestConfirmation action = some (id, c)) :
    s.confirmations.find? id = some c ∧ c.action = action := by
  unfold World.latestConfirmation at h
  rcases kept_of_foldl (fun best e => by cases best <;> dsimp only <;> grind) h with hnone | hrow
  · cases hnone
  · rw [List.mem_filter, beq_iff_eq] at hrow
    exact ⟨Table.mem_rows.mp hrow.1, hrow.2⟩

theorem confirmationRefusal_eq_none {nonce identityKey : String} {c : Confirmation} {now : Time}
    (h : confirmationRefusal hash nonce c identityKey now = none) :
    c.used = false ∧ now < c.expiresAt := by
  unfold confirmationRefusal at h
  by_cases hused : c.used = true
  · simp [hused] at h
  by_cases hidentity : c.identityKey ≠ identityKey
  · simp [hused, hidentity] at h
  by_cases hexpired : c.expiresAt ≤ now
  · simp [hused, hidentity, hexpired] at h
  exact ⟨by simpa using hused, Nat.lt_of_not_le hexpired⟩

/-- A careful check finds the confirmation valid. -/
theorem Inv.validate {s : World ρ} (hs : Inv s) {r : ρ} {run : Run} {nonce : String} {id : Uuid}
    {c : Confirmation} (hr : s.requests.find? r = some (.checking run nonce))
    (hlatest : s.latestConfirmation run.action = some (id, c))
    (hvalid : confirmationRefusal hash nonce c run.ctx.identityKey s.now = none)
    (hawaits : s.awaits run.action = true) (hfree : s.holds run.action = false)
    (hrole : ∃ role ∈ run.ctx.roles, roleCan role run.actionType = true) :
    Inv ((s.validate run.action id c).goto r (.marking { run with confirmation := some id })) := by
  have hlater : Later s (s.validate run.action id c) :=
    ⟨(Later.refl s).identities, (Later.refl s).actions, (Later.refl s).confirmations,
      fun v hv => List.mem_append_left _ hv, (Later.refl s).attempts⟩
  rcases World.latestConfirmation_eq_some hlatest with ⟨hc, haction⟩
  rcases confirmationRefusal_eq_none hvalid with ⟨hunused, hunexpired⟩
  rcases hs.sound r _ hr with ⟨hknown, row, hrow, htype⟩
  have hstatus : row.status = .confirmationRequired := by
    unfold World.awaits at hawaits
    rw [hrow, Option.any_some, beq_iff_eq] at hawaits
    exact hawaits
  rcases hs.records.awaiting run.action row hrow hstatus with ⟨hallowed, hnever⟩
  have hnobody := Table.any_rows_eq_false.mp hfree
  refine hs.goto rfl (hs.records.later hlater rfl hs.records.awaiting) hlater
    (fun _ _ _ _ _ _ => ⟨rfl, fun h => h⟩) ?_ ?_
  · exact {
      known := hknown.later hlater
      entitled := hrole
      row := ⟨row, hrow, htype, hallowed⟩
      confirmed := fun _ => ⟨⟨run.action, id, c, s.now⟩, List.mem_append_right _
        (List.mem_singleton_self _), rfl, rfl, hunused, hunexpired⟩
      own := fun id' hid' => ⟨c, by rw [← Option.some.inj hid']; exact hc, haction⟩
      fresh := hnever }
  · intro run' hheld r' p' run'' _ hp' hheld'' heq
    obtain rfl := Option.some.inj hheld
    have hno := hnobody r' p' hp'
    simp [hheld'', heq] at hno

/-- `mark_confirmation_used` -/
theorem Inv.markConfirmationUsed {s : World ρ} (hs : Inv s) {r : ρ} {run : Run} {id : Uuid}
    (hr : s.requests.find? r = some (.marking run)) :
    Inv ((s.markConfirmationUsed id).goto r (.confirmed run)) := by
  have hlater : Later s (s.markConfirmationUsed id) := by
    refine ⟨(Later.refl s).identities, (Later.refl s).actions, ?_, (Later.refl s).validations,
      (Later.refl s).attempts⟩
    intro id' c hc
    by_cases heq : id' = id
    · subst heq
      exact ⟨{ c with used := true }, (Table.puts_modify hc _).self, rfl⟩
    · exact ⟨c, by rw [← hc]; exact Table.find?_modify_of_ne _ _ heq, rfl⟩
  have hcleared : Cleared (s.markConfirmationUsed id) run :=
    (hs.cleared hr rfl).later hlater ⟨rfl, fun h => h⟩
  refine hs.goto rfl (hs.records.later hlater rfl hs.records.awaiting) hlater
    (fun _ _ _ _ _ _ => ⟨rfl, fun h => h⟩) hcleared ?_
  intro run' hheld
  obtain rfl := Option.some.inj hheld
  exact hs.others hr rfl

/-- An update of a status, away from `confirmation_required`. -/
structure Closes (f : ActionRow → ActionRow) : Prop where
  actionType : ∀ row, (f row).actionType = row.actionType
  policyStatus : ∀ row, (f row).policyStatus = row.policyStatus
  status : ∀ row, (f row).status ≠ .confirmationRequired

theorem closes_status {status : ActionStatus} (h : status ≠ .confirmationRequired) :
    Closes ({ · with status := status }) :=
  ⟨fun _ => rfl, fun _ => rfl, fun _ => h⟩

theorem later_modify {s : World ρ} {action : Uuid} {f : ActionRow → ActionRow} (hf : Closes f) :
    Later s { s with actions := s.actions.modify action f } where
  identities := (Later.refl s).identities
  actions := by
    intro action' row hrow
    by_cases heq : action' = action
    · subst heq
      exact ⟨f row, (Table.puts_modify hrow f).self, hf.actionType row, hf.policyStatus row⟩
    · exact ⟨row, by rw [← hrow]; exact Table.find?_modify_of_ne _ _ heq, rfl, rfl⟩
  confirmations := (Later.refl s).confirmations
  validations := (Later.refl s).validations
  attempts := (Later.refl s).attempts

theorem Records.modify {s : World ρ} (hs : Records s) {action : Uuid} {f : ActionRow → ActionRow}
    (hf : Closes f) : Records { s with actions := s.actions.modify action f } := by
  refine hs.later (later_modify hf) rfl ?_
  intro action' row hrow hstatus
  rcases Table.exists_of_find?_modify hrow with ⟨row₀, hrow₀, heq⟩
  by_cases hsame : action' = action
  · rw [if_pos hsame] at heq
    subst heq
    exact absurd hstatus (hf.status row₀)
  · rw [if_neg hsame] at heq
    subst heq
    exact hs.awaiting action' row hrow₀ hstatus

theorem Cleared.modify {s : World ρ} {run : Run} (h : Cleared s run) {f : ActionRow → ActionRow}
    (hf : Closes f) : Cleared { s with actions := s.actions.modify run.action f } run where
  known := h.known
  entitled := h.entitled
  row := by
    rcases h.row with ⟨row, hrow, htype, hallowed⟩
    exact ⟨f row, (Table.puts_modify hrow f).self, (hf.actionType row).trans htype,
      (hf.policyStatus row).trans hallowed⟩
  confirmed := h.confirmed
  own := h.own
  fresh := h.fresh

/-- The status of an action is written by the request that holds it, or after its effect. -/
theorem Inv.modify {s : World ρ} (hs : Inv s) {r : ρ} {action : Uuid}
    {f : ActionRow → ActionRow} (hf : Closes f) {p : Phase}
    (hothers : ∀ r' p' run, r' ≠ r → s.requests.find? r' = some p' → p'.held = some run →
      run.action ≠ action)
    (hp : p.Sound { s with actions := s.actions.modify action f })
    (hheld : ∀ run, p.held = some run → run.action = action) :
    Inv (World.goto { s with actions := s.actions.modify action f } r p) := by
  refine hs.goto rfl (hs.records.modify hf) (later_modify hf) ?_ hp ?_
  · intro r' p' run hne hp' hheld'
    exact ⟨Table.find?_modify_of_ne _ _ (hothers r' p' run hne hp' hheld'), fun h => h⟩
  · intro run hrun r' p' run' hne hp' hheld'
    rw [hheld run hrun]
    exact hothers r' p' run' hne hp' hheld'

/-- The action is not awaiting confirmation once its status was written. -/
theorem status_modify {s : World ρ} {action : Uuid} {f : ActionRow → ActionRow} (hf : Closes f) :
    ∀ row, (s.actions.modify action f).find? action = some row →
      row.status ≠ .confirmationRequired := by
  intro row hrow
  rcases Table.exists_of_find?_modify hrow with ⟨row₀, -, heq⟩
  rw [if_pos rfl] at heq
  rw [heq]
  exact hf.status row₀

/-- The statuses that follow an effect. -/
theorem Run.follow_closes (run : Run) (effect : Option Effect) :
    ∀ op ∈ (run.follow effect).1 ++ (run.follow effect).2,
      op ≠ .setStatus .confirmationRequired := by
  unfold Run.follow
  cases run.kind <;> cases effect <;> simp

/-- The effect. -/
theorem Inv.apply {s : World ρ} (hs : Inv s) {r : ρ} {run : Run} {able : Bool}
    (hr : s.requests.find? r = some (.applying run)) :
    Inv ((s.apply run able).goto r (.finishing run (run.follow (run.effect able)).1
      (run.follow (run.effect able)).2)) := by
  have hlater : Later s (s.apply run able) :=
    ⟨(Later.refl s).identities, (Later.refl s).actions, (Later.refl s).confirmations,
      (Later.refl s).validations, fun a ha => List.mem_append_left _ ha⟩
  have hcleared := hs.cleared hr rfl
  have hclosed := (hs.sound r _ hr).2
  rcases hcleared.row with ⟨row, hrow, htype, hallowed⟩
  have hattempted : ∀ action, Attempted (s.apply run able) action →
      Attempted s action ∨ run.action = action := by
    rintro action ⟨a, ha, heq⟩
    rcases List.mem_append.mp ha with hold | hnew
    · exact Or.inl ⟨a, hold, heq⟩
    · rw [List.mem_singleton.mp hnew] at heq
      exact Or.inr heq
  have hproper : Attempt.Proper s.validations
      { action := run.action
        confirmation := run.confirmation
        identityKey := run.ctx.identityKey
        effect := run.effect able
        found := s.actions.find? run.action
        roles := ((s.identities.find? run.ctx.identityKey).map Identity.roles).getD [] } row := by
    refine ⟨hrow, hallowed, fun hr => ?_, ?_⟩
    · rw [htype] at hr
      exact hcleared.confirmed hr
    · rcases hcleared.known with ⟨identity, hidentity, hroles⟩
      rcases hcleared.entitled with ⟨role, hrole, hcan⟩
      refine ⟨role, ?_, by rw [htype]; exact hcan⟩
      rw [hidentity]
      exact hroles role hrole
  refine hs.goto rfl ?_ hlater ?_ ⟨?_, run.follow_closes _⟩ nofun
  · constructor
    · refine List.pairwise_append.mpr ⟨hs.records.once, List.pairwise_singleton _ _, ?_⟩
      intro a ha b hb heq
      rw [List.mem_singleton.mp hb] at heq
      exact hcleared.fresh ⟨a, ha, heq⟩
    · intro a ha
      rcases List.mem_append.mp ha with hold | hnew
      · exact hs.records.proper a hold
      · rw [List.mem_singleton.mp hnew]
        exact ⟨row, hproper⟩
    · intro a ha
      rcases List.mem_append.mp ha with hold | hnew
      · exact (hs.records.own a hold).later hlater
      · rw [List.mem_singleton.mp hnew]
        exact hcleared.own
    · intro a ha
      rcases List.mem_append.mp ha with hold | hnew
      · exact hs.records.exist a hold
      · rw [List.mem_singleton.mp hnew]
        exact Option.isSome_iff_exists.mpr ⟨row, hrow⟩
    · intro action row' hrow' hstatus
      rcases hs.records.awaiting action row' hrow' hstatus with ⟨hpolicy, hnever⟩
      refine ⟨hpolicy, fun ha => ?_⟩
      rcases hattempted action ha with hold | rfl
      · exact hnever hold
      · exact hclosed row' hrow' hstatus
  · intro r' p' run' hne hp' hheld'
    refine ⟨rfl, fun ha => ?_⟩
    rcases hattempted run'.action ha with hold | heq
    · exact hold
    · exact absurd heq.symm (hs.others hr rfl r' p' run' hne hp' hheld')
  · exact ⟨_, List.mem_append_right _ (List.mem_singleton_self _), rfl⟩

/-- What follows the effect. -/
theorem Inv.perform {s : World ρ} (hs : Inv s) {r : ρ} {run : Run} {op : Op}
    {rest onError : List Op}
    (hr : s.requests.find? r = some (.finishing run (op :: rest) onError)) :
    Inv ((s.perform run op).goto r (.finishing run rest onError)) := by
  rcases hs.sound r _ hr with ⟨hattempted, hcloses⟩
  have hrest : ∀ op ∈ rest ++ onError, op ≠ .setStatus .confirmationRequired :=
    fun op' hop' => hcloses op' (List.mem_cons_of_mem _ hop')
  cases op with
  | createRerun => exact hs.free ⟨hattempted, hrest⟩ rfl
  | linkAudit => exact hs.free ⟨hattempted, hrest⟩ rfl
  | createExecution status =>
    have hlater : Later s (s.perform run (.createExecution status)) :=
      ⟨(Later.refl s).identities, (Later.refl s).actions, (Later.refl s).confirmations,
        (Later.refl s).validations, (Later.refl s).attempts⟩
    exact hs.goto rfl (hs.records.later hlater rfl hs.records.awaiting) hlater
      (fun _ _ _ _ _ _ => ⟨rfl, fun h => h⟩) ⟨hattempted, hrest⟩ nofun
  | setStatus status =>
    have hstatus : status ≠ .confirmationRequired := fun heq =>
      hcloses _ List.mem_cons_self (by rw [heq])
    refine hs.modify (closes_status hstatus) ?_ ⟨hattempted, hrest⟩ nofun
    intro r' p' run' _ hp' hheld' heq
    have hfresh := (hs.cleared hp' hheld').fresh
    rw [heq] at hfresh
    exact hfresh hattempted

/-- A request makes its next call. -/
theorem Inv.next {s : World ρ} (hs : Inv s) {r : ρ} {p : Phase} {d : Draw}
    (hr : s.requests.find? r = some p) (hok : careful hash s (.next r d) = true) :
    Inv (s.next hash r d p) := by
  have hover : Inv (s.goto r .over) := hs.free trivial rfl
  have hp := hs.sound r p hr
  unfold World.next
  cases p with
  | creating ctx a =>
    dsimp only
    split
    · exact hover
    split
    · exact hover
    · exact hs.free hp rfl
  | deciding ctx a =>
    dsimp only
    split
    · exact hover
    rename_i hinsert
    have hfresh : s.actions.find? d.id = none := by
      simp only [Bool.or_eq_true, not_or, Option.not_isSome_iff_eq_none] at hinsert
      exact hinsert.1.2
    split
    · exact hs.createActionRequest hp hfresh (Or.inl ⟨rfl, fun _ => trivial⟩)
    rename_i hallowed
    split
    · exact hs.createActionRequest hp hfresh (Or.inl ⟨rfl, fun _ => trivial⟩)
    · -- no confirmation is asked for: the action is executed at once
      rename_i hconfirmation
      exact hs.createActionRequest hp hfresh
        (Or.inr ⟨rfl, by simpa using hallowed, by simpa using hconfirmation⟩)
  | confirming ctx action =>
    dsimp only
    split
    · exact hover
    · rename_i hinsert
      simp only [Bool.or_eq_true, not_or, Option.not_isSome_iff_eq_none] at hinsert
      exact hs.createConfirmation hinsert.2
  | issuing ctx action =>
    dsimp only
    split
    · exact hover
    · exact hs.free trivial rfl
  | fetching kind ctx action nonce =>
    dsimp only
    cases hrow : s.actions.find? action with
    | none => exact hover
    | some row =>
      have hchecking : Inv (s.goto r (.checking (row.run kind ctx action) nonce)) :=
        hs.free ⟨hp, row, hrow, rfl⟩ rfl
      cases kind with
      | execute =>
        dsimp only
        split
        · exact hover
        · exact hchecking
      | verification =>
        dsimp only
        split
        · exact hover
        · exact hchecking
  | checking run nonce =>
    dsimp only
    cases hlatest : s.latestConfirmation run.action with
    | none => exact hover
    | some e =>
      rcases e with ⟨id, c⟩
      dsimp only
      cases hvalid : confirmationRefusal hash nonce c run.ctx.identityKey s.now with
      | some reason => exact hover
      | none =>
        have hpasses : s.passes hash run nonce = true := by
          unfold World.passes
          rw [hlatest, Option.any_some, hvalid]
          rfl
        simp only [careful, hr, Option.all_some, hpasses, Bool.not_true, Bool.false_or,
          Bool.and_eq_true, Bool.not_eq_true', List.any_eq_true] at hok
        exact hs.validate hr hlatest hvalid hok.1.1 hok.1.2 hok.2
  | marking run =>
    dsimp only
    split
    · exact hover
    · exact hs.markConfirmationUsed hr
  | confirmed run =>
    have hcleared : Cleared s run := hp
    dsimp only
    cases run.kind with
    | execute =>
      have hf : Closes fun row : ActionRow =>
          { row with
            status := .approved
            confirmationStatus := "confirmed" } :=
        ⟨fun _ => rfl, fun _ => rfl, fun _ => (by intro h; cases h)⟩
      refine hs.modify hf (hs.others hr rfl) (hcleared.modify hf) fun run' hheld => ?_
      rw [← Option.some.inj hheld]
    | verification =>
      have hf := @closes_status .executing (by intro h; cases h)
      refine hs.modify hf (hs.others hr rfl) ⟨hcleared.modify hf, status_modify hf⟩
        fun run' hheld => ?_
      rw [← Option.some.inj hheld]
  | approved run =>
    have hcleared : Cleared s run := hp
    have hf := @closes_status .executing (by intro h; cases h)
    refine hs.modify hf (hs.others hr rfl) ⟨hcleared.modify hf, status_modify hf⟩
        fun run' hheld => ?_
    rw [← Option.some.inj hheld]
  | applying run => exact hs.apply hr
  | finishing run rest onError =>
    cases rest with
    | nil => exact hover
    | cons op rest =>
      dsimp only
      split
      · -- the statement raises, and the handler's follow
        refine hs.free ⟨hp.1, fun op' hop' => hp.2 op' ?_⟩ rfl
        rw [List.append_nil] at hop'
        exact List.mem_append_right _ hop'
      · exact hs.perform hr
  | «over» => exact hs

theorem known_authenticate {s : World ρ} {sessionHash : String} {ctx : Ctx}
    (h : s.authenticate sessionHash = some ctx) : Known s ctx := by
  unfold World.authenticate at h
  cases hsession : s.sessions.find? sessionHash with
  | none => simp [hsession] at h
  | some session =>
    by_cases hactive : session.active = true
    · cases hidentity : s.identities.find? session.identityKey with
      | none => simp [hsession, hidentity] at h
      | some identity =>
        by_cases henabled : identity.active = true
        · have hctx : (⟨session.identityKey, identity.roles⟩ : Ctx) = ctx := by
            simpa [hsession, hactive, hidentity, henabled] using h
          rw [← hctx]
          exact ⟨identity, hidentity, fun _ hrole => hrole⟩
        · simp [hsession, hidentity, henabled] at h
    · simp [hsession, hactive] at h

/-- Identities only gain roles. -/
theorem later_upsertIdentity (s : World ρ) (identityKey : String) (role : Role)
    (sessions : Table String Session) :
    Later s { s with
      identities := s.upsertIdentity identityKey role
      sessions := sessions } where
  identities := by
    intro key identity hidentity
    unfold World.upsertIdentity
    by_cases heq : key = identityKey
    · subst heq
      simp only [hidentity]
      exact ⟨_, Table.find?_insert_self _ _ _, fun _ hrole => List.mem_cons_of_mem _ hrole⟩
    · refine ⟨identity, ?_, fun _ hrole => hrole⟩
      rw [← hidentity]
      cases s.identities.find? identityKey <;> exact Table.find?_insert_of_ne _ _ heq
  actions := (Later.refl s).actions
  confirmations := (Later.refl s).confirmations
  validations := (Later.refl s).validations
  attempts := (Later.refl s).attempts

/-- What happens outside the requests and the actions. -/
theorem Inv.outside {s t : World ρ} (hs : Inv s) (hlater : Later s t)
    (hrequests : t.requests = s.requests) (hactions : t.actions = s.actions)
    (hattempts : t.attempts = s.attempts) : Inv t := by
  have hundisturbed : ∀ action, Undisturbed s t action := by
    intro action
    unfold Undisturbed Attempted
    rw [hactions, hattempts]
    exact ⟨rfl, fun h => h⟩
  refine ⟨hs.records.later hlater hattempts ?_, ?_, ?_⟩
  · rw [hactions]
    exact hs.records.awaiting
  · intro r p hp
    rw [hrequests] at hp
    exact sound_later hlater (fun run _ => hundisturbed run.action) (hs.sound r p hp)
  · rw [hrequests]
    exact hs.alone

/-- **The step lemma.** -/
theorem step_inv {s t : World ρ} {a : Act ρ} (hs : Inv s) (hok : careful hash s a = true)
    (h : step hash s a = some t) : Inv t := by
  unfold step at h
  cases a with
  | login identityKey role sessionHash =>
    obtain rfl := Option.some.inj h
    exact hs.outside (later_upsertIdentity s identityKey role _) rfl rfl rfl
  | logout sessionHash =>
    obtain rfl := Option.some.inj h
    exact hs.outside ⟨(Later.refl s).identities, (Later.refl s).actions,
      (Later.refl s).confirmations, (Later.refl s).validations, (Later.refl s).attempts⟩ rfl rfl rfl
  | tick elapsed =>
    obtain rfl := Option.some.inj h
    exact hs.outside ⟨(Later.refl s).identities, (Later.refl s).actions,
      (Later.refl s).confirmations, (Later.refl s).validations, (Later.refl s).attempts⟩ rfl rfl rfl
  | start r sessionHash ask =>
    cases hr : s.requests.find? r with
    | some p => simp [hr] at h
    | none =>
      cases hctx : s.authenticate sessionHash with
      | none =>
        simp only [hr, hctx, Option.some.injEq] at h
        rw [← h]
        exact hs.free trivial rfl
      | some ctx =>
        simp only [hr, hctx, Option.some.injEq] at h
        rw [← h]
        have hknown := known_authenticate hctx
        cases ask with
        | create a =>
          unfold firstPhase
          dsimp only
          split
          · exact hs.free trivial rfl
          · exact hs.free hknown rfl
        | confirm action => exact hs.free trivial rfl
        | execute kind action nonce => exact hs.free hknown rfl
  | next r d =>
    cases hr : s.requests.find? r with
    | none => simp [hr] at h
    | some p =>
      simp only [hr, Option.map_some, Option.some.injEq] at h
      rw [← h]
      exact hs.next hr hok
  | stop r =>
    cases hr : s.requests.find? r with
    | none => simp [hr] at h
    | some p =>
      simp only [hr, Option.map_some, Option.some.injEq] at h
      rw [← h]
      exact hs.free trivial rfl

/-! ## Runs -/

theorem inv_start (identities : Table String Identity) (sessions : Table String Session) :
    Inv (World.start identities sessions : World ρ) := by
  refine ⟨⟨.nil, ?_, ?_, ?_, ?_⟩, ?_, ?_⟩
  · exact fun a ha => absurd ha List.not_mem_nil
  · exact fun a ha => absurd ha List.not_mem_nil
  · exact fun a ha => absurd ha List.not_mem_nil
  · exact fun action row hrow => absurd hrow (by simp [World.start])
  · exact fun r p hp => absurd hp (by simp [World.start])
  · exact fun r _ p _ _ _ hp => absurd hp (by simp [World.start])

theorem Inv.appliedProperly {s : World ρ} (hs : Inv s) : AppliedProperly s where
  once := hs.records.once.sublist List.filter_sublist
  nonces := by
    refine hs.records.once.imp_of_mem ?_
    intro a b ha hb hne
    by_cases hnone : a.confirmation = none
    · exact Or.inl hnone
    refine Or.inr fun heq => hne ?_
    rcases Option.ne_none_iff_exists'.mp hnone with ⟨id, hid⟩
    rcases hs.records.own a ha id hid with ⟨c, hc, haction⟩
    rcases hs.records.own b hb id (heq.symm.trans hid) with ⟨c', hc', haction'⟩
    have hsame : c = c' := Option.some.inj (hc.symm.trans hc')
    rw [← haction, ← haction', hsame]
  proper := fun a ha => hs.records.proper a (List.mem_filter.mp ha).1

/-- In every run of careful checks actions are applied once, and by who may. -/
theorem applied_properly {identities : Table String Identity} {sessions : Table String Session}
    {s : World ρ}
    (h : Reaches (guard (fun s a => careful hash s a = true) (step hash))
      (World.start identities sessions) s) : AppliedProperly s := by
  refine Inv.appliedProperly (h.invariant (P := Inv) (fun s a t hs ha => ?_) (inv_start _ _))
  rcases guard_eq_some.mp ha with ⟨hok, hstep⟩
  exact step_inv hs hok hstep

/-! ### Two runs -/

/-- An operator asks for the acceptance of a package. -/
def asking : List (Act Nat) := [
  .login "olga" .operator "session-olga",
  .start 1 "session-olga" (.create
    { actionType := "delivery_package.accept"
      targetType := some "delivery_package"
      targetId := some "package-1"
      reason := "complete"
      payload := {}
      idempotencyKey := "accept-package-1" }),
  .next 1 {},
  .next 1 { id := ⟨10⟩ },
  .next 1 { id := ⟨11⟩, nonce := "nonce-olga" }]

/-- Request `r` confirms the action with a nonce and comes to its effect. -/
def executing (r : Nat) (sessionHash nonce : String) : List (Act Nat) :=
  .start r sessionHash (.execute .execute ⟨10⟩ nonce) :: List.replicate 9 (.next r {})

theorem careful_run : ∃ s, runActs (guard (fun s a => careful id s a = true) (step id))
    (World.start .empty .empty) (asking ++ executing 2 "session-olga" "nonce-olga") = some s ∧
    s.applied.length = 1 ∧ AppliedProperly s := by
  have h : (runActs (guard (fun s a => careful id s a = true) (step id))
      (World.start .empty .empty) (asking ++ executing 2 "session-olga" "nonce-olga")).any
      (fun s => s.applied.length == 1) = true := by decide +kernel
  rcases (Option.any_eq_true _ _).mp h with ⟨s, hs, hlength⟩
  exact ⟨s, hs, beq_iff_eq.mp hlength, applied_properly (reaches_of_runActs hs)⟩

/-- A viewer asks for a nonce of the action, and uses it in two requests at once. -/
def meddling : List (Act Nat) := ([
  .login "vera" .viewer "session-vera",
  .start 2 "session-vera" (.confirm ⟨10⟩),
  .next 2 {},
  .next 2 { id := ⟨12⟩, nonce := "nonce-vera" },
  .start 3 "session-vera" (.execute .execute ⟨10⟩ "nonce-vera"),
  .start 4 "session-vera" (.execute .execute ⟨10⟩ "nonce-vera"),
  .next 3 {},
  .next 4 {},
  .next 3 {},
  .next 4 {}] : List (Act Nat)) ++ List.replicate 7 (.next 3 {}) ++ List.replicate 7 (.next 4 {})

/-- The package is accepted twice, with one nonce, by someone without a role for it. -/
theorem applied_by_viewer : ¬∀ s : World Nat,
    Reaches (step id) (World.start .empty .empty) s → AppliedProperly s := by
  intro hall
  have h : (runActs (step id) (World.start .empty .empty) (asking ++ meddling)).any
      (fun s => s.applied.length == 2 && s.applied.all fun a => a.action == ⟨10⟩ &&
        a.confirmation == some ⟨12⟩ && a.roles == [.viewer]) = true := by decide +kernel
  rcases (Option.any_eq_true _ _).mp h with ⟨s, hs, hboth⟩
  rw [Bool.and_eq_true, beq_iff_eq, List.all_eq_true] at hboth
  have hproper := hall s (reaches_of_runActs hs)
  rcases List.length_eq_two.mp hboth.1 with ⟨a, b, hab⟩
  have ha := hboth.2 a (by rw [hab]; exact List.mem_cons_self)
  have hb := hboth.2 b (by rw [hab]; simp)
  simp only [Bool.and_eq_true, beq_iff_eq] at ha hb
  have honce := hproper.once
  rw [hab, List.pairwise_pair] at honce
  exact honce (ha.1.1.trans hb.1.1.symm)

end AiAgentsSwd.Operator
