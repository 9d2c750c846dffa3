import AiAgentsSwd.Delivery.WorkItems
import Mathlib.Data.List.Chain

/-!
# Delivery.Lifecycle — when dispatches follow the lifecycle

A request walks from the state it has read, so its hops are transitions as long as no other
request moves the item meanwhile; and it hands its item over whatever the walk has come to, so
it must have read a state from which the walk ends in `dispatched`. `orderly` says so of the
requests as they come in, and that none stops between a hop and its event. Under it `Inv` holds
in every state, and with it `FollowsLifecycle`.
-/

namespace AiAgentsSwd.Delivery

open Keyed (Table)
open Planning (Uuid)
open Transition

variable {ρ : Type} [DecidableEq ρ] {projectKey : Uuid → Option String}

/-! ## What is promised -/

/-- The events of one item. -/
def eventsOf (events : List Event) (item : Uuid) : List Event :=
  events.filter fun e => e.workItemId == item

/-- Each event goes on from the one before. -/
def Linked (events : List Event) (item : Uuid) : Prop :=
  (eventsOf events item).IsChain fun e e' => e'.fromState = e.toState

/-- Statements that hand an item over. -/
def Op.handsOver : Op → Bool
  | .createDispatch _ => true
  | .publish _ _ => true
  | _ => false

/-- The request has moved the item from `ready_for_dispatch` to `dispatched`. -/
def Done.Moves (d : Done ρ) (r : ρ) (item : Uuid) : Prop :=
  d.request = r ∧ d.item = item ∧ d.op = .setLifecycleState .dispatched ∧
    d.found.lifecycleState = .readyForDispatch

/-- What is promised of one statement, after those that came before it. -/
structure Done.Lawful (before : List (Done ρ)) (d : Done ρ) : Prop where
  hop : ∀ nxt, d.op = .setLifecycleState nxt →
    canTransition d.found.lifecycleState nxt = true
  own : d.op.handsOver = true → ∃ m ∈ before, m.Moves d.request d.item
  flags : d.op.handsOver = true →
    d.found.productionEffect = false ∧ d.found.requiresHumanApproval = false

/-- Hops are transitions, events are linked, and only who moved an item hands it over. -/
structure FollowsLifecycle (s : World ρ) : Prop where
  lawful : ∀ before d after, s.log = before ++ d :: after → d.Lawful before
  linked : ∀ item, Linked s.events item

/-! ## Orderly requests -/

/-- The states from which the walk of a dispatch comes to `dispatched`. -/
def dispatchable : List LifecycleState :=
  [.created, .triaged, .readyForDispatch, .blocked, .failed]

/-- The request will hand the item over. -/
def Ask.dispatches (a : Ask) (w : WorkItem) (key : String) : Bool :=
  a.reason != "" && !w.productionEffect && (a.build w key).isOk

/-- A request for the item still has statements to make. -/
def World.busy (s : World ρ) (item : Uuid) : Bool :=
  s.requests.rows.any fun e => e.2.item == item && !e.2.rest.isEmpty

/-- A request comes in for an item that no other request is at work on, and if it will dispatch
it, the item can be dispatched and asks for no approval; none stops before the event of a hop. -/
def orderly (projectKey : Uuid → Option String) (s : World ρ) : Act ρ → Bool
  | .start _ a => !s.busy a.item &&
    (s.items.find? a.item).all fun w => (projectKey w.projectId).all fun key =>
      !a.dispatches w key ||
        (dispatchable.contains w.lifecycleState && !w.requiresHumanApproval)
  | .run _ _ => true
  | .stop r => (s.requests.find? r).all fun q =>
    match q.rest with
    | .recordEvent _ :: _ => false
    | _ => true

/-! ## The statements of a request -/

/-- Statements that are sound from the given state on; `moved` where the request has already
moved the item to `dispatched`. -/
inductive Sound (item : Uuid) : (moved : Bool) → LifecycleState → List Op → Prop where
  | nothing {moved : Bool} {state : LifecycleState} : Sound item moved state []
  | hop {moved : Bool} {state nxt : LifecycleState} {e : Event} {rest : List Op}
      (h : canTransition state nxt = true) (hitem : e.workItemId = item)
      (hfrom : e.fromState = some state) (hto : e.toState = some nxt)
      (hrest : Sound item (moved || state == .readyForDispatch && nxt == .dispatched) nxt rest) :
      Sound item moved state (.setLifecycleState nxt :: .recordEvent e :: rest)
  | assign {moved : Bool} {state : LifecycleState} {agent : String} {rest : List Op}
      (hrest : Sound item moved state rest) :
      Sound item moved state (.setAssignedAgent agent :: rest)
  | handOver {state : LifecycleState} {op : Op} {rest : List Op} (h : op.handsOver = true)
      (hrest : Sound item true state rest) : Sound item true state (op :: rest)

/-- The walk makes transitions only, whatever its path. -/
theorem sound_advance {a : Ask} {w : WorkItem} {target : LifecycleState} {reason : String}
    {eventType : EventType} {moved : Bool} {current : LifecycleState} {path : List LifecycleState} :
    Sound a.item moved current (advance a w target reason eventType current path) := by
  induction path generalizing moved current with
  | nil => exact .nothing
  | cons nxt path ih =>
    unfold advance
    by_cases heq : current = nxt
    · rw [if_pos heq]
      exact ih
    rw [if_neg heq]
    by_cases hlegal : canTransition current nxt = true
    · rw [if_neg (by simp [hlegal])]
      exact .hop hlegal rfl rfl rfl ih
    · rw [if_pos (by simpa using hlegal)]
      exact ih

theorem sound_handOver {a : Ask} {w : WorkItem} {e : DispatchEvent} {state : LifecycleState} :
    Sound a.item true state (handOver a w e) :=
  .assign (.handOver rfl (.handOver rfl .nothing))

/-- From a dispatchable state the walk ends in `dispatched`, by the request's own move. -/
theorem sound_dispatch {a : Ask} {w : WorkItem} {e : DispatchEvent} {moved : Bool}
    (h : w.lifecycleState ∈ dispatchable) :
    Sound a.item moved w.lifecycleState
      (advance a w .dispatched a.reason .workItemDispatched w.lifecycleState toDispatched ++
        handOver a w e) := by
  have hready : ∀ moved, Sound a.item moved .readyForDispatch
      (advance a w .dispatched a.reason .workItemDispatched .readyForDispatch [.dispatched] ++
        handOver a w e) := by
    intro moved
    refine .hop rfl rfl rfl rfl ?_
    rw [show (moved || LifecycleState.readyForDispatch == .readyForDispatch &&
      LifecycleState.dispatched == .dispatched) = true from Bool.or_true moved]
    exact sound_handOver
  generalize w.lifecycleState = state at h
  simp only [dispatchable, List.mem_cons, List.not_mem_nil, or_false] at h
  rcases h with rfl | rfl | rfl | rfl | rfl
  · exact .hop rfl rfl rfl rfl (.hop rfl rfl rfl rfl (hready _))
  · exact .hop rfl rfl rfl rfl (hready _)
  · exact hready _
  · exact .hop rfl rfl rfl rfl (.hop rfl rfl rfl rfl (hready _))
  · exact .hop rfl rfl rfl rfl (hready _)

/-- The request hands over only what it may. -/
def Permitted (w : WorkItem) (ops : List Op) : Prop :=
  ∀ op ∈ ops, op.handsOver = true → w.productionEffect = false ∧ w.requiresHumanApproval = false

theorem handsOver_advance {a : Ask} {w : WorkItem} {target : LifecycleState} {reason : String}
    {eventType : EventType} {current : LifecycleState} {path : List LifecycleState} :
    ∀ op ∈ advance a w target reason eventType current path, op.handsOver = false := by
  induction path generalizing current with
  | nil => exact List.forall_mem_nil _
  | cons nxt path ih =>
    unfold advance
    by_cases heq : current = nxt
    · rw [if_pos heq]
      exact ih
    rw [if_neg heq]
    by_cases hskip : (!canTransition current nxt) = true
    · rw [if_pos hskip]
      exact ih
    · rw [if_neg hskip]
      simp only [List.forall_mem_cons]
      exact ⟨rfl, rfl, ih⟩

/-- The statements of an orderly request. -/
theorem sound_dispatchWorkItem {a : Ask} {w : WorkItem} {key : String}
    (h : a.dispatches w key = true →
      w.lifecycleState ∈ dispatchable ∧ w.requiresHumanApproval = false) :
    Sound a.item false w.lifecycleState (dispatchWorkItem a w key) ∧
      Permitted w (dispatchWorkItem a w key) := by
  have hwalk : ∀ {target reason eventType path}, Permitted w
      (advance a w target reason eventType w.lifecycleState path) := by
    intro target reason eventType path op hop hhands
    rw [handsOver_advance op hop] at hhands
    cases hhands
  unfold Ask.dispatches at h
  unfold dispatchWorkItem
  by_cases hreason : a.reason = ""
  · rw [if_pos hreason]
    exact ⟨.nothing, List.forall_mem_nil _⟩
  rw [if_neg hreason]
  by_cases hproduction : w.productionEffect = true
  · rw [if_pos hproduction]
    exact ⟨sound_advance, hwalk⟩
  rw [if_neg hproduction]
  cases hbuild : a.build w key with
  | error e => exact ⟨sound_advance, hwalk⟩
  | ok e =>
    have hmay : w.lifecycleState ∈ dispatchable ∧ w.requiresHumanApproval = false := by
      refine h ?_
      simp [hreason, hproduction, hbuild, Except.isOk, Except.toBool]
    refine ⟨sound_dispatch hmay.1, fun op _ _ => ⟨?_, hmay.2⟩⟩
    exact Bool.eq_false_iff.mpr hproduction

/-! ## The invariant -/

/-- The last event of the item, if it has any, left it in this state. -/
def LastAt (events : List Event) (item : Uuid) (state : Option LifecycleState) : Prop :=
  ∀ e, (eventsOf events item).getLast? = some e → e.toState = state

/-- The request has moved the item. -/
def Moved (log : List (Done ρ)) (r : ρ) (item : Uuid) : Prop := ∃ m ∈ log, m.Moves r item

/-- Where the statements of a request stand: before a hop or after it, or between the hop and
its event. -/
inductive Stands (events : List Event) (item : Uuid) (moved : Bool) (state : LifecycleState) :
    List Op → Prop where
  | settled {ops : List Op} (hlast : LastAt events item (some state))
      (hsound : Sound item moved state ops) : Stands events item moved state ops
  | unrecorded {e : Event} {rest : List Op} (hitem : e.workItemId = item)
      (hto : e.toState = some state) (hlast : LastAt events item e.fromState)
      (hsound : Sound item moved state rest) :
      Stands events item moved state (.recordEvent e :: rest)

/-- A request that is under way. -/
def UnderWay (s : World ρ) (r : ρ) (q : Request) : Prop :=
  ∃ w moved, s.items.find? q.item = some w ∧ (moved = true → Moved s.log r q.item) ∧
    Permitted w q.rest ∧ Stands s.events q.item moved w.lifecycleState q.rest

structure Inv (s : World ρ) : Prop where
  follows : FollowsLifecycle s
  alone : ∀ r r' q q', s.requests.find? r = some q → s.requests.find? r' = some q' →
    q.rest ≠ [] → q'.rest ≠ [] → q.item = q'.item → r = r'
  running : ∀ r q, s.requests.find? r = some q → q.rest ≠ [] → UnderWay s r q
  settled : ∀ item w, s.items.find? item = some w →
    (∀ r q, s.requests.find? r = some q → q.item = item → q.rest = []) →
    LastAt s.events item (some w.lifecycleState)

theorem eventsOf_append (events more : List Event) (item : Uuid) :
    eventsOf (events ++ more) item = eventsOf events item ++ eventsOf more item :=
  List.filter_append _ _

/-- A request is not concerned by what happens to other items. -/
theorem UnderWay.frame {s t : World ρ} {r : ρ} {q : Request} (h : UnderWay s r q)
    (hitem : t.items.find? q.item = s.items.find? q.item)
    (hevents : eventsOf t.events q.item = eventsOf s.events q.item)
    (hlog : ∀ d ∈ s.log, d ∈ t.log) : UnderWay t r q := by
  rcases h with ⟨w, moved, hw, hmoved, hmay, hstands⟩
  have hlast : ∀ {state}, LastAt s.events q.item state → LastAt t.events q.item state := by
    intro state hlast
    unfold LastAt
    rw [hevents]
    exact hlast
  refine ⟨w, moved, by rw [hitem, hw], fun hm => ?_, hmay, ?_⟩
  · rcases hmoved hm with ⟨m, hmem, hmoves⟩
    exact ⟨m, hlog m hmem, hmoves⟩
  · generalize hrest : q.rest = rest at hstands
    cases hstands with
    | settled hl hsound => exact .settled (hlast hl) hsound
    | unrecorded hi hto hl hsound => exact .unrecorded hi hto (hlast hl) hsound

theorem World.busy_eq_false {s : World ρ} {item : Uuid} (h : s.busy item = false) :
    ∀ r q, s.requests.find? r = some q → q.item = item → q.rest = [] := by
  intro r q hq hitem
  unfold World.busy at h
  have hno := (Table.any_rows_eq_false.mp h) r q hq
  simpa [hitem] using hno

/-- An orderly request comes in. -/
theorem Inv.start {s : World ρ} (hs : Inv s) {r : ρ} {a : Ask} (hr : s.requests.find? r = none)
    {rest : List Op} (hbusy : s.busy a.item = false)
    (hrest : rest ≠ [] → ∃ w, s.items.find? a.item = some w ∧
      Sound a.item false w.lifecycleState rest ∧ Permitted w rest) :
    Inv { s with requests := s.requests.insert r ⟨a.item, rest⟩ } := by
  have hidle := World.busy_eq_false hbusy
  have hputs := Table.puts_insert s.requests r ⟨a.item, rest⟩
  refine ⟨⟨hs.follows.lawful, hs.follows.linked⟩, ?_, ?_, ?_⟩
  · intro r₁ r₂ q₁ q₂ hq₁ hq₂ hne₁ hne₂ hsame
    rcases hputs.find hq₁ with ⟨rfl, rfl⟩ | ⟨-, hold₁⟩
    · rcases hputs.find hq₂ with ⟨rfl, rfl⟩ | ⟨-, hold₂⟩
      · rfl
      · exact absurd (hidle r₂ q₂ hold₂ hsame.symm) hne₂
    · rcases hputs.find hq₂ with ⟨rfl, rfl⟩ | ⟨-, hold₂⟩
      · exact absurd (hidle r₁ q₁ hold₁ hsame) hne₁
      · exact hs.alone r₁ r₂ q₁ q₂ hold₁ hold₂ hne₁ hne₂ hsame
  · intro r' q hq hne
    rcases hputs.find hq with ⟨rfl, rfl⟩ | ⟨-, hq⟩
    · rcases hrest hne with ⟨w, hw, hsound, hmay⟩
      have hlast := hs.settled a.item w hw hidle
      exact ⟨w, false, hw, nofun, hmay, .settled hlast hsound⟩
    · exact (hs.running r' q hq hne).frame rfl rfl fun _ hd => hd
  · intro item w hw hnone
    refine hs.settled item w hw fun r' q hq hitem => ?_
    have hne : r' ≠ r := by
      rintro rfl
      rw [hr] at hq
      cases hq
    exact hnone r' q (by rw [hputs.of_ne hne, hq]) hitem

theorem op_row_flags (op : Op) (w : WorkItem) : (op.row w).productionEffect = w.productionEffect ∧
    (op.row w).requiresHumanApproval = w.requiresHumanApproval := by
  cases op <;> exact ⟨rfl, rfl⟩

omit [DecidableEq ρ] in
/-- Where the statements stand after the next one, and what that one was. -/
theorem Stands.next {log : List (Done ρ)} {events : List Event} {r : ρ} {item : Uuid}
    {moved : Bool} {w : WorkItem} {op : Op} {rest : List Op}
    (h : Stands events item moved w.lifecycleState (op :: rest))
    (hmoved : moved = true → Moved log r item) (hmay : Permitted w (op :: rest))
    (hlinked : ∀ item, Linked events item) :
    (Done.mk r item op w).Lawful log ∧ (∀ item, Linked (events ++ op.events) item) ∧
    (∀ e ∈ op.events, e.workItemId = item) ∧
    ∃ moved', (moved' = true → Moved (log ++ [⟨r, item, op, w⟩]) r item) ∧
      Stands (events ++ op.events) item moved' (op.row w).lifecycleState rest := by
  have hstay : moved = true → Moved (log ++ [⟨r, item, op, w⟩]) r item := by
    intro hm
    rcases hmoved hm with ⟨m, hmem, hmoves⟩
    exact ⟨m, List.mem_append_left _ hmem, hmoves⟩
  have hflags := hmay op (List.mem_cons_self ..)
  have hsilent : ∀ e ∈ ([] : List Event), e.workItemId = item :=
    fun e he => absurd he List.not_mem_nil
  cases h with
  | settled hlast hsound =>
    cases hsound with
    | @hop _ _ nxt e rest hlegal hitem hfrom hto hrest =>
      have hquiet : events ++ (Op.setLifecycleState nxt).events = events := List.append_nil _
      rw [hquiet]
      refine ⟨⟨?_, nofun, nofun⟩, hlinked, hsilent, _, ?_, .unrecorded hitem hto ?_ hrest⟩
      · intro nxt' heq
        cases heq
        exact hlegal
      · -- the request has moved the item before, or does so now
        intro hm
        rw [Bool.or_eq_true, Bool.and_eq_true, beq_iff_eq, beq_iff_eq] at hm
        rcases hm with hm | ⟨hready, hdispatched⟩
        · exact hstay hm
        · refine ⟨⟨r, item, .setLifecycleState nxt, w⟩, by simp, rfl, rfl, ?_, hready⟩
          rw [hdispatched]
      · rw [hfrom]
        exact hlast
    | @assign _ _ agent rest hrest =>
      have hquiet : events ++ (Op.setAssignedAgent agent).events = events := List.append_nil _
      rw [hquiet]
      exact ⟨⟨nofun, nofun, nofun⟩, hlinked, hsilent, moved, hstay, .settled hlast hrest⟩
    | handOver hhands hrest =>
      have hevents : op.events = [] := by
        cases op <;> first | rfl | cases hhands
      have hrow : op.row w = w := by
        cases op <;> first | rfl | cases hhands
      rw [hevents, List.append_nil, hrow]
      refine ⟨⟨?_, fun _ => hmoved rfl, fun _ => hflags hhands⟩, hlinked, hsilent, true, hstay,
        .settled hlast hrest⟩
      rintro nxt rfl
      cases hhands
  | @unrecorded e rest hitem hto hlast hsound =>
    have hrow : (Op.recordEvent e).row w = w := rfl
    have hone : ∀ item', eventsOf [e] item' = if item = item' then [e] else [] := by
      intro item'
      unfold eventsOf
      rw [List.filter_singleton, hitem]
      simp
    refine ⟨⟨nofun, nofun, nofun⟩, ?_, ?_, moved, hstay, .settled ?_ hsound⟩
    · intro item'
      unfold Linked
      rw [eventsOf_append, show (Op.recordEvent e).events = [e] from rfl, hone]
      by_cases heq : item = item'
      · subst heq
        rw [if_pos rfl]
        refine List.IsChain.append (hlinked item) (List.isChain_singleton e) ?_
        intro x hx y hy
        rw [List.head?_cons, Option.mem_some_iff] at hy
        rw [← hy]
        exact (hlast x hx).symm
      · rw [if_neg heq, List.append_nil]
        exact hlinked item'
    · intro x hx
      rw [List.mem_singleton.mp hx]
      exact hitem
    · intro x hx
      rw [eventsOf_append, show (Op.recordEvent e).events = [e] from rfl, hone, if_pos rfl,
        List.getLast?_concat, Option.some.injEq] at hx
      rw [← hx]
      exact hto

/-- A request makes its next statement. -/
theorem Inv.perform {s : World ρ} (hs : Inv s) {r : ρ} {item : Uuid} {op : Op} {rest : List Op}
    {w : WorkItem} {busUp : Bool} (hr : s.requests.find? r = some ⟨item, op :: rest⟩)
    (hw : s.items.find? item = some w) :
    Inv (s.perform r ⟨item, op :: rest⟩ op rest w busUp) := by
  rcases hs.running r _ hr nofun with ⟨x, moved, hx, hmoved, hmay, hstands⟩
  have heq : x = w := Option.some.inj (hx.symm.trans hw)
  subst heq
  rcases hstands.next hmoved hmay hs.follows.linked with
    ⟨hlawful, hlinked, hown, moved', hmoved', hstands'⟩
  have hrequests := Table.puts_insert s.requests r ⟨item, rest⟩
  have hitems := Table.puts_insert s.items item (op.row x)
  have hother : ∀ r' q, r' ≠ r → s.requests.find? r' = some q → q.rest ≠ [] → q.item ≠ item := by
    intro r' q hne hq hrest hitem
    exact hne (hs.alone r' r q _ hq hr hrest nofun hitem)
  have hevents : ∀ item', item' ≠ item →
      eventsOf (s.events ++ op.events) item' = eventsOf s.events item' := by
    intro item' hne
    have hnone : eventsOf op.events item' = [] := by
      unfold eventsOf
      rw [List.filter_eq_nil_iff]
      intro e he hitem
      rw [beq_iff_eq, hown e he] at hitem
      exact hne hitem.symm
    rw [eventsOf_append, hnone, List.append_nil]
  refine ⟨⟨?_, hlinked⟩, ?_, ?_, ?_⟩
  · intro before d after hlog
    rcases List.eq_nil_or_concat after with rfl | ⟨after', d', rfl⟩
    · rcases List.append_inj' hlog rfl with ⟨hlog, hd⟩
      rw [← hlog, ← List.singleton_inj.mp hd]
      exact hlawful
    · rw [List.concat_eq_append, ← List.cons_append, ← List.append_assoc] at hlog
      exact hs.follows.lawful before d after' (List.append_inj' hlog rfl).1
  · intro r₁ r₂ q₁ q₂ hq₁ hq₂ hne₁ hne₂ hsame
    rcases hrequests.find hq₁ with ⟨rfl, rfl⟩ | ⟨hr₁, hold₁⟩
    · rcases hrequests.find hq₂ with ⟨rfl, rfl⟩ | ⟨hr₂, hold₂⟩
      · rfl
      · exact absurd hsame.symm (hother r₂ q₂ hr₂ hold₂ hne₂)
    · rcases hrequests.find hq₂ with ⟨rfl, rfl⟩ | ⟨hr₂, hold₂⟩
      · exact absurd hsame (hother r₁ q₁ hr₁ hold₁ hne₁)
      · exact hs.alone r₁ r₂ q₁ q₂ hold₁ hold₂ hne₁ hne₂ hsame
  · intro r' q hq hne
    rcases hrequests.find hq with ⟨rfl, rfl⟩ | ⟨hr', hold⟩
    · refine ⟨op.row x, moved', hitems.self, hmoved', ?_, hstands'⟩
      intro op' hop' hhands
      rw [(op_row_flags op x).1, (op_row_flags op x).2]
      exact hmay op' (List.mem_cons_of_mem _ hop') hhands
    · have hitem := hother r' q hr' hold hne
      refine (hs.running r' q hold hne).frame (hitems.of_ne hitem) (hevents q.item hitem) ?_
      exact fun d hd => List.mem_append_left _ hd
  · intro item' x' hx' hnone
    by_cases hitem : item' = item
    · -- the request is through with its statements
      subst hitem
      have hrest : rest = [] := hnone r _ hrequests.self rfl
      rw [Option.some.inj (hitems.self.symm.trans hx')] at hstands'
      cases hstands' with
      | settled hlast _ => exact hlast
      | unrecorded _ _ _ _ => cases hrest
    · have hold : s.items.find? item' = some x' := by
        rw [← hitems.of_ne hitem]
        exact hx'
      have hlast := hs.settled item' x' hold fun r' q hq hsame => by
        by_cases hr' : r' = r
        · subst hr'
          rw [← Option.some.inj (hr.symm.trans hq)] at hsame
          exact absurd hsame.symm hitem
        · exact hnone r' q (by rw [← hq]; exact hrequests.of_ne hr') hsame
      unfold LastAt
      rw [show (s.perform r ⟨item, op :: rest⟩ op rest x busUp).events = s.events ++ op.events from
        rfl, hevents item' hitem]
      exact hlast

/-- A request stops, but not between a hop and its event. -/
theorem Inv.stop {s : World ρ} (hs : Inv s) {r : ρ} {q : Request}
    (hr : s.requests.find? r = some q) (hhop : ∀ e rest, q.rest ≠ .recordEvent e :: rest) :
    Inv { s with requests := s.requests.insert r { q with rest := [] } } := by
  have hputs := Table.puts_insert s.requests r { q with rest := [] }
  have hold : ∀ {r' q'}, (s.requests.insert r { q with rest := [] }).find? r' = some q' →
      q'.rest ≠ [] → s.requests.find? r' = some q' := by
    intro r' q' hq' hne
    rcases hputs.find hq' with ⟨-, rfl⟩ | ⟨-, hq'⟩
    · exact absurd rfl hne
    · exact hq'
  refine ⟨⟨hs.follows.lawful, hs.follows.linked⟩, ?_, ?_, ?_⟩
  · intro r₁ r₂ q₁ q₂ hq₁ hq₂ hne₁ hne₂
    exact hs.alone r₁ r₂ q₁ q₂ (hold hq₁ hne₁) (hold hq₂ hne₂) hne₁ hne₂
  · intro r' q' hq' hne
    exact (hs.running r' q' (hold hq' hne) hne).frame rfl rfl fun _ hd => hd
  · intro item w hw hnone
    by_cases hmine : q.item = item ∧ q.rest ≠ []
    · rcases hs.running r q hr hmine.2 with ⟨x, moved, hx, -, -, hstands⟩
      rw [hmine.1] at hx hstands
      rw [← Option.some.inj (hx.symm.trans hw)]
      generalize hrest : q.rest = rest at hstands
      cases hstands with
      | settled hlast _ => exact hlast
      | unrecorded _ _ _ _ => exact absurd hrest (hhop _ _)
    · refine hs.settled item w hw fun r' q' hq' hitem => ?_
      by_cases hr' : r' = r
      · subst hr'
        have heq : q = q' := Option.some.inj (hr.symm.trans hq')
        subst heq
        by_contra hne
        exact hmine ⟨hitem, hne⟩
      · exact hnone r' q' (by rw [← hq']; exact hputs.of_ne hr') hitem

/-- **The step lemma.** -/
theorem step_inv {s t : World ρ} {a : Act ρ} (hs : Inv s) (hok : orderly projectKey s a = true)
    (h : step projectKey s a = some t) : Inv t := by
  cases a with
  | start r a =>
    unfold step at h
    cases hr : s.requests.find? r with
    | some q => simp [hr] at h
    | none =>
      simp only [hr, Option.some.injEq] at h
      unfold orderly at hok
      rw [Bool.and_eq_true, Bool.not_eq_true'] at hok
      subst h
      refine hs.start hr hok.1 ?_
      cases hw : s.items.find? a.item with
      | none => exact fun hne => absurd rfl hne
      | some w =>
        cases hkey : projectKey w.projectId with
        | none => simp [hkey]
        | some key =>
          have hmay : a.dispatches w key = true →
              w.lifecycleState ∈ dispatchable ∧ w.requiresHumanApproval = false := by
            intro hdispatches
            simpa [hw, hkey, hdispatches] using hok.2
          intro _
          refine ⟨w, rfl, ?_⟩
          simp only [hkey]
          exact sound_dispatchWorkItem hmay
  | run r busUp =>
    unfold step at h
    cases hr : s.requests.find? r with
    | none => simp [hr] at h
    | some q =>
      rcases q with ⟨item, ops⟩
      cases ops with
      | nil => simp [hr] at h
      | cons op rest =>
        cases hw : s.items.find? item with
        | none => simp [hr, hw] at h
        | some w =>
          simp only [hr, hw, Option.some.injEq] at h
          rw [← h]
          exact hs.perform hr hw
  | stop r =>
    unfold step at h
    cases hr : s.requests.find? r with
    | none => simp [hr] at h
    | some q =>
      simp only [hr, Option.some.injEq] at h
      rw [← h]
      refine hs.stop hr fun e rest hrest => ?_
      simp [orderly, hr, hrest] at hok

/-! ## Runs -/

/-- No request has come in; the events are linked, and the last event of an item left it where
it is. -/
structure Initial (s : World ρ) : Prop where
  idle : ∀ r, s.requests.find? r = none
  silent : s.log = []
  linked : ∀ item, Linked s.events item
  recorded : ∀ item w, s.items.find? item = some w →
    LastAt s.events item (some w.lifecycleState)

theorem Initial.inv {s : World ρ} (h : Initial s) : Inv s where
  follows :=
    { linked := h.linked
      lawful := by
        intro before d after hlog
        rw [h.silent] at hlog
        simp at hlog }
  alone := by
    intro r r' q q' hq
    rw [h.idle r] at hq
    cases hq
  running := by
    intro r q hq
    rw [h.idle r] at hq
    cases hq
  settled := fun item w hw _ => h.recorded item w hw

def pilot : WorkItem :=
  { projectId := ⟨1⟩
    workItemKey := "WI-0001"
    workType := some "backend"
    lifecycleState := .created }

/-- The item as it was created, with its event. -/
def pilotWorld : World Nat where
  items := Table.empty.insert ⟨2⟩ pilot
  events := [⟨⟨1⟩, ⟨2⟩, .workItemCreated, none, some .created, "olga", "operator", "new", ⟨2⟩⟩]
  dispatches := []
  published := []
  requests := .empty
  log := []

def pilotKey : Uuid → Option String := fun _ => some "PRJ-1"

/-- Request `r` comes in and makes its nine statements. -/
def wholeRequest (r : Nat) : List (Act Nat) :=
  .start r ⟨⟨2⟩, "olga", "operator", "go", "DSP-1"⟩ :: List.replicate 9 (.run r true)

/-- A second request finds the item dispatched and only hands it over. -/
def secondRequest : List (Act Nat) :=
  .start 2 ⟨⟨2⟩, "olga", "operator", "again", "DSP-2"⟩ :: List.replicate 3 (.run 2 true)

theorem initial_pilotWorld : Initial pilotWorld where
  idle := fun _ => rfl
  silent := rfl
  linked := by
    intro item
    unfold Linked eventsOf
    by_cases h : item = ⟨2⟩
    · subst h
      exact List.isChain_singleton _
    · have hno : (⟨2⟩ : Uuid) ≠ item := fun heq => h heq.symm
      simp [pilotWorld, hno]
  recorded := by
    intro item w hw
    have hputs : (Table.empty : Table Uuid WorkItem).Puts pilotWorld.items ⟨2⟩ pilot :=
      Table.puts_insert _ _ _
    rcases hputs.find hw with ⟨rfl, rfl⟩ | ⟨-, hw⟩
    · intro e he
      rw [← Option.some.inj he]
      rfl
    · cases hw

end AiAgentsSwd.Delivery
