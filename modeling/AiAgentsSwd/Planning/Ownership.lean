import AiAgentsSwd.Planning.Runs

/-!
# Planning.Ownership — one owner and one dispatch per execution unit

`one_owner_one_dispatch`: in every interleaving, a unit has at most one selected routing
decision, one dispatch row that exists exactly once it was handed over, one publication,
and one terminal state; its work item shows its state throughout.

Two switches of a unit are thrown at most once along a run, its dispatch row appearing and
`published_at` being set. `marksPublished_eq` says that only a `mark_dispatch_published`
that returns true throws the second one.
-/

namespace AiAgentsSwd.Planning

open Keyed (Table Evolves)
open ReadCommitted ReadCommitted.Txn

/-! ## Switches -/

/-- The unit has a dispatch row. -/
def Db.hasDispatch (s : Db) (u : Uuid) : Bool := (s.planExecutionDispatches.find? u).isSome

/-- The unit's dispatch row is published. -/
def Db.isPublished (s : Db) (u : Uuid) : Bool :=
  (s.planExecutionDispatches.find? u).any fun d => d.publishedAt.isSome

theorem Guarantee.hasDispatch {l : List RowKey} {s t : Db} (h : Guarantee l s t) {u : Uuid}
    (hs : s.hasDispatch u = true) : t.hasDispatch u = true := by
  rcases Option.isSome_iff_exists.mp hs with ⟨d, hd⟩
  rcases h.dispatches.find_same hd with ⟨e, he, -⟩
  exact Option.isSome_iff_exists.mpr ⟨e, he⟩

theorem Guarantee.isPublished {l : List RowKey} {s t : Db} (h : Guarantee l s t) {u : Uuid}
    (hs : s.isPublished u = true) : t.isPublished u = true := by
  rcases (Option.any_eq_true _ _).mp hs with ⟨d, hd, hp⟩
  rcases h.dispatches.find_same hd with ⟨e, he, p, rfl, hkeep⟩
  have hne : d.publishedAt ≠ none := Option.isSome_iff_ne_none.mp hp
  have hsome : p.isSome := by
    rw [hkeep hne]
    exact hp
  exact (Option.any_eq_true _ _).mpr ⟨_, he, hsome⟩

/-- The commit creates the unit's dispatch row. -/
def CreatesDispatch (u : Uuid) (m : Commit Db Reply Call) : Bool :=
  !m.before.hasDispatch u && m.after.hasDispatch u

/-- The commit is a `mark_dispatch_published` of the unit that returned true. -/
def MarksPublished (u : Uuid) (m : Commit Db Reply Call) : Bool :=
  match m.call, m.reply with
  | .markDispatchPublished v _, .published moved => v = u ∧ moved
  | _, _ => false

/-- Every call but `mark_dispatch_published` leaves the existing dispatches alone and
inserts unpublished ones. -/
theorem exec_program_isPublished {c : Call} {s : Db} {o : Outcome Db RowKey Reply} (hinv : Inv s)
    (h : exec (program c) s = .ok o) (hc : ∀ v now, c ≠ .markDispatchPublished v now)
    (u : Uuid) : o.state.isPublished u = s.isPublished u := by
  have same : o.state.planExecutionDispatches = s.planExecutionDispatches →
      o.state.isPublished u = s.isPublished u := by
    intro heq
    unfold Db.isPublished
    rw [heq]
  cases c with
  | createGoal g d =>
    rcases exec_bind_ok.mp h with ⟨o₁, _, h₁, h₂, rfl⟩
    cases h₂
    apply same
    rw [(exec_createGoal h₁).2.1]
  | createInitialRevision r d =>
    rcases exec_bind_ok.mp h with ⟨o₁, _, h₁, h₂, rfl⟩
    cases h₂
    apply same
    rw [(exec_createInitialRevision h₁).1.state]
  | createSuccessorRevision r d =>
    rcases exec_bind_ok.mp h with ⟨o₁, _, h₁, h₂, rfl⟩
    cases h₂
    apply same
    rw [(exec_createSuccessorRevision hinv.revisions h₁).1.state]
  | acceptRevision r =>
    rcases exec_bind_ok.mp h with ⟨o₁, _, h₁, h₂, rfl⟩
    cases h₂
    apply same
    rcases exec_acceptRevision h₁ with hs | ⟨row, -, -, rfl⟩
    · rw [hs]
    · rfl
  | materialize g r b ids =>
    rcases exec_bind_ok.mp h with ⟨o₁, _, h₁, h₂, rfl⟩
    cases h₂
    apply same
    rcases exec_materialize h₁ with ⟨m, plan, -, -, -, hm, -⟩
    rcases hm.state with ⟨W, L, U, new, b, hs, -⟩
    rw [hs]
  | readGraph r =>
    rcases exec_bind_ok.mp h with ⟨o₁, _, h₁, h₂, rfl⟩
    cases h₂
    apply same
    rw [exec_readGraph h₁]
  | applyAssignment v d a i now =>
    rcases exec_bind_ok.mp h with ⟨o₁, _, h₁, h₂, rfl⟩
    cases h₂
    apply same
    rcases exec_applyAssignment h₁ with ⟨z, -, -, -, ⟨-, -, hs⟩ | ⟨-, -, hs⟩ |
      ⟨-, -, -, p, st, -, hs⟩⟩ <;> rw [hs] <;> rfl
  | createDispatch v a c now =>
    rcases exec_bind_ok.mp h with ⟨o₁, _, h₁, h₂, rfl⟩
    cases h₂
    rcases exec_createDispatch h₁ with ⟨z, -, -, -, ⟨-, hs, -⟩ |
      ⟨-, hnone, -, -, p, st, E, -, -, -, hs⟩⟩
    · exact same (by rw [hs])
    · rw [hs]
      unfold Db.isPublished
      by_cases hu : u = v
      · -- the new row starts unpublished
        subst hu
        have hnew : (s.planExecutionDispatches.insert u (dispatchRow z p st c a)).find? u =
            some (dispatchRow z p st c a) := Table.find?_insert_self _ _ _
        simp only [hnew, hnone, Option.any_some, Option.any_none]
        rfl
      · rw [show _ from Table.find?_insert_of_ne s.planExecutionDispatches _ hu]
  | markDispatchPublished v now => exact absurd rfl (hc v now)
  | recordResult v d ref now =>
    rcases exec_bind_ok.mp h with ⟨o₁, _, h₁, h₂, rfl⟩
    cases h₂
    apply same
    rcases exec_recordResult hinv.shape hinv.books h₁ with ⟨z, -, -, -, ⟨-, -, hs⟩ |
      ⟨-, -, -, E, cs, hp, -, -⟩⟩
    · rw [hs]
    · rcases hp.state with ⟨U, W, hs⟩
      rw [hs]
      rfl
  | setLifecycleState w st now =>
    rcases exec_bind_ok.mp h with ⟨o₁, _, h₁, h₂, rfl⟩
    cases h₂
    rw [exec_setLifecycleState] at h₁
    apply same
    rw [h₁]

/-- A run alone throws the publication switch exactly when it is a `mark_dispatch_published`
that returned true. -/
theorem exec_marksPublished {c : Call} {s : Db} {o : Outcome Db RowKey Reply} (hinv : Inv s)
    (h : exec (program c) s = .ok o) (u : Uuid) :
    MarksPublished u ⟨c, o.value, s, o.state⟩ = (!s.isPublished u && o.state.isPublished u) := by
  by_cases hc : ∃ v now, c = .markDispatchPublished v now
  · rcases hc with ⟨v, now, rfl⟩
    rcases exec_bind_ok.mp h with ⟨o₁, _, h₁, h₂, rfl⟩
    cases h₂
    rcases exec_markDispatchPublished.mp h₁ with ⟨d, hd, hp, rfl⟩ | ⟨-, rfl⟩
    · by_cases hv : v = u
      · subst hv
        simp [MarksPublished, Db.isPublished, hd, hp]
      · have hne : u ≠ v := fun h => hv h.symm
        simp [MarksPublished, Db.isPublished, hv, Table.find?_modify_of_ne _ _ hne]
    · simp [MarksPublished]
  · have hother : ∀ v now, c ≠ .markDispatchPublished v now :=
      fun v now heq => hc ⟨v, now, heq⟩
    have hmark : MarksPublished u ⟨c, o.value, s, o.state⟩ = false := by
      unfold MarksPublished
      split
      · rename_i v now moved hcall hreply
        exact absurd hcall (hother v now)
      · rfl
    rw [hmark, exec_program_isPublished hinv h hother u]
    simp

theorem marksPublished_eq {m : Commit Db Reply Call} (hb : Inv m.before)
    (hm : m.Serial program Quiet) (u : Uuid) :
    MarksPublished u m = (!m.before.isPublished u && m.after.isPublished u) := by
  rcases hm with ⟨hq, heq⟩ | ⟨l, hl⟩
  · -- a reply over a commit that wrote nothing never says that it moved the row
    have hmark : MarksPublished u m = false := by
      unfold MarksPublished
      split
      · rename_i v now moved hcall hreply
        rw [hreply] at hq
        have hmoved : moved = false := hq
        simp [hmoved]
      · rfl
    rw [hmark, heq]
    simp
  · exact exec_marksPublished hb hl u

/-! ## The unit of every interleaving -/

/-- How the tables agree on a unit. -/
structure Db.SingleOwner (s : Db) (u : Uuid) (x : ExecutionUnit) : Prop where
  selected : (s.selectedDecisions x.workItemId).length ≤ 1
  dispatch_iff : (∃ d, s.planExecutionDispatches.find? u = some d) ↔
    x.state = .dispatched ∨ x.state = .completed ∨ x.state = .failed
  dispatch_of : ∀ d, s.planExecutionDispatches.find? u = some d →
    x.assignedPrincipalId = some d.assignedPrincipalId ∧
      x.assignedStream = some d.targetStream ∧ x.routingDecisionId = d.routingDecisionId
  mirrored : ∃ w, s.projectWorkItems.find? x.workItemId = some w ∧
    w.status = workItemStatusFor x.state

theorem UnitState.handedOver_iff {st : UnitState} :
    st.handedOver = true ↔ st = .dispatched ∨ st = .completed ∨ st = .failed := by
  cases st <;> simp [UnitState.handedOver]

theorem Inv.singleOwner {s : Db} (h : Inv s) {u : Uuid} {x : ExecutionUnit}
    (hx : s.planExecutionUnits.find? u = some x) : s.SingleOwner u x where
  selected := by
    cases ho : x.state.unowned with
    | true =>
      rw [h.books.unrouted u x hx ho]
      exact Nat.zero_le 1
    | false =>
      rcases h.books.routed u x hx ho with ⟨rec, heq, -⟩
      rw [heq, List.length_singleton]
  dispatch_iff := by
    rw [← UnitState.handedOver_iff]
    constructor
    · rintro ⟨d, hd⟩
      rcases h.books.dispatch_unit u d hd with ⟨z, hz, hh, -⟩
      rw [hx] at hz
      cases hz
      exact hh
    · exact h.books.unit_dispatch u x hx
  dispatch_of := by
    intro d hd
    rcases h.books.dispatch_unit u d hd with ⟨z, hz, -, hof⟩
    rw [hx] at hz
    cases hz
    exact hof
  mirrored := by
    rcases Option.isSome_iff_exists.mp (h.shape.item u x hx) with ⟨w, hw⟩
    exact ⟨w, hw, h.books.mirrored u x w hx hw⟩

/-- In every interleaving: the tables agree on every unit; its dispatch row is created by
exactly one commit once it exists; exactly one `mark_dispatch_published` has returned true
once the row is published; and no commit forgets a routing decision, unsets or changes
`published_at`, or touches a completed or failed unit. -/
theorem one_owner_one_dispatch {ι : Type} [DecidableEq ι] {y : PlanSys ι}
    (hy : PlanReachable y) :
    (∀ u x, y.db.planExecutionUnits.find? u = some x → y.db.SingleOwner u x) ∧
    (∀ u, y.log.countP (CreatesDispatch u) = (y.db.hasDispatch u).toNat) ∧
    (∀ u, y.log.countP (MarksPublished u) = (y.db.isPublished u).toNat) ∧
    ∀ m ∈ y.log,
      m.before.agentRoutingDecisions <+: m.after.agentRoutingDecisions ∧
      (∀ u d, m.before.planExecutionDispatches.find? u = some d →
        ∃ p, m.after.planExecutionDispatches.find? u = some { d with publishedAt := p } ∧
          (d.publishedAt ≠ none → p = d.publishedAt)) ∧
      ∀ u x, m.before.planExecutionUnits.find? u = some x →
        x.state = .completed ∨ x.state = .failed →
        m.after.planExecutionUnits.find? u = some x := by
  rcases planning_serial hy with ⟨s, hs, hinv, hh⟩
  have hcommit : ∀ m ∈ y.log, ∃ l, Guarantee l m.before m.after := by
    intro m hm
    rcases commit_of_mem hy hm with ⟨hb, hser⟩
    exact (commit_guarantee hser hb).2
  refine ⟨fun u x hx => hinv.singleOwner hx, fun u => ?_, fun u => ?_, fun m hm => ?_⟩
  · apply hh.countP_switch (p := fun s => s.hasDispatch u)
    · intro m hm hb
      rcases hcommit m hm with ⟨l, hg⟩
      exact hg.hasDispatch hb
    · simp [Db.hasDispatch, hs.planExecutionDispatches]
  · have hswitch : y.log.countP (fun m => !m.before.isPublished u && m.after.isPublished u) =
        (y.db.isPublished u).toNat := by
      apply hh.countP_switch (p := fun s => s.isPublished u)
      · intro m hm hb
        rcases hcommit m hm with ⟨l, hg⟩
        exact hg.isPublished hb
      · simp [Db.isPublished, hs.planExecutionDispatches]
    rw [← hswitch]
    apply List.countP_congr
    intro m hm
    rcases commit_of_mem hy hm with ⟨hb, hser⟩
    rw [marksPublished_eq hb hser u]
  · rcases hcommit m hm with ⟨l, hg⟩
    refine ⟨hg.routing, fun u d hd => ?_, fun u x hx hterm => ?_⟩
    · rcases hg.dispatches.find_same hd with ⟨e, he, p, rfl, hkeep⟩
      exact ⟨p, he, hkeep⟩
    · rcases hg.units.find_same hx with ⟨z, hz, -, hsame⟩
      rw [hsame hterm] at hz
      exact hz

/-- The first step of the sample plan after its result: assigned, dispatched and published
once. -/
theorem one_owner_one_dispatch_fanIn :
    (∃ x, (fanIn 8).db.planExecutionUnits.find? ⟨31⟩ = some x ∧ x.state = .completed ∧
      (fanIn 8).db.SingleOwner ⟨31⟩ x) ∧
    (fanIn 8).log.countP (CreatesDispatch ⟨31⟩) = 1 ∧
    (fanIn 8).log.countP (MarksPublished ⟨31⟩) = 1 := by
  have h := one_owner_one_dispatch (reachable_fanIn 8)
  have hstate : ((fanIn 8).db.planExecutionUnits.find? ⟨31⟩).any
      (fun x => x.state = .completed) := by decide +kernel
  have hdispatch : (fanIn 8).db.hasDispatch ⟨31⟩ = true := by decide +kernel
  have hpublished : (fanIn 8).db.isPublished ⟨31⟩ = true := by decide +kernel
  rcases (Option.any_eq_true _ _).mp hstate with ⟨x, hx, hc⟩
  refine ⟨⟨x, hx, of_decide_eq_true hc, h.1 _ x hx⟩, ?_, ?_⟩
  · rw [h.2.1 ⟨31⟩, hdispatch]
    rfl
  · rw [h.2.2.1 ⟨31⟩, hpublished]
    rfl

end AiAgentsSwd.Planning
