import AiAgentsSwd.Planning.PlanningSpec

/-!
# Planning.Frames — how the invariant is kept piece by piece

- `SameShape`: no identity, edge or graph changed, so `Shape` and `Lineage` hold as before;
- `Gate.of_sameShape`: the gate only looks at which units are blocked and completed;
- `UnitMoves`: one unit changed its state together with its mirror, and what then keeps
  the books.
-/

namespace AiAgentsSwd.Planning

open Keyed (Table Evolves)

/-! ## Frames -/

/-- Nothing structural changed. -/
structure SameShape (s t : Db) : Prop where
  goals : t.goals = s.goals
  revisions : t.planRevisions = s.planRevisions
  lineages : t.goalExecutionLineage = s.goalExecutionLineage
  graphs : t.planExecutionGraphs = s.planExecutionGraphs
  edges : t.workItemDependencies = s.workItemDependencies
  units : ∀ u, (t.planExecutionUnits.find? u).map ExecutionUnit.identity =
    (s.planExecutionUnits.find? u).map ExecutionUnit.identity
  items : ∀ w, (t.projectWorkItems.find? w).isSome = (s.projectWorkItems.find? w).isSome
  routing : ∀ rec ∈ t.agentRoutingDecisions, rec ∈ s.agentRoutingDecisions ∨
    ∃ u x, s.planExecutionUnits.find? u = some x ∧ rec.workItemId = some x.workItemId

namespace SameShape

variable {s t : Db}

theorem refl (s : Db) : SameShape s s :=
  ⟨rfl, rfl, rfl, rfl, rfl, fun _ => rfl, fun _ => rfl, fun _ h => Or.inl h⟩

/-- A unit of the new state is one of the old. -/
theorem unit_back (h : SameShape s t) {u : Uuid} {y : ExecutionUnit}
    (hy : t.planExecutionUnits.find? u = some y) :
    ∃ x, s.planExecutionUnits.find? u = some x ∧ y.identity = x.identity := by
  have hu := h.units u
  rw [hy] at hu
  cases hx : s.planExecutionUnits.find? u with
  | none => simp [hx] at hu
  | some x => exact ⟨x, rfl, by simpa [hx] using hu⟩

/-- A unit of the old state is one of the new. -/
theorem unit_forth (h : SameShape s t) {u : Uuid} {x : ExecutionUnit}
    (hx : s.planExecutionUnits.find? u = some x) :
    ∃ y, t.planExecutionUnits.find? u = some y ∧ y.identity = x.identity := by
  have hu := h.units u
  rw [hx] at hu
  cases hy : t.planExecutionUnits.find? u with
  | none => simp [hy] at hu
  | some y => exact ⟨y, rfl, by simpa [hy] using hu⟩

theorem trans {u : Db} (h : SameShape s t) (h' : SameShape t u) : SameShape s u where
  goals := h'.goals.trans h.goals
  revisions := h'.revisions.trans h.revisions
  lineages := h'.lineages.trans h.lineages
  graphs := h'.graphs.trans h.graphs
  edges := h'.edges.trans h.edges
  units := fun v => (h'.units v).trans (h.units v)
  items := fun w => (h'.items w).trans (h.items w)
  routing := by
    intro rec hrec
    rcases h'.routing rec hrec with hrec | ⟨v, y, hy, hw⟩
    · exact h.routing rec hrec
    · rcases h.unit_back hy with ⟨x, hx, hid⟩
      have hitem : y.workItemId = x.workItemId := congrArg UnitIdentity.workItemId hid
      exact Or.inr ⟨v, x, hx, hitem ▸ hw⟩

theorem dependsOn (h : SameShape s t) (w d : Uuid) : t.DependsOn w d ↔ s.DependsOn w d := by
  unfold Db.DependsOn
  rw [h.edges]

/-- The step keys of a graph's units are as they were, up to order. -/
theorem stepKeys (h : SameShape s t) (r : Uuid) :
    ((t.unitsOf r).map fun e => e.2.stepKey).Perm ((s.unitsOf r).map fun e => e.2.stepKey) := by
  -- the rows agree as sets of key and identity
  have hperm : (t.planExecutionUnits.rows.map fun e => (e.1, e.2.identity)).Perm
      (s.planExecutionUnits.rows.map fun e => (e.1, e.2.identity)) := by
    have hnodup : ∀ db : Db,
        (db.planExecutionUnits.rows.map fun e => (e.1, e.2.identity)).Nodup := by
      intro db
      apply List.Nodup.of_map Prod.fst
      rw [List.map_map]
      exact db.planExecutionUnits.nodup_keys
    rw [List.perm_ext_iff_of_nodup (hnodup t) (hnodup s)]
    rintro ⟨u, i⟩
    simp only [List.mem_map, Prod.mk.injEq, Prod.exists]
    constructor
    · rintro ⟨_, y, hy, rfl, rfl⟩
      rcases h.unit_back (Table.mem_rows.mp hy) with ⟨x, hx, hid⟩
      exact ⟨_, x, Table.mem_rows.mpr hx, rfl, hid.symm⟩
    · rintro ⟨_, x, hx, rfl, rfl⟩
      rcases h.unit_forth (Table.mem_rows.mp hx) with ⟨y, hy, hid⟩
      exact ⟨_, y, Table.mem_rows.mpr hy, rfl, hid⟩
  have hread : ∀ db : Db, (db.unitsOf r).map (fun e => e.2.stepKey) =
      ((db.planExecutionUnits.rows.map fun e => (e.1, e.2.identity)).filter
        fun e => e.2.planRevisionId = r).map fun e => e.2.stepKey := by
    intro db
    rw [Db.unitsOf, List.filter_map, List.map_map]
    rfl
  rw [hread, hread]
  exact (hperm.filter _).map _

theorem shape (h : SameShape s t) (hs : Shape s) : Shape t where
  item := by
    intro u y hy
    rcases h.unit_back hy with ⟨x, hx, hid⟩
    have hw : y.workItemId = x.workItemId := congrArg UnitIdentity.workItemId hid
    rw [h.items, hw]
    exact hs.item u x hx
  item_inj := by
    intro u v y y' hy hy' heq
    rcases h.unit_back hy with ⟨x, hx, hid⟩
    rcases h.unit_back hy' with ⟨x', hx', hid'⟩
    have hw : y.workItemId = x.workItemId := congrArg UnitIdentity.workItemId hid
    have hw' : y'.workItemId = x'.workItemId := congrArg UnitIdentity.workItemId hid'
    exact hs.item_inj u v x x' hx hx' (by rw [← hw, ← hw', heq])
  edge_items := by
    intro w d hd
    rw [h.items, h.items]
    exact hs.edge_items w d ((h.dependsOn w d).mp hd)
  edge_unit := by
    intro u y d hy hd
    rcases h.unit_back hy with ⟨x, hx, hid⟩
    have hw : y.workItemId = x.workItemId := congrArg UnitIdentity.workItemId hid
    have hr : y.planRevisionId = x.planRevisionId := congrArg UnitIdentity.planRevisionId hid
    rcases hs.edge_unit u x d hx (hw ▸ (h.dependsOn _ _).mp hd) with ⟨v, z, hz, hzw, hzr⟩
    rcases h.unit_forth hz with ⟨z', hz', hid'⟩
    have hw' : z'.workItemId = z.workItemId := congrArg UnitIdentity.workItemId hid'
    have hr' : z'.planRevisionId = z.planRevisionId := congrArg UnitIdentity.planRevisionId hid'
    exact ⟨v, z', hz', hw'.trans hzw, by rw [hr', hzr, hr]⟩
  acyclic := by
    rcases hs.acyclic with ⟨rank, hrank⟩
    refine ⟨rank, fun u y d hy hd => ?_⟩
    rcases h.unit_back hy with ⟨x, hx, hid⟩
    have hw : y.workItemId = x.workItemId := congrArg UnitIdentity.workItemId hid
    rw [hw] at hd ⊢
    exact hrank u x d hx ((h.dependsOn _ _).mp hd)
  graph := by
    intro u y hy
    rcases h.unit_back hy with ⟨x, hx, hid⟩
    have hr : y.planRevisionId = x.planRevisionId := congrArg UnitIdentity.planRevisionId hid
    have hg : y.goalId = x.goalId := congrArg UnitIdentity.goalId hid
    rw [h.graphs, hr, hg]
    exact hs.graph u x hx
  materialized := by
    intro r g hg
    rw [h.graphs] at hg
    rcases hs.materialized r g hg with ⟨rev, plan, hrev, hgoal, hst, hplan, hcount, hperm⟩
    exact ⟨rev, plan, by rw [h.revisions, hrev], hgoal, hst, hplan, hcount,
      (h.stepKeys r).trans hperm⟩
  lineage := by
    intro r g hg
    rw [h.graphs] at hg
    rw [h.lineages]
    exact hs.lineage r g hg
  lineage_item := by
    intro g x hx
    rw [h.lineages] at hx
    rw [h.items]
    exact hs.lineage_item g x hx
  lineage_goal := by
    intro g x hx
    rw [h.lineages] at hx
    rw [h.goals]
    exact hs.lineage_goal g x hx
  routing_items := by
    intro rec hrec w hw
    rw [h.items]
    rcases h.routing rec hrec with hrec | ⟨u, x, hx, hxw⟩
    · exact hs.routing_items rec hrec w hw
    · rw [hxw] at hw
      cases hw
      exact hs.item u x hx

theorem lineage (h : SameShape s t) (hl : Lineage s) : Lineage t :=
  hl.of_same h.goals (fun r x hx => ⟨x, by rw [h.revisions, hx], .refl x⟩)
    (fun r y hy => ⟨y, by rw [← h.revisions, hy], .refl y⟩)

end SameShape

/-- The gate only looks at which units are blocked and which are completed. -/
theorem Gate.of_sameShape {s t : Db} (hg : Gate s) (h : SameShape s t)
    (hstate : ∀ u x y, s.planExecutionUnits.find? u = some x →
      t.planExecutionUnits.find? u = some y →
      (y.state = .blocked ↔ x.state = .blocked) ∧ (y.state = .completed ↔ x.state = .completed)) :
    Gate t := by
  have hdone : ∀ d, t.CompletedItem d ↔ s.CompletedItem d := by
    intro d
    constructor
    · rintro ⟨v, y, hy, hw, hc⟩
      rcases h.unit_back hy with ⟨x, hx, hid⟩
      have hw' : y.workItemId = x.workItemId := congrArg UnitIdentity.workItemId hid
      exact ⟨v, x, hx, hw' ▸ hw, (hstate v x y hx hy).2.mp hc⟩
    · rintro ⟨v, x, hx, hw, hc⟩
      rcases h.unit_forth hx with ⟨y, hy, hid⟩
      have hw' : y.workItemId = x.workItemId := congrArg UnitIdentity.workItemId hid
      exact ⟨v, y, hy, hw'.trans hw, (hstate v x y hx hy).2.mpr hc⟩
  intro u y hy
  rcases h.unit_back hy with ⟨x, hx, hid⟩
  have hw : y.workItemId = x.workItemId := congrArg UnitIdentity.workItemId hid
  rw [(hstate u x y hx hy).1, hg u x hx, hw]
  unfold Db.Unlocked
  simp only [h.dependsOn, hdone]

/-- One unit changes its row and its mirror; dispatches and routing decisions are the
caller's to describe. -/
structure UnitMoves (s t : Db) (u : Uuid) (x y : ExecutionUnit) : Prop where
  row : s.planExecutionUnits.find? u = some x
  identity : y.identity = x.identity
  units : ∀ v, t.planExecutionUnits.find? v = if v = u then some y else s.planExecutionUnits.find? v
  mirror : ∀ i, t.projectWorkItems.find? x.workItemId = some i →
    i.status = workItemStatusFor y.state
  items : ∀ w, w ≠ x.workItemId → t.projectWorkItems.find? w = s.projectWorkItems.find? w

theorem UnitMoves.books {s t : Db} {u : Uuid} {x y : ExecutionUnit} (h : UnitMoves s t u x y)
    (hs : Shape s) (hb : Books s) (hlive : y.state ≠ .cancelled)
    (howned : y.state.unowned = false →
      ∃ p st, y.assignedPrincipalId = some p ∧ y.assignedStream = some st)
    (hdother : ∀ v, v ≠ u →
      t.planExecutionDispatches.find? v = s.planExecutionDispatches.find? v)
    (hd : ∀ d, t.planExecutionDispatches.find? u = some d → y.state.handedOver ∧ d.Of y)
    (hdex : y.state.handedOver → ∃ d, t.planExecutionDispatches.find? u = some d)
    (hrother : ∀ w, w ≠ x.workItemId → t.selectedDecisions w = s.selectedDecisions w)
    (hunrouted : y.state.unowned → t.selectedDecisions x.workItemId = [])
    (hrouted : y.state.unowned = false → ∃ rec, t.selectedDecisions x.workItemId = [rec] ∧
      y.routingDecisionId = some rec.routingDecisionId) : Books t := by
  have hw : y.workItemId = x.workItemId := congrArg UnitIdentity.workItemId h.identity
  -- a unit of the new state is the moved one or an old one on another work item
  have hcase : ∀ v z, t.planExecutionUnits.find? v = some z →
      (v = u ∧ z = y) ∨
        (v ≠ u ∧ s.planExecutionUnits.find? v = some z ∧ z.workItemId ≠ x.workItemId) := by
    intro v z hz
    rw [h.units] at hz
    by_cases hv : v = u
    · rw [if_pos hv] at hz
      cases hz
      exact Or.inl ⟨hv, rfl⟩
    · rw [if_neg hv] at hz
      refine Or.inr ⟨hv, hz, fun heq => hv ?_⟩
      exact hs.item_inj v u z x hz h.row heq
  refine ⟨?_, ?_, ?_, ?_, ?_, ?_, ?_⟩
  · intro v z i hz hi
    rcases hcase v z hz with ⟨rfl, rfl⟩ | ⟨-, hz, hne⟩
    · rw [hw] at hi
      exact h.mirror i hi
    · rw [h.items _ hne] at hi
      exact hb.mirrored v z i hz hi
  · intro v z hz
    rcases hcase v z hz with ⟨rfl, rfl⟩ | ⟨-, hz, -⟩
    · exact hlive
    · exact hb.live v z hz
  · intro v z hz hun
    rcases hcase v z hz with ⟨rfl, rfl⟩ | ⟨-, hz, -⟩
    · exact howned hun
    · exact hb.owned v z hz hun
  · intro v d hdv
    by_cases hv : v = u
    · subst hv
      exact ⟨y, by rw [h.units, if_pos rfl], hd d hdv⟩
    · rw [hdother v hv] at hdv
      rcases hb.dispatch_unit v d hdv with ⟨z, hz, hh, hof⟩
      exact ⟨z, by rw [h.units, if_neg hv, hz], hh, hof⟩
  · intro v z hz hh
    rcases hcase v z hz with ⟨rfl, rfl⟩ | ⟨hv, hz, -⟩
    · exact hdex hh
    · rw [hdother v hv]
      exact hb.unit_dispatch v z hz hh
  · intro v z hz hun
    rcases hcase v z hz with ⟨rfl, rfl⟩ | ⟨-, hz, hne⟩
    · rw [hw]
      exact hunrouted hun
    · rw [hrother _ hne]
      exact hb.unrouted v z hz hun
  · intro v z hz hun
    rcases hcase v z hz with ⟨rfl, rfl⟩ | ⟨-, hz, hne⟩
    · rw [hw]
      exact hrouted hun
    · rw [hrother _ hne]
      exact hb.routed v z hz hun

end AiAgentsSwd.Planning
