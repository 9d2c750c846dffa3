import AiAgentsSwd.Planning.Runs

/-!
# Planning.Dependencies — dependency safety and no lost unblock

`dependency_safety` reads the gate of `Planning.Invariant` unit by unit: in every committed
database of every interleaving, a unit that left `blocked` has all its dependencies
completed, and a unit that is still `blocked` has one that is not.
-/

namespace AiAgentsSwd.Planning

/-- The unit `v`, with row `z`, is a dependency of the unit with row `x`. -/
def Db.DependencyUnit (s : Db) (x : ExecutionUnit) (v : Uuid) (z : ExecutionUnit) : Prop :=
  s.planExecutionUnits.find? v = some z ∧ s.DependsOn x.workItemId z.workItemId

/-- Every edge out of a unit leads to exactly one unit, which is of the same revision. -/
theorem Shape.dependencyUnit {s : Db} (h : Shape s) {u : Uuid} {x : ExecutionUnit}
    (hx : s.planExecutionUnits.find? u = some x) {d : Uuid} (hd : s.DependsOn x.workItemId d) :
    ∃ v z, s.DependencyUnit x v z ∧ z.workItemId = d ∧ z.planRevisionId = x.planRevisionId := by
  rcases h.edge_unit u x d hx hd with ⟨v, z, hz, hzd, hr⟩
  have hdep : s.DependsOn x.workItemId z.workItemId := by
    rw [hzd]
    exact hd
  exact ⟨v, z, ⟨hz, hdep⟩, hzd, hr⟩

/-- The dependencies of a unit are completed exactly when its dependency units are. -/
theorem Shape.unlocked_iff {s : Db} (h : Shape s) {u : Uuid} {x : ExecutionUnit}
    (hx : s.planExecutionUnits.find? u = some x) :
    s.Unlocked x.workItemId ↔ ∀ v z, s.DependencyUnit x v z → z.state = .completed := by
  constructor
  · intro hu v z hz
    rcases hu z.workItemId hz.2 with ⟨v', z', hz', hitem, hc⟩
    have hv : v' = v := h.item_inj v' v z' z hz' hz.1 hitem
    have hrow : some z' = some z := by
      rw [← hz', hv, hz.1]
    rw [← Option.some.inj hrow]
    exact hc
  · intro hall d hd
    rcases h.dependencyUnit hx hd with ⟨v, z, hz, hitem, -⟩
    exact ⟨v, z, hz.1, hitem, hall v z hz⟩

/-- In every committed database of every interleaving: every dependency edge of a unit leads
to a unit; a unit that is ready, assigned, dispatched, completed or failed has every
dependency unit completed; a blocked unit has a dependency unit that is not. -/
theorem dependency_safety {ι : Type} [DecidableEq ι] {y : PlanSys ι} (hy : PlanReachable y)
    {u : Uuid} {x : ExecutionUnit} (hx : y.db.planExecutionUnits.find? u = some x) :
    (∀ d, y.db.DependsOn x.workItemId d → ∃ v z, y.db.DependencyUnit x v z ∧ z.workItemId = d) ∧
    (x.state ∈ [UnitState.ready, .assigned, .dispatched, .completed, .failed] →
      ∀ v z, y.db.DependencyUnit x v z → z.state = .completed) ∧
    (x.state = .blocked → ∃ v z, y.db.DependencyUnit x v z ∧ z.state ≠ .completed) := by
  have hinv := inv_of_reachable hy
  have hgate := hinv.gate u x hx
  rw [hinv.shape.unlocked_iff hx] at hgate
  refine ⟨fun d hd => ?_, fun hstate => ?_, fun hblocked => ?_⟩
  · rcases hinv.shape.dependencyUnit hx hd with ⟨v, z, hz, hitem, -⟩
    exact ⟨v, z, hz, hitem⟩
  · have hne : x.state ≠ .blocked := by
      intro hb
      rw [hb] at hstate
      exact absurd hstate (by decide)
    by_contra hnot
    exact hne (hgate.mpr hnot)
  · have hnot := hgate.mp hblocked
    push Not at hnot
    exact hnot

/-- Before the second upstream result the last step of the sample plan is blocked, after it
ready. -/
theorem dependency_safety_fanIn :
    (∃ x, (fanIn 11).db.planExecutionUnits.find? ⟨33⟩ = some x ∧
      ∃ v z, (fanIn 11).db.DependencyUnit x v z ∧ z.state ≠ .completed) ∧
    ∃ x, (fanIn 12).db.planExecutionUnits.find? ⟨33⟩ = some x ∧
      ∀ v z, (fanIn 12).db.DependencyUnit x v z → z.state = .completed := by
  have hbefore : ((fanIn 11).db.planExecutionUnits.find? ⟨33⟩).any
      (fun x => x.state = .blocked) := by decide +kernel
  have hafter : ((fanIn 12).db.planExecutionUnits.find? ⟨33⟩).any
      (fun x => x.state = .ready) := by decide +kernel
  rcases (Option.any_eq_true _ _).mp hbefore with ⟨x, hx, hxs⟩
  rcases (Option.any_eq_true _ _).mp hafter with ⟨z, hz, hzs⟩
  have hready : z.state = .ready := of_decide_eq_true hzs
  refine ⟨⟨x, hx, ?_⟩, ⟨z, hz, ?_⟩⟩
  · exact (dependency_safety (reachable_fanIn 11) hx).2.2 (of_decide_eq_true hxs)
  · exact (dependency_safety (reachable_fanIn 12) hz).2.1 (by simp [hready])

end AiAgentsSwd.Planning
