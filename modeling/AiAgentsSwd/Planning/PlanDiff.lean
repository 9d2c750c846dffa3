import AiAgentsSwd.Planning.Models

/-!
# Planning.PlanDiff — what the structured diff of two plans can see

Model of `PlanDiff` and `compute_plan_diff` of `shared/sdk/agent_planning/models.py`.

The diff compares the steps through a dictionary by key, the dependencies through a set of
texts `parent->child`, and the rest field by field. `Alike p q` says that two plans agree on
all of that. Main result: `isEmpty_faithful_iff`, the diff tells two plans apart exactly when
they are the same plan or are not alike.
-/

namespace AiAgentsSwd.Planning

/-! ## The diff -/

/-- `StepChange`. -/
structure StepChange where
  stepKey : String
  changedFields : List String
deriving Repr, DecidableEq

/-- `PlanDiff`. -/
structure PlanDiff where
  stepsAdded : List String
  stepsRemoved : List String
  stepsModified : List StepChange
  dependenciesAdded : List String
  dependenciesRemoved : List String
  capabilityRequirementsChanged : List String
  ownershipChanged : List String
  objectiveChanged : Bool
  constraintsChanged : Bool
  acceptanceCriteriaChanged : Bool
  rationale : Option String
deriving Repr, DecidableEq

/-- `PlanDiff.is_empty`. -/
def PlanDiff.isEmpty (d : PlanDiff) : Bool :=
  !(!d.stepsAdded.isEmpty || !d.stepsRemoved.isEmpty || !d.stepsModified.isEmpty ||
    !d.dependenciesAdded.isEmpty || !d.dependenciesRemoved.isEmpty ||
    !d.capabilityRequirementsChanged.isEmpty || !d.ownershipChanged.isEmpty ||
    d.objectiveChanged || d.constraintsChanged || d.acceptanceCriteriaChanged)

/-- `sorted(s)` of a set of strings. -/
def sortedSet (l : List String) : List String := l.dedup.insertionSort (· ≤ ·)

/-- `_COMPARED_STEP_FIELDS`, each with the comparison of the field. -/
def COMPARED_STEP_FIELDS : List (String × (PlanStep → PlanStep → Bool)) :=
  [("title", fun old new => old.title != new.title),
    ("description", fun old new => old.description != new.description),
    ("expected_outputs", fun old new => old.expectedOutputs != new.expectedOutputs),
    ("constraints", fun old new => old.constraints != new.constraints)]

/-- `old.required_capabilities != new.required_capabilities`. -/
def capabilitiesDiffer (old new : PlanStep) : Bool :=
  old.requiredCapabilities != new.requiredCapabilities

/-- `old.intended_owner_role != new.intended_owner_role`. -/
def ownerDiffers (old new : PlanStep) : Bool := old.intendedOwnerRole != new.intendedOwnerRole

/-- `changed`, as the loop over the common keys leaves it for one step. -/
def changedFields (old new : PlanStep) : List String :=
  (COMPARED_STEP_FIELDS.filter fun f => f.2 old new).map Prod.fst ++
    (if capabilitiesDiffer old new then ["required_capabilities"] else []) ++
    (if ownerDiffers old new then ["intended_owner_role"] else [])

/-- The keys of `{step.step_key: step for step in plan.steps}`. -/
def PlanContent.keys (plan : PlanContent) : List String := plan.steps.map PlanStep.stepKey

/-- The value at a key of that dictionary; a plan has every key once. -/
def PlanContent.step? (plan : PlanContent) (key : String) : Option PlanStep :=
  plan.steps.find? fun step => step.stepKey = key

/-- `f"{parent}->{step_key}"`. -/
def edgeText (parent stepKey : String) : String := parent ++ "->" ++ stepKey

/-- `_dependency_edges(plan)`, a set. -/
def dependencyEdges (plan : PlanContent) : List String :=
  plan.steps.flatMap fun step => step.dependsOn.map fun parent => edgeText parent step.stepKey

/-- The pairs `before[key], after[key]` of the loop over the common keys, in its order. -/
def commonSteps (previous current : PlanContent) : List (PlanStep × PlanStep) :=
  (sortedSet (previous.keys.filter (· ∈ current.keys))).filterMap fun key => do
    let old ← previous.step? key
    let new ← current.step? key
    return (old, new)

/-- The place of the Pydantic error of an oversized rationale. -/
inductive PlanDiffError where
  | validation (place : String)
deriving Repr, DecidableEq

/-- `compute_plan_diff(previous, current, rationale=rationale)`. The key screen of
`_validate_safe` reads only member names, which the schema fixes. -/
def computePlanDiff (previous current : PlanContent) (rationale : Option String) :
    Except PlanDiffError PlanDiff :=
  let common := commonSteps previous current
  let edgesBefore := dependencyEdges previous
  let edgesAfter := dependencyEdges current
  if ∃ text ∈ rationale, 2000 < text.length then .error (.validation "rationale")
  else
    .ok {
      stepsAdded := sortedSet (current.keys.filter (· ∉ previous.keys))
      stepsRemoved := sortedSet (previous.keys.filter (· ∉ current.keys))
      stepsModified := common.filterMap fun s =>
        if changedFields s.1 s.2 = [] then none
        else some ⟨s.1.stepKey, (changedFields s.1 s.2).insertionSort (· ≤ ·)⟩
      dependenciesAdded := sortedSet (edgesAfter.filter (· ∉ edgesBefore))
      dependenciesRemoved := sortedSet (edgesBefore.filter (· ∉ edgesAfter))
      capabilityRequirementsChanged :=
        (common.filter fun s => capabilitiesDiffer s.1 s.2).map fun s => s.1.stepKey
      ownershipChanged := (common.filter fun s => ownerDiffers s.1 s.2).map fun s => s.1.stepKey
      objectiveChanged := previous.objective != current.objective
      constraintsChanged := previous.constraints != current.constraints
      acceptanceCriteriaChanged := previous.acceptanceCriteria != current.acceptanceCriteria
      rationale := rationale }

/-! ## What the diff compares -/

/-- Two steps that agree on every field but the key and the dependencies. -/
structure SameFields (s t : PlanStep) : Prop where
  title : s.title = t.title
  description : s.description = t.description
  expectedOutputs : s.expectedOutputs = t.expectedOutputs
  constraints : s.constraints = t.constraints
  requiredCapabilities : s.requiredCapabilities = t.requiredCapabilities
  intendedOwnerRole : s.intendedOwnerRole = t.intendedOwnerRole

/-- Two plans that agree on everything but the order of the steps and the dependencies, and
whose dependencies read alike. -/
structure Alike (p q : PlanContent) : Prop where
  objective : p.objective = q.objective
  constraints : p.constraints = q.constraints
  acceptanceCriteria : p.acceptanceCriteria = q.acceptanceCriteria
  keys : ∀ key, key ∈ p.keys ↔ key ∈ q.keys
  fields : ∀ s ∈ p.steps, ∀ t ∈ q.steps, s.stepKey = t.stepKey → SameFields s t
  edges : ∀ text, text ∈ dependencyEdges p ↔ text ∈ dependencyEdges q

theorem sortedSet_eq_nil {l : List String} : sortedSet l = [] ↔ l = [] := by
  constructor
  · intro h
    have hlen := List.length_insertionSort (· ≤ ·) l.dedup
    rw [← sortedSet, h] at hlen
    exact (List.dedup_eq_nil l).mp (List.length_eq_zero_iff.mp hlen.symm)
  · rintro rfl
    rfl

theorem sortedSet_filter_eq_nil {l m : List String} :
    sortedSet (l.filter (· ∉ m)) = [] ↔ ∀ x ∈ l, x ∈ m := by
  rw [sortedSet_eq_nil]
  simp

theorem mem_sortedSet {l : List String} {x : String} : x ∈ sortedSet l ↔ x ∈ l := by
  simp [sortedSet]

/-- The dictionary holds each step under its key. -/
theorem PlanContent.step?_eq_some {plan : PlanContent} {key : String} {s : PlanStep} :
    plan.step? key = some s ↔ s ∈ plan.steps ∧ s.stepKey = key := by
  constructor
  · intro h
    exact ⟨List.mem_of_find?_eq_some h, by simpa using List.find?_some h⟩
  · rintro ⟨hs, rfl⟩
    rcases hfound : plan.step? s.stepKey with - | t
    · have hne := List.find?_eq_none.mp hfound s hs
      simp at hne
    · have ht := List.mem_of_find?_eq_some hfound
      have hkey : t.stepKey = s.stepKey := by simpa using List.find?_some hfound
      rw [List.inj_on_of_nodup_map plan.nodup ht hs hkey]

/-- The loop visits the pairs of steps with one key. -/
theorem mem_commonSteps {p q : PlanContent} {s t : PlanStep} :
    (s, t) ∈ commonSteps p q ↔ s ∈ p.steps ∧ t ∈ q.steps ∧ s.stepKey = t.stepKey := by
  unfold commonSteps
  rw [List.mem_filterMap]
  constructor
  · rintro ⟨key, -, hpair⟩
    rcases hs : p.step? key with - | s'
    · simp [hs] at hpair
    · rcases ht : q.step? key with - | t'
      · simp [hs, ht] at hpair
      · obtain ⟨rfl, rfl⟩ : s' = s ∧ t' = t := by simpa [hs, ht] using hpair
        obtain ⟨hmem, hkey⟩ := PlanContent.step?_eq_some.mp hs
        obtain ⟨hmem', hkey'⟩ := PlanContent.step?_eq_some.mp ht
        exact ⟨hmem, hmem', hkey.trans hkey'.symm⟩
  · rintro ⟨hs, ht, hkey⟩
    refine ⟨s.stepKey, ?_, ?_⟩
    · rw [mem_sortedSet, List.mem_filter]
      refine ⟨List.mem_map_of_mem hs, ?_⟩
      rw [decide_eq_true_eq, hkey]
      exact List.mem_map_of_mem ht
    · rw [PlanContent.step?_eq_some.mpr ⟨hs, rfl⟩,
        PlanContent.step?_eq_some.mpr ⟨ht, hkey.symm⟩]
      rfl

/-- No field changed: the compared fields agree. -/
theorem changedFields_eq_nil {s t : PlanStep} : changedFields s t = [] ↔ SameFields s t := by
  simp only [changedFields, COMPARED_STEP_FIELDS, capabilitiesDiffer, ownerDiffers,
    List.append_eq_nil_iff, List.map_eq_nil_iff, List.filter_eq_nil_iff]
  constructor
  · rintro ⟨⟨hfields, hcaps⟩, howner⟩
    simp only [List.forall_mem_cons, bne_iff_ne, ne_eq, not_not] at hfields
    obtain ⟨htitle, hdescription, houtputs, hconstraints, -⟩ := hfields
    exact ⟨htitle, hdescription, houtputs, hconstraints, by simpa using hcaps,
      by simpa using howner⟩
  · intro h
    simp [h.title, h.description, h.expectedOutputs, h.constraints, h.requiredCapabilities,
      h.intendedOwnerRole]

/-- The diff of two plans is empty when they are alike, and only then. -/
theorem isEmpty_iff {p q : PlanContent} {rationale : Option String} {d : PlanDiff}
    (h : computePlanDiff p q rationale = .ok d) : d.isEmpty ↔ Alike p q := by
  unfold computePlanDiff at h
  dsimp only at h
  split_ifs at h
  obtain rfl := Except.ok.inj h
  simp only [PlanDiff.isEmpty, Bool.not_eq_true', Bool.or_eq_false_iff, Bool.not_eq_false',
    List.isEmpty_iff, sortedSet_filter_eq_nil, List.map_eq_nil_iff, List.filter_eq_nil_iff,
    List.filterMap_eq_nil_iff, bne_eq_false_iff_eq]
  constructor
  · rintro ⟨⟨⟨⟨⟨⟨⟨⟨⟨hadded, hremoved⟩, hmodified⟩, hnew⟩, hgone⟩, -⟩, -⟩, hobjective⟩,
      hconstraints⟩, hcriteria⟩
    refine ⟨hobjective, hconstraints, hcriteria, fun key => ⟨hremoved key, hadded key⟩,
      fun s hs t ht hkey => ?_, fun text => ⟨hgone text, hnew text⟩⟩
    have hstep := hmodified (s, t) (mem_commonSteps.mpr ⟨hs, ht, hkey⟩)
    rw [← changedFields_eq_nil]
    by_contra hne
    simp [hne] at hstep
  · intro halike
    have hsame : ∀ x ∈ commonSteps p q, SameFields x.1 x.2 := by
      rintro ⟨s, t⟩ hx
      obtain ⟨hs, ht, hkey⟩ := mem_commonSteps.mp hx
      exact halike.fields s hs t ht hkey
    refine ⟨⟨⟨⟨⟨⟨⟨⟨⟨fun key => (halike.keys key).mpr, fun key => (halike.keys key).mp⟩, ?_⟩,
      fun text => (halike.edges text).mpr⟩, fun text => (halike.edges text).mp⟩, ?_⟩, ?_⟩,
      halike.objective⟩, halike.constraints⟩, halike.acceptanceCriteria⟩
    · intro x hx
      rw [if_pos (changedFields_eq_nil.mpr (hsame x hx))]
    · intro x hx
      simp [capabilitiesDiffer, (hsame x hx).requiredCapabilities]
    · intro x hx
      simp [ownerDiffers, (hsame x hx).intendedOwnerRole]

/-! ## Which plans the diff tells apart -/

theorem Alike.refl (p : PlanContent) : Alike p p where
  objective := rfl
  constraints := rfl
  acceptanceCriteria := rfl
  keys _ := Iff.rfl
  fields s hs t ht hkey := by
    rw [List.inj_on_of_nodup_map p.nodup hs ht hkey]
    exact ⟨rfl, rfl, rfl, rfl, rfl, rfl⟩
  edges _ := Iff.rfl

/-- **When the diff is faithful.** For a pair of plans, the diff is empty exactly when they
are equal if and only if they are equal or differ in something the diff compares: the
objective, the constraints, the acceptance criteria, the set of keys, a field of a step
other than its dependencies, or the set of dependency texts. -/
theorem isEmpty_faithful_iff (p q : PlanContent) :
    (∃ d, computePlanDiff p q none = .ok d ∧ (d.isEmpty ↔ p = q)) ↔ p = q ∨ ¬ Alike p q := by
  obtain ⟨d, hd⟩ : ∃ d, computePlanDiff p q none = .ok d := by
    simp [computePlanDiff]
  have hempty := isEmpty_iff hd
  constructor
  · rintro ⟨d', hd', hfaithful⟩
    obtain rfl : d = d' := Except.ok.inj (hd.symm.trans hd')
    by_cases halike : Alike p q
    · exact Or.inl (hfaithful.mp (hempty.mpr halike))
    · exact Or.inr halike
  · intro h
    refine ⟨d, hd, hempty.trans ⟨fun halike => ?_, ?_⟩⟩
    · exact h.resolve_right fun hne => hne halike
    · rintro rfl
      exact Alike.refl p

/-! ### Two plans that read alike -/

/-- Four steps; `first` and `second` are the dependencies of the last two. -/
def arrowSteps (first second : List String) : List PlanStep :=
  [{ stepKey := "a", title := "A" }, { stepKey := "a->b", title := "B" },
    { stepKey := "b->c", title := "C", dependsOn := first },
    { stepKey := "c", title := "D", dependsOn := second }]

/-- The last step depends on the second. -/
def arrowBefore : PlanContent where
  objective := "Ship it"
  steps := arrowSteps [] ["a->b"]
  constraints := []
  acceptanceCriteria := []
  nodup := by decide +kernel
  known := by decide +kernel

/-- The third step depends on the first, and the last on nothing. -/
def arrowAfter : PlanContent where
  objective := "Ship it"
  steps := arrowSteps ["a"] []
  constraints := []
  acceptanceCriteria := []
  nodup := by decide +kernel
  known := by decide +kernel

/-- Moving a dependency to another pair of steps leaves the diff empty: both read
`a->b->c`. -/
theorem moved_dependency_unseen :
    ∃ d, computePlanDiff arrowBefore arrowAfter none = .ok d ∧ d.isEmpty = true ∧
      arrowBefore ≠ arrowAfter := by
  refine ⟨_, rfl, by decide +kernel, fun h => ?_⟩
  have hsteps : arrowSteps [] ["a->b"] = arrowSteps ["a"] [] := congrArg PlanContent.steps h
  exact absurd hsteps (by decide +kernel)

end AiAgentsSwd.Planning
