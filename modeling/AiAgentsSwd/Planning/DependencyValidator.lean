import AiAgentsSwd.Planning.FindCycle
import Mathlib.Data.List.Dedup
import Mathlib.Data.List.Sort

/-!
# Planning.DependencyValidator — the task-graph dependency validator

Model of `validate_dependencies` of `shared/sdk/project_planning/dependency_validator.py`.

Python iterates `adjacency` in the order of a set of strings, which it does not fix:
`validateDependenciesIn` takes the order as an argument, and `validateDependencies` is its
run at the order of first appearance. Only *which* cycle is reported can depend on that.

Main results: `validateDependencies_rank`, a graph that is not `invalid` has a rank that
every dependency lowers, and `validateDependencies_exact`, what makes a graph `invalid`.
-/

namespace AiAgentsSwd.Planning

open Digraph

/-! ## `validate_dependencies` -/

/-- `ProjectWorkItem`, as far as a plan populates it. -/
structure ProjectWorkItem where
  workItemKey : String
  title : String
deriving Repr, DecidableEq

/-- `WorkItemDependency`. -/
structure WorkItemDependency where
  workItemKey : String
  dependsOnWorkItemKey : String
  dependencyType : String := "blocks"
deriving Repr, DecidableEq

/-- `TaskGraph`, as far as a plan populates it. -/
structure TaskGraph where
  projectType : String
  template : String
  workItems : List ProjectWorkItem
  dependencies : List WorkItemDependency
deriving Repr, DecidableEq

/-- The structured errors, tagged by their `type`. -/
inductive GraphError where
  | selfDependency (workItemKey : String)
  | duplicateDependency (workItemKey dependsOn : String)
  | missingNode (workItemKey : String)
  | cycle (path : List String)
  | unreachableTerminal (workItemKeys : List String)
deriving Repr, DecidableEq

/-- `STATUS_VALID`, `STATUS_INVALID`, `STATUS_WARNING`. -/
inductive ValidationStatus where
  | valid
  | invalid
  | warning
deriving Repr, DecidableEq

structure GraphValidation where
  status : ValidationStatus
  errors : List GraphError
deriving Repr, DecidableEq

/-- `_node_keys(graph)`. -/
def nodeKeys (graph : TaskGraph) : List String :=
  (graph.workItems.map ProjectWorkItem.workItemKey).dedup

/-- The locals of the `for dep in graph.dependencies` loop. -/
structure DependencyScan where
  errors : List GraphError
  seenPairs : List (String × String)
  adjacency : String → List String

/-- One iteration of that loop. -/
def scanDependency (nodes : List String) (g : DependencyScan) (dep : WorkItemDependency) :
    DependencyScan :=
  let a := dep.workItemKey
  let b := dep.dependsOnWorkItemKey
  if a = b then { g with errors := g.errors ++ [.selfDependency a] }
  else if a ∉ nodes then { g with errors := g.errors ++ [.missingNode a] }
  else if b ∉ nodes then { g with errors := g.errors ++ [.missingNode b] }
  else if (a, b) ∈ g.seenPairs then { g with errors := g.errors ++ [.duplicateDependency a b] }
  else
    { g with
      seenPairs := g.seenPairs ++ [(a, b)]
      adjacency := setKey g.adjacency a (g.adjacency a ++ [b]) }

/-- The errors that withhold the cycle search. -/
def GraphError.isStructural : GraphError → Bool
  | .selfDependency _ | .missingNode _ => true
  | _ => false

/-- The errors that make a graph invalid. -/
def GraphError.isHard : GraphError → Bool
  | .unreachableTerminal _ => false
  | _ => true

/-- `validate_dependencies(graph)`, where `nodes` is the order in which the set of work-item
keys is iterated. -/
def validateDependenciesIn (nodes : List String) (graph : TaskGraph) : GraphValidation :=
  let g := graph.dependencies.foldl (scanDependency nodes) ⟨[], [], fun _ => []⟩
  let errors :=
    if g.errors.any GraphError.isStructural then g.errors
    else
      match findCycle nodes g.adjacency with
      -- a reported path has at least two nodes, so `if cycle` asks whether there is one
      | some path => g.errors ++ [.cycle path]
      | none => g.errors
  if errors.any GraphError.isHard then ⟨.invalid, errors⟩
  else if graph.dependencies = [] then ⟨.valid, errors⟩
  else
    let connected := g.seenPairs.flatMap fun p => [p.1, p.2]
    let isolated := (nodes.filter (· ∉ connected)).insertionSort (· ≤ ·)
    if isolated = [] then ⟨.valid, errors⟩
    else ⟨.warning, errors ++ [.unreachableTerminal isolated]⟩

/-- `validate_dependencies(graph)`, the set taken in the order of first appearance. -/
def validateDependencies (graph : TaskGraph) : GraphValidation :=
  validateDependenciesIn (nodeKeys graph) graph

/-- One dependency never drops an error, and adds none only when it is well placed and new. -/
theorem scanDependency_errors {nodes : List String} {g : DependencyScan}
    {dep : WorkItemDependency} (h : (scanDependency nodes g dep).errors = []) :
    g.errors = [] ∧ dep.workItemKey ∈ nodes ∧ dep.dependsOnWorkItemKey ∈ nodes ∧
      dep.dependsOnWorkItemKey ∈ (scanDependency nodes g dep).adjacency dep.workItemKey := by
  unfold scanDependency at h ⊢
  by_cases hab : dep.workItemKey = dep.dependsOnWorkItemKey
  · simp [hab] at h
  by_cases ha : dep.workItemKey ∉ nodes
  · simp [hab, ha] at h
  by_cases hb : dep.dependsOnWorkItemKey ∉ nodes
  · simp [hab, ha, hb] at h
  by_cases hs : (dep.workItemKey, dep.dependsOnWorkItemKey) ∈ g.seenPairs
  · simp [hab, ha, hb, hs] at h
  simp only [hab, ha, hb, hs, if_false] at h ⊢
  exact ⟨h, not_not.mp ha, not_not.mp hb, by simp [setKey]⟩

theorem scanDependency_adjacency {nodes : List String} {g : DependencyScan}
    {dep : WorkItemDependency} {a b : String} (h : b ∈ g.adjacency a) :
    b ∈ (scanDependency nodes g dep).adjacency a := by
  unfold scanDependency
  dsimp only
  split_ifs <;> try exact h
  by_cases ha : a = dep.workItemKey
  · subst ha
    simp [setKey, h]
  · simpa [setKey, ha] using h

theorem foldl_scanDependency_adjacency {nodes : List String} (deps : List WorkItemDependency)
    {g : DependencyScan} {a b : String} (h : b ∈ g.adjacency a) :
    b ∈ (deps.foldl (scanDependency nodes) g).adjacency a := by
  induction deps generalizing g with
  | nil => exact h
  | cons d deps ih => exact ih (scanDependency_adjacency h)

/-- A loop that collects no error has placed every dependency. -/
theorem foldl_scanDependency_errors {nodes : List String} {deps : List WorkItemDependency}
    {g : DependencyScan} (h : (deps.foldl (scanDependency nodes) g).errors = []) :
    g.errors = [] ∧ ∀ d ∈ deps, d.workItemKey ∈ nodes ∧ d.dependsOnWorkItemKey ∈ nodes ∧
      d.dependsOnWorkItemKey ∈
        (deps.foldl (scanDependency nodes) g).adjacency d.workItemKey := by
  induction deps generalizing g with
  | nil => exact ⟨h, by simp⟩
  | cons d deps ih =>
    obtain ⟨hd, hrest⟩ := ih h
    obtain ⟨hg, ha, hb, hadj⟩ := scanDependency_errors hd
    refine ⟨hg, fun e he => ?_⟩
    rcases List.mem_cons.mp he with rfl | he
    · exact ⟨ha, hb, foldl_scanDependency_adjacency deps hadj⟩
    · exact hrest e he

/-- What holds of every error the loop can collect holds of those it collects. -/
theorem foldl_scanDependency_forall {P : GraphError → Prop}
    (hself : ∀ a, P (.selfDependency a)) (hmissing : ∀ a, P (.missingNode a))
    (hduplicate : ∀ a b, P (.duplicateDependency a b)) {nodes : List String}
    {deps : List WorkItemDependency} {g : DependencyScan} (h : ∀ e ∈ g.errors, P e) :
    ∀ e ∈ (deps.foldl (scanDependency nodes) g).errors, P e := by
  induction deps generalizing g with
  | nil => exact h
  | cons d deps ih =>
    refine ih fun e he => ?_
    unfold scanDependency at he
    dsimp only at he
    split_ifs at he <;> try exact h e he
    all_goals
      rcases List.mem_append.mp he with he | he
      · exact h e he
      · obtain rfl := List.mem_singleton.mp he
        first | exact hself _ | exact hmissing _ | exact hduplicate _ _

/-- The locals after the loop. -/
def dependencyScan (nodes : List String) (graph : TaskGraph) : DependencyScan :=
  graph.dependencies.foldl (scanDependency nodes) ⟨[], [], fun _ => []⟩

/-- Without a hard error the loop collected none, and the search found no cycle. -/
theorem validateDependenciesIn_clean {nodes : List String} {graph : TaskGraph}
    (h : (validateDependenciesIn nodes graph).status ≠ .invalid) :
    (dependencyScan nodes graph).errors = [] ∧
      findCycle nodes (dependencyScan nodes graph).adjacency = none := by
  unfold validateDependenciesIn at h
  dsimp only at h
  rw [← dependencyScan] at h
  set g := dependencyScan nodes graph with hg
  have hhard : ∀ e ∈ g.errors, e.isHard :=
    foldl_scanDependency_forall (fun _ => rfl) (fun _ => rfl) (fun _ _ => rfl) (by simp)
  by_contra hne
  refine h ?_
  rw [if_pos]
  by_cases herr : g.errors = []
  · cases hc : findCycle nodes g.adjacency with
    | none => exact absurd ⟨herr, hc⟩ hne
    | some path => simp [herr, GraphError.isHard]
  · obtain ⟨e, he⟩ := List.exists_mem_of_ne_nil _ herr
    refine List.any_eq_true.mpr ⟨e, ?_, hhard e he⟩
    split
    · exact he
    · split
      · exact List.mem_append_left _ he
      · exact he

/-- **A graph that is not invalid is acyclic**: its dependencies join its work items and
lower a rank. -/
theorem validateDependenciesIn_rank {nodes : List String} {graph : TaskGraph}
    (h : (validateDependenciesIn nodes graph).status ≠ .invalid) :
    ∃ r : String → Nat, ∀ d ∈ graph.dependencies,
      d.workItemKey ∈ nodes ∧ d.dependsOnWorkItemKey ∈ nodes ∧
      r d.dependsOnWorkItemKey < r d.workItemKey := by
  obtain ⟨herr, hcycle⟩ := validateDependenciesIn_clean h
  obtain ⟨r, hr⟩ := findCycle_rank hcycle
  obtain ⟨-, hdeps⟩ := foldl_scanDependency_errors herr
  refine ⟨r, fun d hd => ?_⟩
  obtain ⟨ha, hb, hadj⟩ := hdeps d hd
  exact ⟨ha, hb, hr _ ha _ hadj hb⟩

theorem validateDependencies_rank {graph : TaskGraph}
    (h : (validateDependencies graph).status ≠ .invalid) :
    ∃ r : String → Nat, ∀ d ∈ graph.dependencies,
      d.workItemKey ∈ nodeKeys graph ∧ d.dependsOnWorkItemKey ∈ nodeKeys graph ∧
      r d.dependsOnWorkItemKey < r d.workItemKey :=
  validateDependenciesIn_rank h

/-! ## The validator is exact -/

/-- An order in which Python may iterate a set: every element once. -/
structure Arrangement (elements : List String) where
  nodes : List String
  nodup : nodes.Nodup
  mem_nodes : ∀ k, k ∈ nodes ↔ k ∈ elements

/-- `a` lists `b` as a dependency. -/
def DependsOn (graph : TaskGraph) (a b : String) : Prop :=
  ∃ d ∈ graph.dependencies, d.workItemKey = a ∧ d.dependsOnWorkItemKey = b

/-- The pairs of keys the dependencies name, in order. -/
def dependencyPairs (graph : TaskGraph) : List (String × String) :=
  graph.dependencies.map fun d => (d.workItemKey, d.dependsOnWorkItemKey)

/-- What makes a task graph executable. -/
structure Sound (graph : TaskGraph) : Prop where
  /-- no dependency is a self-dependency -/
  irreflexive : ∀ d ∈ graph.dependencies, d.workItemKey ≠ d.dependsOnWorkItemKey
  /-- every dependency joins two work items -/
  known : ∀ d ∈ graph.dependencies, d.workItemKey ∈ graph.workItems.map (·.workItemKey) ∧
    d.dependsOnWorkItemKey ∈ graph.workItems.map (·.workItemKey)
  /-- no dependency repeats an earlier pair -/
  distinct : (dependencyPairs graph).Nodup
  /-- the dependency relation has no directed cycle -/
  acyclic : ∀ k, ¬ Relation.TransGen (DependsOn graph) k k

/-- What one dependency does to the locals when it collects no error. -/
theorem scanDependency_of_clean {nodes : List String} {g : DependencyScan}
    {dep : WorkItemDependency} (h : (scanDependency nodes g dep).errors = []) :
    dep.workItemKey ≠ dep.dependsOnWorkItemKey ∧
      (dep.workItemKey, dep.dependsOnWorkItemKey) ∉ g.seenPairs ∧
      (scanDependency nodes g dep).seenPairs =
        g.seenPairs ++ [(dep.workItemKey, dep.dependsOnWorkItemKey)] := by
  unfold scanDependency at h ⊢
  dsimp only at h ⊢
  split_ifs at h ⊢ with hab ha hb hs
  all_goals first | exact ⟨hab, hs, rfl⟩ | simp at h

/-- A loop that collects no error saw no self-dependency and no pair twice. -/
theorem foldl_scanDependency_clean {nodes : List String} {deps : List WorkItemDependency}
    {g : DependencyScan} (h : (deps.foldl (scanDependency nodes) g).errors = [])
    (hseen : g.seenPairs.Nodup) :
    (∀ d ∈ deps, d.workItemKey ≠ d.dependsOnWorkItemKey) ∧
      (g.seenPairs ++ deps.map fun d => (d.workItemKey, d.dependsOnWorkItemKey)).Nodup := by
  induction deps generalizing g with
  | nil => simpa using hseen
  | cons d deps ih =>
    have hrest : (deps.foldl (scanDependency nodes) (scanDependency nodes g d)).errors = [] := h
    obtain ⟨hne, hnew, hpairs⟩ := scanDependency_of_clean (foldl_scanDependency_errors hrest).1
    have hseen' : (scanDependency nodes g d).seenPairs.Nodup := by
      rw [hpairs]
      exact hseen.append (List.nodup_singleton _) (by simpa using hnew)
    obtain ⟨hirr, hnodup⟩ := ih h hseen'
    rw [hpairs, List.append_assoc] at hnodup
    exact ⟨by simpa using ⟨hne, hirr⟩, hnodup⟩

/-- Dependencies that are well placed and new add no error. -/
theorem foldl_scanDependency_of_sound {nodes : List String} {deps : List WorkItemDependency}
    {g : DependencyScan} (hirr : ∀ d ∈ deps, d.workItemKey ≠ d.dependsOnWorkItemKey)
    (hknown : ∀ d ∈ deps, d.workItemKey ∈ nodes ∧ d.dependsOnWorkItemKey ∈ nodes)
    (hnodup : (g.seenPairs ++ deps.map fun d =>
      (d.workItemKey, d.dependsOnWorkItemKey)).Nodup) :
    (deps.foldl (scanDependency nodes) g).errors = g.errors := by
  induction deps generalizing g with
  | nil => rfl
  | cons d deps ih =>
    simp only [List.forall_mem_cons] at hirr hknown
    have hnew : (d.workItemKey, d.dependsOnWorkItemKey) ∉ g.seenPairs := by
      intro hmem
      exact (List.nodup_append.mp hnodup).2.2 _ hmem _ List.mem_cons_self rfl
    have hscan : scanDependency nodes g d =
        { g with
          seenPairs := g.seenPairs ++ [(d.workItemKey, d.dependsOnWorkItemKey)]
          adjacency := setKey g.adjacency d.workItemKey
            (g.adjacency d.workItemKey ++ [d.dependsOnWorkItemKey]) } := by
      simp [scanDependency, hirr.1, hknown.1.1, hknown.1.2, hnew]
    rw [List.foldl_cons, ih hirr.2 hknown.2 (by rw [hscan]; simpa using hnodup), hscan]

/-- One dependency adds at most its own edge, and never a loop. -/
theorem scanDependency_adjacency_inv {nodes : List String} {g : DependencyScan}
    {dep : WorkItemDependency} {a b : String}
    (h : b ∈ (scanDependency nodes g dep).adjacency a) :
    b ∈ g.adjacency a ∨ (dep.workItemKey = a ∧ dep.dependsOnWorkItemKey = b ∧ a ≠ b) := by
  unfold scanDependency at h
  dsimp only at h
  split_ifs at h with hab
  all_goals try exact Or.inl h
  by_cases ha : a = dep.workItemKey
  · subst ha
    have hmem : b ∈ g.adjacency dep.workItemKey ∨ b = dep.dependsOnWorkItemKey := by
      simpa [setKey] using h
    rcases hmem with hmem | rfl
    · exact Or.inl hmem
    · exact Or.inr ⟨rfl, rfl, hab⟩
  · exact Or.inl (by simpa [setKey, ha] using h)

/-- The searched graph is part of the dependency relation, and has no self-loop. -/
theorem dependencyScan_adjacency {nodes : List String} {graph : TaskGraph} {a b : String}
    (h : b ∈ (dependencyScan nodes graph).adjacency a) : DependsOn graph a b ∧ a ≠ b := by
  have hfold : ∀ (deps : List WorkItemDependency) (g : DependencyScan),
      b ∈ (deps.foldl (scanDependency nodes) g).adjacency a →
      b ∈ g.adjacency a ∨
        ∃ d ∈ deps, d.workItemKey = a ∧ d.dependsOnWorkItemKey = b ∧ a ≠ b := by
    intro deps
    induction deps with
    | nil => exact fun g h => Or.inl h
    | cons d deps ih =>
      intro g h
      rcases ih _ h with h | ⟨e, he, hedge⟩
      · rcases scanDependency_adjacency_inv h with h | hedge
        · exact Or.inl h
        · exact Or.inr ⟨d, List.mem_cons_self, hedge⟩
      · exact Or.inr ⟨e, List.mem_cons_of_mem _ he, hedge⟩
  rcases hfold _ _ h with h | ⟨d, hd, ha, hb, hne⟩
  · cases h
  · exact ⟨⟨d, hd, ha, hb⟩, hne⟩

/-- A cycle the search reports is a cycle of the dependency relation. -/
theorem isCycle_of_findCycle {nodes : List String} {graph : TaskGraph} {path : List String}
    (h : findCycle nodes (dependencyScan nodes graph).adjacency = some path) :
    IsCycle (DependsOn graph) path := by
  have hself : ∀ n, n ∉ (dependencyScan nodes graph).adjacency n :=
    fun n hn => (dependencyScan_adjacency hn).2 rfl
  obtain ⟨hchain, a, ha, z, hz, hedge⟩ := findCycle_isCycle hself h
  exact ⟨hchain.imp fun _ _ hab => (dependencyScan_adjacency hab).1, a, ha, z, hz,
    (dependencyScan_adjacency hedge).1⟩

/-- The validator accepts the sound graphs, in whatever order it iterates the keys. -/
theorem validateDependenciesIn_accepts_iff (graph : TaskGraph)
    (order : Arrangement (graph.workItems.map (·.workItemKey))) :
    (validateDependenciesIn order.nodes graph).status ≠ .invalid ↔ Sound graph := by
  constructor
  · intro h
    have hclean := (validateDependenciesIn_clean h).1
    obtain ⟨r, hr⟩ := validateDependenciesIn_rank h
    obtain ⟨hirr, hdistinct⟩ := foldl_scanDependency_clean hclean List.nodup_nil
    refine ⟨hirr, fun d hd => ?_, hdistinct, not_transGen_of_rank (r := r) ?_⟩
    · exact ⟨(order.mem_nodes _).mp (hr d hd).1, (order.mem_nodes _).mp (hr d hd).2.1⟩
    · rintro a b ⟨d, hd, rfl, rfl⟩
      exact (hr d hd).2.2
  · intro h
    have hknown : ∀ d ∈ graph.dependencies,
        d.workItemKey ∈ order.nodes ∧ d.dependsOnWorkItemKey ∈ order.nodes := fun d hd =>
      ⟨(order.mem_nodes _).mpr (h.known d hd).1, (order.mem_nodes _).mpr (h.known d hd).2⟩
    have hclean : (dependencyScan order.nodes graph).errors = [] :=
      foldl_scanDependency_of_sound h.irreflexive hknown h.distinct
    have hnone : findCycle order.nodes (dependencyScan order.nodes graph).adjacency = none := by
      rcases hfind : findCycle order.nodes (dependencyScan order.nodes graph).adjacency with
        - | path
      · rfl
      · obtain ⟨k, -, hk⟩ := (isCycle_of_findCycle hfind).transGen
        exact absurd hk (h.acyclic k)
    unfold validateDependenciesIn
    dsimp only
    rw [← dependencyScan]
    simp only [hclean, hnone, List.any_nil, Bool.false_eq_true, if_false]
    split_ifs <;> simp

/-- **The validator is exact.** Whatever the order in which the keys are iterated, a graph is
`invalid` when a dependency is a self-dependency, names a key that is no work item or
repeats an earlier pair, or when the dependencies have a directed cycle, and only then; and
a path it reports is such a cycle. -/
theorem validateDependencies_exact (graph : TaskGraph)
    (order : Arrangement (graph.workItems.map (·.workItemKey))) :
    ((validateDependenciesIn order.nodes graph).status = .invalid ↔
      (∃ d ∈ graph.dependencies, d.workItemKey = d.dependsOnWorkItemKey) ∨
      (∃ d ∈ graph.dependencies, d.workItemKey ∉ graph.workItems.map (·.workItemKey) ∨
        d.dependsOnWorkItemKey ∉ graph.workItems.map (·.workItemKey)) ∨
      ¬ (dependencyPairs graph).Nodup ∨
      ∃ k, Relation.TransGen (DependsOn graph) k k) ∧
    ∀ path, .cycle path ∈ (validateDependenciesIn order.nodes graph).errors →
      IsCycle (DependsOn graph) path := by
  constructor
  · rw [← not_iff_not, ← ne_eq, validateDependenciesIn_accepts_iff graph order]
    push Not
    exact ⟨fun h => ⟨h.irreflexive, h.known, h.distinct, h.acyclic⟩,
      fun h => ⟨h.1, h.2.1, h.2.2.1, h.2.2.2⟩⟩
  · intro path h
    have hcollected : ∀ e ∈ (dependencyScan order.nodes graph).errors, e ≠ .cycle path :=
      foldl_scanDependency_forall (by simp) (by simp) (by simp) (by simp)
    have hnot : .cycle path ∉ (dependencyScan order.nodes graph).errors :=
      fun hmem => hcollected _ hmem rfl
    unfold validateDependenciesIn at h
    dsimp only at h
    rw [← dependencyScan] at h
    by_cases hstruct : (dependencyScan order.nodes graph).errors.any GraphError.isStructural
    · simp only [hstruct, if_true] at h
      split_ifs at h <;> simp [hnot] at h
    · rw [if_neg hstruct] at h
      rcases hfind : findCycle order.nodes (dependencyScan order.nodes graph).adjacency with
        - | found
      · simp only [hfind] at h
        split_ifs at h <;> simp [hnot] at h
      · simp only [hfind] at h
        have hhard : ((dependencyScan order.nodes graph).errors ++
            [GraphError.cycle found]).any GraphError.isHard = true := by
          simp [GraphError.isHard]
        rw [if_pos hhard] at h
        have hpath : path = found := by simpa [hnot] using h
        exact hpath ▸ isCycle_of_findCycle hfind

end AiAgentsSwd.Planning
