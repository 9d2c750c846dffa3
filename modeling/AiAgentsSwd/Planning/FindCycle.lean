import AiAgentsSwd.Digraph.Cycle
import AiAgentsSwd.Digraph.Rank
import Mathlib.Data.List.Count
import Mathlib.Data.List.Nodup
import Mathlib.Data.List.Perm.Subperm

/-!
# Planning.FindCycle — the three-colour search for a cycle

Model of `_find_cycle` of `shared/sdk/project_planning/dependency_validator.py`, an iterative
depth-first search over an adjacency dictionary.

Main results: `findCycle_rank`, a search that reports nothing leaves a rank that every edge
lowers, and `findCycle_isCycle`, a reported path is a cycle.
-/

namespace AiAgentsSwd.Planning

open Digraph

/-! ## `_find_cycle` -/

section FindCycle

variable {N : Type} [DecidableEq N]

/-- The marks of the search: `WHITE, GRAY, BLACK = 0, 1, 2`. -/
inductive Color where
  | WHITE
  | GRAY
  | BLACK
deriving Repr, DecidableEq

/-- What the `for nxt in it` loop of `visit` ends with. -/
inductive Scan (N : Type) where
  /-- The iterator is exhausted: `advanced` is still false. -/
  | exhausted
  /-- A white neighbour was entered, `it` is what remains of the iterator. -/
  | advanced (nxt : N) (it : List N)
  /-- A grey neighbour closes a cycle. -/
  | backEdge (nxt : N)

/-- The `for nxt in it` loop of `visit`. -/
def scan (nodes : List N) (color : N → Color) : List N → Scan N
  | [] => .exhausted
  | nxt :: it =>
    if nxt ∉ nodes then scan nodes color it
    else
      match color nxt with
      | .WHITE => .advanced nxt it
      | .GRAY => .backEdge nxt
      | .BLACK => scan nodes color it

/-- `color[n] = c`, and likewise for `parent`. -/
def setKey {V : Type} (d : N → V) (n : N) (v : V) : N → V := fun m => if m = n then v else d m

/-- The walk up the `parent` links that rebuilds the reported path. -/
def rebuildPath (parent : N → Option N) (nxt : N) : Nat → Option N → List N
  | 0, _ => []
  | _, none => []
  | fuel + 1, some cur =>
    if cur = nxt then [] else cur :: rebuildPath parent nxt fuel (parent cur)

/-- The marks and parent links `visit` shares with `_find_cycle`. -/
structure Marks (N : Type) where
  color : N → Color
  parent : N → Option N

/-- The nodes still white. -/
def whites (nodes : List N) (color : N → Color) : Nat :=
  nodes.countP fun n => color n = .WHITE

theorem scan_advanced {nodes : List N} {color : N → Color} {it it' : List N} {nxt : N}
    (h : scan nodes color it = .advanced nxt it') : nxt ∈ nodes ∧ color nxt = .WHITE := by
  induction it with
  | nil => simp [scan] at h
  | cons n it ih =>
    unfold scan at h
    split at h
    · exact ih h
    · rename_i hn
      split at h
      · rename_i hc
        obtain ⟨rfl, -⟩ := Scan.advanced.inj h
        exact ⟨not_not.mp hn, hc⟩
      · cases h
      · exact ih h

theorem whites_setKey_lt {nodes : List N} {color : N → Color} {n : N} (hn : n ∈ nodes)
    (hw : color n = .WHITE) : whites nodes (setKey color n .GRAY) < whites nodes color := by
  unfold whites
  induction nodes with
  | nil => cases hn
  | cons m l ih =>
    have hle : l.countP (fun x => setKey color n .GRAY x = .WHITE) ≤
        l.countP (fun x => color x = .WHITE) := by
      refine List.countP_mono_left fun x _ hx => ?_
      by_cases hxn : x = n <;> simp_all [setKey]
    by_cases hm : m = n
    · subst hm
      simp [setKey, hw] at hle ⊢
      omega
    · have hlt := ih (by simpa [Ne.symm hm] using hn)
      simp [List.countP_cons, setKey, hm] at hlt ⊢
      omega

theorem whites_setKey_le (nodes : List N) (color : N → Color) (n : N) :
    whites nodes (setKey color n .BLACK) ≤ whites nodes color := by
  refine List.countP_mono_left fun x _ hx => ?_
  by_cases hxn : x = n <;> simp_all [setKey]

/-- The `while stack` loop of `visit`: a cycle path, or the marks it leaves. -/
def visitLoop (nodes : List N) (adjacency : N → List N) (marks : Marks N)
    (stack : List (N × List N)) : List N ⊕ Marks N :=
  match stack with
  | [] => .inr marks
  | (node, it) :: stack =>
    match _h : scan nodes marks.color it with
    | .advanced nxt it' =>
      visitLoop nodes adjacency
        ⟨setKey marks.color nxt .GRAY, setKey marks.parent nxt (some node)⟩
        ((nxt, adjacency nxt) :: (node, it') :: stack)
    | .backEdge nxt =>
      .inl ([nxt, node] ++ rebuildPath marks.parent nxt nodes.length (marks.parent node)).reverse
    | .exhausted =>
      visitLoop nodes adjacency { marks with color := setKey marks.color node .BLACK } stack
termination_by 2 * whites nodes marks.color + stack.length
decreasing_by
  · obtain ⟨hn, hw⟩ := scan_advanced _h
    have := whites_setKey_lt hn hw
    simp only [List.length_cons]
    omega
  · have := whites_setKey_le nodes marks.color node
    simp only [List.length_cons]
    omega

/-- `visit(start)`. -/
def visit (nodes : List N) (adjacency : N → List N) (marks : Marks N) (start : N) :
    List N ⊕ Marks N :=
  visitLoop nodes adjacency
    ⟨setKey marks.color start .GRAY, setKey marks.parent start none⟩
    [(start, adjacency start)]

/-- The `for node in adjacency` loop of `_find_cycle`. -/
def findCycleFrom (nodes : List N) (adjacency : N → List N) : Marks N → List N → Option (List N)
  | _, [] => none
  | marks, node :: rest =>
    if marks.color node = .WHITE then
      match visit nodes adjacency marks node with
      | .inl path => some path
      | .inr marks => findCycleFrom nodes adjacency marks rest
    else findCycleFrom nodes adjacency marks rest

/-- `_find_cycle(adjacency)`, where `nodes` are the keys of `adjacency`. -/
def findCycle (nodes : List N) (adjacency : N → List N) : Option (List N) :=
  findCycleFrom nodes adjacency ⟨fun _ => .WHITE, fun _ => none⟩ nodes

/-! ### No reported cycle means a rank

The black nodes, latest first, are a finishing order; the stack holds the grey nodes, each
with the neighbours it has not looked at yet. -/

theorem scan_exhausted {nodes : List N} {color : N → Color} {it : List N}
    (h : scan nodes color it = .exhausted) : ∀ m ∈ it, m ∈ nodes → color m = .BLACK := by
  induction it with
  | nil => simp
  | cons n it ih =>
    intro m hm hmn
    unfold scan at h
    split at h
    · rename_i hn
      rcases List.mem_cons.mp hm with rfl | hm
      · exact absurd hmn hn
      · exact ih h m hm hmn
    · split at h
      · cases h
      · cases h
      · rename_i hc
        rcases List.mem_cons.mp hm with rfl | hm
        · exact hc
        · exact ih h m hm hmn

theorem scan_advanced_rest {nodes : List N} {color : N → Color} {it it' : List N} {nxt : N}
    (h : scan nodes color it = .advanced nxt it') :
    ∀ m ∈ it, m ∈ nodes → m ∈ it' ∨ m = nxt ∨ color m = .BLACK := by
  induction it with
  | nil => simp
  | cons n it ih =>
    intro m hm hmn
    unfold scan at h
    split at h
    · rename_i hn
      rcases List.mem_cons.mp hm with rfl | hm
      · exact absurd hmn hn
      · exact ih h m hm hmn
    · split at h
      · obtain ⟨rfl, rfl⟩ := Scan.advanced.inj h
        rcases List.mem_cons.mp hm with rfl | hm
        · exact Or.inr (Or.inl rfl)
        · exact Or.inl hm
      · cases h
      · rename_i hc
        rcases List.mem_cons.mp hm with rfl | hm
        · exact Or.inr (Or.inr hc)
        · exact ih h m hm hmn

/-- The neighbours that count: those that are keys of `adjacency`. -/
def neighbours (nodes : List N) (adjacency : N → List N) (n : N) : List N :=
  (adjacency n).filter (· ∈ nodes)

/-- What holds of the marks whenever `fin` are the nodes that turned black. -/
structure SearchInv (nodes : List N) (adjacency : N → List N) (color : N → Color)
    (fin : List N) : Prop where
  finished : Finished (neighbours nodes adjacency) fin
  black : ∀ n ∈ nodes, color n = .BLACK → n ∈ fin

/-- Every stacked node has looked at all its neighbours but those left in its iterator and
the one stacked on top of it. -/
def Pending (nodes : List N) (adjacency : N → List N) (fin : List N) :
    Option N → List (N × List N) → Prop
  | _, [] => True
  | above, (node, it) :: rest =>
    (∀ m ∈ neighbours nodes adjacency node, m ∈ it ∨ m ∈ fin ∨ above = some m) ∧
      Pending nodes adjacency fin (some node) rest

theorem Pending.mono {nodes : List N} {adjacency : N → List N} {fin fin' : List N}
    (hsub : fin ⊆ fin') {above above' : Option N} {stack : List (N × List N)}
    (habove : ∀ m, above = some m → m ∈ fin' ∨ above' = some m)
    (h : Pending nodes adjacency fin above stack) :
    Pending nodes adjacency fin' above' stack := by
  induction stack generalizing above above' with
  | nil => trivial
  | cons x rest ih =>
    obtain ⟨node, it⟩ := x
    refine ⟨fun m hm => ?_, ih (fun m hm => Or.inr hm) h.2⟩
    rcases h.1 m hm with hit | hfin | hab
    · exact Or.inl hit
    · exact Or.inr (Or.inl (hsub hfin))
    · exact Or.inr (habove m hab)

/-- A `visit` that reports no cycle finishes everything it stacked. -/
theorem visitLoop_finishes {nodes : List N} {adjacency : N → List N} {marks marks' : Marks N}
    {stack : List (N × List N)} (fin : List N)
    (h : visitLoop nodes adjacency marks stack = .inr marks')
    (hinv : SearchInv nodes adjacency marks.color fin)
    (hpend : Pending nodes adjacency fin none stack)
    (hgray : ∀ n ∈ nodes, marks.color n = .GRAY → n ∈ stack.map Prod.fst) :
    ∃ fin', fin ⊆ fin' ∧ stack.map Prod.fst ⊆ fin' ∧
      SearchInv nodes adjacency marks'.color fin' ∧
      ∀ n ∈ nodes, marks'.color n ≠ .GRAY := by
  fun_induction visitLoop nodes adjacency marks stack generalizing fin with
  | case1 marks =>
    obtain rfl := Sum.inr.inj h
    exact ⟨fin, List.Subset.refl _, by simp, hinv, fun n hn hc => by simpa using hgray n hn hc⟩
  | case2 marks node it stack nxt it' hscan ih =>
    -- a white neighbour is entered: it turns grey and goes on top
    have hrest := scan_advanced_rest hscan
    have hinv₁ : SearchInv nodes adjacency (setKey marks.color nxt .GRAY) fin := by
      refine ⟨hinv.finished, fun n hn hc => ?_⟩
      by_cases hne : n = nxt
      · simp [setKey, hne] at hc
      · exact hinv.black n hn (by simpa [setKey, hne] using hc)
    have hpend₁ : Pending nodes adjacency fin (some nxt) ((node, it') :: stack) := by
      refine ⟨fun m hm => ?_, hpend.2⟩
      have hmn : m ∈ nodes := by simpa using (List.mem_filter.mp hm).2
      rcases hpend.1 m hm with hit | hfin | hab
      · rcases hrest m hit hmn with hit' | rfl | hb
        · exact Or.inl hit'
        · exact Or.inr (Or.inr rfl)
        · exact Or.inr (Or.inl (hinv.black m hmn hb))
      · exact Or.inr (Or.inl hfin)
      · cases hab
    have hgray₁ : ∀ n ∈ nodes, setKey marks.color nxt .GRAY n = .GRAY →
        n ∈ nxt :: node :: stack.map Prod.fst := by
      intro n hn hc
      by_cases hne : n = nxt
      · simp [hne]
      · exact List.mem_cons_of_mem _ (hgray n hn (by simpa [setKey, hne] using hc))
    obtain ⟨fin', hsub, hstack, hinv', hgray'⟩ :=
      ih fin h hinv₁ ⟨fun m hm => Or.inl (List.mem_of_mem_filter hm), hpend₁⟩ hgray₁
    exact ⟨fin', hsub, fun n hn => hstack (List.mem_cons_of_mem _ hn), hinv', hgray'⟩
  | case3 marks node it stack nxt hscan => cases h
  | case4 marks node it stack hscan ih =>
    -- the iterator is exhausted: the node turns black and finishes
    have hblack := scan_exhausted hscan
    have hdone : ∀ m ∈ neighbours nodes adjacency node, m ∈ fin := by
      intro m hm
      have hmn : m ∈ nodes := by simpa using (List.mem_filter.mp hm).2
      rcases hpend.1 m hm with hit | hfin | hab
      · exact hinv.black m hmn (hblack m hit hmn)
      · exact hfin
      · cases hab
    obtain ⟨fin', hsub, hstack, hinv', hgray'⟩ := ih (node :: fin) h
      ⟨.cons hinv.finished hdone, fun n hn hc => by
        by_cases hne : n = node
        · simp [hne]
        · exact List.mem_cons_of_mem _ (hinv.black n hn (by simpa [setKey, hne] using hc))⟩
      (hpend.2.mono (List.subset_cons_self _ _) fun m hm => by
        obtain rfl := Option.some.inj hm
        exact Or.inl (List.mem_cons_self ..))
      (fun n hn hc => by
        by_cases hne : n = node
        · simp [setKey, hne] at hc
        · have hc' : marks.color n = .GRAY := by simpa [setKey, hne] using hc
          simpa [hne] using hgray n hn hc')
    refine ⟨fin', fun n hn => hsub (List.mem_cons_of_mem _ hn), ?_, hinv', hgray'⟩
    intro n hn
    rcases List.mem_cons.mp hn with rfl | hn
    · exact hsub (List.mem_cons_self ..)
    · exact hstack hn

/-- The outer loop finishes every node it is given, and keeps what had finished. -/
theorem findCycleFrom_finishes {nodes : List N} {adjacency : N → List N} {marks : Marks N}
    {rest : List N} (fin : List N) (h : findCycleFrom nodes adjacency marks rest = none)
    (hrest : rest ⊆ nodes) (hinv : SearchInv nodes adjacency marks.color fin)
    (hgray : ∀ n ∈ nodes, marks.color n ≠ .GRAY) :
    ∃ fin', fin ⊆ fin' ∧ rest ⊆ fin' ∧ Finished (neighbours nodes adjacency) fin' := by
  induction rest generalizing marks fin with
  | nil => exact ⟨fin, List.Subset.refl _, by simp, hinv.finished⟩
  | cons node rest ih =>
    have hnode : node ∈ nodes := hrest (List.mem_cons_self ..)
    have hrest' : rest ⊆ nodes := fun n hn => hrest (List.mem_cons_of_mem _ hn)
    unfold findCycleFrom at h
    split at h
    · split at h
      · cases h
      · rename_i marks' hvisit
        obtain ⟨fin₁, hsub₁, hstack, hinv₁, hgray₁⟩ := visitLoop_finishes fin hvisit
          ⟨hinv.finished, fun n hn hc => by
            by_cases hne : n = node
            · simp [setKey, hne] at hc
            · exact hinv.black n hn (by simpa [setKey, hne] using hc)⟩
          ⟨fun m hm => Or.inl (List.mem_of_mem_filter hm), trivial⟩
          (fun n hn hc => by
            by_cases hne : n = node
            · simp [hne]
            · exact absurd (by simpa [setKey, hne] using hc) (hgray n hn))
        obtain ⟨fin', hsub, hin, hfin⟩ := ih fin₁ h hrest' hinv₁ hgray₁
        refine ⟨fin', fun n hn => hsub (hsub₁ hn), fun n hn => ?_, hfin⟩
        rcases List.mem_cons.mp hn with rfl | hn
        · exact hsub (hstack (by simp))
        · exact hin hn
    · rename_i hw
      have hb : marks.color node = .BLACK := by
        cases hc : marks.color node with
        | WHITE => exact absurd hc hw
        | GRAY => exact absurd hc (hgray node hnode)
        | BLACK => rfl
      obtain ⟨fin', hsub, hin, hfin⟩ := ih fin h hrest' hinv hgray
      refine ⟨fin', hsub, fun n hn => ?_, hfin⟩
      rcases List.mem_cons.mp hn with rfl | hn
      · exact hsub (hinv.black _ hnode hb)
      · exact hin hn

/-- No reported cycle: there is a rank that every edge lowers. -/
theorem findCycle_rank {nodes : List N} {adjacency : N → List N}
    (h : findCycle nodes adjacency = none) :
    ∃ r : N → Nat, ∀ n ∈ nodes, ∀ m ∈ adjacency n, m ∈ nodes → r m < r n := by
  obtain ⟨fin, -, hin, hfin⟩ := findCycleFrom_finishes [] h (List.Subset.refl _)
    ⟨.nil, by simp⟩ (by simp)
  refine ⟨rank fin, fun n hn m hm hmn => ?_⟩
  exact (rank_lt hfin (hin hn) (List.mem_filter.mpr ⟨hm, by simpa using hmn⟩)).2

/-! ### A reported path is a cycle

The stack, top first, is the way from the start to the current node: every stacked node is
the parent of the one above it. So the walk up the parent links from a back edge reads off
the stack down to the node the edge leads to. -/

theorem scan_advanced_sub {nodes : List N} {color : N → Color} {it it' : List N} {nxt : N}
    (h : scan nodes color it = .advanced nxt it') : nxt ∈ it ∧ it' ⊆ it := by
  induction it with
  | nil => simp [scan] at h
  | cons n it ih =>
    have hskip : scan nodes color it = .advanced nxt it' → nxt ∈ n :: it ∧ it' ⊆ n :: it := by
      intro h
      obtain ⟨hn, hsub⟩ := ih h
      exact ⟨List.mem_cons_of_mem _ hn, List.Subset.trans hsub (List.subset_cons_self _ _)⟩
    unfold scan at h
    split at h
    · exact hskip h
    · split at h
      · obtain ⟨rfl, rfl⟩ := Scan.advanced.inj h
        exact ⟨List.mem_cons_self, List.subset_cons_self _ _⟩
      · cases h
      · exact hskip h

theorem scan_backEdge {nodes : List N} {color : N → Color} {it : List N} {nxt : N}
    (h : scan nodes color it = .backEdge nxt) :
    nxt ∈ it ∧ nxt ∈ nodes ∧ color nxt = .GRAY := by
  induction it with
  | nil => simp [scan] at h
  | cons n it ih =>
    have hskip : scan nodes color it = .backEdge nxt →
        nxt ∈ n :: it ∧ nxt ∈ nodes ∧ color nxt = .GRAY := by
      intro h
      obtain ⟨hn, hrest⟩ := ih h
      exact ⟨List.mem_cons_of_mem _ hn, hrest⟩
    unfold scan at h
    split at h
    · exact hskip h
    · rename_i hn
      split at h
      · cases h
      · rename_i hc
        obtain rfl := Scan.backEdge.inj h
        exact ⟨List.mem_cons_self, not_not.mp hn, hc⟩
      · exact hskip h

/-- What holds of the stack of `visit`: the names on it are distinct nodes, the grey ones
among all nodes, linked by `parent` along edges. -/
structure Stacked (nodes : List N) (adjacency : N → List N) (marks : Marks N)
    (stack : List (N × List N)) : Prop where
  nodup : (stack.map Prod.fst).Nodup
  placed : stack.map Prod.fst ⊆ nodes
  entered : ∀ n ∈ stack.map Prod.fst, marks.color n ≠ .WHITE
  gray : ∀ n ∈ nodes, marks.color n = .GRAY → n ∈ stack.map Prod.fst
  links : (stack.map Prod.fst).IsChain fun a b => marks.parent a = some b ∧ a ∈ adjacency b
  rest : ∀ x ∈ stack, x.2 ⊆ adjacency x.1

/-- `visit` starts with a stack of one node. -/
theorem Stacked.start {nodes : List N} {adjacency : N → List N} {marks : Marks N} {start : N}
    (hstart : start ∈ nodes) (hgray : ∀ n ∈ nodes, marks.color n ≠ .GRAY) :
    Stacked nodes adjacency
      ⟨setKey marks.color start .GRAY, setKey marks.parent start none⟩
      [(start, adjacency start)] where
  nodup := List.nodup_singleton _
  placed := by simpa using hstart
  entered := by simp [setKey]
  gray n hn hc := by
    by_cases hne : n = start
    · simp [hne]
    · exact absurd (by simpa [setKey, hne] using hc) (hgray n hn)
  links := List.isChain_singleton _
  rest := by simp

/-- Entering a white neighbour stacks it on its parent. -/
theorem Stacked.push {nodes : List N} {adjacency : N → List N} {marks : Marks N} {node nxt : N}
    {it it' : List N} {stack : List (N × List N)}
    (h : Stacked nodes adjacency marks ((node, it) :: stack))
    (hscan : scan nodes marks.color it = .advanced nxt it') :
    Stacked nodes adjacency
      ⟨setKey marks.color nxt .GRAY, setKey marks.parent nxt (some node)⟩
      ((nxt, adjacency nxt) :: (node, it') :: stack) := by
  obtain ⟨hnode, hwhite⟩ := scan_advanced hscan
  obtain ⟨hit, hsub⟩ := scan_advanced_sub hscan
  have hfresh : nxt ∉ ((node, it) :: stack).map Prod.fst := fun hmem => h.entered nxt hmem hwhite
  have hne : ∀ n ∈ node :: stack.map Prod.fst, n ≠ nxt := fun n hn he => hfresh (he ▸ hn)
  constructor
  · exact List.nodup_cons.mpr ⟨hfresh, h.nodup⟩
  · exact List.cons_subset.mpr ⟨hnode, h.placed⟩
  · intro n hn
    rcases List.mem_cons.mp hn with rfl | hn
    · simp [setKey]
    · simpa [setKey, hne n hn] using h.entered n hn
  · intro n hn hc
    by_cases heq : n = nxt
    · simp [heq]
    · exact List.mem_cons_of_mem _ (h.gray n hn (by simpa [setKey, heq] using hc))
  · refine List.isChain_cons_cons.mpr ⟨⟨by simp [setKey], ?_⟩, ?_⟩
    · exact h.rest _ List.mem_cons_self hit
    · -- the links below are those of names other than the new one
      refine List.IsChain.imp_of_mem_imp (fun a b ha _ hab => ?_) h.links
      exact ⟨by simpa [setKey, hne a ha] using hab.1, hab.2⟩
  · intro x hx
    rcases List.mem_cons.mp hx with rfl | hx
    · exact List.Subset.refl _
    · rcases List.mem_cons.mp hx with rfl | hx
      · exact List.Subset.trans hsub (h.rest _ List.mem_cons_self)
      · exact h.rest x (List.mem_cons_of_mem _ hx)

/-- Leaving a node whose iterator is exhausted unstacks it. -/
theorem Stacked.pop {nodes : List N} {adjacency : N → List N} {marks : Marks N} {node : N}
    {it : List N} {stack : List (N × List N)}
    (h : Stacked nodes adjacency marks ((node, it) :: stack)) :
    Stacked nodes adjacency { marks with color := setKey marks.color node .BLACK } stack where
  nodup := (List.nodup_cons.mp h.nodup).2
  placed := fun n hn => h.placed (List.mem_cons_of_mem _ hn)
  entered n hn := by
    by_cases hne : n = node
    · simp [setKey, hne]
    · simpa [setKey, hne] using h.entered n (List.mem_cons_of_mem _ hn)
  gray n hn hc := by
    by_cases hne : n = node
    · simp [setKey, hne] at hc
    · have hmem := h.gray n hn (by simpa [setKey, hne] using hc)
      simpa [hne] using hmem
  links := h.links.tail
  rest x hx := h.rest x (List.mem_cons_of_mem _ hx)

/-- The walk up the parent links reads the stack off, down to the node it looks for. -/
theorem rebuildPath_eq {parent : N → Option N} {nxt : N} {below : List N} :
    ∀ {node : N} {fuel : Nat}, (node :: below).IsChain (fun a b => parent a = some b) →
      nxt ∈ below → below.length ≤ fuel →
      ∃ pre post, below = pre ++ nxt :: post ∧
        rebuildPath parent nxt fuel (parent node) = pre := by
  induction below with
  | nil => simp
  | cons c below ih =>
    intro node fuel hchain hmem hfuel
    obtain ⟨hlink, hrest⟩ := List.isChain_cons_cons.mp hchain
    obtain ⟨fuel, rfl⟩ : ∃ k, fuel = k + 1 := ⟨fuel - 1, by simp at hfuel; omega⟩
    by_cases hc : c = nxt
    · exact ⟨[], below, by simp [hc], by simp [hlink, rebuildPath, hc]⟩
    · have hmem' : nxt ∈ below := by simpa [Ne.symm hc] using hmem
      obtain ⟨pre, post, hbelow, hpath⟩ := ih hrest hmem' (by simpa using hfuel)
      exact ⟨c :: pre, post, by simp [hbelow], by simp [hlink, rebuildPath, hc, hpath]⟩

/-- A back edge closes a cycle. -/
theorem Stacked.backEdge {nodes : List N} {adjacency : N → List N} {marks : Marks N}
    {node nxt : N} {it : List N} {stack : List (N × List N)}
    (h : Stacked nodes adjacency marks ((node, it) :: stack)) (hself : ∀ n, n ∉ adjacency n)
    (hscan : scan nodes marks.color it = .backEdge nxt) :
    IsCycle (fun a b => b ∈ adjacency a)
      ([nxt, node] ++ rebuildPath marks.parent nxt nodes.length (marks.parent node)).reverse := by
  obtain ⟨hit, hnode, hgray⟩ := scan_backEdge hscan
  have hedge : nxt ∈ adjacency node := h.rest _ List.mem_cons_self hit
  have hne : nxt ≠ node := fun he => hself node (he ▸ hedge)
  have hbelow : nxt ∈ stack.map Prod.fst := by simpa [hne] using h.gray nxt hnode hgray
  have hfuel : (stack.map Prod.fst).length ≤ nodes.length := by
    have := (h.nodup.subperm h.placed).length_le
    simp only [List.map_cons, List.length_cons] at this
    omega
  obtain ⟨pre, post, hsplit, hpath⟩ :=
    rebuildPath_eq (h.links.imp fun _ _ hab => hab.1) hbelow hfuel
  rw [hpath]
  have hstack : (node :: pre ++ nxt :: post).IsChain fun a b => a ∈ adjacency b := by
    have := h.links.imp fun _ _ hab => hab.2
    rwa [List.map_cons, hsplit] at this
  exact isCycle_of_stack hstack hedge

/-- `visit` reports a cycle, or leaves no node grey. -/
theorem visitLoop_reports {nodes : List N} {adjacency : N → List N} {marks : Marks N}
    {stack : List (N × List N)} (hself : ∀ n, n ∉ adjacency n)
    (h : Stacked nodes adjacency marks stack) :
    (∀ path, visitLoop nodes adjacency marks stack = .inl path →
      IsCycle (fun a b => b ∈ adjacency a) path) ∧
    (∀ marks', visitLoop nodes adjacency marks stack = .inr marks' →
      ∀ n ∈ nodes, marks'.color n ≠ .GRAY) := by
  fun_induction visitLoop nodes adjacency marks stack with
  | case1 marks =>
    refine ⟨by simp, fun marks' heq n hn hc => ?_⟩
    obtain rfl := Sum.inr.inj heq
    simpa using h.gray n hn hc
  | case2 marks node it stack nxt it' hscan ih => exact ih (h.push hscan)
  | case3 marks node it stack nxt hscan =>
    refine ⟨fun path heq => ?_, by simp⟩
    obtain rfl := Sum.inl.inj heq
    exact h.backEdge hself hscan
  | case4 marks node it stack hscan ih => exact ih h.pop

/-- The outer loop reports only cycles. -/
theorem findCycleFrom_isCycle {nodes : List N} {adjacency : N → List N} {marks : Marks N}
    {rest path : List N} (hself : ∀ n, n ∉ adjacency n)
    (h : findCycleFrom nodes adjacency marks rest = some path) (hrest : rest ⊆ nodes)
    (hgray : ∀ n ∈ nodes, marks.color n ≠ .GRAY) :
    IsCycle (fun a b => b ∈ adjacency a) path := by
  induction rest generalizing marks with
  | nil => cases h
  | cons node rest ih =>
    obtain ⟨hnode, hrest'⟩ := List.cons_subset.mp hrest
    obtain ⟨hpath, hmarks⟩ :=
      visitLoop_reports hself (show Stacked nodes adjacency _ _ from Stacked.start hnode hgray)
    unfold findCycleFrom at h
    split at h
    · split at h
      · rename_i p hvisit
        obtain rfl := Option.some.inj h
        exact hpath p hvisit
      · rename_i marks' hvisit
        exact ih h hrest' (hmarks marks' hvisit)
    · exact ih h hrest' hgray

/-- **Soundness of the search**: in a graph without self-loops a reported path is a cycle. -/
theorem findCycle_isCycle {nodes : List N} {adjacency : N → List N} {path : List N}
    (hself : ∀ n, n ∉ adjacency n) (h : findCycle nodes adjacency = some path) :
    IsCycle (fun a b => b ∈ adjacency a) path :=
  findCycleFrom_isCycle hself h (List.Subset.refl _) (by simp)

end FindCycle

end AiAgentsSwd.Planning
