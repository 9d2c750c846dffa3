import Mathlib.Data.List.Chain

/-!
# Digraph.Cycle — directed cycles as lists of nodes

`IsCycle edge path`: consecutive elements of `path` are edges, and the last element has an
edge to the first. A relation with a rank that every edge lowers has no cycle, and the part
of a search stack above a node with an edge back into it is one.
-/

namespace Digraph

variable {N : Type} {edge : N → N → Prop}

/-- A directed cycle, as the list of its nodes. -/
def IsCycle (edge : N → N → Prop) (path : List N) : Prop :=
  path.IsChain edge ∧ ∃ a ∈ path.head?, ∃ z ∈ path.getLast?, edge z a

/-- A cycle leads from its first node back to it. -/
theorem IsCycle.transGen {path : List N} (h : IsCycle edge path) :
    ∃ n ∈ path, Relation.TransGen edge n n := by
  obtain ⟨hchain, a, ha, z, hz, hedge⟩ := h
  rcases path with - | ⟨b, l⟩
  · cases ha
  · obtain rfl : b = a := Option.some.inj ha
    have hreach := List.relationReflTransGen_of_exists_isChain_cons l hchain
      (b := z) (Option.some.inj (by rw [← List.getLast?_eq_some_getLast]; exact hz))
    exact ⟨b, List.mem_cons_self, Relation.TransGen.tail' hreach hedge⟩

/-- Edges that lower a rank lead from no node back to it. -/
theorem not_transGen_of_rank {r : N → Nat} (hr : ∀ n m, edge n m → r m < r n) (n : N) :
    ¬ Relation.TransGen edge n n := by
  intro h
  have hlt : ∀ m, Relation.TransGen edge n m → r m < r n := by
    intro m hm
    induction hm with
    | single hnm => exact hr _ _ hnm
    | tail _ hmk ih => exact (hr _ _ hmk).trans ih
  exact absurd (hlt n h) (lt_irrefl _)

/-- A search stack, top first, whose every node is a successor of the one below it: an edge
from the top to a node in it closes a cycle, which runs from just above that node to the
top and back. -/
theorem isCycle_of_stack {node nxt : N} {pre post : List N}
    (hstack : (node :: pre ++ nxt :: post).IsChain (fun a b => edge b a))
    (hback : edge node nxt) : IsCycle edge (nxt :: node :: pre).reverse := by
  constructor
  · refine List.isChain_reverse.mpr ?_
    exact List.isChain_cons_cons.mpr ⟨hback, hstack.left_of_append⟩
  · have hlast := (List.isChain_append.mp hstack).2.2
    obtain ⟨z, hz⟩ : ∃ z, z ∈ (node :: pre).getLast? :=
      ⟨_, List.getLast?_eq_some_getLast (List.cons_ne_nil _ _)⟩
    refine ⟨z, ?_, nxt, by simp, hlast z hz nxt (by simp)⟩
    rw [List.head?_reverse, List.getLast?_cons_cons]
    exact hz

end Digraph
