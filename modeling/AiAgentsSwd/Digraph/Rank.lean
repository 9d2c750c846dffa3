import Mathlib.Data.List.Basic
import Mathlib.Order.WellFounded

/-!
# Digraph.Rank — finishing orders and ranks

A directed graph is acyclic on a set of nodes when its edges strictly lower some rank.
Depth-first search proves acyclicity by *finishing* nodes: a node may finish only when
every node it points to has finished. `Finished` is that order, `rank` reads a rank off
it, and `exists_minimal` is the induction principle a rank gives.
-/

namespace Digraph

variable {N : Type} (succ : N → List N)

/-- A finishing order, latest first: every successor of a node finished before it. -/
inductive Finished : List N → Prop where
  | nil : Finished []
  | cons {n : N} {l : List N} (hl : Finished l) (hn : ∀ m ∈ succ n, m ∈ l) : Finished (n :: l)

variable [DecidableEq N]

/-- The position at which a node first finished, counted from one. -/
def rank : List N → N → Nat
  | [], _ => 0
  | n :: l, x => if x ∈ l then rank l x else if x = n then l.length + 1 else 0

theorem rank_le_length (l : List N) (x : N) : rank l x ≤ l.length := by
  induction l with
  | nil => simp [rank]
  | cons n l ih =>
    unfold rank
    split
    · exact ih.trans (by simp)
    · split <;> simp

variable {succ}

/-- An edge between finished nodes lowers the rank. -/
theorem rank_lt {l : List N} (h : Finished succ l) {n m : N} (hn : n ∈ l) (hm : m ∈ succ n) :
    m ∈ l ∧ rank l m < rank l n := by
  induction h with
  | nil => cases hn
  | @cons x l hl hx ih =>
    by_cases hnl : n ∈ l
    · -- `n` finished earlier already
      obtain ⟨hml, hlt⟩ := ih hnl
      refine ⟨List.mem_cons_of_mem _ hml, ?_⟩
      simpa [rank, hml, hnl] using hlt
    · obtain rfl : n = x := by
        rcases List.mem_cons.mp hn with h | h
        · exact h
        · exact absurd h hnl
      have hml : m ∈ l := hx m hm
      refine ⟨List.mem_cons_of_mem _ hml, ?_⟩
      have hle := rank_le_length l m
      simp only [rank, hml, hnl, if_true, if_false]
      omega

omit [DecidableEq N] in
/-- Among the nodes with a property there is one whose successors all lack it. -/
theorem exists_minimal {r : N → Nat} {P : N → Prop} {edge : N → N → Prop}
    (hr : ∀ n m, P n → edge n m → r m < r n) (hP : ∃ n, P n) :
    ∃ n, P n ∧ ∀ m, edge n m → ¬ P m := by
  obtain ⟨n, hn, hmin⟩ := WellFounded.has_min (measure r).wf {n | P n} hP
  refine ⟨n, hn, fun m hm hPm => ?_⟩
  exact hmin m hPm (hr n m hn hm)

end Digraph
