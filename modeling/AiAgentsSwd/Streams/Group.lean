import Mathlib.Data.List.Nodup
import Mathlib.Tactic.Common

/-!
# Streams.Group — a stream and one consumer group of it

The entries of a stream stay in the order they were added. A group remembers how far it has
read: reading with `>` gives the next entries and makes them pending, and an entry is pending
until it is acknowledged. What was delivered once is not delivered again by `>`.

- `Group.Wf`: distinct ids, and what is pending was delivered;
- `delivered_read`, `pending_read`: what a read adds to either.
-/

namespace Streams

variable {I M : Type}

structure Group (I M : Type) where
  entries : List (I × M)
  /-- How many of the entries have been delivered. -/
  next : Nat
  pending : List I

namespace Group

variable (g : Group I M)

/-- `XADD` -/
def add (id : I) (m : M) : Group I M := { g with entries := g.entries ++ [(id, m)] }

/-- What `XREADGROUP … >` returns. -/
def batch (count : Nat) : List (I × M) := (g.entries.drop g.next).take count

/-- The group after `XREADGROUP … >`. -/
def read (count : Nat) : Group I M :=
  { g with
    next := g.next + (g.batch count).length
    pending := g.pending ++ (g.batch count).map Prod.fst }

/-- `XACK` -/
def ack [DecidableEq I] (id : I) : Group I M := { g with pending := g.pending.filter (· ≠ id) }

/-- The entries delivered so far. -/
def delivered : List (I × M) := g.entries.take g.next

/-- Ids are distinct, and the pending ones are among the delivered ones. -/
structure Wf : Prop where
  ids : (g.entries.map Prod.fst).Nodup
  next_le : g.next ≤ g.entries.length
  pending_subset : ∀ id ∈ g.pending, id ∈ g.delivered.map Prod.fst

variable {g}

theorem delivered_add (h : g.Wf) (id : I) (m : M) : (g.add id m).delivered = g.delivered :=
  List.take_append_of_le_length h.next_le

theorem delivered_read (count : Nat) :
    (g.read count).delivered = g.delivered ++ g.batch count := by
  have htake : (g.entries.drop g.next).take (g.batch count).length = g.batch count := by
    unfold batch
    exact List.prefix_iff_eq_take.mp (List.take_prefix _ _) |>.symm
  unfold delivered read
  simp only
  rw [List.take_add, htake]

theorem Wf.add (h : g.Wf) {id : I} (m : M) (hnew : id ∉ g.entries.map Prod.fst) :
    (g.add id m).Wf where
  ids := by
    unfold Group.add
    rw [List.map_append, List.map_singleton]
    exact h.ids.append (List.nodup_singleton id) (by simpa using hnew)
  next_le := by
    have hle := h.next_le
    show g.next ≤ (g.entries ++ [(id, m)]).length
    rw [List.length_append, List.length_singleton]
    omega
  pending_subset := by
    rw [delivered_add h]
    exact h.pending_subset

theorem Wf.read (h : g.Wf) (count : Nat) : (g.read count).Wf where
  ids := h.ids
  next_le := by
    have hle := h.next_le
    have hbatch : (g.batch count).length ≤ g.entries.length - g.next := by
      unfold batch
      rw [List.length_take, List.length_drop]
      omega
    unfold Group.read
    simp only
    omega
  pending_subset := by
    intro id hid
    rw [delivered_read, List.map_append, List.mem_append]
    rcases List.mem_append.mp hid with hold | hnew
    · exact Or.inl (h.pending_subset id hold)
    · exact Or.inr hnew

theorem Wf.ack [DecidableEq I] (h : g.Wf) (id : I) : (g.ack id).Wf where
  ids := h.ids
  next_le := h.next_le
  pending_subset i hi := h.pending_subset i (List.mem_of_mem_filter hi)

/-- What is read has not been delivered before. -/
theorem Wf.not_delivered (h : g.Wf) {count : Nat} {e : I × M} (he : e ∈ g.batch count) :
    e.1 ∉ g.delivered.map Prod.fst := by
  have hids := h.ids
  rw [← List.take_append_drop g.next g.entries, List.map_append] at hids
  have hdisjoint := (List.nodup_append.mp hids).2.2
  intro hold
  have hnew : e.1 ∈ (g.entries.drop g.next).map Prod.fst :=
    List.mem_map_of_mem (List.mem_of_mem_take he)
  exact hdisjoint _ hold _ hnew rfl

theorem Wf.batch_nodup (h : g.Wf) (count : Nat) : ((g.batch count).map Prod.fst).Nodup := by
  refine h.ids.sublist (List.Sublist.map _ ?_)
  exact (List.take_sublist _ _).trans (List.drop_sublist _ _)

end Group

end Streams
