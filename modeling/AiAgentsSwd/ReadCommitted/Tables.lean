import AiAgentsSwd.Keyed.Evolves
import AiAgentsSwd.ReadCommitted.Rules

/-!
# ReadCommitted.Tables — what a session may rely on about a table

When the guarantee says that a table of the state evolves under row locks
(`Keyed.Evolves`), a session that holds the lock of a row sees it unchanged, present or
absent, and every session sees a row that was once there stay the same one. A session that
holds an index entry (`Keyed.Entered`) sees no new row with it.
-/

namespace ReadCommitted

open Keyed (Table Evolves Entered)

variable {σ κ K R : Type} [DecidableEq K] {Inv : σ → Prop} {Guar : List κ → σ → σ → Prop}
variable {L : List κ} {s t : σ} {T : σ → Table K R} {lock : K → κ} {same : R → R → Prop}

/-- The holder of a row lock sees the row unchanged. -/
theorem Rely.row (h : Rely Inv Guar L s t)
    (hT : ∀ l a b, Guar l a b → Evolves lock same l (T a) (T b)) {k : K} (hk : lock k ∈ L) :
    (T t).find? k = (T s).find? k := by
  apply h.keeps (P := fun t => (T t).find? k = (T s).find? k) _ rfl
  intro a b l _ _ hg hl hab
  have hout : lock k ∉ l := fun hmem => hl _ hmem hk
  rw [(hT l a b hg).eq_of_not_mem hout, hab]

/-- A row that is there stays the same one. -/
theorem Rely.same_row (h : Rely Inv Guar L s t)
    (hT : ∀ l a b, Guar l a b → Evolves lock same l (T a) (T b)) (hr : ∀ x, same x x)
    (htrans : ∀ x y z, same x y → same y z → same x z) {k : K} {x : R}
    (hx : (T s).find? k = some x) : ∃ y, (T t).find? k = some y ∧ same x y := by
  apply h.keeps (P := fun t => ∃ y, (T t).find? k = some y ∧ same x y) _ ⟨x, hx, hr x⟩
  rintro a b l _ _ hg _ ⟨y, hy, hxy⟩
  rcases (hT l a b hg).find_same hy with ⟨z, hz, hyz⟩
  exact ⟨z, hz, htrans x y z hxy hyz⟩

/-- In a table whose rows never change, a row that is there stays as it is. -/
theorem Rely.fixed (h : Rely Inv Guar L s t)
    (hT : ∀ l a b, Guar l a b → Evolves lock (fun x y => y = x) l (T a) (T b)) {k : K} {x : R}
    (hx : (T s).find? k = some x) : (T t).find? k = some x := by
  rcases h.same_row hT (fun _ => rfl) (fun x y z hxy hyz => hyz.trans hxy) hx with ⟨y, hy, rfl⟩
  exact hy

/-- The holder of an index entry sees no new row with it. -/
theorem Rely.entered (h : Rely Inv Guar L s t) {e : κ} {p : R → Prop}
    (hT : ∀ l a b, Guar l a b → Entered e p l (T a) (T b)) (he : e ∈ L) {k : K} {y : R}
    (hy : (T t).find? k = some y) (hp : p y) : ∃ x, (T s).find? k = some x ∧ p x := by
  have hback : ∀ k y, (T t).find? k = some y → p y → ∃ x, (T s).find? k = some x ∧ p x := by
    apply h.keeps (P := fun t => ∀ k y, (T t).find? k = some y → p y →
      ∃ x, (T s).find? k = some x ∧ p x)
    · intro a b l _ _ hg hl ih k y hy hp
      rcases hT l a b hg k y hy hp with hmem | ⟨x, hx, hpx⟩
      · exact absurd he (hl _ hmem)
      · exact ih k x hx hpx
    · exact fun k y hy hp => ⟨y, hy, hp⟩
  exact hback k y hy hp

end ReadCommitted
