import AiAgentsSwd.Text.Segments
import AiAgentsSwd.Workspace.PathSafety

/-!
# Workspace.Paths — the texts of paths

A resolved path and its text say the same: `render_inj`, and `under_render`, which reads
`_under` as a prefix of names.
-/

namespace AiAgentsSwd.Workspace

open ApprovalPolicy (segments)
open Symlinks (Step)

theorem Name.val_injective : Function.Injective Name.val := fun _ _ h => Name.ext h

theorem component_name (name : Name) : component name.val = .into name := by
  unfold component
  rw [if_neg name.ne_up, dif_pos ⟨name.ne_nil, name.ne_dot, name.ne_up, name.slash_not_mem⟩]

theorem segments_flatMap (p : List Name) :
    segments (p.flatMap fun name => '/' :: name.val) = [] :: p.map Name.val := by
  unfold segments
  have h : ∀ u, '/' ∉ u → (u ++ p.flatMap fun name => '/' :: name.val).splitOn '/' =
      u :: p.map Name.val := by
    induction p with
    | nil =>
      intro u hu
      rw [List.flatMap_nil, List.append_nil, List.splitOn_eq_singleton hu]
      rfl
    | cons name p ih =>
      intro u hu
      rw [List.flatMap_cons, List.cons_append, List.splitOn_append_cons_self_of_not_mem hu,
        ih name.val name.slash_not_mem]
      rfl
  exact h [] nofun

theorem components_flatMap (p : List Name) :
    components (p.flatMap fun name => '/' :: name.val) = .stay :: p.map .into := by
  unfold components
  rw [segments_flatMap, List.map_cons, List.map_map]
  have hstay : component [] = .stay := rfl
  rw [hstay]
  congr 1
  exact List.map_congr_left fun name _ => component_name name

theorem render_of_ne {p : List Name} (hp : p ≠ []) :
    render p = p.flatMap fun name => '/' :: name.val := if_neg hp

theorem render_nil : render [] = ['/'] := rfl

theorem render_inj {p q : List Name} (h : render p = render q) : p = q := by
  have hsegments : ∀ p : List Name, p ≠ [] → segments (render p) = [] :: p.map Name.val := by
    intro p hp
    rw [render_of_ne hp, segments_flatMap]
  have hroot : segments (render []) = [[], []] := by
    rw [render_nil]
    unfold segments
    rfl
  -- no name is empty, so that only the root has an empty second segment
  have hne : ∀ p : List Name, p ≠ [] → render p ≠ render [] := by
    intro p hp heq
    have hs := congrArg segments heq
    rw [hsegments p hp, hroot, List.cons.injEq] at hs
    have hmem : ([] : List Char) ∈ p.map Name.val := by
      rw [hs.2]
      exact List.mem_singleton_self _
    rcases List.mem_map.mp hmem with ⟨name, -, hname⟩
    exact name.ne_nil hname
  by_cases hp : p = []
  · by_cases hq : q = []
    · rw [hp, hq]
    · rw [hp] at h
      exact absurd h.symm (hne q hq)
  · by_cases hq : q = []
    · rw [hq] at h
      exact absurd h (hne p hp)
    · have hs := congrArg segments h
      rw [hsegments p hp, hsegments q hq, List.cons.injEq] at hs
      exact List.map_injective_iff.mpr Name.val_injective hs.2

theorem rstripSlash_render {p : List Name} (hp : p ≠ []) : rstripSlash (render p) = render p := by
  rcases List.eq_nil_or_concat p with rfl | ⟨init, name, rfl⟩
  · exact absurd rfl hp
  rw [render_of_ne hp]
  unfold rstripSlash
  rw [List.concat_eq_append, List.flatMap_append, List.flatMap_singleton]
  rcases List.eq_nil_or_concat name.val with hnil | ⟨s, c, hs⟩
  · exact absurd hnil name.ne_nil
  have hc : c ≠ '/' := by
    rintro rfl
    exact name.slash_not_mem (by rw [hs]; simp)
  rw [hs]
  simp [hc]

theorem under_render {child parent : List Name} :
    under (render child) (render parent) = true ↔ parent <+: child := by
  unfold under
  by_cases hparent : parent = []
  · rw [hparent, render_nil]
    have hstrip : rstripSlash ['/'] = [] := rfl
    have hslash : ['/'].isPrefixOf (render child) = true := by
      cases child with
      | nil => rfl
      | cons name child =>
        rw [render_of_ne (List.cons_ne_nil _ _), List.flatMap_cons]
        simp
    rw [hstrip]
    simp only [List.nil_append, hslash, Bool.or_true, List.nil_prefix]
  · rw [rstripSlash_render hparent]
    simp only [Bool.or_eq_true, beq_iff_eq, List.isPrefixOf_iff_prefix]
    constructor
    · intro h
      rcases h with heq | ⟨rest, hrest⟩
      · rw [render_inj heq]
      · have hchild : child ≠ [] := by
          rintro rfl
          have hlen := congrArg List.length hrest
          rw [render_nil, render_of_ne hparent] at hlen
          cases parent with
          | nil => exact hparent rfl
          | cons name parent => simp at hlen
        -- the names of the parent come first among the segments of the child
        have hs := congrArg segments hrest
        rw [render_of_ne hchild, segments_flatMap, List.append_assoc, List.singleton_append] at hs
        unfold segments at hs
        rw [List.splitOn_append_cons_self] at hs
        have hp := segments_flatMap parent
        unfold segments at hp
        rw [render_of_ne hparent, hp, List.cons_append, List.cons.injEq] at hs
        have hprefix : parent.map Name.val <+: child.map Name.val := ⟨_, hs.2⟩
        exact (List.prefix_map_iff_of_injective Name.val_injective).mp hprefix
    · rintro ⟨rest, rfl⟩
      cases rest with
      | nil => exact Or.inl (by rw [List.append_nil])
      | cons name rest =>
        refine Or.inr ⟨name.val ++ rest.flatMap fun name => '/' :: name.val, ?_⟩
        rw [render_of_ne hparent, render_of_ne (by simp), List.flatMap_append, List.flatMap_cons]
        simp

end AiAgentsSwd.Workspace
