import Mathlib.Data.List.Infix

/-!
# Symlinks.Basic — where a path leads through symbolic links

A path is the list of the names below the root of a file system. A `Layout` says which paths are
symbolic links, and to which path each of them leads in the end; that path passes through no
link, so that a resolved path stays as it is.

- `Layout.resolved_walk`: a walk from a resolved path ends in a resolved path;
- `Layout.walk_names`: the names of a resolved path lead to it;
- `Layout.walk_eq_landing`: a walk that only goes down ends below where its last link leads.
-/

namespace Symlinks

variable {N : Type}

/-- The symbolic links of a file system, with what each of them leads to in the end. -/
structure Layout (N : Type) where
  link : List N → Option (List N)
  /-- What a link leads to passes through no link. -/
  ends : ∀ p t, link p = some t → ∀ q, q <+: t → link q = none

/-- A component of a path that is to be resolved. -/
inductive Step (N : Type) where
  /-- `.`, or nothing between two separators -/
  | stay
  /-- `..` -/
  | up
  | into (name : N)
deriving Repr, DecidableEq

/-- The name that a component goes into. -/
def Step.name? : Step N → Option N
  | .into name => some name
  | _ => none

namespace Layout

variable (l : Layout N)

/-- The path passes through no link. -/
def Resolved (p : List N) : Prop := ∀ q, q <+: p → l.link q = none

/-- Where a path leads whose parent is resolved. -/
def follow (p : List N) : List N := (l.link p).getD p

/-- The components are taken one after the other, and every link is followed at once. -/
def walk : List N → List (Step N) → List N
  | p, [] => p
  | p, .stay :: rest => walk p rest
  | p, .up :: rest => walk p.dropLast rest
  | p, .into name :: rest => walk (l.follow (p ++ [name])) rest

/-- On the way down from `t` through the names `passed`: where the last link leads, or else `t`,
and the names after it. -/
def landing (t passed : List N) : List N → List N × List N
  | [] => (t, passed)
  | name :: rest =>
    match l.link (t ++ passed ++ [name]) with
    | some target => landing target [] rest
    | none => landing t (passed ++ [name]) rest

variable {l}

theorem Resolved.of_prefix {p q : List N} (h : l.Resolved p) (hq : q <+: p) : l.Resolved q :=
  fun r hr => h r (hr.trans hq)

theorem resolved_nil : l.Resolved [] := by
  intro q hq
  rw [List.prefix_nil.mp hq]
  by_contra hlink
  have hsome := Option.isSome_iff_ne_none.mpr hlink
  -- a link at the root would lead to a path that passes through it
  have hends := l.ends [] _ (Option.some_get hsome).symm [] (List.nil_prefix)
  exact hlink hends

theorem Resolved.follow {p : List N} {name : N} (h : l.Resolved p) :
    l.Resolved (l.follow (p ++ [name])) := by
  unfold Layout.follow
  cases hlink : l.link (p ++ [name]) with
  | some t => exact l.ends _ t hlink
  | none =>
    intro q hq
    rw [Option.getD_none] at hq
    rcases List.prefix_concat_iff.mp hq with rfl | hq
    · exact hlink
    · exact h q hq

theorem resolved_walk {steps : List (Step N)} {p : List N} (h : l.Resolved p) :
    l.Resolved (l.walk p steps) := by
  induction steps generalizing p with
  | nil => exact h
  | cons s rest ih =>
    cases s with
    | stay => exact ih h
    | up => exact ih (h.of_prefix (List.dropLast_prefix p))
    | into name => exact ih h.follow

theorem walk_append (p : List N) (steps rest : List (Step N)) :
    l.walk p (steps ++ rest) = l.walk (l.walk p steps) rest := by
  induction steps generalizing p with
  | nil => rfl
  | cons s steps ih => cases s <;> exact ih _

/-- The names of a resolved path lead to it. -/
theorem walk_names {p names : List N} (h : l.Resolved (p ++ names)) :
    l.walk p (names.map .into) = p ++ names := by
  induction names generalizing p with
  | nil => simp [walk]
  | cons name rest ih =>
    have hassoc : p ++ name :: rest = p ++ [name] ++ rest := by simp
    rw [hassoc] at h ⊢
    have hnone : l.link (p ++ [name]) = none := h _ (List.prefix_append _ _)
    rw [List.map_cons, walk, Layout.follow, hnone, Option.getD_none]
    exact ih h

/-- A walk that only goes down ends below where its last link leads. -/
theorem walk_eq_landing (t passed names : List N) :
    l.walk (t ++ passed) (names.map .into) =
      (l.landing t passed names).1 ++ (l.landing t passed names).2 := by
  induction names generalizing t passed with
  | nil => rfl
  | cons name rest ih =>
    rw [List.map_cons, walk, Layout.follow, landing]
    cases l.link (t ++ passed ++ [name]) with
    | some target =>
      have h := ih target []
      rwa [List.append_nil] at h
    | none =>
      have h := ih t (passed ++ [name])
      rwa [← List.append_assoc] at h

/-- The names after the last link are the last names of the way. -/
theorem landing_suffix (t passed names : List N) :
    (l.landing t passed names).2 <:+ passed ++ names := by
  induction names generalizing t passed with
  | nil => simp [landing]
  | cons name rest ih =>
    rw [landing]
    cases l.link (t ++ passed ++ [name]) with
    | some target =>
      have h := ih target []
      rw [List.nil_append] at h
      exact h.trans ((List.suffix_cons name rest).trans (List.suffix_append passed _))
    | none =>
      have h := ih t (passed ++ [name])
      rwa [List.append_assoc, List.singleton_append] at h

end Layout

end Symlinks
