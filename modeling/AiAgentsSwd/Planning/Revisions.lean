import AiAgentsSwd.Planning.Runs
import Mathlib.Logic.Relation

/-!
# Planning.Revisions — plan revision lineage and stale-plan protection

Two results about every interleaving:

- `revision_lineage`: the revisions of a goal form one chain with one tip, the numbers of a
  project are exactly `1..n`, and an existing row changes at most from draft to accepted;
- `stale_plan`: once a successor of a revision has committed, no later commit authorizes
  work for that revision, while results of its dispatched units are still recorded.
-/

namespace AiAgentsSwd.Planning

open Keyed (Table Evolves)
open ReadCommitted ReadCommitted.Txn
open Relation (ReflTransGen TransGen)

/-! ## The chain of a goal -/

/-- The revision `r` supersedes `p`. -/
def Db.Supersedes (s : Db) (p r : Uuid) : Prop :=
  ∃ x, s.planRevisions.find? r = some x ∧ x.supersedesRevisionId = some p

/-- The revision `r` is one of the goal's. -/
def Db.RevisionOf (s : Db) (g r : Uuid) : Prop :=
  ∃ x, s.planRevisions.find? r = some x ∧ x.goalId = g

/-- The revision `r` is a root of the goal's chain. -/
def Db.RootOf (s : Db) (g r : Uuid) : Prop :=
  ∃ x, s.planRevisions.find? r = some x ∧ x.goalId = g ∧ x.supersedesRevisionId = none

/-- The revisions of the goal form one linear chain. -/
structure Db.LinearChain (s : Db) (g : Uuid) : Prop where
  root : ∀ r, s.RevisionOf g r → ∃ r₀, s.RootOf g r₀ ∧ ReflTransGen s.Supersedes r₀ r
  root_unique : ∀ r r', s.RootOf g r → s.RootOf g r' → r = r'
  successor_unique : ∀ p r r', s.Supersedes p r → s.Supersedes p r' → r = r'
  predecessor : ∀ p r x, s.planRevisions.find? r = some x → x.goalId = g →
    x.supersedesRevisionId = some p →
    ∃ y, s.planRevisions.find? p = some y ∧ y.goalId = g ∧ y.revisionNumber < x.revisionNumber
  total : ∀ r r', s.RevisionOf g r → s.RevisionOf g r' →
    ReflTransGen s.Supersedes r r' ∨ ReflTransGen s.Supersedes r' r
  acyclic : ∀ r, ¬ TransGen s.Supersedes r r

namespace Lineage

variable {s : Db}

theorem successor_unique (h : Lineage s) : Relator.RightUnique s.Supersedes := by
  rintro p r r' ⟨x, hx, hp⟩ ⟨x', hx', hp'⟩
  apply h.lineage_inj r r' x x' hx hx'
  simp only [lineageKey, hp, hp']

/-- A successor's number is larger. -/
theorem number_lt (h : Lineage s) {p r : Uuid} {x y : PlanRevision}
    (hx : s.planRevisions.find? r = some x) (hy : s.planRevisions.find? p = some y)
    (hp : x.supersedesRevisionId = some p) : y.revisionNumber < x.revisionNumber := by
  rcases h.predecessor r x p hx hp with ⟨y', hy', -, hlt⟩
  rw [hy] at hy'
  cases hy'
  exact hlt

/-- Along the chain the numbers grow. -/
theorem number_lt_of_transGen (h : Lineage s) {p r : Uuid} (hpr : TransGen s.Supersedes p r) :
    ∃ y x, s.planRevisions.find? p = some y ∧ s.planRevisions.find? r = some x ∧
      y.revisionNumber < x.revisionNumber := by
  induction hpr with
  | single hs =>
    rcases hs with ⟨x, hx, hp⟩
    rcases h.predecessor _ x _ hx hp with ⟨y, hy, -, hlt⟩
    exact ⟨y, x, hy, hx, hlt⟩
  | tail _ hs ih =>
    rcases ih with ⟨y, x, hy, hx, hlt⟩
    rcases hs with ⟨x', hx', hp⟩
    have hlt' := h.number_lt hx' hx hp
    exact ⟨y, x', hy, hx', by omega⟩

/-- Every revision is reached from a root of its goal: by induction on its number. -/
theorem exists_root (h : Lineage s) (g : Uuid) (n : Nat) : ∀ r x,
    s.planRevisions.find? r = some x → x.goalId = g → x.revisionNumber = n →
    ∃ r₀, s.RootOf g r₀ ∧ ReflTransGen s.Supersedes r₀ r := by
  induction n using Nat.strong_induction_on with
  | _ n ih =>
    intro r x hx hg hn
    cases hp : x.supersedesRevisionId with
    | none => exact ⟨r, ⟨x, hx, hg, hp⟩, .refl⟩
    | some p =>
      rcases h.predecessor r x p hx hp with ⟨y, hy, hgy, hlt⟩
      rcases ih y.revisionNumber (by omega) p y hy (hgy.trans hg) rfl with ⟨r₀, hroot, hpath⟩
      exact ⟨r₀, hroot, hpath.tail ⟨x, hx, hp⟩⟩

theorem root_unique (h : Lineage s) {g r r' : Uuid} (hr : s.RootOf g r) (hr' : s.RootOf g r') :
    r = r' := by
  rcases hr with ⟨x, hx, hg, hp⟩
  rcases hr' with ⟨x', hx', hg', hp'⟩
  apply h.lineage_inj r r' x x' hx hx'
  simp only [lineageKey, hp, hp', hg, hg']

/-- The chain is linear: it starts at one root and branches nowhere. -/
theorem linearChain (h : Lineage s) (g : Uuid) : s.LinearChain g where
  root := by
    rintro r ⟨x, hx, hg⟩
    exact h.exists_root g _ r x hx hg rfl
  root_unique := fun _ _ => h.root_unique
  successor_unique := fun _ _ _ hr hr' => h.successor_unique hr hr'
  predecessor := by
    intro p r x hx hg hp
    rcases h.predecessor r x p hx hp with ⟨y, hy, hgy, hlt⟩
    exact ⟨y, hy, hgy.trans hg, hlt⟩
  total := by
    rintro r r' ⟨x, hx, hg⟩ ⟨x', hx', hg'⟩
    rcases h.exists_root g _ r x hx hg rfl with ⟨r₀, hroot, hpath⟩
    rcases h.exists_root g _ r' x' hx' hg' rfl with ⟨r₁, hroot', hpath'⟩
    rw [← h.root_unique hroot hroot'] at hpath'
    exact ReflTransGen.total_of_right_unique h.successor_unique hpath hpath'
  acyclic := by
    intro r hr
    rcases h.number_lt_of_transGen hr with ⟨y, x, hy, hx, hlt⟩
    rw [hy] at hx
    cases hx
    omega

/-- A revision nothing supersedes is the end of every path through it. -/
theorem eq_of_tip {p r : Uuid} (hp : s.successorOf p = none)
    (hpath : ReflTransGen s.Supersedes p r) : p = r := by
  cases hpath using ReflTransGen.head_induction_on with
  | refl => rfl
  | head hstep _ =>
    rcases hstep with ⟨x, hx, hsup⟩
    exact absurd hsup (successorOf_eq_none.mp hp _ x hx)

/-- A goal with a revision has a tip: the one of the largest number. -/
theorem exists_tip (h : Lineage s) {g r : Uuid} (hr : s.RevisionOf g r) :
    ∃ e, e ∈ s.currentRevisions g := by
  let rows := s.planRevisions.rows.filter fun e => e.2.goalId = g
  have hle : ∀ e ∈ rows, e.2.revisionNumber ≤
      (rows.map fun e => e.2.revisionNumber).foldr max 0 := by
    intro e he
    exact le_foldr_max (List.mem_map.mpr ⟨e, he, rfl⟩)
  have hmax : ∃ e ∈ rows, ∀ e' ∈ rows, e'.2.revisionNumber ≤ e.2.revisionNumber := by
    rcases foldr_max_mem (rows.map fun e => e.2.revisionNumber) with h0 | hmem
    · rcases hr with ⟨x, hx, hg⟩
      have hmem : (r, x) ∈ rows := List.mem_filter.mpr ⟨Table.mem_rows.mpr hx, by simp [hg]⟩
      have hzero := hle _ hmem
      have hpos := h.number_pos r x hx
      dsimp only at hzero
      omega
    · rcases List.mem_map.mp hmem with ⟨e, he, heq⟩
      exact ⟨e, he, fun e' he' => by rw [heq]; exact hle e' he'⟩
  rcases hmax with ⟨e, he, hmax⟩
  rcases List.mem_filter.mp he with ⟨hrow, hg⟩
  refine ⟨e, List.mem_filter.mpr ⟨hrow, ?_⟩⟩
  have hg' : e.2.goalId = g := of_decide_eq_true hg
  have htip : s.successorOf e.1 = none := by
    rw [successorOf_eq_none]
    intro r' x' hx' hsup
    rcases h.predecessor r' x' e.1 hx' hsup with ⟨y, hy, hgy, hlt⟩
    have hye : y = e.2 := Option.some.inj (hy.symm.trans (Table.mem_rows.mp hrow))
    have hmem : (r', x') ∈ rows := by
      refine List.mem_filter.mpr ⟨Table.mem_rows.mpr hx', ?_⟩
      rw [decide_eq_true_eq, ← hgy, hye, hg']
    have hle := hmax (r', x') hmem
    rw [hye] at hlt
    dsimp only at hle
    omega
  simp [hg', htip]

/-- A goal with a revision has exactly one current one. -/
theorem currentRevisions_eq (h : Lineage s) {g r : Uuid} (hr : s.RevisionOf g r) :
    ∃ e, s.currentRevisions g = [e] := by
  rcases h.exists_tip hr with ⟨e, he⟩
  refine ⟨e, ?_⟩
  have hnodup : (s.currentRevisions g).Nodup := s.planRevisions.nodup_rows.filter _
  apply List.perm_singleton.mp
  rw [List.perm_ext_iff_of_nodup hnodup (List.nodup_singleton e)]
  intro e'
  rw [List.mem_singleton]
  constructor
  · intro he'
    rcases List.mem_filter.mp he with ⟨hrow, hcur⟩
    rcases List.mem_filter.mp he' with ⟨hrow', hcur'⟩
    rw [decide_eq_true_eq] at hcur hcur'
    have hf := Table.mem_rows.mp hrow
    have hf' := Table.mem_rows.mp hrow'
    have hkey : e'.1 = e.1 := by
      rcases (h.linearChain g).total e'.1 e.1 ⟨_, hf', hcur'.1⟩ ⟨_, hf, hcur.1⟩ with hp | hp
      · exact eq_of_tip hcur'.2 hp
      · exact (eq_of_tip hcur.2 hp).symm
    rw [hkey, hf] at hf'
    exact Prod.ext hkey (Option.some.inj hf').symm
  · rintro rfl
    exact he

/-- The numbers of a project are `1..n`. -/
theorem numbers_perm (h : Lineage s) (p : Uuid) :
    ((s.planRevisions.rows.filter fun e => e.2.projectId = p).map
      fun e => e.2.revisionNumber).Perm (List.range' 1 (s.maxRevisionNumber p)) := by
  have hnodup : ((s.planRevisions.rows.filter fun e => e.2.projectId = p).map
      fun e => e.2.revisionNumber).Nodup := by
    apply (s.planRevisions.nodup_rows.filter _).map_on
    rintro ⟨r, x⟩ he ⟨r', x'⟩ he' hnum
    rcases List.mem_filter.mp he with ⟨hrow, hp⟩
    rcases List.mem_filter.mp he' with ⟨hrow', hp'⟩
    have hf := Table.mem_rows.mp hrow
    have hf' := Table.mem_rows.mp hrow'
    have hproj : x.projectId = x'.projectId :=
      (of_decide_eq_true hp).trans (of_decide_eq_true hp').symm
    have hr : r = r' := h.number_inj r r' x x' hf hf' hproj hnum
    subst hr
    rw [hf] at hf'
    cases hf'
    rfl
  rw [List.perm_ext_iff_of_nodup hnodup List.nodup_range']
  intro k
  rw [List.mem_range'_1]
  constructor
  · intro hk
    rcases List.mem_map.mp hk with ⟨⟨r, x⟩, he, rfl⟩
    rcases List.mem_filter.mp he with ⟨hrow, hp⟩
    have hf := Table.mem_rows.mp hrow
    have hpos := h.number_pos r x hf
    have hle := le_maxRevisionNumber hf
    rw [of_decide_eq_true hp] at hle
    dsimp only
    omega
  · rintro ⟨h1, hk⟩
    rcases maxRevisionNumber_attained s p with h0 | ⟨r, x, hx, hp, hmax⟩
    · omega
    · rcases h.number_dense r x k hx h1 (by omega) with ⟨r', x', hx', hp', hn⟩
      refine List.mem_map.mpr ⟨(r', x'), List.mem_filter.mpr ⟨Table.mem_rows.mpr hx', ?_⟩, hn⟩
      rw [decide_eq_true_eq, hp', hp]

end Lineage

/-! ## What becomes of a row -/

theorem RevisionInserted.find_eq {s t : Db} {l : List RowKey} {r r' : Uuid}
    {row x : PlanRevision} (h : RevisionInserted s t l r row)
    (hx : s.planRevisions.find? r' = some x) : t.planRevisions.find? r' = some x := by
  have hne : r' ≠ r := by
    rintro rfl
    rw [(revisionConflict_eq_none.mp h.conflict).1] at hx
    cases hx
  rw [h.state]
  exact (Table.find?_insert_of_ne _ _ hne).trans hx

/-- Only `accept_revision` changes an existing revision, and only from draft to accepted. -/
theorem exec_program_revision {c : Call} {s : Db} {o : Outcome Db RowKey Reply} (hinv : Inv s)
    (h : exec (program c) s = .ok o) {r : Uuid} {x : PlanRevision}
    (hx : s.planRevisions.find? r = some x) :
    o.state.planRevisions.find? r = some x ∨
      (c = .acceptRevision r ∧ x.status = .draft ∧
        o.state.planRevisions.find? r = some { x with status := .accepted }) := by
  cases c with
  | createGoal g d =>
    rcases exec_bind_ok.mp h with ⟨o₁, _, h₁, h₂, rfl⟩
    cases h₂
    left
    rw [(exec_createGoal h₁).2.1]
    exact hx
  | createInitialRevision r' d =>
    rcases exec_bind_ok.mp h with ⟨o₁, _, h₁, h₂, rfl⟩
    cases h₂
    exact Or.inl ((exec_createInitialRevision h₁).1.find_eq hx)
  | createSuccessorRevision r' d =>
    rcases exec_bind_ok.mp h with ⟨o₁, _, h₁, h₂, rfl⟩
    cases h₂
    exact Or.inl ((exec_createSuccessorRevision hinv.revisions h₁).1.find_eq hx)
  | acceptRevision r' =>
    rcases exec_bind_ok.mp h with ⟨o₁, _, h₁, h₂, rfl⟩
    cases h₂
    rcases exec_acceptRevision h₁ with hs | ⟨row, hrow, hd, rfl⟩
    · left
      rw [hs]
      exact hx
    · by_cases hr : r = r'
      · subst hr
        rw [hrow] at hx
        cases hx
        right
        exact ⟨rfl, hd, by simp [hrow]⟩
      · exact Or.inl ((Table.find?_modify_of_ne _ _ hr).trans hx)
  | materialize g r' b ids =>
    rcases exec_bind_ok.mp h with ⟨o₁, _, h₁, h₂, rfl⟩
    cases h₂
    rcases exec_materialize h₁ with ⟨m, plan, -, -, -, hm, -⟩
    rcases hm.state with ⟨W, L, U, new, b, hs, -⟩
    left
    rw [hs]
    exact hx
  | readGraph r' =>
    rcases exec_bind_ok.mp h with ⟨o₁, _, h₁, h₂, rfl⟩
    cases h₂
    left
    rw [exec_readGraph h₁]
    exact hx
  | applyAssignment u d a i now =>
    rcases exec_bind_ok.mp h with ⟨o₁, _, h₁, h₂, rfl⟩
    cases h₂
    left
    rcases exec_applyAssignment h₁ with ⟨z, -, -, -, ⟨-, -, hs⟩ | ⟨-, -, hs⟩ |
      ⟨-, -, -, p, st, -, hs⟩⟩ <;> rw [hs] <;> exact hx
  | createDispatch u a c now =>
    rcases exec_bind_ok.mp h with ⟨o₁, _, h₁, h₂, rfl⟩
    cases h₂
    left
    rcases exec_createDispatch h₁ with ⟨z, -, -, -, ⟨-, hs, -⟩ |
      ⟨-, -, -, -, p, st, E, -, -, -, hs⟩⟩ <;> rw [hs] <;> exact hx
  | markDispatchPublished u now =>
    rcases exec_bind_ok.mp h with ⟨o₁, _, h₁, h₂, rfl⟩
    cases h₂
    left
    rcases exec_markDispatchPublished.mp h₁ with ⟨d, -, -, rfl⟩ | ⟨-, rfl⟩ <;> exact hx
  | recordResult u d ref now =>
    rcases exec_bind_ok.mp h with ⟨o₁, _, h₁, h₂, rfl⟩
    cases h₂
    left
    rcases exec_recordResult hinv.shape hinv.books h₁ with ⟨z, -, -, -, ⟨-, -, hs⟩ |
      ⟨-, -, -, E, cs, hp, -, -⟩⟩
    · rw [hs]
      exact hx
    · rcases hp.state with ⟨U, W, hs⟩
      rw [hs]
      exact hx
  | setLifecycleState w st now =>
    rcases exec_bind_ok.mp h with ⟨o₁, _, h₁, h₂, rfl⟩
    cases h₂
    left
    rw [exec_setLifecycleState] at h₁
    rw [h₁]
    exact hx

/-! ## The lineage of every interleaving -/

/-- The revisions of each goal form one chain with one tip, the revision numbers of each
project are `1..n`, and no commit changes a revision except to accept a draft. -/
theorem revision_lineage {ι : Type} [DecidableEq ι] {y : PlanSys ι} (hy : PlanReachable y) :
    (∀ g, y.db.LinearChain g) ∧
    (∀ g r, y.db.RevisionOf g r →
      ∃ e, y.db.currentRevisions g = [e] ∧ y.db.getCurrentRevision g = some e) ∧
    (∀ p, ∃ n, ((y.db.planRevisions.rows.filter fun e => e.2.projectId = p).map
      fun e => e.2.revisionNumber).Perm (List.range' 1 n)) ∧
    ∀ m ∈ y.log, ∀ r x, m.before.planRevisions.find? r = some x →
      m.after.planRevisions.find? r = some x ∨
        (m.call = .acceptRevision r ∧ x.status = .draft ∧
          m.after.planRevisions.find? r = some { x with status := .accepted }) := by
  have hinv := inv_of_reachable hy
  refine ⟨hinv.revisions.linearChain, fun g r hr => ?_, fun p => ?_, fun m hm r x hx => ?_⟩
  · rcases hinv.revisions.currentRevisions_eq hr with ⟨e, he⟩
    refine ⟨e, he, ?_⟩
    unfold Db.getCurrentRevision
    rw [he, List.head?_cons]
  · exact ⟨_, hinv.revisions.numbers_perm p⟩
  · rcases commit_of_mem hy hm with ⟨hb, ⟨-, heq⟩ | ⟨l, hl⟩⟩
    · rw [heq]
      exact Or.inl hx
    · exact exec_program_revision hb hl hx

/-- The lineage of the sample goal after its plan was revised. -/
theorem revision_lineage_fanIn :
    (fanIn 11).db.LinearChain ⟨1⟩ ∧
    ((fanIn 11).db.getCurrentRevision ⟨1⟩).map Prod.fst = some ⟨3⟩ ∧
    ∃ n, (((fanIn 11).db.planRevisions.rows.filter fun e => e.2.projectId = ⟨0⟩).map
      fun e => e.2.revisionNumber).Perm (List.range' 1 n) := by
  have h := revision_lineage (reachable_fanIn 11)
  exact ⟨h.1 ⟨1⟩, by decide +kernel, h.2.2.1 ⟨0⟩⟩

/-! ## Stale-plan protection -/

/-- A commit that inserts a successor of `R`. -/
def InsertsSuccessor (R : Uuid) (m : Commit Db Reply Call) : Prop :=
  ∃ r x, m.before.planRevisions.find? r = none ∧ m.after.planRevisions.find? r = some x ∧
    x.supersedesRevisionId = some R

/-- A commit that creates a graph for `R`. -/
def CreatesGraph (R : Uuid) (m : Commit Db Reply Call) : Prop :=
  m.before.planExecutionGraphs.find? R = none ∧ (m.after.planExecutionGraphs.find? R).isSome

/-- A commit that moves a unit of `R` from ready to assigned. -/
def Assigns (R : Uuid) (m : Commit Db Reply Call) : Prop :=
  ∃ u x z, m.before.planExecutionUnits.find? u = some x ∧ x.planRevisionId = R ∧
    x.state = .ready ∧ m.after.planExecutionUnits.find? u = some z ∧ z.state = .assigned

/-- A commit that inserts a dispatch for a unit of `R`. -/
def Dispatches (R : Uuid) (m : Commit Db Reply Call) : Prop :=
  ∃ u z d, m.before.planExecutionDispatches.find? u = none ∧
    m.after.planExecutionDispatches.find? u = some d ∧
    m.after.planExecutionUnits.find? u = some z ∧ z.planRevisionId = R

/-- A superseded revision stays superseded. -/
theorem Guarantee.superseded {l : List RowKey} {s t : Db} (hg : Guarantee l s t) {R : Uuid}
    (hs : s.successorOf R ≠ none) : t.successorOf R ≠ none := by
  intro ht
  rw [successorOf_eq_none] at ht
  apply hs
  rw [successorOf_eq_none]
  intro r x hx hsup
  rcases hg.revisions.find_same hx with ⟨y, hy, st, rfl, -⟩
  exact ht r _ hy hsup

/-- What a commit over a superseded revision leaves alone. -/
theorem Guarantee.no_new_work {l : List RowKey} {m : Commit Db Reply Call}
    (hg : Guarantee l m.before m.after) {R : Uuid} (hs : m.before.successorOf R ≠ none) :
    ¬ CreatesGraph R m ∧ ¬ Assigns R m ∧ ¬ Dispatches R m := by
  refine ⟨?_, ?_, ?_⟩
  · rintro ⟨hn, hsome⟩
    rcases Option.isSome_iff_exists.mp hsome with ⟨g, hgr⟩
    exact hs (hg.graph_new R g hn hgr)
  · rintro ⟨u, x, z, hx, rfl, hready, hz, hass⟩
    exact hs (hg.assign u x z hx hz hready (by simp [hass]))
  · rintro ⟨u, z, d, hn, hd, hz, rfl⟩
    rcases (hg.dispatch_new u d hn hd).2 with ⟨x, hx, -, hcur⟩
    rcases hg.units.find_same hx with ⟨z', hz', hid, -⟩
    rw [hz] at hz'
    cases hz'
    have hr : z.planRevisionId = x.planRevisionId := congrArg UnitIdentity.planRevisionId hid
    rw [hr] at hs
    exact hs hcur

/-- A commit that inserts a successor leaves the revision superseded. -/
theorem InsertsSuccessor.after {m : Commit Db Reply Call} {R : Uuid} (h : InsertsSuccessor R m) :
    m.after.successorOf R ≠ none := by
  rcases h with ⟨r, x, -, hx, hsup⟩
  intro hn
  exact successorOf_eq_none.mp hn r x hx hsup

/-- From a superseded state on, no commit of a history authorizes work for the revision. -/
theorem no_new_work_after {s t : Db} {ns : List (Commit Db Reply Call)} {R : Uuid}
    (h : History program Quiet s ns t) (hinv : Inv s) (hs : s.successorOf R ≠ none) :
    ∀ n ∈ ns, ¬ CreatesGraph R n ∧ ¬ Assigns R n ∧ ¬ Dispatches R n := by
  intro n hn
  rcases List.append_of_mem hn with ⟨ms, ns', heq⟩
  rw [heq] at h
  rcases h.commit with ⟨hbefore, hser, -⟩
  have hkept : Inv n.before ∧ n.before.successorOf R ≠ none := by
    apply hbefore.keeps (P := fun s => Inv s ∧ s.successorOf R ≠ none) _ ⟨hinv, hs⟩
    intro c s o hs ho
    rcases exec_program hs.1 ho with ⟨hi, hg⟩
    exact ⟨hi, hg.superseded hs.2⟩
  rcases commit_guarantee hser hkept.1 with ⟨-, l, hg⟩
  exact hg.no_new_work hkept.2

/-- Once a commit has inserted a successor of `R`, no later commit creates a graph for `R`,
assigns a unit of `R` or dispatches one; a unit of `R` that is dispatched can still be
recorded, which terminates it and unblocks its dependents. -/
theorem stale_plan {ι : Type} [DecidableEq ι] {y : PlanSys ι} (hy : PlanReachable y) {R : Uuid}
    {ms ns : List (Commit Db Reply Call)} {m : Commit Db Reply Call}
    (hlog : y.log = ms ++ m :: ns) (hm : InsertsSuccessor R m) :
    (∀ n ∈ ns, ¬ CreatesGraph R n ∧ ¬ Assigns R n ∧ ¬ Dispatches R n) ∧
    ∀ u x disposition resultRef now, y.db.planExecutionUnits.find? u = some x →
      x.planRevisionId = R → x.state = .dispatched →
      ∃ o, exec (program (.recordResult u disposition resultRef now)) y.db = .ok o ∧
        o.state.planExecutionUnits.find? u = some (terminalUnit disposition resultRef now x) ∧
        ∀ c z, y.db.planExecutionUnits.find? c = some z → z.state = .blocked →
          o.state.Unlocked z.workItemId →
          o.state.planExecutionUnits.find? c = some (readyUnit z) := by
  rcases planning_serial hy with ⟨s, hs, hinv, hh⟩
  rw [hlog] at hh
  rcases hh.commit with ⟨hbefore, hser, hafter⟩
  have hb : Inv m.before := History.inv hbefore (inv_initial hs)
  refine ⟨no_new_work_after hafter (commit_guarantee hser hb).1 hm.after, ?_⟩
  intro u x disposition resultRef now hx _ hst
  rcases succeeds_recordResult hinv.books hx hst disposition resultRef now with ⟨o, ho⟩
  have heff := recordResult_effect hinv hx hst ho
  exact ⟨_, exec_bind_ok.mpr ⟨o, _, ho, rfl, rfl⟩, heff.1, heff.2⟩

/-- In the sample run the plan is revised while its second step is dispatched. -/
theorem stale_plan_fanIn :
    ∃ ms m ns, (fanIn 12).log = ms ++ m :: ns ∧ InsertsSuccessor ⟨2⟩ m ∧
      ∀ n ∈ ns, ¬ CreatesGraph ⟨2⟩ n ∧ ¬ Assigns ⟨2⟩ n ∧ ¬ Dispatches ⟨2⟩ n := by
  have hany : (fanIn 12).log.any (fun m => (m.before.planRevisions.find? ⟨3⟩).isNone ∧
      (m.after.planRevisions.find? ⟨3⟩).any fun x => x.supersedesRevisionId = some ⟨2⟩) := by
    decide +kernel
  rcases List.any_eq_true.mp hany with ⟨m, hm, hdec⟩
  rcases of_decide_eq_true hdec with ⟨hbefore, hafter⟩
  rcases (Option.any_eq_true _ _).mp hafter with ⟨x, hx, hsup⟩
  rcases List.append_of_mem hm with ⟨ms, ns, hlog⟩
  have hins : InsertsSuccessor ⟨2⟩ m :=
    ⟨⟨3⟩, x, Option.isNone_iff_eq_none.mp hbefore, hx, of_decide_eq_true hsup⟩
  exact ⟨ms, m, ns, hlog, hins, (stale_plan (reachable_fanIn 12) hlog hins).1⟩

end AiAgentsSwd.Planning
