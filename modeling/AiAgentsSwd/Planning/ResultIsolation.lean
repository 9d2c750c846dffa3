import AiAgentsSwd.Planning.DelegationIsolation

/-!
# Planning.ResultIsolation — why `record_result` commits as if alone

The promotion loop takes a lock in one statement and counts in the next, so it has to be
shown that no count can miss a commit. Two facts carry it:

- while a unit is dispatched and locked, its dependents are all blocked and no new ones
  appear (`rely_dependents`);
- whoever completes a dependency of a blocked unit locks that unit first
  (`Guarantee.complete`), so under its lock the dependencies' completion is fixed
  (`rely_completed`).
-/

namespace AiAgentsSwd.Planning

open Keyed (Table Evolves)
open ReadCommitted ReadCommitted.Txn

/-! ## What the holder of a unit may rely on -/

section Rely

variable {L l : List RowKey} {a b s t : Db}

theorem Guarantee.item_isSome (hg : Guarantee l a b) {w : Uuid}
    (hw : (a.projectWorkItems.find? w).isSome) : (b.projectWorkItems.find? w).isSome := by
  rcases Option.isSome_iff_exists.mp hw with ⟨i, hi⟩
  rcases hg.items.find_same hi with ⟨j, hj, -⟩
  exact Option.isSome_iff_exists.mpr ⟨j, hj⟩

/-- A work item that is there gets no further edges. -/
theorem rely_edges (h : Rely Inv Guarantee L s t) {w : Uuid}
    (hw : (s.projectWorkItems.find? w).isSome) :
    t.workItemDependencies.filter (fun d => d.workItemId = w) =
        s.workItemDependencies.filter (fun d => d.workItemId = w) ∧
      (t.projectWorkItems.find? w).isSome := by
  apply h.keeps (P := fun t => t.workItemDependencies.filter (fun d => d.workItemId = w) =
      s.workItemDependencies.filter (fun d => d.workItemId = w) ∧
        (t.projectWorkItems.find? w).isSome) _ ⟨rfl, hw⟩
  rintro a b l _ _ hg - ⟨heq, hwa⟩
  refine ⟨?_, hg.item_isSome hwa⟩
  rcases hg.edges with ⟨new, hnew, hfresh⟩
  have hnil : new.filter (fun d => d.workItemId = w) = [] := by
    apply List.filter_eq_nil_iff.mpr
    intro d hd heqw
    have hnone := (hfresh d hd).2
    rw [of_decide_eq_true heqw] at hnone
    rw [hnone] at hwa
    cases hwa
  rw [hnew, List.filter_append, hnil, List.append_nil, heq]

/-- Under the lock of a blocked unit nobody completes its dependencies. -/
theorem rely_completed (h : Rely Inv Guarantee L s t) {c : Uuid} {z : ExecutionUnit}
    (hl : .executionUnit c ∈ L) (hz : s.planExecutionUnits.find? c = some z)
    (hst : z.state = .blocked) {d : Uuid} (hd : s.DependsOn z.workItemId d) :
    t.CompletedItem d ↔ s.CompletedItem d := by
  have hboth : (t.DependsOn z.workItemId d ∧ t.planExecutionUnits.find? c = some z) ∧
      (t.CompletedItem d ↔ s.CompletedItem d) := by
    apply h.keeps (P := fun t => (t.DependsOn z.workItemId d ∧
      t.planExecutionUnits.find? c = some z) ∧ (t.CompletedItem d ↔ s.CompletedItem d)) _
      ⟨⟨hd, hz⟩, Iff.rfl⟩
    rintro a b l ha _ hg hout ⟨⟨hda, hza⟩, hiff⟩
    have hlc : .executionUnit c ∉ l := fun hm => hout _ hm hl
    refine ⟨⟨?_, (hg.units.eq_of_not_mem hlc).trans hza⟩, ?_⟩
    · rcases hg.edges with ⟨new, hnew, -⟩
      rcases hda with ⟨e, he, heq⟩
      exact ⟨e, by rw [hnew]; exact List.mem_append_left _ he, heq⟩
    · rw [← hiff]
      constructor
      · rintro ⟨v, y, hy, hw, hc⟩
        cases hx : a.planExecutionUnits.find? v with
        | none =>
          -- a new unit's work item is new, and this one has an edge already
          have hfresh := (hg.unit_new v y hx hy).2
          have hitem := (ha.shape.edge_items _ _ hda).2
          rw [hw] at hfresh
          rw [hfresh] at hitem
          cases hitem
        | some x =>
          rcases hg.units.find_same hx with ⟨y', hy', hsame⟩
          rw [hy] at hy'
          cases hy'
          have hwx : x.workItemId = d :=
            (congrArg UnitIdentity.workItemId hsame.1).symm.trans hw
          by_cases hxc : x.state = .completed
          · exact ⟨v, x, hx, hwx, hxc⟩
          · exfalso
            exact hlc (hg.complete v x y hx hy hxc hc c z hza hst (hwx ▸ hda))
      · rintro ⟨v, x, hx, hw, hc⟩
        rcases hg.units.find_same hx with ⟨y, hy, -, hsame⟩
        rw [hsame (Or.inl hc)] at hy
        exact ⟨v, x, hy, hw, hc⟩
  exact hboth.2

/-- The dependents of a unit's work item never change. -/
theorem rely_dependents (h : Rely Inv Guarantee L s t) {u : Uuid} {x : ExecutionUnit}
    (hx : s.planExecutionUnits.find? u = some x) (c : Uuid) :
    (∃ z, t.planExecutionUnits.find? c = some z ∧ t.DependsOn z.workItemId x.workItemId) ↔
      ∃ z, s.planExecutionUnits.find? c = some z ∧ s.DependsOn z.workItemId x.workItemId := by
  have hboth : (∃ x', t.planExecutionUnits.find? u = some x' ∧ x'.identity = x.identity) ∧
      ((∃ z, t.planExecutionUnits.find? c = some z ∧ t.DependsOn z.workItemId x.workItemId) ↔
        ∃ z, s.planExecutionUnits.find? c = some z ∧
          s.DependsOn z.workItemId x.workItemId) := by
    apply h.keeps (P := fun t =>
      (∃ x', t.planExecutionUnits.find? u = some x' ∧ x'.identity = x.identity) ∧
        ((∃ z, t.planExecutionUnits.find? c = some z ∧ t.DependsOn z.workItemId x.workItemId) ↔
          ∃ z, s.planExecutionUnits.find? c = some z ∧
            s.DependsOn z.workItemId x.workItemId)) _ ⟨⟨x, hx, rfl⟩, Iff.rfl⟩
    rintro a b l ha hb hg - ⟨⟨xa, hxa, hid⟩, hiff⟩
    rcases hg.units.find_same hxa with ⟨xb, hxb, hsame⟩
    have hwb : xb.workItemId = x.workItemId :=
      (congrArg UnitIdentity.workItemId hsame.1).trans (congrArg UnitIdentity.workItemId hid)
    refine ⟨⟨xb, hxb, hsame.1.trans hid⟩, ?_⟩
    rw [← hiff]
    rcases hg.edges with ⟨new, hnew, hfresh⟩
    constructor
    · rintro ⟨z, hz, hdep⟩
      cases hza : a.planExecutionUnits.find? c with
      | none =>
        -- a new unit depends on units of its own new graph only
        exfalso
        rcases hb.shape.edge_unit c z _ hz hdep with ⟨v, y, hy, hwy, hry⟩
        have hv : v = u := hb.shape.item_inj v u y xb hy hxb (hwy.trans hwb.symm)
        rw [hv, hxb] at hy
        cases hy
        have hra : xb.planRevisionId = xa.planRevisionId :=
          congrArg UnitIdentity.planRevisionId hsame.1
        rcases ha.shape.graph u xa hxa with ⟨g, hgr, -⟩
        have hnone := (hg.unit_new c z hza hz).1
        rw [← hry, hra, hgr] at hnone
        cases hnone
      | some za =>
        rcases hg.units.find_same hza with ⟨z', hz', hsz⟩
        rw [hz] at hz'
        cases hz'
        have hwz : z.workItemId = za.workItemId := congrArg UnitIdentity.workItemId hsz.1
        refine ⟨za, rfl, ?_⟩
        rcases hdep with ⟨e, he, hew, hed⟩
        rw [hnew] at he
        rcases List.mem_append.mp he with he | he
        · exact ⟨e, he, hew.trans hwz, hed⟩
        · exfalso
          have hitem := ha.shape.item c za hza
          have hnone := (hfresh e he).2
          rw [hew, hwz] at hnone
          rw [hnone] at hitem
          cases hitem
    · rintro ⟨za, hza, e, he, hew, hed⟩
      rcases hg.units.find_same hza with ⟨z, hz, hsz⟩
      have hwz : z.workItemId = za.workItemId := congrArg UnitIdentity.workItemId hsz.1
      refine ⟨z, hz, e, ?_, hew.trans hwz.symm, hed⟩
      rw [hnew]
      exact List.mem_append_left _ he
  exact hboth.2

end Rely

/-! ## The loop's private writes -/

/-- What the session knows while the loop runs: it holds the reported unit, still
dispatched in the committed state, and the candidates, still blocked there. -/
structure Holding (L : List RowKey) (t : Db) (u : Uuid) (x : ExecutionUnit) (cs : List Uuid) :
    Prop where
  inv : Inv t
  lock : .executionUnit u ∈ L
  row : t.planExecutionUnits.find? u = some x
  dispatched : x.state = .dispatched
  candidate : ∀ c ∈ cs, .executionUnit c ∈ L ∧
    ∃ z, t.planExecutionUnits.find? c = some z ∧ z.state = .blocked

/-- The unit is completed and the units of `P` are ready, for this session alone. -/
structure Overlay (w : Db → Db) (u : Uuid) (f : ExecutionUnit → ExecutionUnit) (P : List Uuid) :
    Prop where
  edges : ∀ t, (w t).workItemDependencies = t.workItemDependencies
  units : ∀ t v, (w t).planExecutionUnits.find? v = (t.planExecutionUnits.find? v).map fun x =>
    if v = u then f x else if v ∈ P then readyUnit x else x

section Overlay

variable {L L' : List RowKey} {s t : Db} {w : Db → Db} {u : Uuid} {x : ExecutionUnit}
variable {f : ExecutionUnit → ExecutionUnit} {cs P : List Uuid}

theorem Holding.rely (h : Holding L s u x cs) (hr : Rely Inv Guarantee L s t) :
    Holding L t u x cs where
  inv := hr.inv h.inv
  lock := h.lock
  row := (rely_unit_locked hr h.lock).trans h.row
  dispatched := h.dispatched
  candidate := by
    intro c hc
    rcases h.candidate c hc with ⟨hl, z, hz, hst⟩
    exact ⟨hl, z, (rely_unit_locked hr hl).trans hz, hst⟩

theorem Holding.mono (h : Holding L s u x cs) (hL : L ⊆ L') : Holding L' s u x cs :=
  { h with
    lock := hL h.lock
    candidate := fun c hc => ⟨hL (h.candidate c hc).1, (h.candidate c hc).2⟩ }

theorem Holding.ne (h : Holding L s u x cs) {c : Uuid} (hc : c ∈ cs) : c ≠ u := by
  rintro rfl
  rcases h.candidate c hc with ⟨-, z, hz, hst⟩
  rw [h.row] at hz
  cases hz
  rw [h.dispatched] at hst
  cases hst

/-- The overlay keeps to rows. -/
theorem Overlay.local (hw : Overlay w u f P) {c : Uuid} (t t' : Db)
    (h : t.planExecutionUnits.find? c = t'.planExecutionUnits.find? c) :
    (w t).planExecutionUnits.find? c = (w t').planExecutionUnits.find? c := by
  rw [hw.units, hw.units, h]

theorem Overlay.dependsOn (hw : Overlay w u f P) (t : Db) (a d : Uuid) :
    (w t).DependsOn a d ↔ t.DependsOn a d := by
  unfold Db.DependsOn
  rw [hw.edges]

/-- A unit seen through the overlay is a committed one, with its identity. -/
theorem Overlay.unit_back (hw : Overlay w u f P) (hf : ∀ x, (f x).identity = x.identity)
    {v : Uuid} {y : ExecutionUnit} (hy : (w t).planExecutionUnits.find? v = some y) :
    ∃ z, t.planExecutionUnits.find? v = some z ∧ y.identity = z.identity := by
  rw [hw.units, Option.map_eq_some_iff] at hy
  rcases hy with ⟨z, hz, rfl⟩
  refine ⟨z, hz, ?_⟩
  split_ifs
  · exact hf z
  · rfl
  · rfl

theorem Overlay.item_inj (hw : Overlay w u f P) (hf : ∀ x, (f x).identity = x.identity)
    (hs : Shape t) : ∀ v v' y y', (w t).planExecutionUnits.find? v = some y →
      (w t).planExecutionUnits.find? v' = some y' → y.workItemId = y'.workItemId → v = v' := by
  intro v v' y y' hy hy' heq
  rcases hw.unit_back hf hy with ⟨z, hz, hid⟩
  rcases hw.unit_back hf hy' with ⟨z', hz', hid'⟩
  have hwz : y.workItemId = z.workItemId := congrArg UnitIdentity.workItemId hid
  have hwz' : y'.workItemId = z'.workItemId := congrArg UnitIdentity.workItemId hid'
  exact hs.item_inj v v' z z' hz hz' (by rw [← hwz, ← hwz', heq])

/-- What the session sees completed: what is committed as such, and its own unit. -/
theorem Overlay.completedItem (hw : Overlay w u f P) (hf : ∀ x, (f x).identity = x.identity)
    (hc : ∀ x, (f x).state = .completed) (h : Holding L t u x cs) (hP : P ⊆ cs) (d : Uuid) :
    (w t).CompletedItem d ↔ t.CompletedItem d ∨ d = x.workItemId := by
  constructor
  · rintro ⟨v, y, hy, hwy, hyc⟩
    rw [hw.units, Option.map_eq_some_iff] at hy
    rcases hy with ⟨z, hz, rfl⟩
    by_cases hv : v = u
    · rw [if_pos hv] at hwy
      rw [hv, h.row] at hz
      cases hz
      have hid : (f x).workItemId = x.workItemId := congrArg UnitIdentity.workItemId (hf x)
      exact Or.inr (hwy.symm.trans hid)
    · rw [if_neg hv] at hwy hyc
      by_cases hvP : v ∈ P
      · rw [if_pos hvP] at hyc
        cases hyc
      · rw [if_neg hvP] at hwy hyc
        exact Or.inl ⟨v, z, hz, hwy, hyc⟩
  · rintro (⟨v, z, hz, hwz, hzc⟩ | rfl)
    · -- neither the reported unit nor a candidate is committed as completed
      have hv : v ≠ u := by
        rintro rfl
        rw [h.row] at hz
        cases hz
        rw [h.dispatched] at hzc
        cases hzc
      have hvP : v ∉ P := by
        intro hmem
        rcases h.candidate v (hP hmem) with ⟨-, z', hz', hst⟩
        rw [hz] at hz'
        cases hz'
        rw [hzc] at hst
        cases hst
      refine ⟨v, z, ?_, hwz, hzc⟩
      rw [hw.units, hz, Option.map_some, if_neg hv, if_neg hvP]
    · have hid : (f x).workItemId = x.workItemId := congrArg UnitIdentity.workItemId (hf x)
      refine ⟨u, f x, ?_, hid, hc x⟩
      rw [hw.units, h.row, Option.map_some, if_pos rfl]

/-- The count is the same whichever later state it reads. -/
theorem Overlay.outstanding (hw : Overlay w u f P) (hf : ∀ x, (f x).identity = x.identity)
    (hcf : ∀ x, (f x).state = .completed) (h : Holding L s u x cs) (hP : P ⊆ cs)
    (hr : Rely Inv Guarantee L s t) {c : Uuid} (hc : c ∈ cs) :
    (w t).outstanding c = (w s).outstanding c := by
  have ht := h.rely hr
  rcases h.candidate c hc with ⟨hl, z, hz, hst⟩
  rcases rely_edges hr (h.inv.shape.item c z hz) with ⟨hedges, -⟩
  have hrow : (w t).planExecutionUnits.find? c = (w s).planExecutionUnits.find? c :=
    hw.local t s (rely_unit_locked hr hl)
  have hitem : ∀ y, (w s).planExecutionUnits.find? c = some y → y.workItemId = z.workItemId := by
    intro y hy
    rcases hw.unit_back hf hy with ⟨z', hz', hid⟩
    rw [hz] at hz'
    cases hz'
    exact congrArg UnitIdentity.workItemId hid
  unfold Db.outstanding
  rw [hrow]
  cases hy : (w s).planExecutionUnits.find? c with
  | none => rfl
  | some y =>
    simp only [hw.edges, hitem y hy, hedges]
    apply List.countP_congr
    intro d hd
    rw [List.mem_filter, decide_eq_true_eq] at hd
    have hdep : s.DependsOn z.workItemId d.dependsOnWorkItemId := ⟨d, hd.1, hd.2, rfl⟩
    have hiff : (w t).isOutstanding d.dependsOnWorkItemId = false ↔
        (w s).isOutstanding d.dependsOnWorkItemId = false := by
      rw [isOutstanding_eq_false (hw.item_inj hf ht.inv.shape),
        isOutstanding_eq_false (hw.item_inj hf h.inv.shape), hw.completedItem hf hcf ht hP,
        hw.completedItem hf hcf h hP, rely_completed hr hl hz hst hdep]
    cases h1 : (w t).isOutstanding d.dependsOnWorkItemId <;>
      cases h2 : (w s).isOutstanding d.dependsOnWorkItemId <;> simp_all

/-- The candidates are the same whichever later state the scan reads. -/
theorem Overlay.mem_blockedDependents (hw : Overlay w u f []) (hcf : ∀ x, (f x).state = .completed)
    (h : Holding L t u x []) (c : Uuid) :
    c ∈ (w t).blockedDependents x.workItemId ↔
      ∃ z, t.planExecutionUnits.find? c = some z ∧ t.DependsOn z.workItemId x.workItemId := by
  rw [Planning.mem_blockedDependents]
  constructor
  · rintro ⟨y, hy, hst, hd⟩
    rw [hw.units, Option.map_eq_some_iff] at hy
    rcases hy with ⟨z, hz, rfl⟩
    by_cases hc : c = u
    · rw [if_pos hc, hcf] at hst
      cases hst
    · rw [if_neg hc, if_neg (List.not_mem_nil)] at hd
      exact ⟨z, hz, (hw.dependsOn t _ _).mp hd⟩
  · rintro ⟨z, hz, hd⟩
    have hc : c ≠ u := by
      rintro rfl
      rw [h.row] at hz
      cases hz
      rcases h.inv.shape.acyclic with ⟨rank, hrank⟩
      have hlt := hrank c x _ h.row hd
      omega
    -- a dependent of a unit that is not completed is blocked
    have hst : z.state = .blocked := by
      apply (h.inv.gate c z hz).mpr
      intro hun
      rcases hun _ hd with ⟨v, y, hy, hwy, hyc⟩
      have hv : v = u := h.inv.shape.item_inj v u y x hy h.row hwy
      rw [hv, h.row] at hy
      cases hy
      rw [h.dispatched] at hyc
      cases hyc
    refine ⟨z, ?_, hst, (hw.dependsOn t _ _).mpr hd⟩
    rw [hw.units, hz, Option.map_some, if_neg hc, if_neg (List.not_mem_nil)]

/-- A list of units in the order of their ids is fixed by its members. -/
theorem insertionSort_eq {l l' : List Uuid} (hl : l.Nodup) (hl' : l'.Nodup)
    (h : ∀ c, c ∈ l ↔ c ∈ l') : l.insertionSort (fun a b => a.value ≤ b.value) =
      l'.insertionSort fun a b => a.value ≤ b.value := by
  have hperm : l.Perm l' := (List.perm_ext_iff_of_nodup hl hl').mpr h
  have hsorted : ∀ l : List Uuid, (l.insertionSort fun a b => a.value ≤ b.value).Pairwise
      fun a b => a.value ≤ b.value := by
    intro l
    have htotal : Std.Total fun a b : Uuid => a.value ≤ b.value :=
      ⟨fun a b => Nat.le_total a.value b.value⟩
    have htrans : IsTrans Uuid fun a b => a.value ≤ b.value :=
      ⟨fun a b c hab hbc => Nat.le_trans hab hbc⟩
    exact List.pairwise_insertionSort _ l
  apply List.Perm.eq_of_pairwise _ (hsorted l) (hsorted l')
  · exact (List.perm_insertionSort _ l).trans (hperm.trans (List.perm_insertionSort _ l').symm)
  · rintro ⟨a⟩ ⟨b⟩ - - hab hba
    exact congrArg Uuid.mk (Nat.le_antisymm hab hba)

theorem Overlay.blockedDependents (hw : Overlay w u f [])
    (hcf : ∀ x, (f x).state = .completed) (h : Holding L s u x [])
    (hr : Rely Inv Guarantee L s t) :
    (w t).blockedDependents x.workItemId = (w s).blockedDependents x.workItemId := by
  have hmem : ∀ c, c ∈ (w t).blockedDependents x.workItemId ↔
      c ∈ (w s).blockedDependents x.workItemId := by
    intro c
    rw [hw.mem_blockedDependents hcf (h.rely hr), hw.mem_blockedDependents hcf h,
      rely_dependents hr h.row]
  have hnodup : ∀ db : Db, ((db.planExecutionUnits.rows.filter fun e => e.2.state = .blocked ∧
      ∃ d ∈ db.workItemDependencies, d.workItemId = e.2.workItemId ∧
        d.dependsOnWorkItemId = x.workItemId).map Prod.fst).Nodup := by
    intro db
    exact db.planExecutionUnits.nodup_keys.sublist (List.filter_sublist.map _)
  unfold Db.blockedDependents at hmem ⊢
  apply insertionSort_eq (hnodup _) (hnodup _)
  simpa only [List.mem_insertionSort] using hmem

end Overlay

/-! ## The loops -/

/-- The candidates that are left are locked and still blocked. -/
theorem isolated_lockCandidates {found : List Uuid} {L : List RowKey} {w : Db → Db} {s : Db}
    {u : Uuid} {x : ExecutionUnit} {f : ExecutionUnit → ExecutionUnit} (hw : Overlay w u f [])
    (hcf : ∀ x, (f x).state = .completed) (h : Holding L s u x []) :
    Isolated (lockCandidates found) L w s fun cs L' w' t => w' = w ∧ L ⊆ L' ∧
      Holding L' t u x cs := by
  induction found generalizing L s with
  | nil =>
    intro t ht
    exact ⟨rfl, List.Subset.refl _, h.rely ht⟩
  | cons c found ih =>
    simp only [lockCandidates, bind_eq, lockRow_bind, select_bind, stable_lock]
    intro t₁ ht₁
    have hsub : L ⊆ L ++ [.executionUnit c] := List.subset_append_left _ _
    apply stable_query
    intro t₂ ht₂
    right
    have hold₂ : Holding (L ++ [.executionUnit c]) t₂ u x [] :=
      ((h.rely ht₁).mono hsub).rely ht₂
    constructor
    · intro t' ht'
      have heq : (w t').planExecutionUnits.find? c = (w t₂).planExecutionUnits.find? c :=
        hw.local t' t₂ (rely_unit_locked ht' (by simp))
      simp only [heq]
    · apply (ih hold₂).bind_rely
      rintro cs L' _ t₃ ⟨rfl, hL', hold₃⟩ ht₃ -
      intro t₄ ht₄
      have hold₄ := hold₃.rely ht₄
      refine ⟨rfl, fun k hk => hL' (hsub hk), ?_⟩
      split_ifs with hst
      swap
      · exact hold₄
      -- the row seen blocked under the lock is the committed one
      refine { hold₄ with candidate := fun c' hc' => ?_ }
      rcases List.mem_cons.mp hc' with rfl | hc'
      swap
      · exact hold₄.candidate c' hc'
      have hl₂ : RowKey.executionUnit c' ∈ L ++ [RowKey.executionUnit c'] := by simp
      refine ⟨hL' hl₂, ?_⟩
      rw [hw.units, Option.any_map, Option.any_eq_true] at hst
      rcases hst with ⟨z, hz, hzst⟩
      have hfix : t₄.planExecutionUnits.find? c' = t₂.planExecutionUnits.find? c' :=
        (rely_unit_locked ht₄ (hL' hl₂)).trans (rely_unit_locked ht₃ hl₂)
      refine ⟨z, hfix.trans hz, ?_⟩
      have hne : c' ≠ u := by
        rintro rfl
        simp [hcf] at hzst
      simpa [hne] using hzst

theorem isolated_promote {now : Time} {cs all P : List Uuid} {L : List RowKey} {w : Db → Db}
    {s : Db} {u : Uuid} {x : ExecutionUnit} {f : ExecutionUnit → ExecutionUnit}
    (hf : ∀ x, (f x).identity = x.identity) (hcf : ∀ x, (f x).state = .completed)
    (hcs : cs ⊆ all) (hP : P ⊆ all) (hw : Overlay w u f P) (h : Holding L s u x all) :
    Isolated (promote now cs) L w s anyResult := by
  induction cs generalizing L w s P with
  | nil => exact fun _ _ => trivial
  | cons c cs ih =>
    have hc : c ∈ all := hcs (List.mem_cons_self ..)
    have hrest : cs ⊆ all := fun d hd => hcs (List.mem_cons_of_mem _ hd)
    simp only [promote, bind_eq, select_bind]
    apply stable_query
    intro t ht
    right
    have hold := h.rely ht
    constructor
    · intro t' ht'
      have heq := hw.outstanding hf hcf hold hP ht' hc
      simp only [heq]
    · split_ifs with hpos
      · exact ih hrest hP hw hold
      · refine Stable.bind_rely (isolated_updateUnit (h.candidate c hc).1 ?_) ?_
        · exact hw.local
        rintro b L₁ w₁ t₁ ⟨hL₁, ⟨rfl, rfl, -⟩ | ⟨rfl, rfl, hst⟩⟩ ht₁ -
        · exact ih hrest hP hw ((hold.rely ht₁).mono hL₁)
        · -- one more unit is ready for this session
          have hold₁ := (hold.rely ht₁).mono hL₁
          rcases hold₁.candidate c hc with ⟨-, z, hz, hzst⟩
          have hne := hold₁.ne hc
          rw [hw.units, hz, Option.map_some, Option.map_some]
          dsimp only
          apply isolated_mirrorWorkItem.bind_rely
          rintro _ L₂ w₂ t₂ ⟨rfl, rfl⟩ ht₂ hL₂
          refine Stable.bind (ih (P := c :: P) hrest ?_ ?_ ((hold₁.rely ht₂).mono hL₂)) ?_
          · intro d hd
            rcases List.mem_cons.mp hd with rfl | hd
            · exact hc
            · exact hP hd
          · refine ⟨fun t => hw.edges t, fun t v => ?_⟩
            show ((w t).planExecutionUnits.modify c readyUnit).find? v = _
            rw [Table.find?_modify, hw.units, hw.units]
            by_cases hv : v = c
            · subst hv
              rw [if_pos rfl, Option.map_map]
              congr 1
              funext y
              show readyUnit (if v = u then f y else if v ∈ P then readyUnit y else y) = _
              rw [if_neg hne, if_neg hne, if_pos (List.mem_cons_self ..)]
              split_ifs <;> rfl
            · rw [if_neg hv]
              simp [hv]
          · exact fun _ _ _ _ _ _ _ => trivial

theorem isolated_unblockDependents {now : Time} {L : List RowKey} {w : Db → Db} {s : Db}
    {u : Uuid} {x : ExecutionUnit} {f : ExecutionUnit → ExecutionUnit}
    (hf : ∀ x, (f x).identity = x.identity) (hcf : ∀ x, (f x).state = .completed)
    (hw : Overlay w u f []) (h : Holding L s u x []) :
    Isolated (unblockDependents x.workItemId now) L w s anyResult := by
  simp only [unblockDependents, bind_eq, select_bind]
  apply stable_query
  intro t ht
  right
  have hold := h.rely ht
  constructor
  · intro t' ht'
    have heq := hw.blockedDependents hcf hold ht'
    simp only [heq]
  · apply (isolated_lockCandidates hw hcf hold).bind
    rintro cs L' _ t' ⟨rfl, -, hold'⟩
    exact isolated_promote hf hcf (List.Subset.refl cs) (List.nil_subset cs) hw hold'

theorem isolated_recordResult {u : Uuid} {disposition : Disposition} {resultRef : Option String}
    {now : Time} {s : Db} (hinv : Inv s) :
    Isolated (recordResult u disposition resultRef now) [] id s anyResult := by
  simp only [recordResult, bind_eq, lockUnit, lockRow_bind, lock_bind, select, query_bind,
    done_bind, stable_lock, List.nil_append]
  intro t₁ ht₁
  apply stable_query
  intro t₂ ht₂
  right
  constructor
  · intro t' ht'
    have heq := rely_unit_locked ht' (u := u) (by simp)
    simp only [id_eq, heq]
  simp only [id_eq]
  cases hx : t₂.planExecutionUnits.find? u with
  | none => trivial
  | some x =>
    dsimp only
    apply stable_query
    intro t₃ ht₃
    cases hd : t₃.planExecutionDispatches.find? u with
    | none =>
      left
      simp only [id_eq, hd]
      exact .raise _
    | some d =>
      right
      constructor
      · -- only the correlation id is used, which is never rewritten
        intro t' ht'
        rcases rely_dispatch ht' hd with ⟨d', hd', p, rfl, -⟩
        simp only [id_eq, hd, hd']
      simp only [id_eq, hd]
      have hold : x.state = .dispatched → Holding [.executionUnit u] t₃ u x [] := by
        intro hst
        refine ⟨?_, by simp, (rely_unit_locked ht₃ (by simp)).trans hx, hst, by simp⟩
        exact ht₃.inv (ht₂.inv (ht₁.inv hinv))
      by_cases hterm : x.state = .completed ∨ x.state = .failed
      · rw [if_pos hterm]
        split_ifs
        · trivial
        · exact fun _ _ => trivial
      rw [if_neg hterm]
      by_cases hst : x.state = .dispatched
      swap
      · rw [if_pos hst]
        trivial
      rw [if_neg (not_not.mpr hst)]
      have hold₃ := hold hst
      refine Stable.bind_rely (isolated_updateUnit (by simp) ?_) ?_
      · exact fun _ _ h => h
      rintro b L₄ w₄ t₄ ⟨hL₄, ⟨rfl, rfl, -⟩ | ⟨rfl, rfl, -⟩⟩ ht₄ -
      · trivial
      have hold₄ := (hold₃.rely ht₄).mono hL₄
      rw [id_eq, hold₄.row, Option.map_some]
      dsimp only
      apply isolated_mirrorWorkItem.bind_rely
      rintro _ L₅ w₅ t₅ ⟨rfl, rfl⟩ ht₅ hL₅
      have hold₅ := (hold₄.rely ht₅).mono hL₅
      simp only [recordWorkItemEvent, modify_bind, stable_write]
      cases disposition with
      | failed => exact fun _ _ => trivial
      | succeeded =>
        rw [if_pos (show terminalState .succeeded = .completed from rfl)]
        refine Stable.bind (isolated_unblockDependents
          (f := terminalUnit .succeeded resultRef now) ?_ ?_ ?_ hold₅) ?_
        · exact fun _ => rfl
        · exact fun _ => rfl
        · refine ⟨fun _ => rfl, fun t v => ?_⟩
          show (t.planExecutionUnits.modify u _).find? v = _
          rw [Table.find?_modify]
          by_cases hv : v = u
          · subst hv
            simp [terminalUnit]
          · simp [hv]
        · exact fun _ _ _ _ _ _ _ => trivial

end AiAgentsSwd.Planning
