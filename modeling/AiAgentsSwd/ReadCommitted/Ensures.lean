import AiAgentsSwd.ReadCommitted.Serializability

/-!
# ReadCommitted.Ensures — partial correctness under interference

Not every transaction is serializable, and none is that reads a clock: its statements see
different times. What it commits can still be stated as a relation between the database
at the commit and the database it leaves. `Ensures p L w s Q` is the rely–guarantee logic
for that: from committed state `s`, with locks `L` and private writes `w`, whatever the
others do meanwhile, every write of `p` stays within the guarantee and the commit satisfies
`Q`.

Main results:

- `Ensures.bind`, `Ensures.track`, `ensures_select`, …: the rules, statement by statement;
- `step_sound`: one step of any session keeps the machine invariant `Sound`;
- `commits_of_reachable`: in every reachable system each commit satisfies its call's `Q`.
-/

namespace ReadCommitted

open Txn

variable {σ κ ε α β Call : Type}

/-! ## The logic -/

section Ensures

variable (Inv : σ → Prop) (Guar : List κ → σ → σ → Prop)

/-- Whatever the others do, the writes stay within the guarantee and a commit satisfies
`Q`. -/
def Ensures : Txn σ κ ε α → List κ → (σ → σ) → σ → Post σ κ α → Prop
  | .done a, L, w, s, Q => ∀ t, Rely Inv Guar L s t → Q a L w t
  | .raise _, _, _, _, _ => True
  | .lock k p, L, w, s, Q => ∀ t, Rely Inv Guar L s t → Ensures p (L ++ [k]) w t Q
  | .query f, L, w, s, Q => ∀ t, Rely Inv Guar L s t → Ensures (f (w t)) L w t Q
  | .write u p, L, w, s, Q =>
      (∀ t, Rely Inv Guar L s t → Guar L (w t) (u (w t))) ∧ Ensures p L (u ∘ w) s Q

variable {Inv Guar} {L : List κ} {w : σ → σ} {s t : σ} {Q Q' : Post σ κ α}

theorem ensures_done {a : α} :
    Ensures Inv Guar (.done a : Txn σ κ ε α) L w s Q ↔ ∀ t, Rely Inv Guar L s t → Q a L w t :=
  Iff.rfl

@[simp] theorem ensures_raise {e : ε} :
    Ensures Inv Guar (.raise e : Txn σ κ ε α) L w s Q := trivial

theorem ensures_lock {k : κ} {p : Txn σ κ ε α} :
    Ensures Inv Guar (.lock k p) L w s Q ↔
      ∀ t, Rely Inv Guar L s t → Ensures Inv Guar p (L ++ [k]) w t Q := Iff.rfl

theorem ensures_query {f : σ → Txn σ κ ε α} :
    Ensures Inv Guar (.query f) L w s Q ↔
      ∀ t, Rely Inv Guar L s t → Ensures Inv Guar (f (w t)) L w t Q := Iff.rfl

theorem ensures_write {u : σ → σ} {p : Txn σ κ ε α} :
    Ensures Inv Guar (.write u p) L w s Q ↔
      (∀ t, Rely Inv Guar L s t → Guar L (w t) (u (w t))) ∧
        Ensures Inv Guar p L (u ∘ w) s Q := Iff.rfl

/-- A branch on what has been read. -/
theorem ensures_ite {c : Prop} [Decidable c] {p q : Txn σ κ ε α}
    (hp : c → Ensures Inv Guar p L w s Q) (hq : ¬ c → Ensures Inv Guar q L w s Q) :
    Ensures Inv Guar (if c then p else q) L w s Q := by
  by_cases h : c
  · rw [if_pos h]
    exact hp h
  · rw [if_neg h]
    exact hq h

/-- What is ensured stays so whatever the others do. -/
theorem Ensures.rely {p : Txn σ κ ε α} (h : Ensures Inv Guar p L w s Q)
    (ht : Rely Inv Guar L s t) : Ensures Inv Guar p L w t Q := by
  induction p generalizing w with
  | done a => exact fun t' ht' => h t' (ht.trans ht')
  | raise e => trivial
  | lock k p _ => exact fun t' ht' => h t' (ht.trans ht')
  | query f _ => exact fun t' ht' => h t' (ht.trans ht')
  | write u p ih => exact ⟨fun t' ht' => h.1 t' (ht.trans ht'), ih h.2⟩

theorem Ensures.mono {p : Txn σ κ ε α} (h : Ensures Inv Guar p L w s Q)
    (hQ : ∀ a L w t, Q a L w t → Q' a L w t) : Ensures Inv Guar p L w s Q' := by
  induction p generalizing L w s with
  | done a => exact fun t ht => hQ _ _ _ _ (h t ht)
  | raise e => trivial
  | lock k p ih => exact fun t ht => ih (h t ht)
  | query f ih => exact fun t ht => ih _ (h t ht)
  | write u p ih => exact ⟨h.1, ih h.2⟩

/-- A program only adds locks, and what others did meanwhile respects those it started
with. -/
theorem Ensures.track {p : Txn σ κ ε α} (h : Ensures Inv Guar p L w s Q) :
    Ensures Inv Guar p L w s fun a L' w' t =>
      Q a L' w' t ∧ Rely Inv Guar L s t ∧ L ⊆ L' := by
  induction p generalizing L w s with
  | done a => exact fun t ht => ⟨h t ht, ht, List.Subset.refl _⟩
  | raise e => trivial
  | lock k p ih =>
    intro t ht
    have hsub : L ⊆ L ++ [k] := List.subset_append_left _ _
    refine (ih (h t ht)).mono fun a L' w' t' hq => ?_
    rcases hq with ⟨hq, hr, hL⟩
    exact ⟨hq, ht.trans (hr.mono hsub), fun x hx => hL (hsub hx)⟩
  | query f ih =>
    intro t ht
    refine (ih _ (h t ht)).mono fun a L' w' t' hq => ?_
    exact ⟨hq.1, ht.trans hq.2.1, hq.2.2⟩
  | write u p ih => exact ⟨h.1, ih h.2⟩

/-- Sequencing. -/
theorem Ensures.bind {p : Txn σ κ ε β} {g : β → Txn σ κ ε α} {R : Post σ κ β}
    (hp : Ensures Inv Guar p L w s R)
    (hg : ∀ b L' w' t, R b L' w' t → Rely Inv Guar L s t → L ⊆ L' →
      Ensures Inv Guar (g b) L' w' t Q) :
    Ensures Inv Guar (p.bind g) L w s Q := by
  have htrack := hp.track
  clear hp
  generalize hR : (fun b L' w' t => R b L' w' t ∧ Rely Inv Guar L s t ∧ L ⊆ L' : Post σ κ β) = R'
    at htrack
  have hg' : ∀ b L' w' t, R' b L' w' t → Ensures Inv Guar (g b) L' w' t Q := by
    intro b L' w' t hb
    rw [← hR] at hb
    exact hg b L' w' t hb.1 hb.2.1 hb.2.2
  clear hg hR
  induction p generalizing L w s with
  | done b => exact hg' _ _ _ _ (htrack s Rely.refl)
  | raise e => trivial
  | lock k p ih => exact fun t ht => ih (htrack t ht)
  | query f ih => exact fun t ht => ih _ (htrack t ht)
  | write u p ih => exact ⟨htrack.1, ih htrack.2⟩

/-- A result put in another form. -/
theorem Ensures.map {p : Txn σ κ ε β} {f : β → α}
    (h : Ensures Inv Guar p L w s fun b => Q (f b)) :
    Ensures Inv Guar (p.bind fun b => .done (f b)) L w s Q := by
  induction p generalizing L w s with
  | done b => exact h
  | raise e => trivial
  | lock k p ih => exact fun t ht => ih (h t ht)
  | query g ih => exact fun t ht => ih _ (h t ht)
  | write u p ih => exact ⟨h.1, ih h.2⟩

end Ensures

/-! ## Runs of commits -/

/-- A sequence of commits that satisfy `P`, each over the state the one before it left. -/
inductive Commits (P : Commit σ α Call → Prop) (s : σ) : List (Commit σ α Call) → σ → Prop where
  | nil : Commits P s [] s
  | snoc {ms : List (Commit σ α Call)} {m : Commit σ α Call}
      (h : Commits P s ms m.before) (hm : P m) : Commits P s (ms ++ [m]) m.after

namespace Commits

variable {P P' : Commit σ α Call → Prop} {s t u : σ} {ms ns : List (Commit σ α Call)}

/-- **The run rule**: what every commit keeps, a run keeps. -/
theorem keeps {I : σ → Prop} (h : Commits P s ms t)
    (hstep : ∀ m, P m → I m.before → I m.after) (hs : I s) : I t := by
  induction h with
  | nil => exact hs
  | snoc _ hm ih => exact hstep _ hm ih

theorem all (h : Commits P s ms t) : ∀ m ∈ ms, P m := by
  induction h with
  | nil => simp
  | snoc _ hm ih =>
    intro n hn
    rcases List.mem_append.mp hn with hn | hn
    · exact ih n hn
    · rw [List.mem_singleton] at hn
      rw [hn]
      exact hm

theorem mono (h : Commits P s ms t) (hP : ∀ m ∈ ms, P m → P' m) : Commits P' s ms t := by
  induction h with
  | nil => exact .nil
  | @snoc ms m _ hm ih =>
    have hms : ∀ n ∈ ms, P n → P' n := fun n hn => hP n (List.mem_append_left _ hn)
    exact .snoc (ih hms) (hP m (by simp) hm)

/-- A run splits at every point. -/
theorem split (h : Commits P s (ms ++ ns) u) :
    ∃ t, Commits P s ms t ∧ Commits P t ns u := by
  induction ns using List.reverseRecOn generalizing u with
  | nil => exact ⟨u, by simpa using h, .nil⟩
  | append_singleton ns n ih =>
    rw [← List.append_assoc] at h
    generalize hl : ms ++ ns ++ [n] = l at h
    cases h with
    | nil => simp at hl
    | snoc h hm =>
      rcases List.append_inj' hl rfl with ⟨h1, h2⟩
      rw [List.singleton_inj] at h2
      subst h1
      subst h2
      rcases ih h with ⟨t, ht, hu⟩
      exact ⟨t, ht, .snoc hu hm⟩

/-- A commit of a run, with the runs before and after it. -/
theorem commit {m : Commit σ α Call} (h : Commits P s (ms ++ m :: ns) t) :
    Commits P s ms m.before ∧ P m ∧ Commits P m.after ns t := by
  have heq : ms ++ m :: ns = (ms ++ [m]) ++ ns := by simp
  rw [heq] at h
  rcases h.split with ⟨u, hu, hns⟩
  generalize hl : ms ++ [m] = l at hu
  cases hu with
  | nil => simp at hl
  | snoc h hm =>
    rcases List.append_inj' hl rfl with ⟨h1, h2⟩
    rw [List.singleton_inj] at h2
    subst h1
    subst h2
    exact ⟨h, hm, hns⟩

/-- The run rule for a property of the run so far and the state it has led to. -/
theorem history {J : List (Commit σ α Call) → σ → Prop} (h : Commits P s ms t)
    (hstep : ∀ ms m, Commits P s ms m.before → P m → J ms m.before → J (ms ++ [m]) m.after)
    (hs : J [] s) : J ms t := by
  induction h with
  | nil => exact hs
  | @snoc ms m h hm ih => exact hstep ms m h hm ih

/-- What each commit relates, a run relates. -/
theorem related {R : σ → σ → Prop} (h : Commits P s ms t) (hrefl : ∀ s, R s s)
    (htrans : ∀ s t u, R s t → R t u → R s u) (hstep : ∀ m, P m → R m.before m.after) :
    R s t := by
  induction h with
  | nil => exact hrefl s
  | snoc _ hm ih => exact htrans _ _ _ ih (hstep _ hm)

/-- Every commit of a run lies between two runs. -/
theorem mem {m : Commit σ α Call} (h : Commits P s ms t) (hm : m ∈ ms) :
    ∃ ns ls, ms = ns ++ m :: ls ∧ Commits P s ns m.before ∧ P m ∧ Commits P m.after ls t := by
  rcases List.append_of_mem hm with ⟨ns, ls, rfl⟩
  rcases h.commit with ⟨hns, hp, hls⟩
  exact ⟨ns, ls, rfl, hns, hp, hls⟩

end Commits

/-! ## Soundness -/

section Machine

variable {ι : Type} [DecidableEq ι]
variable (program : Call → Txn σ κ ε α) (Inv : σ → Prop) (Guar : List κ → σ → σ → Prop)
variable (Q : Call → α → List κ → σ → σ → Prop)

/-- What a commit of a call satisfies. -/
def Commit.Meets (m : Commit σ α Call) : Prop :=
  Inv m.before ∧ ∃ L, Q m.call m.reply L m.before m.after ∧ Guar L m.before m.after

/-- The machine invariant. -/
structure Sound (s : σ) (y : Sys σ κ ε α Call ι) : Prop where
  inv : Inv y.db
  commits : Commits (Commit.Meets Inv Guar Q) s y.log y.db
  exclusive : ∀ i j x x', i ≠ j → y.session i = some x → y.session j = some x' →
    ∀ k ∈ x.held, k ∉ x'.held
  ensures : ∀ i x, y.session i = some x →
    Ensures Inv Guar x.rest x.held x.pending y.db fun a L w t => Q x.call a L t (w t)
  within : ∀ i x, y.session i = some x → ∀ t, Rely Inv Guar x.held y.db t →
    Guar x.held t (x.pending t)

variable {program Inv Guar Q} {s : σ} {y : Sys σ κ ε α Call ι} {i : ι}

/-- A step that changes one session and commits nothing keeps the invariant when the new
session meets its own obligations. -/
theorem Sound.setSession (hg : Sound Inv Guar Q s y) (z : Option (Session σ κ ε α Call))
    (hz : ∀ x, z = some x →
      (∀ k ∈ x.held, y.Free i k) ∧
      Ensures Inv Guar x.rest x.held x.pending y.db (fun a L w t => Q x.call a L t (w t)) ∧
      ∀ t, Rely Inv Guar x.held y.db t → Guar x.held t (x.pending t)) :
    Sound Inv Guar Q s (y.setSession i z) := by
  have hcase : ∀ j x, (y.setSession i z).session j = some x →
      (j = i ∧ z = some x) ∨ (j ≠ i ∧ y.session j = some x) := by
    intro j x hx
    by_cases hj : j = i
    · subst hj
      rw [Sys.setSession_self] at hx
      exact Or.inl ⟨rfl, hx⟩
    · rw [Sys.setSession_of_ne z hj] at hx
      exact Or.inr ⟨hj, hx⟩
  refine ⟨hg.inv, hg.commits, ?_, ?_, ?_⟩
  · intro j j' x x' hne hx hx' k hk hk'
    rcases hcase j x hx with ⟨rfl, hz₁⟩ | ⟨hj, hy₁⟩
    · rcases hcase j' x' hx' with ⟨rfl, -⟩ | ⟨hj', hy₂⟩
      · exact hne rfl
      · exact (hz x hz₁).1 k hk j' x' hj' hy₂ hk'
    · rcases hcase j' x' hx' with ⟨rfl, hz₂⟩ | ⟨hj', hy₂⟩
      · exact (hz x' hz₂).1 k hk' j x hj hy₁ hk
      · exact hg.exclusive j j' x x' hne hy₁ hy₂ k hk hk'
  · intro j x hx
    rcases hcase j x hx with ⟨-, hz₁⟩ | ⟨-, hy₁⟩
    · exact (hz x hz₁).2.1
    · exact hg.ensures j x hy₁
  · intro j x hx
    rcases hcase j x hx with ⟨-, hz₁⟩ | ⟨-, hy₁⟩
    · exact (hz x hz₁).2.2
    · exact hg.within j x hy₁

omit [DecidableEq ι] in
/-- The locks of an open session are free for it. -/
theorem Sound.free_held (hg : Sound Inv Guar Q s y) {x : Session σ κ ε α Call}
    (hx : y.session i = some x) {k : κ} (hk : k ∈ x.held) : y.Free i k :=
  fun j x' hj hx' => hg.exclusive i j x x' (Ne.symm hj) hx hx' k hk

/-- The step lemma. -/
theorem step_sound (hrefl : ∀ s, Guar [] s s)
    (hmono : ∀ L L' s t, L ⊆ L' → Guar L s t → Guar L' s t)
    (htrans : ∀ L s t u, Guar L s t → Guar L t u → Guar L s u)
    (hstart : ∀ c s, Inv s → Ensures Inv Guar (program c) [] id s fun a L w t => Q c a L t (w t))
    (hinv : ∀ c a L s t, Inv s → Q c a L s t → Guar L s t → Inv t)
    {y' : Sys σ κ ε α Call ι} (h : Step program y y') (hg : Sound Inv Guar Q s y) :
    Sound Inv Guar Q s y' := by
  cases h with
  | start i c hi =>
    refine hg.setSession _ fun x hx => ?_
    obtain rfl := Option.some.inj hx
    exact ⟨by simp, hstart c y.db hg.inv, fun t _ => hrefl t⟩
  | @lock i c k p l w hi hk =>
    have hsub : l ⊆ l ++ [k] := List.subset_append_left _ _
    refine hg.setSession _ fun x hx => ?_
    obtain rfl := Option.some.inj hx
    refine ⟨?_, ensures_lock.mp (hg.ensures i _ hi) y.db Rely.refl, ?_⟩
    · intro k' hk'
      rcases List.mem_append.mp hk' with h | h
      · exact hg.free_held hi h
      · obtain rfl := List.mem_singleton.mp h
        exact hk
    · intro t ht
      exact hmono _ _ _ _ hsub (hg.within i _ hi t (ht.mono hsub))
  | @query i c f l w hi =>
    refine hg.setSession _ fun x hx => ?_
    obtain rfl := Option.some.inj hx
    have hens := ensures_query.mp (hg.ensures i _ hi) y.db Rely.refl
    exact ⟨fun k hk => hg.free_held hi hk, hens, fun t ht => hg.within i _ hi t ht⟩
  | @write i c u p l w hi =>
    refine hg.setSession _ fun x hx => ?_
    obtain rfl := Option.some.inj hx
    obtain ⟨hu, hens⟩ := ensures_write.mp (hg.ensures i _ hi)
    refine ⟨fun k hk => hg.free_held hi hk, hens, ?_⟩
    intro t ht
    exact htrans _ _ _ _ (hg.within i _ hi t ht) (hu t ht)
  | @commit i c a l w hi =>
    have hq : Q c a l y.db (w y.db) := ensures_done.mp (hg.ensures i _ hi) y.db Rely.refl
    have hgu : Guar l y.db (w y.db) := hg.within i _ hi y.db Rely.refl
    have hinv' : Inv (w y.db) := hinv c a l y.db _ hg.inv hq hgu
    have hbase : Sound Inv Guar Q s (y.setSession i none) :=
      hg.setSession none fun x hx => by cases hx
    -- the commit is one foreign step for every session that stays open
    have henv : ∀ j x, (y.setSession i none).session j = some x →
        Rely Inv Guar x.held y.db (w y.db) := by
      intro j x hx
      have hj : j ≠ i := by
        rintro rfl
        rw [Sys.setSession_self] at hx
        cases hx
      rw [Sys.setSession_of_ne none hj] at hx
      have hstep : EnvStep Inv Guar x.held y.db (w y.db) :=
        ⟨hg.inv, hinv', l, hgu, fun k hk => hg.exclusive i j _ x (Ne.symm hj) hi hx k hk⟩
      exact Relation.ReflTransGen.single hstep
    refine ⟨hinv', .snoc hg.commits ⟨hg.inv, l, hq, hgu⟩, hbase.exclusive, ?_, ?_⟩
    · intro j x hx
      exact (hbase.ensures j x hx).rely (henv j x hx)
    · intro j x hx t ht
      exact hbase.within j x hx t ((henv j x hx).trans ht)
  | abort i => exact hg.setSession none fun x hx => by cases hx

/-- **Soundness**: in every reachable system each commit satisfies what its call ensures. -/
theorem commits_of_reachable {Start : σ → Prop} (hs : ∀ s, Start s → Inv s)
    (hrefl : ∀ s, Guar [] s s)
    (hmono : ∀ L L' s t, L ⊆ L' → Guar L s t → Guar L' s t)
    (htrans : ∀ L s t u, Guar L s t → Guar L t u → Guar L s u)
    (hstart : ∀ c s, Inv s → Ensures Inv Guar (program c) [] id s fun a L w t => Q c a L t (w t))
    (hinv : ∀ c a L s t, Inv s → Q c a L s t → Guar L s t → Inv t)
    (hy : Reachable program Start y) :
    ∃ s, Start s ∧ Commits (Commit.Meets Inv Guar Q) s y.log y.db ∧ Inv y.db := by
  have hsound : ∃ s, Start s ∧ Sound Inv Guar Q s y := by
    induction hy with
    | @init s hstart₀ =>
      refine ⟨s, hstart₀, hs s hstart₀, .nil, ?_, ?_, ?_⟩
      · intro i j x x' _ hx
        cases hx
      · intro i x hx
        cases hx
      · intro i x hx
        cases hx
    | step _ h ih =>
      rcases ih with ⟨s, hs₀, hg⟩
      exact ⟨s, hs₀, step_sound hrefl hmono htrans hstart hinv h hg⟩
  rcases hsound with ⟨s, hs₀, hg⟩
  exact ⟨s, hs₀, hg.commits, hg.inv⟩

end Machine

end ReadCommitted
