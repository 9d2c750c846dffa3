import AiAgentsSwd.ReadCommitted.Rules

/-!
# ReadCommitted.Serializability — interleavings commit as serial histories

The soundness of the rules of `ReadCommitted.Rules`: if every call is stable from every
state of the invariant, and a run alone keeps the invariant and stays within the
guarantee, then in every reachable system the commits so far, in commit order, are a
serial history from the start to the committed database.

Main results:

- `step_good`: one step of any session keeps the machine invariant `Good`;
- `serial`: the run theorem;
- `reachable_calls`: calls made one after the other are one of the interleavings.
-/

namespace ReadCommitted

open Txn

variable {σ κ ε α Call ι : Type} [DecidableEq ι]

section Machine

variable (program : Call → Txn σ κ ε α) (Quiet : α → Prop)
variable (Inv : σ → Prop) (Guar : List κ → σ → σ → Prop)

/-- What an open session still owes: if it commits after `t`, it does so as its call run
alone over `t`, with locks it holds by then. -/
def Session.Tracks (x : Session σ κ ε α Call) (s : σ) : Prop :=
  ∀ t, Rely Inv Guar x.held s t → ∀ o, exec x.rest (x.pending t) = .ok o →
    (Quiet o.value ∧ o.state = t) ∨
      ∃ l, exec (program x.call) t = .ok { o with locks := l } ∧ l ⊆ x.held ++ o.locks

/-- The machine invariant. -/
structure Good (s : σ) (y : Sys σ κ ε α Call ι) : Prop where
  inv : Inv y.db
  history : History program Quiet s y.log y.db
  exclusive : ∀ i j x x', i ≠ j → y.session i = some x → y.session j = some x' →
    ∀ k ∈ x.held, k ∉ x'.held
  stable : ∀ i x, y.session i = some x →
    Stable Inv Guar Quiet x.rest x.held x.pending y.db (fun _ _ _ _ => True)
  tracks : ∀ i x, y.session i = some x → x.Tracks program Quiet Inv Guar y.db

variable {program Quiet Inv Guar} {s : σ} {y : Sys σ κ ε α Call ι} {i : ι}

@[simp] theorem Sys.setSession_self (x : Option (Session σ κ ε α Call)) :
    (y.setSession i x).session i = x := by
  simp [Sys.setSession]

theorem Sys.setSession_of_ne {j : ι} (x : Option (Session σ κ ε α Call)) (h : j ≠ i) :
    (y.setSession i x).session j = y.session j := by
  simp [Sys.setSession, h]

@[simp] theorem Sys.setSession_db (x : Option (Session σ κ ε α Call)) :
    (y.setSession i x).db = y.db := rfl

@[simp] theorem Sys.setSession_log (x : Option (Session σ κ ε α Call)) :
    (y.setSession i x).log = y.log := rfl

/-- A step that changes one session and commits nothing keeps the invariant when the new
session meets its own obligations. -/
theorem Good.setSession (hg : Good program Quiet Inv Guar s y)
    (z : Option (Session σ κ ε α Call))
    (hz : ∀ x, z = some x →
      (∀ k ∈ x.held, y.Free i k) ∧
      Stable Inv Guar Quiet x.rest x.held x.pending y.db (fun _ _ _ _ => True) ∧
      x.Tracks program Quiet Inv Guar y.db) :
    Good program Quiet Inv Guar s (y.setSession i z) := by
  have hcase : ∀ j x, (y.setSession i z).session j = some x →
      (j = i ∧ z = some x) ∨ (j ≠ i ∧ y.session j = some x) := by
    intro j x hx
    by_cases hj : j = i
    · subst hj
      rw [Sys.setSession_self] at hx
      exact Or.inl ⟨rfl, hx⟩
    · rw [Sys.setSession_of_ne z hj] at hx
      exact Or.inr ⟨hj, hx⟩
  refine ⟨hg.inv, hg.history, ?_, ?_, ?_⟩
  · intro j j' x x' hne hx hx' k hk hk'
    rcases hcase j x hx with ⟨rfl, hz₁⟩ | ⟨hj, hy₁⟩
    · rcases hcase j' x' hx' with ⟨rfl, -⟩ | ⟨hj', hy₂⟩
      · exact hne rfl
      · exact (hz x hz₁).1 k hk j' x' hj' hy₂ hk'
    · rcases hcase j' x' hx' with ⟨rfl, hz₂⟩ | ⟨hj', hy₂⟩
      · exact (hz x' hz₂).1 k hk' j x hj hy₁ hk
      · exact hg.exclusive j j' x x' hne hy₁ hy₂ k hk hk'
  · intro j x hx
    rcases hcase j x hx with ⟨-, hz₁⟩ | ⟨-, hy₁⟩
    · exact (hz x hz₁).2.1
    · exact hg.stable j x hy₁
  · intro j x hx
    rcases hcase j x hx with ⟨-, hz₁⟩ | ⟨-, hy₁⟩
    · exact (hz x hz₁).2.2
    · exact hg.tracks j x hy₁

omit [DecidableEq ι] in
/-- The locks of an open session are free for it. -/
theorem Good.free_held (hg : Good program Quiet Inv Guar s y) {x : Session σ κ ε α Call}
    (hx : y.session i = some x) {k : κ} (hk : k ∈ x.held) : y.Free i k :=
  fun j x' hj hx' => hg.exclusive i j x x' (Ne.symm hj) hx hx' k hk

/-- The step lemma. -/
theorem step_good
    (hexec : ∀ c s o, Inv s → exec (program c) s = .ok o →
      Inv o.state ∧ Guar o.locks s o.state)
    (hstable : ∀ c s, Inv s →
      Stable Inv Guar Quiet (program c) [] id s (fun _ _ _ _ => True))
    (hquiet : ∀ s, Inv s → Guar [] s s)
    {y' : Sys σ κ ε α Call ι} (h : Step program y y')
    (hg : Good program Quiet Inv Guar s y) : Good program Quiet Inv Guar s y' := by
  cases h with
  | start i c hi =>
    refine hg.setSession _ fun x hx => ?_
    obtain rfl := Option.some.inj hx
    refine ⟨by simp, hstable c y.db hg.inv, fun t _ o ho => Or.inr ⟨o.locks, ho, by simp⟩⟩
  | @lock i c k p l w hi hk =>
    refine hg.setSession _ fun x hx => ?_
    obtain rfl := Option.some.inj hx
    refine ⟨?_, stable_lock.mp (hg.stable i _ hi) y.db Rely.refl, fun t ht o ho => ?_⟩
    · intro k' hk'
      rcases List.mem_append.mp hk' with h | h
      · exact hg.free_held hi h
      · obtain rfl := List.mem_singleton.mp h
        exact hk
    · -- the run goes on past the lock, which is now among the held ones
      have hlk : exec (.lock k p) (w t) = .ok { o with locks := k :: o.locks } :=
        exec_lock_ok.mpr ⟨o, ho, rfl⟩
      rcases hg.tracks i _ hi t (ht.mono (by simp)) _ hlk with h | ⟨l', h, hl'⟩
      · exact Or.inl h
      · exact Or.inr ⟨l', h, by simpa using hl'⟩
  | @query i c f l w hi =>
    refine hg.setSession _ fun x hx => ?_
    obtain rfl := Option.some.inj hx
    obtain ⟨href, hst⟩ := hg.stable i _ hi y.db Rely.refl
    refine ⟨fun k hk => hg.free_held hi hk, hst, fun t ht o ho => ?_⟩
    -- what the session read is matched by what it would read at the commit
    rcases href t ht o ho with h | ⟨l', h, hl'⟩
    · exact Or.inl h
    · rcases hg.tracks i _ hi t ht _ h with h' | ⟨l'', h', hl''⟩
      · exact Or.inl h'
      · refine Or.inr ⟨l'', h', fun k hk => ?_⟩
        rcases List.mem_append.mp (hl'' hk) with hk | hk
        · exact List.mem_append_left _ hk
        · exact List.mem_append_right _ (hl' hk)
  | @write i c u p l w hi =>
    refine hg.setSession _ fun x hx => ?_
    obtain rfl := Option.some.inj hx
    have hst := hg.stable i _ hi
    have htr := hg.tracks i _ hi
    exact ⟨fun k hk => hg.free_held hi hk, hst, htr⟩
  | @commit i c a l w hi =>
    -- the commit is a run alone over the database it found
    have hser : (∃ l', Guar l' y.db (w y.db) ∧ Inv (w y.db) ∧ l' ⊆ l) ∧
        (Commit.mk c a y.db (w y.db)).Serial program Quiet := by
      rcases hg.tracks i _ hi y.db Rely.refl _ rfl with ⟨hq, heq⟩ | ⟨l', h, hl'⟩
      · have heq' : w y.db = y.db := heq
        exact ⟨⟨[], by rw [heq']; exact hquiet _ hg.inv, by rw [heq']; exact hg.inv, by simp⟩,
          Or.inl ⟨hq, heq'⟩⟩
      · obtain ⟨hinv, hguar⟩ := hexec c y.db _ hg.inv h
        exact ⟨⟨l', hguar, hinv, by simpa using hl'⟩, Or.inr ⟨l', h⟩⟩
    obtain ⟨⟨l', hguar, hinv, hl'⟩, hser⟩ := hser
    have henv : ∀ j x, j ≠ i → y.session j = some x →
        Rely Inv Guar x.held y.db (w y.db) := by
      intro j x hj hx
      refine Relation.ReflTransGen.single ⟨hg.inv, hinv, l', hguar, fun k hk => ?_⟩
      exact hg.exclusive i j _ x (Ne.symm hj) hi hx k (hl' hk)
    have hcase : ∀ j x, (y.setSession i none).session j = some x →
        j ≠ i ∧ y.session j = some x := by
      intro j x hx
      by_cases hj : j = i
      · subst hj
        simp at hx
      · exact ⟨hj, by rwa [Sys.setSession_of_ne _ hj] at hx⟩
    refine ⟨hinv, .snoc (m := ⟨c, a, y.db, w y.db⟩) hg.history hser, ?_, ?_, ?_⟩
    · intro j j' x x' hne hx hx'
      exact hg.exclusive j j' x x' hne (hcase j x hx).2 (hcase j' x' hx').2
    · intro j x hx
      obtain ⟨hj, hx⟩ := hcase j x hx
      exact (hg.stable j x hx).rely (henv j x hj hx)
    · intro j x hx t ht
      obtain ⟨hj, hx⟩ := hcase j x hx
      exact hg.tracks j x hx t ((henv j x hj hx).trans ht)
  | abort i => exact hg.setSession _ fun x hx => by cases hx

/-- **Serializability**: every interleaving commits as a serial history. -/
theorem serial {Start : σ → Prop}
    (hexec : ∀ c s o, Inv s → exec (program c) s = .ok o →
      Inv o.state ∧ Guar o.locks s o.state)
    (hstable : ∀ c s, Inv s →
      Stable Inv Guar Quiet (program c) [] id s (fun _ _ _ _ => True))
    (hquiet : ∀ s, Inv s → Guar [] s s) (hstart : ∀ s, Start s → Inv s)
    (hy : Reachable program Start y) :
    ∃ s, Start s ∧ Inv y.db ∧ History program Quiet s y.log y.db := by
  suffices h : ∃ s, Start s ∧ Good program Quiet Inv Guar s y by
    obtain ⟨s, hs, hg⟩ := h
    exact ⟨s, hs, hg.inv, hg.history⟩
  induction hy with
  | @init s hs =>
    exact ⟨s, hs, hstart s hs, .nil, by simp [Sys.idle], by simp [Sys.idle],
      by simp [Sys.idle]⟩
  | step _ h ih =>
    obtain ⟨s, hs, hg⟩ := ih
    exact ⟨s, hs, step_good hexec hstable hquiet h hg⟩

end Machine

/-! ## A run alone is an interleaving -/

section Solo

variable {program : Call → Txn σ κ ε α}

/-- While every other session is idle, a session can finish as `exec` says. -/
theorem reachable_rest {Start : σ → Prop} {p : Txn σ κ ε α} {y : Sys σ κ ε α Call ι} {i : ι}
    {c : Call} {l : List κ} {w : σ → σ} {o : Outcome σ κ α}
    (hy : Reachable program Start y) (hi : y.session i = some ⟨c, p, l, w⟩)
    (hothers : ∀ j, j ≠ i → y.session j = none) (ho : exec p (w y.db) = .ok o) :
    ∃ y' : Sys σ κ ε α Call ι, Reachable program Start y' ∧ y'.db = o.state ∧
      y'.log = y.log ++ [⟨c, o.value, y.db, o.state⟩] ∧ ∀ j, y'.session j = none := by
  induction p generalizing y l w o with
  | done a =>
    obtain rfl := Except.ok.inj ho
    refine ⟨_, hy.step (.commit hi), rfl, rfl, fun j => ?_⟩
    by_cases hj : j = i
    · simp [Sys.setSession, hj]
    · simp [Sys.setSession, hj, hothers j hj]
  | raise e => cases ho
  | lock k p ih =>
    obtain ⟨o', ho', rfl⟩ := exec_lock_ok.mp ho
    have hfree : y.Free i k := fun j x hj hx => by simp [hothers j hj] at hx
    have hy' := hy.step (.lock hi hfree)
    have h := ih hy' (Sys.setSession_self _)
      (fun j hj => by rw [Sys.setSession_of_ne _ hj, hothers j hj]) ho'
    exact h
  | query f ih =>
    have hy' := hy.step (.query hi)
    have h := ih _ hy' (Sys.setSession_self _)
      (fun j hj => by rw [Sys.setSession_of_ne _ hj, hothers j hj]) ho
    exact h
  | write u p ih =>
    have hy' := hy.step (.write hi)
    have h := ih hy' (Sys.setSession_self _)
      (fun j hj => by rw [Sys.setSession_of_ne _ hj, hothers j hj]) ho
    exact h

/-- A call made in an idle system; a raise rolls it back. -/
def Sys.call (program : Call → Txn σ κ ε α) (y : Sys σ κ ε α Call ι) (c : Call) :
    Sys σ κ ε α Call ι :=
  match exec (program c) y.db with
  | .error _ => y
  | .ok o => { y with db := o.state, log := y.log ++ [⟨c, o.value, y.db, o.state⟩] }

/-- Calls made one after the other in an idle system. -/
def Sys.calls (program : Call → Txn σ κ ε α) (s : σ) (cs : List Call) : Sys σ κ ε α Call ι :=
  cs.foldl (Sys.call program) (Sys.idle s)

omit [DecidableEq ι] in
theorem Sys.session_call (y : Sys σ κ ε α Call ι) (c : Call) :
    (y.call program c).session = y.session := by
  unfold Sys.call
  split <;> rfl

/-- A call made in an idle system is one of the interleavings. -/
theorem reachable_call [Inhabited ι] {Start : σ → Prop} {y : Sys σ κ ε α Call ι}
    (hy : Reachable program Start y) (hidle : ∀ j, y.session j = none) (c : Call) :
    Reachable program Start (y.call program c) := by
  unfold Sys.call
  cases ho : exec (program c) y.db with
  | error e => exact hy
  | ok o =>
    have hy' := hy.step (.start default c (hidle _))
    rcases reachable_rest hy' (Sys.setSession_self _)
      (fun j hj => by rw [Sys.setSession_of_ne _ hj, hidle j]) ho with ⟨z, hz, hdb, hlog, hz'⟩
    -- the two systems agree on the database, the log and the idle sessions
    have heq : z = { y with db := o.state, log := y.log ++ [⟨c, o.value, y.db, o.state⟩] } := by
      rcases z with ⟨db, session, log⟩
      have hs : session = y.session := funext fun j => (hz' j).trans (hidle j).symm
      rw [Sys.mk.injEq]
      exact ⟨hdb, hs, hlog⟩
    subst heq
    exact hz

/-- Calls made one after the other are one of the interleavings. -/
theorem reachable_calls [Inhabited ι] {Start : σ → Prop} {s : σ} (hs : Start s)
    (cs : List Call) : Reachable program Start (Sys.calls program s cs : Sys σ κ ε α Call ι) := by
  suffices h : ∀ y : Sys σ κ ε α Call ι, Reachable program Start y →
      (∀ j, y.session j = none) → Reachable program Start (cs.foldl (Sys.call program) y) from
    h _ (.init hs) fun _ => rfl
  induction cs with
  | nil => exact fun y hy _ => hy
  | cons c cs ih =>
    intro y hy hidle
    exact ih _ (reachable_call hy hidle c) (by rw [Sys.session_call]; exact hidle)

omit [DecidableEq ι] in
/-- Only the calls made are in the log. -/
theorem Sys.call_mem_of_calls {s : σ} {cs : List Call} {m : Commit σ α Call}
    (hm : m ∈ (Sys.calls program s cs : Sys σ κ ε α Call ι).log) : m.call ∈ cs := by
  suffices h : ∀ y : Sys σ κ ε α Call ι, m ∈ (cs.foldl (Sys.call program) y).log →
      m ∈ y.log ∨ m.call ∈ cs by
    rcases h _ hm with hidle | hcs
    · simp [Sys.idle] at hidle
    · exact hcs
  clear hm
  induction cs with
  | nil => exact fun y hy => Or.inl hy
  | cons c cs ih =>
    intro y hy
    rcases ih _ hy with h | h
    · unfold Sys.call at h
      split at h
      · exact Or.inl h
      · rcases List.mem_append.mp h with h | h
        · exact Or.inl h
        · rw [List.mem_singleton.mp h]
          exact Or.inr List.mem_cons_self
    · exact Or.inr (List.mem_cons_of_mem _ h)

end Solo

end ReadCommitted
