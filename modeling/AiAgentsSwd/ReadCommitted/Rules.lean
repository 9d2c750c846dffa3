import AiAgentsSwd.ReadCommitted.Basic
import Mathlib.Data.List.Induction

/-!
# ReadCommitted.Rules — rely–guarantee rules for transactions

READ COMMITTED is not serializable: two queries of one transaction may see different
databases. A transaction is nevertheless equivalent to running alone *at its commit
point* when each query result it acted on is still what the query would return there.
The locks are what guarantees that, so the argument is rely–guarantee:

- `Guar l s t`: what a transaction that took the locks `l` may have done (the guarantee);
- `Rely L`: what the others may do to a session that holds `L`, namely any number of
  steps whose locks avoid `L`;
- `Stable p L w s Q`: from committed state `s`, with locks `L` and private writes `w`,
  every query of `p` is still right at the commit, whatever the others do.

Main results:

- `Rely.keeps`: what one foreign commit keeps, any number of them keep;
- `Stable.bind`, `stable_query`, `ReadsOnly.stable`: the rules with which a program is
  checked statement by statement;
- `History.keeps`: the run lemma for serial histories.
-/

namespace ReadCommitted

open Txn

variable {σ κ ε α β Call : Type}

/-! ## What the others may do -/

section Rely

variable (Inv : σ → Prop) (Guar : List κ → σ → σ → Prop)

/-- One commit of another session, which cannot hold a lock of `L`. -/
def EnvStep (L : List κ) (s t : σ) : Prop :=
  Inv s ∧ Inv t ∧ ∃ l, Guar l s t ∧ ∀ k ∈ l, k ∉ L

/-- Any number of commits of other sessions. -/
def Rely (L : List κ) : σ → σ → Prop := Relation.ReflTransGen (EnvStep Inv Guar L)

variable {Inv Guar} {L L' : List κ} {s t t' : σ}

theorem Rely.refl : Rely Inv Guar L s s := Relation.ReflTransGen.refl

theorem Rely.trans (h : Rely Inv Guar L s t) (h' : Rely Inv Guar L t t') :
    Rely Inv Guar L s t' := Relation.ReflTransGen.trans h h'

/-- Holding more locks leaves the others less to do. -/
theorem Rely.mono (hL : L' ⊆ L) (h : Rely Inv Guar L s t) : Rely Inv Guar L' s t := by
  refine Relation.ReflTransGen.mono (fun a b hab => ?_) s t h
  obtain ⟨ha, hb, l, hg, hl⟩ := hab
  exact ⟨ha, hb, l, hg, fun k hk hk' => hl k hk (hL hk')⟩

theorem Rely.inv (h : Rely Inv Guar L s t) (hs : Inv s) : Inv t := by
  cases h using Relation.ReflTransGen.casesOn with
  | refl => exact hs
  | tail _ h => exact h.2.1

/-- The induction rule: what one foreign commit keeps, any number of them keep. -/
theorem Rely.keeps {P : σ → Prop} (h : Rely Inv Guar L s t)
    (hstep : ∀ a b l, Inv a → Inv b → Guar l a b → (∀ k ∈ l, k ∉ L) → P a → P b)
    (hs : P s) : P t := by
  induction h with
  | refl => exact hs
  | tail _ h ih =>
    obtain ⟨ha, hb, l, hg, hl⟩ := h
    exact hstep _ _ l ha hb hg hl ih

end Rely

/-! ## Stability of a program -/

section Stable

variable (Inv : σ → Prop) (Guar : List κ → σ → σ → Prop) (Quiet : α → Prop)

/-- The run `r` is matched by `r'`: either it is a reply that may go with no write and
wrote nothing over `s`, or `r'` gives the same reply and state with no further locks. -/
def Refines (r r' : Except ε (Outcome σ κ α)) (s : σ) : Prop :=
  ∀ o, r = .ok o → (Quiet o.value ∧ o.state = s) ∨
    ∃ l', r' = .ok { o with locks := l' } ∧ l' ⊆ o.locks

/-- A postcondition: of the result, the locks held, the private writes and the
committed state. -/
abbrev Post (σ κ α : Type) := α → List κ → (σ → σ) → σ → Prop

/-- Every query of the program is still right at the commit. -/
def Stable : Txn σ κ ε α → List κ → (σ → σ) → σ → Post σ κ α → Prop
  | .done a, L, w, s, Q => ∀ t, Rely Inv Guar L s t → Q a L w t
  | .raise _, _, _, _, _ => True
  | .lock k p, L, w, s, Q => ∀ t, Rely Inv Guar L s t → Stable p (L ++ [k]) w t Q
  | .query f, L, w, s, Q => ∀ t, Rely Inv Guar L s t →
      (∀ t', Rely Inv Guar L t t' →
        Refines Quiet (exec (f (w t)) (w t')) (exec (f (w t')) (w t')) t') ∧
      Stable (f (w t)) L w t Q
  | .write u p, L, w, s, Q => Stable p L (u ∘ w) s Q

variable {Inv Guar Quiet} {L : List κ} {w : σ → σ} {s t : σ} {Q Q' : Post σ κ α}

theorem Refines.refl (r : Except ε (Outcome σ κ α)) : Refines Quiet r r s :=
  fun o ho => Or.inr ⟨o.locks, ho, List.Subset.refl _⟩

/-- A run that raises claims nothing. -/
theorem Refines.of_error {e : ε} (r' : Except ε (Outcome σ κ α)) :
    Refines Quiet (.error e) r' s := by
  intro o ho
  cases ho

@[simp] theorem stable_done {a : α} :
    Stable Inv Guar Quiet (.done a : Txn σ κ ε α) L w s Q ↔
      ∀ t, Rely Inv Guar L s t → Q a L w t := Iff.rfl

@[simp] theorem stable_raise {e : ε} :
    Stable Inv Guar Quiet (.raise e : Txn σ κ ε α) L w s Q := trivial

theorem stable_lock {k : κ} {p : Txn σ κ ε α} :
    Stable Inv Guar Quiet (.lock k p) L w s Q ↔
      ∀ t, Rely Inv Guar L s t → Stable Inv Guar Quiet p (L ++ [k]) w t Q := Iff.rfl

@[simp] theorem stable_write {u : σ → σ} {p : Txn σ κ ε α} :
    Stable Inv Guar Quiet (.write u p) L w s Q ↔ Stable Inv Guar Quiet p L (u ∘ w) s Q := Iff.rfl

/-- A query is right when what the program does next does not depend on which of the
later states it reads. -/
theorem stable_query_of_eq {f : σ → Txn σ κ ε α}
    (h : ∀ t, Rely Inv Guar L s t →
      (∀ t', Rely Inv Guar L t t' → f (w t') = f (w t)) ∧
      Stable Inv Guar Quiet (f (w t)) L w t Q) :
    Stable Inv Guar Quiet (.query f) L w s Q := by
  intro t ht
  obtain ⟨hf, hst⟩ := h t ht
  refine ⟨fun t' ht' => ?_, hst⟩
  rw [hf t' ht']
  exact Refines.refl _

/-- The program raises, whatever it reads. -/
inductive Raises : Txn σ κ ε α → Prop where
  | raise (e : ε) : Raises (.raise e)
  | query (f : σ → Txn σ κ ε α) (h : ∀ s, Raises (f s)) : Raises (.query f)

theorem Raises.exec {p : Txn σ κ ε α} (h : Raises p) (s : σ) : ∃ e, exec p s = .error e := by
  induction h with
  | raise e => exact ⟨e, rfl⟩
  | query f _ ih => exact ih s

/-- A program that raises claims nothing, so every read of it is right. -/
theorem Raises.stable {p : Txn σ κ ε α} (h : Raises p) :
    Stable Inv Guar Quiet p L w s Q := by
  induction h generalizing s with
  | raise e => trivial
  | query f h ih =>
    intro t _
    refine ⟨fun t' _ => ?_, ih _⟩
    rcases (h (w t)).exec (w t') with ⟨e, he⟩
    rw [he]
    exact Refines.of_error _

/-- A query is right when the program then raises, or goes on the same way whichever of the
later states it reads. -/
theorem stable_query {f : σ → Txn σ κ ε α}
    (h : ∀ t, Rely Inv Guar L s t → Raises (f (w t)) ∨
      (∀ t', Rely Inv Guar L t t' → f (w t') = f (w t)) ∧
        Stable Inv Guar Quiet (f (w t)) L w t Q) :
    Stable Inv Guar Quiet (.query f) L w s Q := by
  intro t ht
  rcases h t ht with hr | ⟨hf, hst⟩
  · refine ⟨fun t' _ => ?_, hr.stable⟩
    rcases hr.exec (w t') with ⟨e, he⟩
    rw [he]
    exact Refines.of_error _
  · refine ⟨fun t' ht' => ?_, hst⟩
    rw [hf t' ht']
    exact Refines.refl _

/-- The program only reads, and its replies may go with no write. -/
inductive ReadsOnly (Quiet : α → Prop) : Txn σ κ ε α → Prop where
  | done (a : α) (h : Quiet a) : ReadsOnly Quiet (.done a)
  | raise (e : ε) : ReadsOnly Quiet (.raise e)
  | query (f : σ → Txn σ κ ε α) (h : ∀ s, ReadsOnly Quiet (f s)) : ReadsOnly Quiet (.query f)

theorem ReadsOnly.exec {p : Txn σ κ ε α} (h : ReadsOnly Quiet p) {s : σ} {o : Outcome σ κ α}
    (ho : exec p s = .ok o) : Quiet o.value ∧ o.state = s := by
  induction h with
  | done a hq =>
    rw [exec_done, Except.ok.injEq] at ho
    subst ho
    exact ⟨hq, rfl⟩
  | raise e => cases ho
  | query f _ ih => exact ih s ho

/-- Before the first write, a program that only reads is right as it is. -/
theorem ReadsOnly.stable {p : Txn σ κ ε α} (h : ReadsOnly Quiet p) (hw : ∀ t, w t = t) :
    Stable Inv Guar Quiet p L w s (fun _ _ _ _ => True) := by
  induction h generalizing s with
  | done a hq => exact fun t _ => trivial
  | raise e => trivial
  | query f hf ih =>
    intro t _
    refine ⟨fun t' _ o ho => ?_, ih _⟩
    rcases (hf (w t)).exec ho with ⟨hq, hs⟩
    exact Or.inl ⟨hq, hs.trans (hw t')⟩

/-- Stability survives what the others do. -/
theorem Stable.rely {p : Txn σ κ ε α} (h : Stable Inv Guar Quiet p L w s Q)
    (ht : Rely Inv Guar L s t) : Stable Inv Guar Quiet p L w t Q := by
  induction p generalizing w with
  | done a => exact fun t' ht' => h t' (ht.trans ht')
  | raise e => trivial
  | lock k p _ => exact fun t' ht' => h t' (ht.trans ht')
  | query f _ => exact fun t' ht' => h t' (ht.trans ht')
  | write u p ih => exact ih h

theorem Stable.mono {p : Txn σ κ ε α} (h : Stable Inv Guar Quiet p L w s Q)
    (hQ : ∀ a L w t, Q a L w t → Q' a L w t) : Stable Inv Guar Quiet p L w s Q' := by
  induction p generalizing L w s with
  | done a => exact fun t ht => hQ _ _ _ _ (h t ht)
  | raise e => trivial
  | lock k p ih => exact fun t ht => ih (h t ht)
  | query f ih => exact fun t ht => ⟨(h t ht).1, ih _ (h t ht).2⟩
  | write u p ih => exact ih h

/-- Sequencing: check the first program for replies that match exactly, then the rest
from every state the first one may leave. -/
theorem Stable.bind {p : Txn σ κ ε β} {g : β → Txn σ κ ε α} {R : Post σ κ β}
    (hp : Stable Inv Guar (fun _ => False) p L w s R)
    (hg : ∀ b L w t, R b L w t → Stable Inv Guar Quiet (g b) L w t Q) :
    Stable Inv Guar Quiet (p.bind g) L w s Q := by
  induction p generalizing L w s with
  | done b => exact hg _ _ _ _ (hp s Rely.refl)
  | raise e => trivial
  | lock k p ih => exact fun t ht => ih (hp t ht)
  | write u p ih => exact ih hp
  | query f ih =>
    intro t ht
    obtain ⟨href, hst⟩ := hp t ht
    refine ⟨fun t' ht' o ho => ?_, ih _ hst⟩
    -- the first program's replies match exactly, so the continuation is the same one
    obtain ⟨o₁, o₂, h₁, h₂, rfl⟩ := exec_bind_ok.mp ho
    rcases href t' ht' o₁ h₁ with ⟨hfalse, -⟩ | ⟨l', h', hl'⟩
    · exact hfalse.elim
    · refine Or.inr ⟨l' ++ o₂.locks, exec_bind_ok.mpr ⟨_, o₂, h', h₂, rfl⟩, ?_⟩
      exact List.append_subset.mpr
        ⟨fun k hk => List.mem_append_left _ (hl' hk), List.subset_append_right _ _⟩

/-- A program only adds locks, and what others did meanwhile respects those it started
with. -/
theorem Stable.track {p : Txn σ κ ε α} (h : Stable Inv Guar Quiet p L w s Q) :
    Stable Inv Guar Quiet p L w s fun a L' w' t =>
      Q a L' w' t ∧ Rely Inv Guar L s t ∧ L ⊆ L' := by
  induction p generalizing L w s with
  | done a => exact fun t ht => ⟨h t ht, ht, List.Subset.refl _⟩
  | raise e => trivial
  | lock k p ih =>
    intro t ht
    refine (ih (h t ht)).mono fun a L' w' t' hq => ?_
    rcases hq with ⟨hq, hr, hL⟩
    have hsub : L ⊆ L ++ [k] := List.subset_append_left _ _
    exact ⟨hq, ht.trans (hr.mono hsub), fun x hx => hL (hsub hx)⟩
  | query f ih =>
    intro t ht
    refine ⟨(h t ht).1, (ih _ (h t ht).2).mono fun a L' w' t' hq => ?_⟩
    exact ⟨hq.1, ht.trans hq.2.1, hq.2.2⟩
  | write u p ih => exact ih h

/-- Sequencing, with what the first program leaves of the past. -/
theorem Stable.bind_rely {p : Txn σ κ ε β} {g : β → Txn σ κ ε α} {R : Post σ κ β}
    (hp : Stable Inv Guar (fun _ => False) p L w s R)
    (hg : ∀ b L' w' t, R b L' w' t → Rely Inv Guar L s t → L ⊆ L' →
      Stable Inv Guar Quiet (g b) L' w' t Q) :
    Stable Inv Guar Quiet (p.bind g) L w s Q :=
  hp.track.bind fun b L' w' t hb => hg b L' w' t hb.1 hb.2.1 hb.2.2

/-- Replies that match exactly may be passed on by any caller. -/
theorem Stable.bind_done {p : Txn σ κ ε β} {f : β → α}
    (hp : Stable Inv Guar (fun _ => False) p L w s fun _ _ _ _ => True) :
    Stable Inv Guar Quiet (p.bind fun b => .done (f b)) L w s fun _ _ _ _ => True :=
  hp.bind fun _ _ _ _ _ _ _ => trivial

/-- A guarded update as the first statement. When it matches a row, the lock it takes fixes
that row; when it matches none, the rest must be content to read. -/
theorem stable_updateWhere_bind {R : Type} {k : κ} {read : σ → Option R} {cond : R → Bool}
    {u : σ → σ} {g : Option R → Txn σ κ ε α} (hw : ∀ t, w t = t)
    (hrow : ∀ L s t, k ∈ L → Rely Inv Guar L s t → read t = read s)
    (hu : ∀ s t, read s = read t → read (u s) = read (u t))
    (hsome : ∀ s, (read s).any cond = true → (read (u s)).isSome)
    (hnone : ReadsOnly Quiet (g none))
    (hg : ∀ x L w s, Stable Inv Guar Quiet (g (some x)) L w s fun _ _ _ _ => True) :
    Stable Inv Guar Quiet ((updateWhere k read cond u).bind g) L w s fun _ _ _ _ => True := by
  unfold updateWhere
  rw [query_bind]
  intro t _
  refine ⟨fun t' _ o ho => ?_, ?_⟩
  · rw [hw t, hw t'] at ho
    rw [hw t']
    cases hc : (read t).any cond with
    | false =>
      simp only [hc, Bool.false_eq_true, if_false, done_bind] at ho
      exact Or.inl (hnone.exec ho)
    | true =>
      cases hc' : (read t').any cond with
      | true =>
        simp only [hc, if_true] at ho
        simp only [hc', if_true]
        exact Or.inr ⟨o.locks, ho, List.Subset.refl _⟩
      | false =>
        -- the row was taken in between: the recheck under the lock finds nothing
        simp only [hc, if_true, lock_bind, query_bind, exec_lock_ok, exec_query, hc',
          Bool.false_eq_true, if_false, done_bind] at ho
        rcases ho with ⟨o', ho', rfl⟩
        have hread := hnone.exec ho'
        exact Or.inl hread
  · rw [hw t]
    cases hc : (read t).any cond with
    | false =>
      simp only [hc, Bool.false_eq_true, if_false, done_bind]
      exact hnone.stable hw
    | true =>
      simp only [hc, if_true, lock_bind, query_bind, stable_lock]
      intro t₁ _
      apply stable_query
      intro t₂ _
      right
      constructor
      · intro t' ht'
        have heq := hrow _ t₂ t' (by simp) ht'
        simp only [hw, heq]
      · rw [hw t₂]
        cases hc₂ : (read t₂).any cond with
        | false =>
          simp only [Bool.false_eq_true, if_false, done_bind]
          exact hnone.stable hw
        | true =>
          simp only [if_true, write_bind, query_bind, done_bind, stable_write]
          apply stable_query
          intro t₃ ht₃
          right
          have heq₃ := hrow _ t₂ t₃ (by simp) ht₃
          constructor
          · intro t' ht'
            have heq := hrow _ t₃ t' (by simp) ht'
            simp only [Function.comp_apply, hw, hu t' t₃ heq]
          · rw [Function.comp_apply, hw t₃]
            have hc₃ : (read t₃).any cond = true := by rw [heq₃, hc₂]
            rcases Option.isSome_iff_exists.mp (hsome t₃ hc₃) with ⟨x, hx⟩
            rw [hx]
            exact hg x _ _ _

/-- A guarded update of a row that is already fixed, seen through earlier writes. -/
theorem stable_updateWhere {R : Type} {k : κ} {read : σ → Option R} {cond : R → Bool}
    {u : σ → σ} (hread : ∀ t t', Rely Inv Guar L t t' → read (w t') = read (w t))
    (hu : ∀ t t', Rely Inv Guar L t t' → read (u (w t')) = read (u (w t))) :
    Stable Inv Guar (fun _ => False) (updateWhere k read cond u : Txn σ κ ε (Option R)) L w s
      fun b L' w' t => L ⊆ L' ∧
        ((b = none ∧ w' = w ∧ (read (w t)).any cond = false) ∨
          (b = read (u (w t)) ∧ w' = u ∘ w ∧ (read (w t)).any cond = true)) := by
  have hsub : L ⊆ L ++ [k] := List.subset_append_left _ _
  unfold updateWhere
  apply stable_query
  intro t _
  right
  constructor
  · intro t' ht'
    rw [hread t t' ht']
  · cases hc : (read (w t)).any cond with
    | false =>
      rw [if_neg (by simp)]
      intro t' ht'
      refine ⟨List.Subset.refl _, Or.inl ⟨rfl, rfl, ?_⟩⟩
      rw [hread t t' ht', hc]
    | true =>
      simp only [if_true, stable_lock]
      intro t₁ ht₁
      apply stable_query
      intro t₂ ht₂
      right
      have h₂ : read (w t₂) = read (w t) := hread t t₂ (ht₁.trans (ht₂.mono hsub))
      constructor
      · intro t' ht'
        rw [hread t₂ t' (ht'.mono hsub)]
      · rw [h₂, hc]
        simp only [if_true, stable_write]
        apply stable_query
        intro t₃ ht₃
        right
        constructor
        · intro t' ht'
          simp only [Function.comp_apply, hu t₃ t' (ht'.mono hsub)]
        · intro t₄ ht₄
          refine ⟨hsub, Or.inr ⟨(hu t₃ t₄ (ht₄.mono hsub)).symm, rfl, ?_⟩⟩
          rw [hread t₃ t₄ (ht₄.mono hsub), hread t₂ t₃ (ht₃.mono hsub), h₂, hc]

end Stable

/-! ## Serial histories -/

section Serial

variable (program : Call → Txn σ κ ε α) (Quiet : α → Prop)

/-- A commit that is a run alone over the state it found, or a reply that goes with no
write and wrote nothing. -/
def Commit.Serial (m : Commit σ α Call) : Prop :=
  (Quiet m.reply ∧ m.after = m.before) ∨
    ∃ l, (program m.call).exec m.before = .ok ⟨m.reply, m.after, l⟩

/-- A sequence of commits, each over the state the one before it left. -/
inductive History (s : σ) : List (Commit σ α Call) → σ → Prop where
  | nil : History s [] s
  | snoc {ms : List (Commit σ α Call)} {m : Commit σ α Call}
      (h : History s ms m.before) (hm : m.Serial program Quiet) :
      History s (ms ++ [m]) m.after

variable {program Quiet} {Inv : σ → Prop}

/-- What a run alone keeps, a serial commit keeps. -/
theorem Commit.Serial.keeps {P : σ → Prop} {m : Commit σ α Call}
    (hm : m.Serial program Quiet)
    (hexec : ∀ c s o, P s → (program c).exec s = .ok o → P o.state) (hb : P m.before) :
    P m.after := by
  rcases hm with ⟨-, heq⟩ | ⟨l, hl⟩
  · rw [heq]
    exact hb
  · exact hexec m.call m.before _ hb hl

/-- The run lemma: what every call keeps, a history keeps. -/
theorem History.keeps {P : σ → Prop} {s t : σ} {ms : List (Commit σ α Call)}
    (h : History program Quiet s ms t)
    (hexec : ∀ c s o, P s → (program c).exec s = .ok o → P o.state) (hs : P s) : P t := by
  induction h with
  | nil => exact hs
  | snoc _ hm ih => exact hm.keeps hexec ih

/-- A history splits at every point. -/
theorem History.split {s u : σ} {ms ns : List (Commit σ α Call)}
    (h : History program Quiet s (ms ++ ns) u) :
    ∃ t, History program Quiet s ms t ∧ History program Quiet t ns u := by
  induction ns using List.reverseRecOn generalizing u with
  | nil => exact ⟨u, by simpa using h, .nil⟩
  | append_singleton ns n ih =>
    rw [← List.append_assoc] at h
    generalize hl : ms ++ ns ++ [n] = l at h
    cases h with
    | nil => simp at hl
    | snoc h hm =>
      obtain ⟨h1, h2⟩ := List.append_inj' hl rfl
      obtain rfl : n = _ := by simpa using h2
      subst h1
      obtain ⟨t, ht, hu⟩ := ih h
      exact ⟨t, ht, .snoc hu hm⟩

/-- A commit of a history is serial over a state that a shorter history reaches. -/
theorem History.commit {s t : σ} {ms ns : List (Commit σ α Call)} {m : Commit σ α Call}
    (h : History program Quiet s (ms ++ m :: ns) t) :
    History program Quiet s ms m.before ∧ m.Serial program Quiet ∧
      History program Quiet m.after ns t := by
  have heq : ms ++ m :: ns = (ms ++ [m]) ++ ns := by simp
  rw [heq] at h
  rcases h.split with ⟨u, hu, hns⟩
  generalize hl : ms ++ [m] = l at hu
  cases hu with
  | nil => simp at hl
  | snoc h hm =>
    rcases List.append_inj' hl rfl with ⟨h1, h2⟩
    rw [List.singleton_inj] at h2
    subst h1
    subst h2
    exact ⟨h, hm, hns⟩

/-- A one-way switch is thrown at most once, and exactly once when it ends up thrown. -/
theorem History.countP_switch {p : σ → Bool} {s t : σ} {ms : List (Commit σ α Call)}
    (h : History program Quiet s ms t)
    (hkeep : ∀ m ∈ ms, p m.before = true → p m.after = true) (hs : p s = false) :
    ms.countP (fun m => !p m.before && p m.after) = (p t).toNat := by
  induction h with
  | nil => simp [hs]
  | @snoc ms m h _ ih =>
    have hih := ih fun m' hm' => hkeep m' (List.mem_append_left _ hm')
    rw [List.countP_append, hih]
    have hm := hkeep m (by simp)
    cases hb : p m.before with
    | false => cases ha : p m.after <;> simp [hb, ha]
    | true => simp [hb, hm hb]

end Serial

end ReadCommitted
