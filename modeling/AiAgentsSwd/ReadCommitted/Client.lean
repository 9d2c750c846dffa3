import AiAgentsSwd.ReadCommitted.Basic
import Mathlib.Order.Defs.Unbundled

/-!
# ReadCommitted.Client — clients that run one transaction after the other

A client holds nothing between its transactions: each one runs to its end and commits
before the next starts, and a raise leaves behind what was committed before it. `Client`
is what such a program does while nobody else is active, `Returns` its total correctness:
from this state the client returns, with a result and in a state that satisfy `Q`.

Main results: `returns_bind` and `returns_forEach`, the rules for sequences and loops.
-/

namespace ReadCommitted

variable {σ κ ε α β : Type}

/-- A client: what it returns or raises, and the database it leaves. -/
def Client (σ ε α : Type) := σ → Except ε α × σ

namespace Client

/-- Sequencing: a raise ends the client. -/
def bind (p : Client σ ε α) (g : α → Client σ ε β) : Client σ ε β := fun s =>
  match p s with
  | (.error e, t) => (.error e, t)
  | (.ok a, t) => g a t

instance : Monad (Client σ ε) where
  pure a := fun s => (.ok a, s)
  bind := bind

/-- Raise. -/
def fail (e : ε) : Client σ ε α := fun s => (.error e, s)

/-- A query on its own connection. -/
def fetch (q : σ → α) : Client σ ε α := fun s => (.ok (q s), s)

/-- A transaction. -/
def transact (p : Txn σ κ ε α) : Client σ ε α := fun s =>
  match p.exec s with
  | .error e => (.error e, s)
  | .ok o => (.ok o.value, o.state)

/-- `for b in bs`, collecting the results. -/
def forEach (f : β → Client σ ε α) : List β → Client σ ε (List α)
  | [] => return []
  | b :: bs => do
    let a ← f b
    let rest ← forEach f bs
    return a :: rest

/-- From `s` the client returns, with a result and in a state that satisfy `Q`. -/
def Returns (p : Client σ ε α) (s : σ) (Q : α → σ → Prop) : Prop :=
  ∃ a t, p s = (.ok a, t) ∧ Q a t

variable {p : Client σ ε α} {s : σ} {Q : α → σ → Prop}

theorem Returns.mono {Q' : α → σ → Prop} (h : p.Returns s Q) (hQ : ∀ a t, Q a t → Q' a t) :
    p.Returns s Q' := by
  rcases h with ⟨a, t, hp, hq⟩
  exact ⟨a, t, hp, hQ a t hq⟩

/-- The state a client leaves satisfies what it returns with. -/
theorem Returns.snd (h : p.Returns s Q) : ∃ a, Q a (p s).2 := by
  rcases h with ⟨a, t, hp, hq⟩
  rw [hp]
  exact ⟨a, hq⟩

theorem returns_pure {a : α} (h : Q a s) : Returns (pure a : Client σ ε α) s Q :=
  ⟨a, s, rfl, h⟩

theorem returns_bind {g : α → Client σ ε β} {Q' : β → σ → Prop} (h : p.Returns s Q)
    (hg : ∀ a t, Q a t → (g a).Returns t Q') : Returns (p >>= g) s Q' := by
  rcases h with ⟨a, t, hp, hq⟩
  rcases hg a t hq with ⟨b, u, hb, hq'⟩
  refine ⟨b, u, ?_, hq'⟩
  show bind p g s = _
  unfold bind
  rw [hp]
  exact hb

theorem returns_fetch {q : σ → α} (h : Q (q s) s) : Returns (fetch q : Client σ ε α) s Q :=
  ⟨q s, s, rfl, h⟩

theorem returns_transact {x : Txn σ κ ε α} {o : Txn.Outcome σ κ α} (ho : x.exec s = .ok o)
    (h : Q o.value o.state) : Returns (transact x) s Q := by
  refine ⟨o.value, o.state, ?_, h⟩
  unfold transact
  rw [ho]

/-- The loop rule: `I bs` is what holds while `bs` is still to do. -/
theorem returns_forEach {f : β → Client σ ε α} {I : List β → σ → Prop}
    (hstep : ∀ b bs t, I (b :: bs) t → (f b).Returns t fun _ t' => I bs t') {bs : List β}
    (h : I bs s) : (forEach f bs).Returns s fun _ t => I [] t := by
  induction bs generalizing s with
  | nil => exact returns_pure h
  | cons b bs ih =>
    unfold forEach
    apply returns_bind (hstep b bs s h)
    intro a t ht
    apply returns_bind (ih ht)
    intro rest t' ht'
    exact returns_pure ht'

/-! ## Runs that raise -/

section Raising

variable {x : Txn σ κ ε α} {g : α → Txn σ κ ε β} {e : ε}

theorem exec_lock_error {k : κ} (h : x.exec s = .error e) :
    (Txn.lock k x).exec s = .error e := by
  unfold Txn.exec
  rw [h]

/-- A raise in the second part, after a first part that went through. -/
theorem exec_bind_error {o : Txn.Outcome σ κ α} (hx : x.exec s = .ok o)
    (hg : (g o.value).exec o.state = .error e) : (x.bind g).exec s = .error e := by
  induction x generalizing s o with
  | done a =>
    cases hx
    exact hg
  | raise e => cases hx
  | lock k p ih =>
    obtain ⟨o', ho', rfl⟩ := Txn.exec_lock_ok.mp hx
    exact exec_lock_error (ih ho' hg)
  | query f ih => exact ih s hx hg
  | write u p ih => exact ih hx hg

end Raising

/-! ## What a client changes, also when it raises -/

/-- Whatever it returns or raises, the client takes a state to a related one. -/
def Within (p : Client σ ε α) (R : σ → σ → Prop) : Prop := ∀ s, R s (p s).2

variable {R : σ → σ → Prop}

theorem Within.mono {R' : σ → σ → Prop} (h : p.Within R) (hR : ∀ s t, R s t → R' s t) :
    p.Within R' :=
  fun s => hR s _ (h s)

theorem within_pure [Std.Refl R] (a : α) : Within (pure a : Client σ ε α) R :=
  fun s => Std.Refl.refl s

theorem within_fail [Std.Refl R] (e : ε) : Within (fail e : Client σ ε α) R :=
  fun s => Std.Refl.refl s

theorem within_fetch [Std.Refl R] (q : σ → α) : Within (fetch q : Client σ ε α) R :=
  fun s => Std.Refl.refl s

theorem within_bind [IsTrans σ R] {g : α → Client σ ε β} (h : p.Within R)
    (hg : ∀ a, (g a).Within R) : Within (p >>= g) R := by
  intro s
  have hp := h s
  show R s (bind p g s).2
  unfold bind
  cases heq : p s with
  | mk result t =>
    rw [heq] at hp
    cases result with
    | error e => exact hp
    | ok a => exact IsTrans.trans _ _ _ hp (hg a t)

/-- A transaction that is rolled back changes nothing. -/
theorem within_transact [Std.Refl R] {x : Txn σ κ ε α}
    (h : ∀ s o, x.exec s = .ok o → R s o.state) : Within (transact x) R := by
  intro s
  unfold transact
  cases hx : x.exec s with
  | error e => exact Std.Refl.refl s
  | ok o => exact h s o hx

theorem within_forEach [Std.Refl R] [IsTrans σ R] {f : β → Client σ ε α} {bs : List β}
    (h : ∀ b ∈ bs, (f b).Within R) : (forEach f bs).Within R := by
  induction bs with
  | nil => exact within_pure _
  | cons b bs ih =>
    unfold forEach
    apply within_bind (h b (List.mem_cons_self ..))
    intro a
    apply within_bind (ih fun b' hb' => h b' (List.mem_cons_of_mem _ hb'))
    intro rest
    exact within_pure _

theorem forEach_congr {f g : β → Client σ ε α} {bs : List β} (h : ∀ b ∈ bs, f b = g b) :
    forEach f bs = forEach g bs := by
  induction bs with
  | nil => rfl
  | cons b bs ih =>
    unfold forEach
    rw [h b (List.mem_cons_self ..), ih fun b' hb' => h b' (List.mem_cons_of_mem _ hb')]

/-- What the first client has established is kept by a second that stays within `R`. -/
theorem snd_bind {g : α → Client σ ε β} {Q : σ → Prop} (h : Q (p s).2)
    (hkeep : ∀ t t', R t t' → Q t → Q t') (hg : ∀ a, (g a).Within R) : Q ((p >>= g) s).2 := by
  show Q (bind p g s).2
  unfold bind
  cases heq : p s with
  | mk result t =>
    rw [heq] at h
    cases result with
    | error e => exact h
    | ok a => exact hkeep _ _ (hg a t) h

end Client

end ReadCommitted
