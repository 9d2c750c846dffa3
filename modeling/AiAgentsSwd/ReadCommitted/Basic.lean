import Mathlib.Logic.Relation
import Mathlib.Data.List.Basic

/-!
# ReadCommitted.Basic — transactions at READ COMMITTED isolation

A transaction is a program that takes row locks, runs queries, writes, and ends by
returning or by raising. The interleaved machine `Step` runs any number of sessions:

- a **query** sees the database as committed when the statement starts, overlaid with
  the session's own writes;
- a **lock** waits until no other session holds it, and is kept until the end;
- **writes** stay private until the commit, which publishes them at once and releases
  the locks;
- a session may **abort** at any point (an exception, a crash, a deadlock victim), which
  drops its writes.

`exec` is the same program run alone. The file fixes both meanings and the equations
that later proofs use in place of unfolding them.
-/

namespace ReadCommitted

/-- A transaction over states `σ`, lock names `κ`, exceptions `ε` and result `α`. -/
inductive Txn (σ κ ε α : Type) where
  /-- Return, which commits. -/
  | done (a : α)
  /-- Raise, which rolls back. -/
  | raise (e : ε)
  /-- Take a row lock and keep it until the end. -/
  | lock (k : κ) (next : Txn σ κ ε α)
  /-- Run a statement that reads. -/
  | query (next : σ → Txn σ κ ε α)
  /-- Run a statement that writes. -/
  | write (u : σ → σ) (next : Txn σ κ ε α)

namespace Txn

variable {σ κ ε α β γ : Type}

/-- Sequencing. -/
def bind : Txn σ κ ε α → (α → Txn σ κ ε β) → Txn σ κ ε β
  | done a, g => g a
  | raise e, _ => raise e
  | lock k p, g => lock k (bind p g)
  | query f, g => query fun s => bind (f s) g
  | write u p, g => write u (bind p g)

instance : Monad (Txn σ κ ε) where
  pure := done
  bind := bind

@[simp] theorem pure_eq (a : α) : (pure a : Txn σ κ ε α) = done a := rfl

@[simp] theorem bind_eq (p : Txn σ κ ε α) (g : α → Txn σ κ ε β) : p >>= g = p.bind g := rfl

@[simp] theorem done_bind (a : α) (g : α → Txn σ κ ε β) : (done a).bind g = g a := rfl

@[simp] theorem raise_bind (e : ε) (g : α → Txn σ κ ε β) :
    (raise e : Txn σ κ ε α).bind g = raise e := rfl

@[simp] theorem lock_bind (k : κ) (p : Txn σ κ ε α) (g : α → Txn σ κ ε β) :
    (lock k p).bind g = lock k (p.bind g) := rfl

@[simp] theorem query_bind (f : σ → Txn σ κ ε α) (g : α → Txn σ κ ε β) :
    (query f).bind g = query fun s => (f s).bind g := rfl

@[simp] theorem write_bind (u : σ → σ) (p : Txn σ κ ε α) (g : α → Txn σ κ ε β) :
    (write u p).bind g = write u (p.bind g) := rfl

theorem bind_assoc (p : Txn σ κ ε α) (g : α → Txn σ κ ε β) (h : β → Txn σ κ ε γ) :
    (p.bind g).bind h = p.bind fun a => (g a).bind h := by
  induction p with
  | done a => rfl
  | raise e => rfl
  | lock k p ih => simp only [lock_bind, ih]
  | query f ih => simp only [query_bind, ih]
  | write u p ih => simp only [write_bind, ih]

/-- `SELECT … FOR UPDATE` on one row: the lock part. -/
def lockRow (k : κ) : Txn σ κ ε Unit := lock k (done ())

/-- A plain `SELECT`. -/
def select (q : σ → β) : Txn σ κ ε β := query fun s => done (q s)

/-- An `INSERT` or `UPDATE` whose locks are already held. -/
def modify (u : σ → σ) : Txn σ κ ε Unit := write u (done ())

@[simp] theorem lockRow_bind (k : κ) (g : Unit → Txn σ κ ε β) :
    (lockRow k).bind g = lock k (g ()) := rfl

@[simp] theorem select_bind (q : σ → α) (g : α → Txn σ κ ε β) :
    (select q).bind g = query fun s => g (q s) := rfl

@[simp] theorem modify_bind (u : σ → σ) (g : Unit → Txn σ κ ε β) :
    (modify u).bind g = write u (g ()) := rfl

/-- `UPDATE … WHERE pk = … AND cond RETURNING …`: the statement finds the row as committed
when it starts, waits for its lock, and checks the row again under the lock. -/
def updateWhere {R : Type} (k : κ) (read : σ → Option R) (cond : R → Bool) (u : σ → σ) :
    Txn σ κ ε (Option R) :=
  query fun s =>
    if (read s).any cond then
      lock k <| query fun s' =>
        if (read s').any cond then write u <| query fun s'' => done (read s'') else done none
    else done none

/-- What a run leaves: the result, the state and the locks taken, in order. -/
structure Outcome (σ κ α : Type) where
  value : α
  state : σ
  locks : List κ

/-- Run a transaction alone. -/
def exec : Txn σ κ ε α → σ → Except ε (Outcome σ κ α)
  | done a, s => .ok ⟨a, s, []⟩
  | raise e, _ => .error e
  | lock k p, s =>
    match exec p s with
    | .error e => .error e
    | .ok o => .ok { o with locks := k :: o.locks }
  | query f, s => exec (f s) s
  | write u p, s => exec p (u s)

@[simp] theorem exec_done (a : α) (s : σ) :
    exec (done a : Txn σ κ ε α) s = .ok ⟨a, s, []⟩ := rfl

@[simp] theorem exec_raise (e : ε) (s : σ) : exec (raise e : Txn σ κ ε α) s = .error e := rfl

@[simp] theorem exec_query (f : σ → Txn σ κ ε α) (s : σ) : exec (query f) s = exec (f s) s := rfl

@[simp] theorem exec_write (u : σ → σ) (p : Txn σ κ ε α) (s : σ) :
    exec (write u p) s = exec p (u s) := rfl

/-- A run through a lock succeeds exactly when the rest does. -/
@[simp] theorem exec_lock_ok {k : κ} {p : Txn σ κ ε α} {s : σ} {o : Outcome σ κ α} :
    exec (lock k p) s = .ok o ↔
      ∃ o', exec p s = .ok o' ∧ o = { o' with locks := k :: o'.locks } := by
  cases h : exec p s with
  | error e => simp [exec, h]
  | ok o' => simp [exec, h, eq_comm]

theorem exec_updateWhere_ok {R : Type} {k : κ} {read : σ → Option R} {cond : R → Bool}
    {u : σ → σ} {s : σ} {o : Outcome σ κ (Option R)} :
    exec (updateWhere k read cond u : Txn σ κ ε (Option R)) s = .ok o ↔
      ((read s).any cond = true ∧ o = ⟨read (u s), u s, [k]⟩) ∨
        ((read s).any cond = false ∧ o = ⟨none, s, []⟩) := by
  unfold updateWhere
  cases h : (read s).any cond with
  | true =>
    simp only [exec_query, h, if_true, exec_lock_ok, exec_write, exec_done, Except.ok.injEq,
      true_and, Bool.true_eq_false, false_and, or_false, exists_eq_left']
  | false =>
    simp only [exec_query, h, Bool.false_eq_true, if_false, exec_done, Except.ok.injEq, true_and,
      false_and, false_or, eq_comm]

/-- A run of a sequence is a run of its parts, in order. -/
theorem exec_bind_ok {p : Txn σ κ ε α} {g : α → Txn σ κ ε β} {s : σ} {o : Outcome σ κ β} :
    exec (p.bind g) s = .ok o ↔
      ∃ o₁ o₂, exec p s = .ok o₁ ∧ exec (g o₁.value) o₁.state = .ok o₂ ∧
        o = { o₂ with locks := o₁.locks ++ o₂.locks } := by
  induction p generalizing s o with
  | done a => simp
  | raise e => simp
  | lock k p ih =>
    simp only [lock_bind, exec_lock_ok, ih]
    constructor
    · rintro ⟨o', ⟨o₁, o₂, h₁, h₂, rfl⟩, rfl⟩
      exact ⟨_, o₂, ⟨o₁, h₁, rfl⟩, h₂, rfl⟩
    · rintro ⟨_, o₂, ⟨o₁, h₁, rfl⟩, h₂, rfl⟩
      exact ⟨_, ⟨o₁, o₂, h₁, h₂, rfl⟩, rfl⟩
  | query f ih => simpa using ih s
  | write u p ih => simpa using ih

/-- The transaction, run alone, ends without raising. -/
def Succeeds (p : Txn σ κ ε α) (s : σ) : Prop := ∃ o, exec p s = .ok o

@[simp] theorem succeeds_done (a : α) (s : σ) : Succeeds (done a : Txn σ κ ε α) s := ⟨_, rfl⟩

@[simp] theorem succeeds_raise (e : ε) (s : σ) : ¬ Succeeds (raise e : Txn σ κ ε α) s := by
  rintro ⟨o, ho⟩
  cases ho

@[simp] theorem succeeds_lock (k : κ) (p : Txn σ κ ε α) (s : σ) :
    Succeeds (lock k p) s ↔ Succeeds p s := by
  unfold Succeeds
  simp only [exec_lock_ok]
  constructor
  · rintro ⟨_, o, ho, -⟩
    exact ⟨o, ho⟩
  · rintro ⟨o, ho⟩
    exact ⟨_, o, ho, rfl⟩

@[simp] theorem succeeds_query (f : σ → Txn σ κ ε α) (s : σ) :
    Succeeds (query f) s ↔ Succeeds (f s) s := Iff.rfl

@[simp] theorem succeeds_write (u : σ → σ) (p : Txn σ κ ε α) (s : σ) :
    Succeeds (write u p) s ↔ Succeeds p (u s) := Iff.rfl

theorem succeeds_bind {p : Txn σ κ ε α} {g : α → Txn σ κ ε β} {s : σ} :
    Succeeds (p.bind g) s ↔ ∃ o, exec p s = .ok o ∧ Succeeds (g o.value) o.state := by
  unfold Succeeds
  simp only [exec_bind_ok]
  constructor
  · rintro ⟨_, o₁, o₂, h₁, h₂, -⟩
    exact ⟨o₁, h₁, o₂, h₂⟩
  · rintro ⟨o₁, h₁, o₂, h₂⟩
    exact ⟨_, o₁, o₂, h₁, h₂, rfl⟩

end Txn

/-! ## The interleaved machine -/

section Machine

variable {σ κ ε α Call : Type}

/-- An open transaction: the call it serves, what is left of its program, the locks it
holds and its unpublished writes. -/
structure Session (σ κ ε α Call : Type) where
  call : Call
  rest : Txn σ κ ε α
  held : List κ
  pending : σ → σ

/-- A committed transaction, with the committed state on either side. -/
structure Commit (σ α Call : Type) where
  call : Call
  reply : α
  before : σ
  after : σ

/-- The whole system: the committed database, the open sessions and the commits so far,
oldest first. -/
structure Sys (σ κ ε α Call ι : Type) where
  db : σ
  session : ι → Option (Session σ κ ε α Call)
  log : List (Commit σ α Call)

variable {ι : Type} [DecidableEq ι]

/-- Replace one session. -/
def Sys.setSession (y : Sys σ κ ε α Call ι) (i : ι) (x : Option (Session σ κ ε α Call)) :
    Sys σ κ ε α Call ι :=
  { y with session := fun j => if j = i then x else y.session j }

/-- No other session holds the lock `k`. -/
def Sys.Free (y : Sys σ κ ε α Call ι) (i : ι) (k : κ) : Prop :=
  ∀ j x, j ≠ i → y.session j = some x → k ∉ x.held

variable (program : Call → Txn σ κ ε α)

/-- One step of one session. -/
inductive Step : Sys σ κ ε α Call ι → Sys σ κ ε α Call ι → Prop where
  | start {y : Sys σ κ ε α Call ι} (i : ι) (c : Call) (hi : y.session i = none) :
      Step y (y.setSession i (some ⟨c, program c, [], id⟩))
  | lock {y : Sys σ κ ε α Call ι} {i : ι} {c : Call} {k : κ} {p : Txn σ κ ε α} {l : List κ}
      {w : σ → σ} (hi : y.session i = some ⟨c, .lock k p, l, w⟩) (hk : y.Free i k) :
      Step y (y.setSession i (some ⟨c, p, l ++ [k], w⟩))
  | query {y : Sys σ κ ε α Call ι} {i : ι} {c : Call} {f : σ → Txn σ κ ε α} {l : List κ}
      {w : σ → σ} (hi : y.session i = some ⟨c, .query f, l, w⟩) :
      Step y (y.setSession i (some ⟨c, f (w y.db), l, w⟩))
  | write {y : Sys σ κ ε α Call ι} {i : ι} {c : Call} {u : σ → σ} {p : Txn σ κ ε α}
      {l : List κ} {w : σ → σ} (hi : y.session i = some ⟨c, .write u p, l, w⟩) :
      Step y (y.setSession i (some ⟨c, p, l, u ∘ w⟩))
  | commit {y : Sys σ κ ε α Call ι} {i : ι} {c : Call} {a : α} {l : List κ} {w : σ → σ}
      (hi : y.session i = some ⟨c, .done a, l, w⟩) :
      Step y { y.setSession i none with
        db := w y.db, log := y.log ++ [⟨c, a, y.db, w y.db⟩] }
  | abort {y : Sys σ κ ε α Call ι} (i : ι) : Step y (y.setSession i none)

/-- The idle system over a database. -/
def Sys.idle (s : σ) : Sys σ κ ε α Call ι := ⟨s, fun _ => none, []⟩

/-- The systems that some interleaving reaches from an idle start in `Start`. -/
inductive Reachable (Start : σ → Prop) : Sys σ κ ε α Call ι → Prop where
  | init {s : σ} (hs : Start s) : Reachable Start (Sys.idle s)
  | step {y y' : Sys σ κ ε α Call ι} (hy : Reachable Start y) (h : Step program y y') :
      Reachable Start y'

end Machine

end ReadCommitted
