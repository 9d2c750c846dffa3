import AiAgentsSwd.Migrations.Runner

/-!
# Migrations.Body — the state a run fails in

What a body leaves to the cleanup when it fails at a point (`Left`): from the point alone it is
known which settings were changed, whether they were saved, and whether a row of the run stands in
status `applying` that nothing was noted about. `ledgerBody_triple` and `lockedBody_triple` say it
of the two bodies, and the `_within` lemmas say which points a part can fail at.
-/

namespace AiAgentsSwd.Migrations

open Faults

variable {c : Call}

/-! ## What the cleanup does not know of -/

/-- The settings are saved after this point. -/
def Point.isEarly : Point → Bool
  | bootstrap => true
  | showSetting _ => true
  | setSetting _ => true
  | _ => false

/-- The settings a run has changed when it fails while it sets them. -/
def changed (p : Point) (how : Manner) (k : Setting) : Bool :=
  match p with
  | .setSetting j => settings.idxOf k < settings.idxOf j || (k = j && how = .landed)
  | _ => false

/-- The run has inserted a row in status `applying` and nothing was noted to be done about it. -/
def forgotten (p : Point) (how : Manner) : Bool :=
  match p with
  | .insertApplying _ => how = .landed
  | .observe _ _ _ => true
  | .markApplied _ => how ≠ .landed
  | _ => false

/-- A row of this run that is in status `applying`. -/
def LeftApplying (c : Call) (ledger : Ledger) : Prop :=
  ∃ id r, c.ledger.length ≤ id ∧ ledger[id]? = some r ∧ r.status = .applying

/-! ## Statements -/

section Statements

variable {α : Type} {P I : State → Prop} {E : Failure Point Err → State → Prop} {p : Point}

theorem statement_triple {Q : α → State → Prop} {effect : State → α × State}
    {spoil : State → State} (hopen : ∀ s, P s → s.session.aborted = false)
    (h : Triple P (Prog.step c.strikes p effect spoil) Q E) :
    Triple P (statement c p effect spoil) Q E := by
  have hget : Triple P (Prog.get : Program State) (fun s s' => s = s' ∧ P s') E :=
    Triple.get fun s hs => ⟨rfl, hs⟩
  refine Triple.bind hget fun s => Triple.ite (fun haborted => ?_) fun _ => ?_
  · refine Triple.raise fun s' hs => ?_
    have hfalse := hopen s' hs.2
    rw [← hs.1, haborted] at hfalse
    cases hfalse
  · exact h.conseq (fun _ hs => hs.2) (fun _ _ hq => hq) fun _ _ he => he

theorem query_triple {answer : State → α} (hopen : ∀ s, I s → s.session.aborted = false)
    (hE : ∀ how e s, I s → E ⟨p, how, e⟩ s) :
    Triple I (query c p answer) (fun a s => I s ∧ a = answer s) E :=
  statement_triple hopen (Triple.step (fun _ hs _ => ⟨hs, rfl⟩) (fun s e hs _ => hE _ e s hs)
    (fun s e hs _ => hE _ e s hs) fun s e hs _ => hE _ e s hs)

/-- A write: its effect is there when it goes through and when only the answer was lost. -/
theorem execute_triple {Q : Unit → State → Prop} {effect : State → State}
    (hopen : ∀ s, P s → s.session.aborted = false)
    (hdone : ∀ s, P s → c.strikes p = none → Q () (effect s))
    (hlost : ∀ how e s, P s → c.strikes p = some (how, e) → how ≠ .landed → E ⟨p, how, e⟩ s)
    (hlanded : ∀ e s, P s → c.strikes p = some (.landed, e) → E ⟨p, .landed, e⟩ (effect s)) :
    Triple P (execute c p effect) Q E := by
  refine statement_triple hopen (Triple.step hdone ?_ ?_ ?_)
  · intro s e hs hstrike
    exact hlost .unsent e s hs hstrike (by decide)
  · intro s e hs hstrike
    exact hlost .undone e s hs hstrike (by decide)
  · intro s e hs hstrike
    exact hlanded e s hs hstrike

theorem await_triple (hE : ∀ how e s, I s → E ⟨p, how, e⟩ s) :
    Triple I (await c p) (fun _ => I) E :=
  Triple.step (fun _ hs _ => hs) (fun s e hs _ => hE _ e s hs) (fun s e hs _ => hE _ e s hs)
    fun s e hs _ => hE _ e s hs

end Statements

/-! ## The wait for the lock -/

/-- The run when it has got the lock. -/
def Call.held (c : Call) : State := { c.start.now with session.holds := true }

theorem tryLock_triple (k : Nat) :
    Triple (fun s => s = c.start.now) (tryLock c k)
      (fun got s => s = if got then c.held else c.start.now)
      fun _ s => s.session.closed = false := by
  refine statement_triple ?_ (Triple.step ?_ ?_ ?_ ?_)
  · intro s hs
    rw [hs]
    rfl
  · intro s hs _
    subst hs
    show ({ c.start.now with session.holds := false || c.free k } : State) = _
    cases c.free k with
    | false => rfl
    | true => rfl
  · intro s e hs _
    rw [hs]
    rfl
  · intro s e hs _
    show s.session.closed = false
    rw [hs]
    rfl
  · intro s e hs _
    rw [hs]
    rfl

theorem acquireLockBounded_triple (left k : Nat) :
    Triple (fun s => s = c.start.now) (acquireLockBounded c left k)
      (fun got s => s = if got then c.held else c.start.now)
      fun _ s => s.session.closed = false := by
  induction left generalizing k with
  | zero => exact tryLock_triple k
  | succ left ih =>
    refine Triple.bind (tryLock_triple k) fun got => Triple.ite (fun hgot => ?_) fun hgot => ?_
    · refine Triple.pure fun s hs => ?_
      rw [hs, hgot]
    · have hwait : Triple (fun s => s = c.start.now) (await c (.sleep k))
          (fun _ s => s = c.start.now) fun _ s => s.session.closed = false := by
        refine await_triple fun _ _ s hs => ?_
        rw [hs]
        rfl
      have hnext := Triple.bind hwait fun _ => ih (k + 1)
      refine hnext.conseq (fun s hs => ?_) (fun _ _ hq => hq) fun _ _ he => he
      rw [if_neg hgot] at hs
      exact hs

theorem validateTimeoutConfig_triple (ms : Nat) :
    Triple (fun s => s = c.start.now) (validateTimeoutConfig c ms) (fun _ s => s = c.start.now)
      fun _ s => s.session.closed = false := by
  have hraise : ∀ e, Triple (fun s => s = c.start.now) (Prog.raise .config e : Program Unit)
      (fun _ s => s = c.start.now) fun _ s => s.session.closed = false := by
    intro e
    refine Triple.raise fun s hs => ?_
    rw [hs]
    rfl
  refine Triple.ite (fun _ => hraise _) fun _ => Triple.ite (fun _ => hraise _) fun _ => ?_
  refine Triple.ite (fun _ => hraise _) fun _ => Triple.ite (fun _ => hraise _) fun _ => ?_
  exact Triple.pure fun _ hs => hs

theorem prelude_triple (ms : Nat) :
    Triple (fun s => s = c.start.now) (prelude c ms) (fun _ s => s = c.held)
      fun _ s => s.session.closed = false := by
  refine Triple.bind (validateTimeoutConfig_triple ms) fun _ => ?_
  refine Triple.bind (acquireLockBounded_triple c.polls 0) fun got => ?_
  refine Triple.ite (fun hgot => Triple.pure fun s hs => ?_) fun hgot =>
    Triple.raise fun s hs => ?_
  · rw [hs, if_pos hgot]
  · rw [hs, if_neg hgot]
    rfl

/-! ## The state a body fails in -/

/-- What a failed body leaves to the cleanup. -/
structure Left (c : Call) (f : Failure Point Err) (s : State) : Prop where
  isOpen : s.session.closed = false
  early : f.point.isEarly = true → s.savedTimeouts = none ∧ s.pendingLedgerUpdate = none ∧
    s.session.timeouts = fun k =>
      if changed f.point f.manner k then c.statementTimeoutMs else c.timeouts k
  saved : f.point.isEarly = false →
    s.savedTimeouts = some (settings.map fun k => (k, c.timeouts k))
  forgets : forgotten f.point f.manner = true →
    s.pendingLedgerUpdate = none ∧ LeftApplying c s.ledger
  notes : forgotten f.point f.manner = false → ∀ id r, c.ledger.length ≤ id →
    s.ledger[id]? = some r → r.status = .applying → ∃ st, s.pendingLedgerUpdate = some (id, st)
  ends : ∀ id st, s.pendingLedgerUpdate = some (id, st) → st ≠ .applying

/-- The lock is held, the settings are saved and no row of the run is open. -/
structure Ready (c : Call) (s : State) : Prop where
  isOpen : s.session.closed = false
  runs : s.session.aborted = false
  saved : s.savedTimeouts = some (settings.map fun k => (k, c.timeouts k))
  pending : s.pendingLedgerUpdate = none
  grown : c.ledger.length ≤ s.ledger.length
  settled : ¬LeftApplying c s.ledger

/-- As `Ready`, with the row `id` of this run in status `applying`. -/
structure Inserted (c : Call) (id : Nat) (s : State) : Prop where
  isOpen : s.session.closed = false
  runs : s.session.aborted = false
  saved : s.savedTimeouts = some (settings.map fun k => (k, c.timeouts k))
  pending : s.pendingLedgerUpdate = none
  fresh : c.ledger.length ≤ id
  row : ∃ r, s.ledger[id]? = some r ∧ r.status = .applying
  others : ∀ j r, c.ledger.length ≤ j → s.ledger[j]? = some r → r.status = .applying → j = id

/-- Most points fail in a state where all is settled. -/
theorem Ready.left {s : State} (h : Ready c s) {p : Point} {how : Manner} {e : Err}
    (hearly : p.isEarly = false) (hforgotten : forgotten p how = false) :
    Left c ⟨p, how, e⟩ s where
  isOpen := h.isOpen
  early := by
    intro hp
    rw [hearly] at hp
    cases hp
  saved := fun _ => h.saved
  forgets := by
    intro hp
    rw [hforgotten] at hp
    cases hp
  notes := by
    intro _ id r hid hr happlying
    exact absurd ⟨id, r, hid, hr, happlying⟩ h.settled
  ends := by
    intro id st hpending
    rw [h.pending] at hpending
    cases hpending

/-- So do the comparisons, whatever they note about an older row. -/
theorem Ready.noted {s : State} (h : Ready c s) {p : Point} {how : Manner} {e : Err}
    (hearly : p.isEarly = false) (hforgotten : forgotten p how = false)
    {pending : Option (Nat × Status)} (hends : ∀ id st, pending = some (id, st) → st ≠ .applying)
    (report : Report) :
    Left c ⟨p, how, e⟩ { s with report := report, pendingLedgerUpdate := pending } where
  isOpen := h.isOpen
  early := by
    intro hp
    rw [hearly] at hp
    cases hp
  saved := fun _ => h.saved
  forgets := by
    intro hp
    rw [hforgotten] at hp
    cases hp
  notes := by
    intro _ id r hid hr happlying
    exact absurd ⟨id, r, hid, hr, happlying⟩ h.settled
  ends := hends

/-- The row was noted. -/
theorem Inserted.noted {id : Nat} {s : State} (h : Inserted c id s) {p : Point} {how : Manner}
    {e : Err} (hearly : p.isEarly = false) (hforgotten : forgotten p how = false) {st : Status}
    (hst : st ≠ .applying) {s' : State} (hclosed : s'.session.closed = s.session.closed)
    (hsaved : s'.savedTimeouts = s.savedTimeouts) (hledger : s'.ledger = s.ledger)
    (hpending : s'.pendingLedgerUpdate = some (id, st)) : Left c ⟨p, how, e⟩ s' where
  isOpen := by rw [hclosed, h.isOpen]
  early := by
    intro hp
    rw [hearly] at hp
    cases hp
  saved := by
    intro _
    rw [hsaved, h.saved]
  forgets := by
    intro hp
    rw [hforgotten] at hp
    cases hp
  notes := by
    intro _ j r hj hr happlying
    rw [hledger] at hr
    rw [h.others j r hj hr happlying]
    exact ⟨st, hpending⟩
  ends := by
    intro j st' hj
    rw [hpending] at hj
    cases hj
    exact hst

/-- Nothing was noted about the row. -/
theorem Inserted.forgets {id : Nat} {s : State} (h : Inserted c id s) {p : Point} {how : Manner}
    {e : Err} (hearly : p.isEarly = false) (hforgotten : forgotten p how = true) :
    Left c ⟨p, how, e⟩ s where
  isOpen := h.isOpen
  early := by
    intro hp
    rw [hearly] at hp
    cases hp
  saved := fun _ => h.saved
  forgets := by
    intro _
    obtain ⟨r, hr, happlying⟩ := h.row
    exact ⟨h.pending, id, r, h.fresh, hr, happlying⟩
  notes := by
    intro hp
    rw [hforgotten] at hp
    cases hp
  ends := by
    intro j st hpending
    rw [h.pending] at hpending
    cases hpending

/-! ## Reading -/

section Reading

variable {I : State → Prop} {E : Failure Point Err → State → Prop}

theorem validateManifest_triple {i : Nat} {filename version checksum : String}
    (hopen : ∀ s, I s → s.session.aborted = false)
    (hmanifest : ∀ how e s, I s → E ⟨.manifest i, how, e⟩ s)
    (hserver : ∀ how e s, I s → E ⟨.serverVersion i, how, e⟩ s) :
    Triple I (validateManifest c i filename version checksum) (fun _ => I) E := by
  have hraise : ∀ e, Triple I (Prog.raise (.manifest i) e : Program MigrationManifest)
      (fun _ => I) E := fun e => Triple.raise fun s hs => hmanifest _ e s hs
  refine Triple.bind (await_triple hmanifest) fun _ => ?_
  cases loadManifest c filename version with
  | error e => exact hraise e
  | ok manifest =>
    refine Triple.ite (fun _ => hraise _) fun _ => Triple.ite (fun _ => hraise _) fun _ => ?_
    refine Triple.bind (query_triple hopen hserver) fun num => ?_
    refine (Triple.ite (fun _ => hraise _) fun _ => Triple.pure fun _ hs => hs).conseq ?_
      (fun _ _ hq => hq) fun _ _ he => he
    exact fun _ hs => hs.1

theorem tablesExist_triple {i : Nat} {tables : List String}
    (hopen : ∀ s, I s → s.session.aborted = false)
    (hE : ∀ j how e s, I s → E ⟨.regclass i j, how, e⟩ s) :
    Triple I (tablesExist c i tables) (fun _ => I) E := by
  have hcollect : Triple I (tablesExist c i tables)
      (fun as s => I s ∧ List.Forall₂ (fun _ _ => True) tables.zipIdx as) E := by
    refine Triple.collect fun b _ => ?_
    exact (query_triple hopen (hE b.2)).conseq (fun _ hs => hs) (fun _ _ hq => ⟨hq.1, trivial⟩)
      fun _ _ he => he
  exact hcollect.conseq (fun _ hs => hs) (fun _ _ hq => hq.1) fun _ _ he => he

theorem schemaFingerprint_triple {place : Nat → Query → Point} {tables : List String}
    (hopen : ∀ s, I s → s.session.aborted = false)
    (hE : ∀ j q how e s, I s → E ⟨place j q, how, e⟩ s) :
    Triple I (schemaFingerprint c place tables) (fun _ => I) E := by
  have hquery : ∀ (α : Type) (j : Nat) (q : Query) (answer : State → α),
      Triple I (query c (place j q) answer) (fun _ => I) E := fun α j q answer =>
    (query_triple hopen (hE j q)).conseq (fun _ hs => hs) (fun _ _ hq => hq.1) fun _ _ he => he
  have htable : ∀ e : String × Nat, Triple I (tableFingerprint c place e) (fun _ => I) E := by
    intro e
    refine Triple.bind (hquery Bool e.2 .exists? _) fun present =>
      Triple.ite (fun _ => ?_) fun _ => Triple.pure fun _ hs => hs
    refine Triple.bind (hquery String e.2 .columns _) fun columns => ?_
    refine Triple.bind (hquery String e.2 .constraints _) fun constraints => ?_
    refine Triple.bind (hquery String e.2 .indexes _) fun indexes => ?_
    exact Triple.pure fun _ hs => hs
  refine Triple.bind (Q := fun _ => I) ?_ fun shapes => Triple.pure fun _ hs => hs
  refine (Triple.collect (A := fun _ _ => True) fun b _ => ?_).conseq (fun _ hs => hs)
    (fun _ _ hq => hq.1) fun _ _ he => he
  exact (htable b).conseq (fun _ hs => hs) (fun _ _ hq => ⟨hq, trivial⟩) fun _ _ he => he

end Reading

/-- A comparison fails. -/
theorem fail_triple {p : Point} {report : Report → Report} {pending : Option (Nat × Status)}
    {e : Err} (hearly : p.isEarly = false) (hforgotten : forgotten p .unsent = false)
    (hends : ∀ id st, pending = some (id, st) → st ≠ .applying) :
    Triple (Ready c) (fail p report pending e) (fun _ => Ready c) (Left c) := by
  have hnote : Triple (Ready c) (Prog.note fun s : State =>
      { s with report := report s.report, pendingLedgerUpdate := pending } : Program Unit)
      (fun _ s => Left c ⟨p, .unsent, e⟩ s) (Left c) :=
    Triple.note fun s hs => hs.noted hearly hforgotten hends (report s.report)
  exact Triple.bind hnote fun _ => Triple.raise fun s hs => hs

theorem validateManifest_ready {i : Nat} {filename version checksum : String} :
    Triple (Ready c) (validateManifest c i filename version checksum) (fun _ => Ready c)
      (Left c) :=
  validateManifest_triple (fun _ hs => hs.runs) (fun _ _ _ hs => hs.left rfl rfl)
    fun _ _ _ hs => hs.left rfl rfl

theorem tablesExist_ready {i : Nat} {tables : List String} :
    Triple (Ready c) (tablesExist c i tables) (fun _ => Ready c) (Left c) :=
  tablesExist_triple (fun _ hs => hs.runs) fun _ _ _ _ hs => hs.left rfl rfl

theorem schemaFingerprint_ready {i : Nat} {tables : List String} :
    Triple (Ready c) (schemaFingerprint c (.fingerprint i) tables) (fun _ => Ready c) (Left c) :=
  schemaFingerprint_triple (fun _ hs => hs.runs) fun _ _ _ _ _ hs => hs.left rfl rfl

/-- Once the file is applied, a failing query leaves the row behind. -/
theorem schemaFingerprint_inserted {i id : Nat} {tables : List String} :
    Triple (Inserted c id) (schemaFingerprint c (.observe i) tables) (fun _ => Inserted c id)
      (Left c) :=
  schemaFingerprint_triple (fun _ hs => hs.runs) fun _ _ _ _ _ hs => hs.forgets rfl rfl

theorem confirmApplied_triple {i : Nat} {filename version checksum : String} {row : Row} :
    Triple (Ready c) (confirmApplied c i filename version checksum row) (fun _ => Ready c)
      (Left c) := by
  have hnone : ∀ id st, (none : Option (Nat × Status)) = some (id, st) → st ≠ .applying := by
    intro id st h
    cases h
  refine Triple.ite (fun _ => fail_triple rfl rfl hnone) fun _ => ?_
  refine Triple.bind validateManifest_ready fun manifest => ?_
  refine Triple.bind schemaFingerprint_ready fun observed => ?_
  exact Triple.ite (fun _ => fail_triple rfl rfl hnone) fun _ => Triple.pure fun _ hs => hs

/-! ## Writing -/

theorem newest_some {ledger : Ledger} {version : String} {id : Nat} {row : Row}
    (h : newest ledger version = some (id, row)) : ledger[id]? = some row := by
  unfold newest at h
  rw [Option.map_eq_some_iff] at h
  obtain ⟨e, he, heq⟩ := h
  have hmem := List.mem_of_mem_filter (List.mem_of_getLast? he)
  rw [List.mem_zipIdx_iff_getElem?] at hmem
  cases heq
  exact hmem

/-- An older row changes. -/
theorem Ready.modify {s : State} (h : Ready c s) {id : Nat} (hid : id < c.ledger.length)
    (f : Row → Row) : Ready c { s with ledger := s.ledger.modify id f } where
  isOpen := h.isOpen
  runs := h.runs
  saved := h.saved
  pending := h.pending
  grown := by
    show c.ledger.length ≤ (s.ledger.modify id f).length
    rw [List.length_modify]
    exact h.grown
  settled := by
    intro hleft
    obtain ⟨j, r, hj, hr, happlying⟩ := hleft
    have hne : ¬id = j := by omega
    have hr' : (s.ledger.modify id f)[j]? = some r := hr
    rw [List.getElem?_modify_ne f s.ledger hne] at hr'
    exact h.settled ⟨j, r, hj, hr', happlying⟩

theorem Ready.insert {s : State} (h : Ready c s) {row : Row} (hrow : row.status = .applying) :
    Inserted c s.ledger.length { s with ledger := s.ledger ++ [row] } where
  isOpen := h.isOpen
  runs := h.runs
  saved := h.saved
  pending := h.pending
  fresh := h.grown
  row := by
    refine ⟨row, ?_, hrow⟩
    show (s.ledger ++ [row])[s.ledger.length]? = some row
    rw [List.getElem?_append_right (Nat.le_refl _), Nat.sub_self]
    rfl
  others := by
    intro j r hj hr happlying
    have hr' : (s.ledger ++ [row])[j]? = some r := hr
    by_cases hlt : j < s.ledger.length
    · rw [List.getElem?_append_left hlt] at hr'
      exact absurd ⟨j, r, hj, hr', happlying⟩ h.settled
    · have hlen := (List.getElem?_eq_some_iff.mp hr').1
      rw [List.length_append, List.length_singleton] at hlen
      omega

theorem Inserted.schema {id : Nat} {s : State} (h : Inserted c id s) (schema : Schema) :
    Inserted c id { s with schema := schema } where
  isOpen := h.isOpen
  runs := h.runs
  saved := h.saved
  pending := h.pending
  fresh := h.fresh
  row := h.row
  others := h.others

theorem Inserted.settle {id : Nat} {s : State} (h : Inserted c id s) {f : Row → Row}
    (hf : ∀ r, (f r).status ≠ .applying) :
    Ready c { s with ledger := s.ledger.modify id f } where
  isOpen := h.isOpen
  runs := h.runs
  saved := h.saved
  pending := h.pending
  grown := by
    show c.ledger.length ≤ (s.ledger.modify id f).length
    obtain ⟨r, hr, -⟩ := h.row
    have hlen := (List.getElem?_eq_some_iff.mp hr).1
    have hfresh := h.fresh
    rw [List.length_modify]
    omega
  settled := by
    intro hleft
    obtain ⟨j, r, hj, hr, happlying⟩ := hleft
    have hr' : (s.ledger.modify id f)[j]? = some r := hr
    by_cases hid : id = j
    · rw [hid, List.getElem?_modify_eq, Option.map_eq_map, Option.map_eq_some_iff] at hr'
      obtain ⟨r₀, -, hr₀⟩ := hr'
      rw [← hr₀] at happlying
      exact hf r₀ happlying
    · rw [List.getElem?_modify_ne f s.ledger hid] at hr'
      exact hid (h.others j r hj hr' happlying).symm

theorem reconcile_triple {i id : Nat} {filename version checksum : String} {row : Row}
    (hid : id < c.ledger.length) :
    Triple (Ready c) (reconcile c i filename version checksum id row) (fun _ => Ready c)
      (Left c) := by
  have hdrifted : ∀ (j : Nat) (st : Status),
      some (id, Status.drifted) = some (j, st) → st ≠ .applying := by
    intro j st h
    cases h
    decide
  unfold reconcile
  refine Triple.ite (fun _ => fail_triple rfl rfl hdrifted) fun _ => ?_
  cases row.expectedFingerprint with
  | none => exact fail_triple rfl rfl hdrifted
  | some expected =>
    refine Triple.bind validateManifest_ready fun manifest => ?_
    refine Triple.ite (fun _ => fail_triple rfl rfl hdrifted) fun _ => ?_
    refine Triple.bind tablesExist_ready fun complete => ?_
    refine Triple.ite (fun _ => fail_triple rfl rfl hdrifted) fun _ => ?_
    refine Triple.bind schemaFingerprint_ready fun observed => ?_
    refine Triple.ite (fun _ => fail_triple rfl rfl hdrifted) fun _ => ?_
    have hmark : Triple (Ready c)
        (markObserved c (.markReconciled i) id .reconciledAfterAmbiguousCommit observed)
        (fun _ => Ready c) (Left c) := by
      refine execute_triple (fun _ hs => hs.runs) ?_ ?_ ?_
      · intro s hs _
        exact hs.modify hid _
      · intro how e s hs _ _
        exact hs.left rfl rfl
      · intro e s hs _
        exact (hs.modify hid _).left rfl rfl
    refine Triple.bind hmark fun _ => Triple.note fun s hs => ?_
    exact ⟨hs.isOpen, hs.runs, hs.saved, hs.pending, hs.grown, hs.settled⟩

/-- The file, with what is noted when it fails. -/
theorem applyMigrationFile_triple {i id : Nat} {filename version : String} :
    Triple (Inserted c id)
      (Prog.onFailure (applyMigrationFile c i filename) fun s => { s with
        report.failedVersion := some version
        report.resultCode := "failed"
        pendingLedgerUpdate := some (id, .failed) })
      (fun _ => Inserted c id) (Left c) := by
  have hst : Status.failed ≠ .applying := by decide
  refine Triple.onFailure ?_
  unfold applyMigrationFile
  cases c.files filename with
  | none => exact Triple.raise fun s hs => hs.noted rfl rfl hst rfl rfl rfl rfl
  | some text =>
    refine statement_triple (fun _ hs => hs.runs) (Triple.step ?_ ?_ ?_ ?_)
    · intro s hs _
      exact hs.schema _
    · intro s e hs _
      exact hs.noted rfl rfl hst rfl rfl rfl rfl
    · intro s e hs _
      exact hs.noted rfl rfl hst rfl rfl rfl rfl
    · intro s e hs _
      exact hs.noted rfl rfl hst rfl rfl rfl rfl

theorem applyNew_triple {i : Nat} {filename version checksum : String} :
    Triple (Ready c) (applyNew c i filename version checksum) (fun _ => Ready c) (Left c) := by
  have hnone : ∀ id st, (none : Option (Nat × Status)) = some (id, st) → st ≠ .applying := by
    intro id st h
    cases h
  refine Triple.bind tablesExist_ready fun present => ?_
  refine Triple.ite (fun _ => fail_triple rfl rfl hnone) fun _ => ?_
  refine Triple.bind validateManifest_ready fun manifest => ?_
  have hinsert : Triple (Ready c) (insertApplyingRow c i version filename checksum
      manifest.canonicalSemanticFingerprint) (fun id => Inserted c id) (Left c) := by
    refine statement_triple (fun _ hs => hs.runs) (Triple.step ?_ ?_ ?_ ?_)
    · intro s hs _
      exact hs.insert rfl
    · intro s e hs _
      exact hs.left rfl rfl
    · intro s e hs _
      exact hs.left rfl rfl
    · -- the row is there, and its id was not answered
      intro s e hs _
      exact (hs.insert rfl).forgets rfl rfl
  refine Triple.bind hinsert fun id => ?_
  refine Triple.bind applyMigrationFile_triple fun _ => ?_
  refine Triple.bind schemaFingerprint_inserted fun observed => Triple.ite (fun _ => ?_) fun _ => ?_
  · -- the schema is not the manifest's: the row will be marked
    have hst : Status.drifted ≠ .applying := by decide
    refine Triple.bind (Q := fun _ => Left c ⟨.verify i, .unsent, _⟩) ?_ fun _ =>
      Triple.raise fun _ hs => hs
    exact Triple.note fun s hs => hs.noted rfl rfl hst rfl rfl rfl rfl
  · have happlied : ∀ r : Row, ({ r with
        status := .applied, observedFingerprint := some observed } : Row).status ≠ .applying := by
      intro r h
      cases h
    have hmark : Triple (Inserted c id) (markObserved c (.markApplied i) id .applied observed)
        (fun _ => Ready c) (Left c) := by
      refine execute_triple (fun _ hs => hs.runs) ?_ ?_ ?_
      · intro s hs _
        exact hs.settle happlied
      · intro how e s hs _ hhow
        refine hs.forgets rfl ?_
        exact decide_eq_true hhow
      · intro e s hs _
        exact (hs.settle happlied).left rfl rfl
    refine Triple.bind hmark fun _ => Triple.note fun s hs => ?_
    exact ⟨hs.isOpen, hs.runs, hs.saved, hs.pending, hs.grown, hs.settled⟩

/-! ## The body -/

theorem applyOne_triple (e : String × Nat) :
    Triple (Ready c) (applyOne c e) (fun _ => Ready c) (Left c) := by
  have hversion : Triple (Ready c) (migrationVersion e.2 e.1) (fun _ => Ready c) (Left c) :=
    Triple.ite (fun _ => Triple.pure fun _ hs => hs) fun _ =>
      Triple.raise fun s hs => hs.left rfl rfl
  have hchecksum : Triple (Ready c) (sha256File c e.2 e.1) (fun _ => Ready c) (Left c) := by
    refine Triple.bind (await_triple fun _ _ s hs => hs.left rfl rfl) fun _ => ?_
    cases c.files e.1 with
    | none => exact Triple.raise fun s hs => hs.left rfl rfl
    | some text => exact Triple.pure fun _ hs => hs
  refine Triple.bind hversion fun version => Triple.bind hchecksum fun checksum => ?_
  have hread : Triple (Ready c) (query c (.readLedger e.2) fun s => newest s.ledger version)
      (fun existing s => Ready c s ∧ existing = newest s.ledger version) (Left c) :=
    query_triple (fun _ hs => hs.runs) fun _ _ _ hs => hs.left rfl rfl
  refine Triple.bind hread fun existing => ?_
  have hdrop : ∀ m : Program Unit, Triple (Ready c) m (fun _ => Ready c) (Left c) →
      Triple (fun s => Ready c s ∧ existing = newest s.ledger version) m (fun _ => Ready c)
        (Left c) :=
    fun m hm => hm.conseq (fun _ hs => hs.1) (fun _ _ hq => hq) fun _ _ he => he
  cases existing with
  | none => exact hdrop _ applyNew_triple
  | some found =>
    rcases found with ⟨id, row⟩
    cases hstatus : row.status with
    | applied =>
      simp only [hstatus]
      exact hdrop _ confirmApplied_triple
    | reconciledAfterAmbiguousCommit =>
      simp only [hstatus]
      exact hdrop _ confirmApplied_triple
    | failed =>
      simp only [hstatus]
      exact hdrop _ applyNew_triple
    | drifted =>
      simp only [hstatus]
      exact hdrop _ applyNew_triple
    | applying =>
      simp only [hstatus]
      -- every row of this run is settled, so this one is older
      refine Triple.assuming (p := id < c.ledger.length) (fun s hs => ?_) fun hid =>
        hdrop _ (reconcile_triple hid)
      by_contra hge
      have hrow := newest_some hs.2.symm
      exact hs.1.settled ⟨id, row, by omega, hrow, hstatus⟩

/-- The settings before `n` are set, and nothing is saved. -/
structure Setting.UpTo (c : Call) (n : Nat) (s : State) : Prop where
  isOpen : s.session.closed = false
  runs : s.session.aborted = false
  saved : s.savedTimeouts = none
  pending : s.pendingLedgerUpdate = none
  ledger : s.ledger = c.ledger
  timeouts : s.session.timeouts = fun k =>
    if settings.idxOf k < n then c.statementTimeoutMs else c.timeouts k

theorem not_leftApplying {ledger : Ledger} (h : ledger = c.ledger) : ¬LeftApplying c ledger := by
  intro hleft
  obtain ⟨id, r, hid, hr, -⟩ := hleft
  rw [h] at hr
  have hlt := (List.getElem?_eq_some_iff.mp hr).1
  omega

theorem Setting.UpTo.left {n : Nat} {s : State} (h : Setting.UpTo c n s) {p : Point}
    {how : Manner} {e : Err} (hearly : p.isEarly = true) (hforgotten : forgotten p how = false)
    (hchanged : ∀ k, changed p how k = decide (settings.idxOf k < n)) :
    Left c ⟨p, how, e⟩ s where
  isOpen := h.isOpen
  early := by
    intro _
    refine ⟨h.saved, h.pending, ?_⟩
    rw [h.timeouts]
    funext k
    rw [show changed p how k = decide (settings.idxOf k < n) from hchanged k]
    by_cases hk : settings.idxOf k < n
    · rw [if_pos hk, if_pos (decide_eq_true hk)]
    · rw [if_neg hk, if_neg (by rw [decide_eq_false hk]; decide)]
  saved := by
    intro hp
    rw [hearly] at hp
    cases hp
  forgets := by
    intro hp
    rw [hforgotten] at hp
    cases hp
  notes := by
    intro _ id r hid hr happlying
    exact absurd ⟨id, r, hid, hr, happlying⟩ (not_leftApplying h.ledger)
  ends := by
    intro id st hpending
    rw [h.pending] at hpending
    cases hpending

/-- The settings are told apart by their places. -/
theorem idxOf_settings {j k : Setting} : settings.idxOf k = settings.idxOf j ↔ k = j := by
  cases j <;> cases k <;> decide

theorem Setting.UpTo.update {k : Setting} {s : State}
    (h : Setting.UpTo c (settings.idxOf k) s) :
    Setting.UpTo c (settings.idxOf k + 1) { s with
      session.timeouts := Function.update s.session.timeouts k c.statementTimeoutMs } where
  isOpen := h.isOpen
  runs := h.runs
  saved := h.saved
  pending := h.pending
  ledger := h.ledger
  timeouts := by
    funext j
    show Function.update s.session.timeouts k c.statementTimeoutMs j = _
    rw [h.timeouts]
    by_cases hj : j = k
    · subst hj
      rw [Function.update_self, if_pos (Nat.lt_succ_self _)]
    · rw [Function.update_of_ne hj]
      have hne : settings.idxOf j ≠ settings.idxOf k := fun heq => hj (idxOf_settings.mp heq)
      by_cases hlt : settings.idxOf j < settings.idxOf k
      · rw [if_pos hlt, if_pos (by omega)]
      · rw [if_neg hlt, if_neg (by omega)]

theorem setTimeout_triple (k : Setting) :
    Triple (Setting.UpTo c (settings.idxOf k))
      (setTimeout c (.setSetting k) k c.statementTimeoutMs)
      (fun _ => Setting.UpTo c (settings.idxOf k + 1)) (Left c) := by
  refine execute_triple (fun _ hs => hs.runs) ?_ ?_ ?_
  · intro s hs _
    exact hs.update
  · intro how e s hs _ hhow
    refine hs.left rfl rfl fun j => ?_
    show (_ || (j = k && how = .landed)) = _
    rw [decide_eq_false hhow, Bool.and_false, Bool.or_false]
  · intro e s hs _
    refine hs.update.left rfl rfl fun j => ?_
    show (decide _ || (decide (j = k) && decide (Manner.landed = .landed))) = _
    rw [decide_eq_true (rfl : Manner.landed = .landed), Bool.and_true, ← Bool.decide_or]
    refine decide_eq_decide.mpr ?_
    rw [← idxOf_settings]
    omega

theorem ledgerBody_triple :
    Triple (fun s => s = c.held) (ledgerBody c) (fun _ => Ready c) (Left c) := by
  have hstart : Triple (fun s => s = c.held) (execute c .bootstrap fun s => s)
      (fun _ => Setting.UpTo c 0) (Left c) := by
    have hheld : ∀ s, s = c.held → Setting.UpTo c 0 s := by
      intro s hs
      subst hs
      exact ⟨rfl, rfl, rfl, rfl, rfl, rfl⟩
    refine execute_triple ?_ ?_ ?_ ?_
    · intro s hs
      exact (hheld s hs).runs
    · intro s hs _
      exact hheld s hs
    · intro how e s hs _ _
      exact (hheld s hs).left rfl rfl fun _ => rfl
    · intro e s hs _
      exact (hheld s hs).left rfl rfl fun _ => rfl
  have hshow : Triple (Setting.UpTo c 0) (Prog.collect (showSetting c) settings)
      (fun saved s => Setting.UpTo c 0 s ∧ saved = settings.map fun k => (k, c.timeouts k))
      (Left c) := by
    refine (Triple.collect (A := fun k a => (k, c.timeouts k) = a) fun k _ => ?_).conseq
      (fun _ hs => hs) (fun as s hq => ⟨hq.1, ?_⟩) fun _ _ he => he
    · refine (query_triple (fun _ hs => hs.runs) fun _ _ s hs => ?_).conseq (fun _ hs => hs)
        (fun a s hq => ⟨hq.1, ?_⟩) fun _ _ he => he
      · exact hs.left rfl rfl fun _ => rfl
      · rw [hq.2, hq.1.timeouts]
        rfl
    · have hmap := List.forall₂_map_left_iff.mpr hq.2
      exact (List.forall₂_eq_eq_eq ▸ hmap :
        settings.map (fun k => (k, c.timeouts k)) = as).symm
  have hset : Triple (Setting.UpTo c 0)
      (Prog.forEach (fun k => setTimeout c (.setSetting k) k c.statementTimeoutMs) settings)
      (fun _ => Setting.UpTo c 3) (Left c) := by
    refine Triple.bind (setTimeout_triple .statementTimeout) fun _ => ?_
    refine Triple.bind (setTimeout_triple .lockTimeout) fun _ => ?_
    refine Triple.bind (setTimeout_triple .idleInTransactionSessionTimeout) fun _ => ?_
    exact Triple.pure fun _ hs => hs
  have hsave : Triple (Setting.UpTo c 0) (setBoundedStatementTimeouts c)
      (fun saved s => Setting.UpTo c 3 s ∧ saved = settings.map fun k => (k, c.timeouts k))
      (Left c) := by
    refine Triple.bind hshow fun saved => ?_
    refine Triple.assuming (p := saved = settings.map fun k => (k, c.timeouts k))
      (fun _ hs => hs.2) fun hsaved => ?_
    refine Triple.bind (hset.conseq (fun _ hs => hs.1) (fun _ _ hq => hq) fun _ _ he => he) ?_
    exact fun _ => Triple.pure fun _ hs => ⟨hs, hsaved⟩
  refine Triple.bind hstart fun _ => Triple.bind hsave fun saved => ?_
  refine Triple.bind (Q := fun _ => Ready c) (Triple.note fun s hs => ?_) fun _ =>
    Triple.forEach fun e _ => applyOne_triple e
  have hledger : s.ledger = c.ledger := hs.1.ledger
  refine ⟨hs.1.isOpen, hs.1.runs, congrArg some hs.2, hs.1.pending, ?_, ?_⟩
  · show c.ledger.length ≤ s.ledger.length
    rw [hledger]
  · exact not_leftApplying hledger

/-! ## Where a part can fail -/

/-- A point of the body. -/
def Point.isBody (p : Point) : Prop := p.isPrelude = false ∧ p.isCleanup = false

section Within

variable {A : Point → Prop}

theorem statement_within {α : Type} {p : Point} {effect : State → α × State}
    {spoil : State → State} (hp : A p) : Within A (statement c p effect spoil) :=
  Within.bind Within.get fun _ =>
    Within.ite (fun _ => Within.raise hp) fun _ => Within.step hp

theorem prelude_within (ms : Nat) : Within (fun p => p.isPrelude = true) (prelude c ms) := by
  have hconfig : ∀ e, Within (fun p => p.isPrelude = true)
      (Prog.raise .config e : Program Unit) := fun _ => Within.raise rfl
  have hacquire : ∀ left k, Within (fun p => p.isPrelude = true)
      (acquireLockBounded c left k) := by
    intro left
    induction left with
    | zero => exact fun k => statement_within rfl
    | succ left ih =>
      intro k
      refine Within.bind (statement_within rfl) fun got =>
        Within.ite (fun _ => Within.pure) fun _ => ?_
      exact Within.bind (Within.step rfl) fun _ => ih (k + 1)
  refine Within.bind ?_ fun _ => Within.bind (hacquire c.polls 0) fun got =>
    Within.ite (fun _ => Within.pure) fun _ => Within.raise rfl
  refine Within.ite (fun _ => hconfig _) fun _ => Within.ite (fun _ => hconfig _) fun _ => ?_
  exact Within.ite (fun _ => hconfig _) fun _ => Within.ite (fun _ => hconfig _) fun _ =>
    Within.pure

theorem validateManifest_within {i : Nat} {filename version checksum : String} :
    Within Point.isBody (validateManifest c i filename version checksum) := by
  have hraise : ∀ e, Within Point.isBody
      (Prog.raise (.manifest i) e : Program MigrationManifest) := fun _ =>
    Within.raise ⟨rfl, rfl⟩
  refine Within.bind (Within.step ⟨rfl, rfl⟩) fun _ => ?_
  cases loadManifest c filename version with
  | error e => exact hraise e
  | ok manifest =>
    refine Within.ite (fun _ => hraise _) fun _ => Within.ite (fun _ => hraise _) fun _ => ?_
    refine Within.bind (statement_within ⟨rfl, rfl⟩) fun num => ?_
    exact Within.ite (fun _ => hraise _) fun _ => Within.pure

theorem tablesExist_within {i : Nat} {tables : List String} :
    Within Point.isBody (tablesExist c i tables) :=
  Within.collect fun _ => statement_within ⟨rfl, rfl⟩

theorem schemaFingerprint_within {place : Nat → Query → Point} {tables : List String}
    (hplace : ∀ j q, (place j q).isBody) :
    Within Point.isBody (schemaFingerprint c place tables) := by
  refine Within.bind (Within.collect fun e => ?_) fun _ => Within.pure
  refine Within.bind (statement_within (hplace _ _)) fun _ =>
    Within.ite (fun _ => ?_) fun _ => Within.pure
  refine Within.bind (statement_within (hplace _ _)) fun _ => ?_
  refine Within.bind (statement_within (hplace _ _)) fun _ => ?_
  exact Within.bind (statement_within (hplace _ _)) fun _ => Within.pure

theorem applyMigrationFile_within {i : Nat} {filename : String} :
    Within Point.isBody (applyMigrationFile c i filename) := by
  unfold applyMigrationFile
  cases c.files filename with
  | none => exact Within.raise ⟨rfl, rfl⟩
  | some text => exact statement_within ⟨rfl, rfl⟩

theorem fail_within {p : Point} {report : Report → Report} {pending : Option (Nat × Status)}
    {e : Err} (hp : p.isBody) : Within Point.isBody (fail p report pending e) :=
  Within.bind Within.note fun _ => Within.raise hp

theorem confirmApplied_within {i : Nat} {filename version checksum : String} {row : Row} :
    Within Point.isBody (confirmApplied c i filename version checksum row) := by
  refine Within.ite (fun _ => fail_within ⟨rfl, rfl⟩) fun _ => ?_
  refine Within.bind validateManifest_within fun _ => ?_
  refine Within.bind (schemaFingerprint_within fun _ _ => ⟨rfl, rfl⟩) fun _ => ?_
  exact Within.ite (fun _ => fail_within ⟨rfl, rfl⟩) fun _ => Within.pure

theorem reconcile_within {i id : Nat} {filename version checksum : String} {row : Row} :
    Within Point.isBody (reconcile c i filename version checksum id row) := by
  unfold reconcile
  refine Within.ite (fun _ => fail_within ⟨rfl, rfl⟩) fun _ => ?_
  cases row.expectedFingerprint with
  | none => exact fail_within ⟨rfl, rfl⟩
  | some expected =>
    refine Within.bind validateManifest_within fun _ => ?_
    refine Within.ite (fun _ => fail_within ⟨rfl, rfl⟩) fun _ => ?_
    refine Within.bind tablesExist_within fun _ => ?_
    refine Within.ite (fun _ => fail_within ⟨rfl, rfl⟩) fun _ => ?_
    refine Within.bind (schemaFingerprint_within fun _ _ => ⟨rfl, rfl⟩) fun _ => ?_
    refine Within.ite (fun _ => fail_within ⟨rfl, rfl⟩) fun _ => ?_
    exact Within.bind (statement_within ⟨rfl, rfl⟩) fun _ => Within.note

theorem applyNew_within {i : Nat} {filename version checksum : String} :
    Within Point.isBody (applyNew c i filename version checksum) := by
  refine Within.bind tablesExist_within fun _ => ?_
  refine Within.ite (fun _ => fail_within ⟨rfl, rfl⟩) fun _ => ?_
  refine Within.bind validateManifest_within fun _ => ?_
  refine Within.bind (statement_within ⟨rfl, rfl⟩) fun _ => ?_
  refine Within.bind (Within.onFailure applyMigrationFile_within) fun _ => ?_
  refine Within.bind (schemaFingerprint_within fun _ _ => ⟨rfl, rfl⟩) fun _ => ?_
  refine Within.ite (fun _ => fail_within ⟨rfl, rfl⟩) fun _ => ?_
  exact Within.bind (statement_within ⟨rfl, rfl⟩) fun _ => Within.note

theorem applyOne_within (e : String × Nat) : Within Point.isBody (applyOne c e) := by
  have hversion : Within Point.isBody (migrationVersion e.2 e.1) :=
    Within.ite (fun _ => Within.pure) fun _ => Within.raise ⟨rfl, rfl⟩
  have hchecksum : Within Point.isBody (sha256File c e.2 e.1) := by
    refine Within.bind (Within.step ⟨rfl, rfl⟩) fun _ => ?_
    cases c.files e.1 with
    | none => exact Within.raise ⟨rfl, rfl⟩
    | some text => exact Within.pure
  refine Within.bind hversion fun _ => Within.bind hchecksum fun _ => ?_
  refine Within.bind (statement_within ⟨rfl, rfl⟩) fun existing => ?_
  cases existing with
  | none => exact applyNew_within
  | some found =>
    rcases found with ⟨id, row⟩
    cases hstatus : row.status with
    | applied =>
      simp only [hstatus]
      exact confirmApplied_within
    | reconciledAfterAmbiguousCommit =>
      simp only [hstatus]
      exact confirmApplied_within
    | failed =>
      simp only [hstatus]
      exact applyNew_within
    | drifted =>
      simp only [hstatus]
      exact applyNew_within
    | applying =>
      simp only [hstatus]
      exact reconcile_within

theorem ledgerBody_within : Within Point.isBody (ledgerBody c) := by
  refine Within.bind (statement_within ⟨rfl, rfl⟩) fun _ => ?_
  refine Within.bind ?_ fun _ => Within.bind Within.note fun _ => Within.forEach applyOne_within
  refine Within.bind (Within.collect fun _ => statement_within ⟨rfl, rfl⟩) fun _ => ?_
  refine Within.bind (Within.forEach fun _ => statement_within ⟨rfl, rfl⟩) fun _ => ?_
  exact Within.pure

theorem lockedBody_within : Within Point.isBody (lockedBody c) :=
  Within.forEach fun _ => applyMigrationFile_within

end Within

/-! ## What is left of a run without one -/

/-- The files touch neither the settings nor the ledger. -/
structure Untouched (c : Call) (s : State) : Prop where
  isOpen : s.session.closed = false
  saved : s.savedTimeouts = none
  pending : s.pendingLedgerUpdate = none
  timeouts : s.session.timeouts = c.timeouts
  ledger : s.ledger = c.ledger

theorem lockedBody_triple :
    Triple (fun s => s = c.held) (lockedBody c) (fun _ _ => True) fun _ => Untouched c := by
  have hfile : ∀ (i : Nat) (name : String),
      Triple (fun s => Untouched c s ∧ s.session.aborted = false) (applyMigrationFile c i name)
        (fun _ s => Untouched c s ∧ s.session.aborted = false) fun _ => Untouched c := by
    intro i name
    have hsame : ∀ s s' : State, Untouched c s → s'.session.closed = s.session.closed →
        s'.session.timeouts = s.session.timeouts → s'.savedTimeouts = s.savedTimeouts →
        s'.pendingLedgerUpdate = s.pendingLedgerUpdate → s'.ledger = s.ledger →
        Untouched c s' := by
      intro s s' hs hclosed htimeouts hsaved hpending hledger
      refine ⟨?_, ?_, ?_, ?_, ?_⟩
      · rw [hclosed, hs.isOpen]
      · rw [hsaved, hs.saved]
      · rw [hpending, hs.pending]
      · rw [htimeouts, hs.timeouts]
      · rw [hledger, hs.ledger]
    unfold applyMigrationFile
    cases c.files name with
    | none => exact Triple.raise fun s hs => hs.1
    | some text =>
      refine statement_triple (fun _ hs => hs.2) (Triple.step ?_ ?_ ?_ ?_)
      · intro s hs _
        exact ⟨hsame s _ hs.1 rfl rfl rfl rfl rfl, hs.2⟩
      · intro s e hs _
        exact hs.1
      · intro s e hs _
        exact hsame s _ hs.1 rfl rfl rfl rfl rfl
      · intro s e hs _
        exact hsame s _ hs.1 rfl rfl rfl rfl rfl
  have hloop : Triple (fun s => Untouched c s ∧ s.session.aborted = false) (lockedBody c)
      (fun _ s => Untouched c s ∧ s.session.aborted = false) fun _ => Untouched c :=
    Triple.forEach fun e _ => hfile e.2 e.1
  refine hloop.conseq (fun s hs => ?_) (fun _ _ _ => trivial) fun _ _ he => he
  subst hs
  exact ⟨⟨rfl, rfl, rfl, rfl, rfl⟩, rfl⟩

end AiAgentsSwd.Migrations
