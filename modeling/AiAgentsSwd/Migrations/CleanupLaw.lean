import AiAgentsSwd.Migrations.Cleanup

/-!
# Migrations.CleanupLaw — what a failed run leaves

`Law` is what a failed run should leave behind: the first failure propagates, `ROLLBACK` came
before the unlock, the connection is handed back as it was or closed, the attribute says which,
and after a cleanup without failures no row of the run is left in status `applying`.

The cleanup does not know of what happened before the lock was held, of a setting changed before
all three were, nor of a row whose insertion was not answered, or whose file was applied when the
run failed. `law_iff` says that these are all.
-/

namespace AiAgentsSwd.Migrations

open Faults

variable {c : Call}

/-! ## The law -/

/-- The connection is open, the lock released and the settings are what they were. -/
def HandedBack (c : Call) (s : State) : Prop :=
  s.session.closed = false ∧ s.session.holds = false ∧ s.session.timeouts = c.timeouts

/-- `ROLLBACK` is attempted, and no unlock before it. -/
def RollbackFirst (t : List (Event Point Err)) : Prop :=
  ∃ before after e, t = before ++ e :: after ∧ e.point = .rollback ∧
    ∀ e' ∈ before, e'.point ≠ .unlock

/-- What a failed run should leave behind. -/
structure Law (c : Call) (o : Outcome) : Prop where
  original : ∃ f, o.raised = some f ∧ (failures o.final.trace).head? = some f
  rollback : RollbackFirst o.final.trace
  connection : HandedBack c o.final.now ∨ o.final.now.session.closed = true
  reusable : o.connectionReusable = some true ↔ HandedBack c o.final.now
  rows : (∀ f ∈ failures o.final.trace, f.point.isCleanup = false) →
    ¬LeftApplying c o.final.now.ledger

/-- The first thing that goes wrong is that the step `p` fails, before any cleanup. -/
def FailsAt (o : Outcome) (p : Point) (how : Manner) : Prop :=
  p.isCleanup = false ∧ ∃ e, (failures o.final.trace).head? = some ⟨p, how, e⟩
/-! ## When a run cleans up -/

/-- A step of the cleanup that follows a failure at `p` fails. -/
def CleanupStruck (c : Call) (p : Point) : Prop :=
  c.strikes .rollback ≠ none ∨ c.strikes .unlock ≠ none ∨
    p.isEarly = false ∧ ∃ k, c.strikes (.restore k) ≠ none

/-- The lock was held, and unless the cleanup itself fails, no setting was changed and no row
forgotten. -/
def CleansUp (c : Call) (p : Point) (how : Manner) : Prop :=
  p.isPrelude = false ∧
    ((∃ k, changed p how k = true ∧ c.timeouts k ≠ c.statementTimeoutMs) ∨
      forgotten p how = true → CleanupStruck c p)
/-! ## A call -/

section Call

variable {ms : Nat} {body : Program Unit} {p : Point} {how : Manner}

/-- What a failing prelude leaves: the connection is open and the attribute not set. -/
theorem locked_of_prelude {f : Failure Point Err} {r : Run State Point Err}
    (h : prelude c ms c.start = (.error f, r)) : locked c ms body = ⟨some f, none, [], r⟩ := by
  unfold locked
  rw [h]

theorem locked_of_body_ok {r r' : Run State Point Err}
    (h : prelude c ms c.start = (.ok (), r)) (hbody : body r = (.ok (), r')) :
    locked c ms body =
      ⟨none, none, reported (cleanup c false r').1, (cleanup c false r').2⟩ := by
  unfold locked
  rw [h]
  simp only [hbody]

theorem locked_of_body_error {f : Failure Point Err} {r r' : Run State Point Err}
    (h : prelude c ms c.start = (.ok (), r)) (hbody : body r = (.error f, r')) :
    locked c ms body = ⟨some f, some (reported (cleanup c true r').1).isEmpty,
      reported (cleanup c true r').1, (cleanup c true r').2⟩ := by
  unfold locked
  rw [h]
  simp only [hbody]

/-- What a call leaves whose body failed with `f` in the state `s`. -/
structure Unwound (c : Call) (f : Failure Point Err) (s : State)
    (es : List (Failure Point Err)) (r : Run State Point Err) : Prop where
  first : (failures r.trace).head? = some f
  reports : ∀ g ∈ es, g ∈ failures r.trace ∧ g.point.isCleanup = true
  alone : es = [] → failures r.trace = [f]
  rollback : RollbackFirst r.trace
  state : es = [] ∧ Spared c s ∧ Cleaned s r.now ∨
    es ≠ [] ∧ ¬Spared c s ∧ r.now.session.closed = true

theorem failures_append {t t' : List (Event Point Err)} :
    failures (t ++ t') = failures t ++ failures t' := List.filterMap_append

theorem isCleanup_of_mem_failures {t : List (Event Point Err)}
    (h : ∀ e ∈ t, e.point.isCleanup = true) {f : Failure Point Err} (hf : f ∈ failures t) :
    f.point.isCleanup = true := by
  obtain ⟨e, he, hef⟩ := List.mem_filterMap.mp hf
  have hpoint := h e he
  cases e with
  | done p => cases hef
  | failed g =>
    cases hef
    exact hpoint

theorem unwound {f : Failure Point Err} {r : Run State Point Err}
    (hfail : failures r.trace = [f]) (hbefore : ∀ e ∈ r.trace, e.point ≠ .unlock) :
    ∃ es, (cleanup c true r).1 = .ok es ∧ Unwound c f r.now es (cleanup c true r).2 := by
  obtain ⟨es, t, hes, htrace, hpoints, hreports, hnil⟩ := cleanup_run (c := c) true r
  have hall : failures (cleanup c true r).2.trace = f :: failures t := by
    rw [htrace, failures_append, hfail]
    rfl
  refine ⟨es, hes, ?_, ?_, ?_, ?_, ?_⟩
  · rw [hall]
    rfl
  · intro g hg
    refine ⟨?_, isCleanup_of_mem_failures hpoints (hreports g hg)⟩
    rw [hall]
    exact List.mem_cons_of_mem f (hreports g hg)
  · intro h
    rw [hall, hnil h]
  · obtain ⟨e, after, hstart, he⟩ := cleanup_starts (c := c) r
    exact ⟨r.trace, after, e, hstart, he, hbefore⟩
  · have hstate := cleanup_triple (c := c) (E := fun _ _ => True) r.now r rfl
    rw [hes] at hstate
    exact hstate

/-- A call that fails at a point fails there before it holds the lock, or in its body. -/
theorem failsAt_cases {L : Failure Point Err → State → Prop} (hwithin : Within Point.isBody body)
    (hbody : Triple (fun s => s = c.held) body (fun _ _ => True) L)
    (h : FailsAt (locked c ms body) p how) :
    (p.isPrelude = true ∧ ∃ f r, locked c ms body = ⟨some f, none, [], r⟩ ∧
      r.now.session.closed = false) ∨
    (p.isPrelude = false ∧ ∃ e s es r, L ⟨p, how, e⟩ s ∧ Unwound c ⟨p, how, e⟩ s es r ∧
      locked c ms body = ⟨some ⟨p, how, e⟩, some es.isEmpty, es, r⟩) := by
  obtain ⟨hcleanup, e, hhead⟩ := h
  obtain ⟨t₀, htrace₀, hpoints₀, hfail₀⟩ := prelude_within (c := c) ms c.start
  rcases hprelude : prelude c ms c.start with ⟨f | u, r⟩
  · have hlocked : locked c ms body = ⟨some f, none, [], r⟩ := locked_of_prelude hprelude
    refine Or.inl ⟨?_, f, r, hlocked, ?_⟩
    · have hpoint := (prelude_within (c := c) ms).point (r := c.start) (by rw [hprelude])
      rw [hlocked] at hhead
      rw [hprelude] at htrace₀ hfail₀
      have htrace : r.trace = t₀ := htrace₀
      have hall : failures r.trace = [f] := by
        rw [htrace]
        exact hfail₀
      have hf : (failures r.trace).head? = some ⟨p, how, e⟩ := hhead
      rw [hall] at hf
      cases hf
      exact hpoint
    · have hclosed := (prelude_triple (c := c) ms).error (r := c.start) rfl (f := f)
        (by rw [hprelude])
      rw [hprelude] at hclosed
      exact hclosed
  · rw [hprelude] at htrace₀ hfail₀
    have htrace : r.trace = t₀ := htrace₀
    have hnone : failures r.trace = [] := by
      rw [htrace]
      exact hfail₀
    obtain ⟨t, htrace', hpoints, hfail⟩ := hwithin r
    rcases hrun : body r with ⟨g | u', r'⟩
    · rw [hrun] at htrace' hfail
      have hr' : r'.trace = t₀ ++ t := by
        rw [← htrace]
        exact htrace'
      have hall : failures r'.trace = [g] := by
        rw [show r'.trace = r.trace ++ t from htrace', failures_append, hnone, List.nil_append]
        exact hfail
      have hbefore : ∀ e ∈ r'.trace, e.point ≠ .unlock := by
        intro e' he' heq
        rw [hr'] at he'
        rcases List.mem_append.mp he' with hmem | hmem
        · have hpre := hpoints₀ e' hmem
          rw [heq] at hpre
          cases hpre
        · have hbod := (hpoints e' hmem).2
          rw [heq] at hbod
          cases hbod
      obtain ⟨es, hes, hunwound⟩ := unwound (c := c) hall hbefore
      have hlocked := locked_of_body_error hprelude hrun
      rw [hes] at hlocked
      have hg : g = ⟨p, how, e⟩ := by
        rw [hlocked] at hhead
        have hfirst := hunwound.first
        have hhead' : (failures (cleanup c true r').2.trace).head? = some ⟨p, how, e⟩ := hhead
        rw [hfirst] at hhead'
        exact Option.some.inj hhead'
      have hpoint := hwithin.point (r := r) (by rw [hrun])
      have hheld : r.now = c.held := by
        have hok := (prelude_triple (c := c) ms).ok (r := c.start) rfl (a := u)
          (by rw [hprelude])
        rw [hprelude] at hok
        exact hok
      have hleft := hbody.error (r := r) hheld (by rw [hrun])
      rw [hrun] at hleft
      subst hg
      exact Or.inr ⟨hpoint.1, e, r'.now, es, _, hleft, hunwound, hlocked⟩
    · -- the body went through: only the cleanup failed
      rw [hrun] at htrace' hfail
      have hlocked := locked_of_body_ok hprelude hrun
      obtain ⟨es, t', -, htrace'', hpoints', -⟩ := cleanup_run (c := c) false r'
      rw [hlocked] at hhead
      have hall : failures (cleanup c false r').2.trace = failures t' := by
        rw [htrace'', failures_append, show r'.trace = r.trace ++ t from htrace',
          failures_append, hnone, show failures t = [] from hfail]
        rfl
      have hhead' : (failures (cleanup c false r').2.trace).head? = some ⟨p, how, e⟩ := hhead
      rw [hall] at hhead'
      have hmem := isCleanup_of_mem_failures hpoints' (List.mem_of_head? hhead')
      rw [show (⟨p, how, e⟩ : Failure Point Err).point = p from rfl, hcleanup] at hmem
      cases hmem

/-- Nothing is undone of a run that fails before it holds the lock. -/
theorem not_law_of_prelude {o : Outcome} {f : Failure Point Err} {r : Run State Point Err}
    (ho : o = ⟨some f, none, [], r⟩) (hopen : r.now.session.closed = false) : ¬Law c o := by
  intro hlaw
  rw [ho] at hlaw
  rcases hlaw.connection with hback | hclosed
  · have hset := hlaw.reusable.mpr hback
    cases hset
  · have hfalse : r.now.session.closed = true := hclosed
    rw [hopen] at hfalse
    cases hfalse

/-- **A failed body**: the law holds exactly if the cleanup fails, or gives back the timeouts as
they were and leaves no row open. -/
theorem law_iff_of_unwound {o : Outcome} {f : Failure Point Err} {s : State}
    {es : List (Failure Point Err)} {r : Run State Point Err} (h : Unwound c f s es r)
    (hf : f.point.isCleanup = false) (hopen : s.session.closed = false)
    (ho : o = ⟨some f, some es.isEmpty, es, r⟩) :
    Law c o ↔ (Spared c s →
      restored (s.savedTimeouts.getD []) s.session.timeouts = c.timeouts ∧
        ¬LeftApplying c (marked s.ledger s.pendingLedgerUpdate)) := by
  subst ho
  rcases h.state with ⟨hnil, hspared, hcleaned⟩ | ⟨hne, hstruck, hclosed⟩
  · have hback : HandedBack c r.now ↔
        restored (s.savedTimeouts.getD []) s.session.timeouts = c.timeouts := by
      unfold HandedBack
      rw [hcleaned.session]
      constructor
      · exact fun hb => hb.2.2
      · exact fun ht => ⟨hopen, rfl, ht⟩
    constructor
    · intro hlaw _
      constructor
      · exact hback.mp (hlaw.reusable.mp (by rw [hnil]; rfl))
      · have hrows := hlaw.rows
        rw [← hcleaned.ledger]
        refine hrows fun g hg => ?_
        have hall := h.alone hnil
        have hg' : g ∈ failures r.trace := hg
        rw [hall] at hg'
        rw [List.mem_singleton.mp hg']
        exact hf
    · intro hgood
      obtain ⟨htimeouts, hrows⟩ := hgood hspared
      refine ⟨⟨f, rfl, h.first⟩, h.rollback, Or.inl (hback.mpr htimeouts), ?_, ?_⟩
      · rw [hnil]
        exact ⟨fun _ => hback.mpr htimeouts, fun _ => rfl⟩
      · intro _
        show ¬LeftApplying c r.now.ledger
        rw [hcleaned.ledger]
        exact hrows
  · have hempty : es.isEmpty = false := by
      cases es with
      | nil => exact absurd rfl hne
      | cons g es => rfl
    constructor
    · intro _ hspared
      exact absurd hspared hstruck
    · intro _
      refine ⟨⟨f, rfl, h.first⟩, h.rollback, Or.inr hclosed, ?_, ?_⟩
      · rw [hempty]
        constructor
        · intro hb
          cases hb
        · intro hb
          have hfalse : r.now.session.closed = false := hb.1
          rw [hclosed] at hfalse
          cases hfalse
      · intro hall
        obtain ⟨g, hg⟩ := List.exists_mem_of_ne_nil es hne
        have hreport := h.reports g hg
        rw [hall g hreport.1] at hreport
        cases hreport.2

end Call

/-! ## What is left of a run with a ledger -/

theorem restored_settings (t t' : Timeouts) :
    restored (settings.map fun k => (k, t k)) t' = t := by
  funext k
  cases k <;> rfl

theorem spared_of_restored {s : State} (hpending : s.pendingLedgerUpdate = none)
    (hrollback : c.strikes .rollback = none) (hunlock : c.strikes .unlock = none)
    (hrestore : ∀ k, c.strikes (.restore k) = none) : Spared c s where
  rollback := hrollback
  mark := fun h => absurd hpending h
  restore := fun _ _ e _ => hrestore e.1
  unlock := hunlock

namespace Left

variable {f : Failure Point Err} {s : State}

/-- The pending update settles the row that is open. -/
theorem settled (h : Left c f s) (hforgotten : forgotten f.point f.manner = false) :
    ¬LeftApplying c (marked s.ledger s.pendingLedgerUpdate) := by
  intro hleft
  obtain ⟨id, r, hid, hr, happlying⟩ := hleft
  cases hpending : s.pendingLedgerUpdate with
  | none =>
    rw [hpending] at hr
    obtain ⟨st, hst⟩ := h.notes hforgotten id r hid hr happlying
    rw [hpending] at hst
    cases hst
  | some pending =>
    rcases pending with ⟨j, status⟩
    rw [hpending] at hr
    have hr' : (s.ledger.modify j fun r => { r with status := status })[id]? = some r := hr
    by_cases hj : j = id
    · rw [hj, List.getElem?_modify_eq, Option.map_eq_map, Option.map_eq_some_iff] at hr'
      obtain ⟨r₀, -, hr₀⟩ := hr'
      rw [← hr₀] at happlying
      exact h.ends j status hpending happlying
    · rw [List.getElem?_modify_ne _ s.ledger hj] at hr'
      obtain ⟨st, hst⟩ := h.notes hforgotten id r hid hr' happlying
      rw [hpending] at hst
      cases hst
      exact hj rfl

/-- Before the settings are saved no row is inserted, and what was set stays set. -/
theorem iff_of_early (h : Left c f s) (hearly : f.point.isEarly = true) :
    (Spared c s → restored (s.savedTimeouts.getD []) s.session.timeouts = c.timeouts ∧
        ¬LeftApplying c (marked s.ledger s.pendingLedgerUpdate)) ↔
      ((∃ k, changed f.point f.manner k = true ∧ c.timeouts k ≠ c.statementTimeoutMs) ∨
        forgotten f.point f.manner = true → CleanupStruck c f.point) := by
  have hforgotten : forgotten f.point f.manner = false := by
    cases hp : f.point <;> rw [hp] at hearly <;> first | rfl | cases hearly
  obtain ⟨hsaved, hpending, htimeouts⟩ := h.early hearly
  have hspared : Spared c s ↔ ¬CleanupStruck c f.point := by
    unfold CleanupStruck
    rw [hearly]
    constructor
    · rintro hs (hne | hne | ⟨hfalse, -⟩)
      · exact hne hs.rollback
      · exact hne hs.unlock
      · cases hfalse
    · intro hnot
      push Not at hnot
      refine ⟨hnot.1, fun hne => absurd hpending hne, ?_, hnot.2.1⟩
      intro saved hs
      rw [hsaved] at hs
      cases hs
  have hrestored : restored (s.savedTimeouts.getD []) s.session.timeouts = c.timeouts ↔
      ¬∃ k, changed f.point f.manner k = true ∧ c.timeouts k ≠ c.statementTimeoutMs := by
    rw [hsaved, htimeouts]
    constructor
    · intro heq hex
      obtain ⟨k, hk, hne⟩ := hex
      have hk' := congrFun heq k
      have hval : (if changed f.point f.manner k = true then c.statementTimeoutMs
          else c.timeouts k) = c.timeouts k := hk'
      rw [if_pos hk] at hval
      exact hne hval.symm
    · intro hnot
      push Not at hnot
      funext k
      show (if changed f.point f.manner k = true then c.statementTimeoutMs
          else c.timeouts k) = c.timeouts k
      by_cases hk : changed f.point f.manner k = true
      · rw [if_pos hk, hnot k hk]
      · rw [if_neg hk]
  have hsettled := h.settled hforgotten
  rw [hspared, hrestored, hforgotten]
  constructor
  · intro himp hor
    by_contra hstruck
    rcases hor with hex | hfalse
    · exact (himp hstruck).1 hex
    · cases hfalse
  · intro himp hstruck
    exact ⟨fun hex => hstruck (himp (Or.inl hex)), hsettled⟩

/-- Afterwards the settings are restored, and a row stays open only if it was forgotten. -/
theorem iff_of_late (h : Left c f s) (hearly : f.point.isEarly = false) :
    (Spared c s → restored (s.savedTimeouts.getD []) s.session.timeouts = c.timeouts ∧
        ¬LeftApplying c (marked s.ledger s.pendingLedgerUpdate)) ↔
      ((∃ k, changed f.point f.manner k = true ∧ c.timeouts k ≠ c.statementTimeoutMs) ∨
        forgotten f.point f.manner = true → CleanupStruck c f.point) := by
  have hchanged : ∀ k, changed f.point f.manner k = false := by
    intro k
    cases hp : f.point <;> rw [hp] at hearly <;> first | rfl | cases hearly
  have hsaved := h.saved hearly
  have hrestored : restored (s.savedTimeouts.getD []) s.session.timeouts = c.timeouts := by
    rw [hsaved]
    exact restored_settings c.timeouts s.session.timeouts
  constructor
  · intro himp hor
    by_contra hnot
    unfold CleanupStruck at hnot
    push Not at hnot
    rcases hor with hex | hforgotten
    · obtain ⟨k, hk, -⟩ := hex
      rw [hchanged k] at hk
      cases hk
    · obtain ⟨hpending, hopen⟩ := h.forgets hforgotten
      have hspared := spared_of_restored hpending hnot.1 hnot.2.1 (hnot.2.2 hearly)
      have hrows := (himp hspared).2
      rw [hpending] at hrows
      exact hrows hopen
  · intro himp hspared
    refine ⟨hrestored, ?_⟩
    cases hforgotten : forgotten f.point f.manner with
    | false => exact h.settled hforgotten
    | true =>
      rcases himp (Or.inr hforgotten) with hne | hne | ⟨-, k, hne⟩
      · exact absurd hspared.rollback hne
      · exact absurd hspared.unlock hne
      · refine absurd (hspared.restore _ hsaved (k, c.timeouts k) ?_) hne
        refine List.mem_map.mpr ⟨k, ?_, rfl⟩
        cases k <;> decide

end Left

/-! ## The law, exactly -/

/-- **A failed run leaves what it should exactly if it held the lock and, unless the cleanup
itself fails, had changed no setting it did not save and forgot no row.** -/
theorem law_iff (c : Call) (p : Point) (how : Manner) :
    (FailsAt (applyChainWithLedger c) p how →
      (Law c (applyChainWithLedger c) ↔ CleansUp c p how)) ∧
    (FailsAt (applyChainLocked c) p how →
      (Law c (applyChainLocked c) ↔ p.isPrelude = false)) := by
  constructor
  · intro h
    have hbody : Triple (fun s => s = c.held) (ledgerBody c) (fun _ _ => True) (Left c) :=
      ledgerBody_triple.conseq (fun _ hs => hs) (fun _ _ _ => trivial) fun _ _ he => he
    rcases failsAt_cases ledgerBody_within hbody h with
      ⟨hpre, f, r, ho, hopen⟩ | ⟨hpre, e, s, es, r, hleft, hunwound, ho⟩
    · constructor
      · intro hlaw
        exact absurd hlaw (not_law_of_prelude ho hopen)
      · intro hclean
        rw [hclean.1] at hpre
        cases hpre
    · have hlaw := law_iff_of_unwound hunwound h.1 hleft.isOpen ho
      have hiff : (Spared c s →
          restored (s.savedTimeouts.getD []) s.session.timeouts = c.timeouts ∧
            ¬LeftApplying c (marked s.ledger s.pendingLedgerUpdate)) ↔
          ((∃ k, changed p how k = true ∧ c.timeouts k ≠ c.statementTimeoutMs) ∨
            forgotten p how = true → CleanupStruck c p) := by
        cases hearly : p.isEarly with
        | true => exact hleft.iff_of_early hearly
        | false => exact hleft.iff_of_late hearly
      constructor
      · intro h'
        exact ⟨hpre, hiff.mp (hlaw.mp h')⟩
      · intro hclean
        exact hlaw.mpr (hiff.mpr hclean.2)
  · intro h
    rcases failsAt_cases lockedBody_within lockedBody_triple h with
      ⟨hpre, f, r, ho, hopen⟩ | ⟨hpre, e, s, es, r, hleft, hunwound, ho⟩
    · constructor
      · intro hlaw
        exact absurd hlaw (not_law_of_prelude ho hopen)
      · intro hclean
        rw [hclean] at hpre
        cases hpre
    · constructor
      · exact fun _ => hpre
      · intro _
        refine (law_iff_of_unwound hunwound h.1 hleft.isOpen ho).mpr fun _ => ?_
        rw [hleft.saved, hleft.pending]
        exact ⟨hleft.timeouts, not_leftApplying hleft.ledger⟩

/-- A call on a free lock and an empty database, struck at the one point `p`. -/
def struckCall (p : Point) : Call where
  filenames := ["031_clarification_lifecycle_outbox_foundation.sql"]
  lockWaitTimeoutSeconds := 30
  pollIntervalSeconds := 1
  statementTimeoutMs := 30000
  showSeconds := fun _ => "30.0"
  polls := 30
  free := fun _ => true
  strikes := fun q => if q = p then some (.unsent, ⟨.outside, "CancelledError"⟩) else none
  files := fun _ => some "BEGIN; COMMIT;"
  sha256 := fun text => text
  execute := fun _ schema => schema
  manifests := fun _ => .missing
  stableJson := fun _ => "null"
  serverVersionNum := 160003
  timeouts := fun _ => 0
  ledger := []
  schema := fun _ => none

theorem law_struck :
    (Law (struckCall .bootstrap) (applyChainWithLedger (struckCall .bootstrap)) ↔
      CleansUp (struckCall .bootstrap) .bootstrap .unsent) ∧
    (Law (struckCall (.applyFile 0)) (applyChainLocked (struckCall (.applyFile 0))) ↔
      (Point.applyFile 0).isPrelude = false) := by
  have hledger : FailsAt (applyChainWithLedger (struckCall .bootstrap)) .bootstrap .unsent :=
    ⟨rfl, ⟨.outside, "CancelledError"⟩, by decide +kernel⟩
  have hlocked : FailsAt (applyChainLocked (struckCall (.applyFile 0))) (.applyFile 0) .unsent :=
    ⟨rfl, ⟨.outside, "CancelledError"⟩, by decide +kernel⟩
  exact ⟨(law_iff _ _ _).1 hledger, (law_iff _ _ _).2 hlocked⟩

/-- Cancelled at its second `SET`, a call hands back the connection as reusable, with the first
setting changed. -/
theorem set_not_undone :
    ¬∀ (c : Call) (p : Point) (how : Manner), FailsAt (applyChainWithLedger c) p how →
      Law c (applyChainWithLedger c) := by
  intro h
  have hlaw := h (struckCall (.setSetting .lockTimeout)) (.setSetting .lockTimeout) .unsent
    ⟨rfl, ⟨.outside, "CancelledError"⟩, by decide +kernel⟩
  have hreusable : (applyChainWithLedger (struckCall (.setSetting .lockTimeout))).connectionReusable
      = some true := by decide +kernel
  have hchanged : (applyChainWithLedger
      (struckCall (.setSetting .lockTimeout))).final.now.session.timeouts .statementTimeout =
        30000 := by
    decide +kernel
  have htimeouts := (hlaw.reusable.mp hreusable).2.2
  rw [htimeouts] at hchanged
  cases hchanged

end AiAgentsSwd.Migrations
