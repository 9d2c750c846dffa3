import AiAgentsSwd.Incidents.Intake
import AiAgentsSwd.Keyed.Holds

/-!
# Incidents.OneOpen — when a problem has one open incident

The search for an open incident, the insertion of the new one and of the alert that makes it
findable are separate statements, and operators set the status of an incident whatever it is.
`careful` says what has to hold of the single steps; under it `Inv` holds in every state, and
with it `IncidentsProper`. That the keys tell problems apart needs no care.
-/

namespace AiAgentsSwd.Incidents

open Json (Value)
open Keyed (Table)
open Planning (Uuid)
open Transition

variable {ρ : Type} [DecidableEq ρ] {sha256 : String → String}

/-! ## What is promised -/

/-- A problem has one open incident at most, every alert is linked to an incident, and no
notification of an end has created one. -/
structure IncidentsProper (s : World ρ) : Prop where
  one : ∀ key i j, i ∈ s.openFor key → j ∈ s.openFor key → i = j
  linked : ∀ a ∈ s.alerts, ∃ id row, a.incidentId = some id ∧ s.incidents.find? id = some row
  fired : ∀ e ∈ s.created, e.2.rawStatus ≠ "resolved"

/-- The two alerts are about one problem. -/
structure SameProblem (a b : NormalizedAlert) : Prop where
  source : stripped a.source = stripped b.source
  alertName : stripped a.alertName = stripped b.alertName
  fingerprint : stripped (a.fingerprint.getD "") = stripped (b.fingerprint.getD "")
  labels : Json.Same (.obj a.labels.members) (.obj b.labels.members)

/-! ## Keys -/

/-- The order of the members of an object does not matter. -/
theorem same_obj_perm {ms ms' ns ns' : List (String × Value)} (hm : ms.Perm ms')
    (hn : ns.Perm ns') : Json.Same (.obj ms) (.obj ns) ↔ Json.Same (.obj ms') (.obj ns') := by
  have hmembers : ∀ {ms ns : List (String × Value)}, Json.SameMembers ms ns ↔
      ∀ m ∈ ms, ∃ w, (m.1, w) ∈ ns ∧ Json.Same m.2 w := by
    intro ms ns
    induction ms with
    | nil => simp [Json.SameMembers]
    | cons m ms ih =>
      rcases m with ⟨k, v⟩
      simp only [Json.SameMembers, ih, List.forall_mem_cons]
  simp only [Json.Same, hmembers, hm.length_eq, hn.length_eq, hm.mem_iff, hn.mem_iff]

theorem Labels.perm_sorted (l : Labels) : l.sorted.Perm l.members := List.perm_insertionSort _ _

theorem NormalizedAlert.distinct_canonical (a : NormalizedAlert) : a.canonical.Distinct := by
  have hlabels : (Value.obj a.labels.sorted).Distinct := by
    have h := a.labels.distinct
    have hperm := a.labels.perm_sorted
    simp only [Value.Distinct, Json.distinctMembers_iff] at h ⊢
    refine ⟨(hperm.map Prod.fst).nodup_iff.mpr h.1, fun m hm => ?_⟩
    exact h.2 m (hperm.mem_iff.mp hm)
  unfold canonical
  simp only [Value.Distinct, Json.DistinctMembers, and_true, true_and]
  exact ⟨by simp, hlabels⟩

/-- **Two alerts have one key exactly when they are about one problem.** -/
theorem dedupeKey_eq_iff (hsha : Function.Injective sha256) {a b : NormalizedAlert} :
    dedupeKey sha256 a = dedupeKey sha256 b ↔ SameProblem a b := by
  unfold dedupeKey
  rw [hsha.eq_iff, Json.plainDumps_eq_iff a.distinct_canonical b.distinct_canonical]
  have hsame : Json.Same a.canonical b.canonical ↔
      stripped a.source = stripped b.source ∧ stripped a.alertName = stripped b.alertName ∧
      stripped (a.fingerprint.getD "") = stripped (b.fingerprint.getD "") ∧
      Json.Same (.obj a.labels.sorted) (.obj b.labels.sorted) := by
    unfold NormalizedAlert.canonical
    rw [Json.Same, Json.sameMembers_cons_iff (by simp) (by simp),
      Json.sameMembers_cons_iff (by simp) (by simp), Json.sameMembers_cons_iff (by simp) (by simp),
      Json.sameMembers_cons_iff (by simp) (by simp)]
    simp only [Json.Same, Json.SameMembers, List.length_cons, List.length_nil, and_true]
  rw [hsame, same_obj_perm a.labels.perm_sorted b.labels.perm_sorted]
  exact ⟨fun h => ⟨h.1, h.2.1, h.2.2.1, h.2.2.2⟩,
    fun h => ⟨h.source, h.alertName, h.fingerprint, h.labels⟩⟩

/-! ## Careful steps -/

/-- The key of the problem that a request is about to open an incident for. -/
def Phase.claims (sha256 : String → String) : Phase → Option String
  | .creating a _ => some (dedupeKey sha256 a)
  | .storing a _ _ => some (dedupeKey sha256 a)
  | _ => none

/-- A request is about to open an incident for the key. -/
def World.claimed (sha256 : String → String) (s : World ρ) (key : String) : Bool :=
  s.requests.holds (Phase.claims sha256) key

/-- No incident is open for the keys of the incident's alerts, or is about to be. -/
def World.revivable (sha256 : String → String) (s : World ρ) (id : Uuid) : Bool :=
  s.alerts.all fun a => a.incidentId != some id ||
    ((s.openFor a.dedupeKey).isEmpty && !s.claimed sha256 a.dedupeKey)

/-- What has to hold of the next call of a request. -/
def carefulNext (sha256 : String → String) (s : World ρ) (d : Draw) : Phase → Bool
  | .finding a _ =>
    -- an incident is opened for a firing alert that nobody else is opening one for
    d.raises || (s.findOpenIncident (dedupeKey sha256 a) d.pick).isSome ||
      (a.rawStatus != "resolved" && !s.claimed sha256 (dedupeKey sha256 a))
  | .transiting incident op => op.status.ended || s.isOpen incident || s.revivable sha256 incident
  | _ => true

def careful (sha256 : String → String) (s : World ρ) : Act ρ → Bool
  | .next r d => (s.requests.find? r).all (carefulNext sha256 s d)
  | _ => true

/-! ## The invariant -/

theorem mem_openFor {s : World ρ} {key : String} {id : Uuid} :
    id ∈ s.openFor key ↔ ⟨key, some id⟩ ∈ s.alerts ∧ s.isOpen id = true := by
  unfold World.openFor
  rw [List.mem_filterMap]
  constructor
  · rintro ⟨a, ha, hid⟩
    rw [List.mem_filter, beq_iff_eq] at ha
    rw [Option.filter_eq_some_iff] at hid
    rcases a with ⟨key', incidentId⟩
    obtain ⟨hmem, rfl⟩ := ha
    rw [← hid.1]
    exact ⟨hmem, hid.2⟩
  · rintro ⟨hmem, hopen⟩
    refine ⟨⟨key, some id⟩, List.mem_filter.mpr ⟨hmem, beq_iff_eq.mpr rfl⟩, ?_⟩
    rw [Option.filter_eq_some_iff]
    exact ⟨rfl, hopen⟩

/-- No incident is open for the key. -/
def Quiet (s : World ρ) (key : String) : Prop := ∀ id, id ∉ s.openFor key

/-- What a request has made sure of when it comes to a phase. -/
def Phase.Sound (sha256 : String → String) (s : World ρ) : Phase → Prop
  | .linking a incident _ => ⟨dedupeKey sha256 a, some incident⟩ ∈ s.alerts
  | .creating a _ => Quiet s (dedupeKey sha256 a) ∧ a.rawStatus ≠ "resolved"
  | .storing a incident _ => Quiet s (dedupeKey sha256 a) ∧ s.incidents.find? incident ≠ none
  | _ => True

structure Inv (sha256 : String → String) (s : World ρ) : Prop where
  proper : IncidentsProper s
  sound : ∀ r p, s.requests.find? r = some p → p.Sound sha256 s
  exclusive : s.requests.Exclusive (Phase.claims sha256)

/-- Incidents and alerts stay. -/
structure Later (s t : World ρ) : Prop where
  incidents : ∀ id, s.incidents.find? id ≠ none → t.incidents.find? id ≠ none
  alerts : ∀ a ∈ s.alerts, a ∈ t.alerts

/-- **The frame rule**: what a request has made sure of stays, as long as nobody opens an
incident for the key it claims. -/
theorem sound_later {s t : World ρ} {p : Phase} (h : Later s t)
    (hkey : ∀ key, p.claims sha256 = some key → Quiet s key → Quiet t key)
    (hp : p.Sound sha256 s) : p.Sound sha256 t := by
  cases p with
  | linking a incident rest => exact h.alerts _ hp
  | creating a rest => exact ⟨hkey _ rfl hp.1, hp.2⟩
  | storing a incident rest => exact ⟨hkey _ rfl hp.1, h.incidents _ hp.2⟩
  | finding a rest => trivial
  | reviewing incident op => trivial
  | transiting incident op => trivial
  | «over» => trivial

/-- **The move lemma**: one request moves and changes the tables, the others find what they
count on. -/
theorem Inv.move {s t : World ρ} (hs : Inv sha256 s) {r : ρ} {p' : Phase}
    (hput : s.requests.Puts t.requests r p') (hproper : IncidentsProper t) (hlater : Later s t)
    (hkey : ∀ r' q key, r' ≠ r → s.requests.find? r' = some q → q.claims sha256 = some key →
      Quiet s key → Quiet t key)
    (hsound : p'.Sound sha256 t)
    (hclaims : ∀ key, p'.claims sha256 = some key →
      s.requests.Alone (Phase.claims sha256) r key) : Inv sha256 t where
  proper := hproper
  sound := by
    intro r' q hq
    rcases hput.find hq with ⟨-, rfl⟩ | ⟨hne, hold⟩
    · exact hsound
    · exact sound_later hlater (fun key hclaim => hkey r' q key hne hold hclaim)
        (hs.sound r' q hold)
  exclusive := hs.exclusive.puts hput hclaims

/-- A request moves on and nothing else happens. -/
theorem Inv.goto {s : World ρ} (hs : Inv sha256 s) {r : ρ} {p' : Phase}
    (hsound : p'.Sound sha256 s)
    (hclaims : ∀ key, p'.claims sha256 = some key →
      s.requests.Alone (Phase.claims sha256) r key) : Inv sha256 (s.goto r p') := by
  have hsame : ∀ key, Quiet s key → Quiet (s.goto r p') key := fun _ h => h
  have hlater : Later s (s.goto r p') := ⟨fun _ h => h, fun _ h => h⟩
  exact hs.move (Table.puts_insert _ r p') ⟨hs.proper.one, hs.proper.linked, hs.proper.fired⟩
    hlater (fun _ _ key _ _ _ => hsame key) (sound_later hlater (fun key _ => hsame key) hsound)
    hclaims

/-- Phases that claim nothing and have nothing to make sure of. -/
theorem Inv.idle {s : World ρ} (hs : Inv sha256 s) {r : ρ} {p' : Phase}
    (hsound : ∀ t : World ρ, p'.Sound sha256 t) (hclaims : p'.claims sha256 = none) :
    Inv sha256 (s.goto r p') := by
  refine hs.goto (hsound s) fun key hkey => ?_
  rw [hclaims] at hkey
  cases hkey

theorem nextAlert_sound (rest : List NormalizedAlert) (t : World ρ) :
    (nextAlert rest).Sound sha256 t := by
  cases rest with
  | nil => trivial
  | cons a rest => trivial

theorem nextAlert_claims (rest : List NormalizedAlert) :
    (nextAlert rest).claims sha256 = none := by
  cases rest with
  | nil => rfl
  | cons a rest => rfl

/-! ### The calls -/

theorem mem_openFor_of_find {s : World ρ} {key : String} {pick : Nat} {id : Uuid}
    (h : s.findOpenIncident key pick = some id) : id ∈ s.openFor key := by
  unfold World.findOpenIncident at h
  rcases Option.or_eq_some_iff.mp h with hpick | ⟨-, hhead⟩
  · exact List.mem_of_getElem? hpick
  · exact List.mem_of_head? hhead

theorem quiet_of_find {s : World ρ} {key : String} {pick : Nat}
    (h : s.findOpenIncident key pick = none) : Quiet s key := by
  unfold World.findOpenIncident at h
  rw [Option.or_eq_none_iff, List.head?_eq_none_iff] at h
  intro id hid
  rw [h.2] at hid
  exact absurd hid List.not_mem_nil

theorem Inv.find {s : World ρ} (hs : Inv sha256 s) {r : ρ} {a : NormalizedAlert}
    {rest : List NormalizedAlert} {d : Draw}
    (hok : carefulNext sha256 s d (.finding a rest) = true) :
    Inv sha256 (s.next sha256 r d (.finding a rest)) := by
  unfold World.next
  dsimp only
  split
  · exact hs.idle (nextAlert_sound rest) (nextAlert_claims rest)
  rename_i hraises
  cases hfind : s.findOpenIncident (dedupeKey sha256 a) d.pick with
  | some incident =>
    refine hs.goto (mem_openFor.mp (mem_openFor_of_find hfind)).1 fun key hkey => ?_
    cases hkey
  | none =>
    unfold carefulNext at hok
    dsimp only at hok
    rw [hfind] at hok
    simp only [hraises, Bool.false_or, Option.isSome_none, Bool.and_eq_true, bne_iff_ne,
      Bool.not_eq_true'] at hok
    refine hs.goto ⟨quiet_of_find hfind, hok.1⟩ fun key hkey => ?_
    have heq : dedupeKey sha256 a = key := Option.some.inj hkey
    rw [← heq]
    exact Table.alone_of_holds hok.2 r

theorem mem_createAlert {s : World ρ} {key : String} {id : Uuid} {a : AlertRow} :
    a ∈ (s.createAlert key id).alerts ↔ a ∈ s.alerts ∨ a = ⟨key, some id⟩ := by
  unfold World.createAlert
  rw [List.mem_append, List.mem_singleton]

/-- An alert is stored for an incident that was found by its key, or for one that is the first
of its key. -/
theorem Inv.createAlert {s : World ρ} (hs : Inv sha256 s) {r : ρ} {key : String} {id : Uuid}
    {p' : Phase} (hexists : s.incidents.find? id ≠ none)
    (hfirst : ⟨key, some id⟩ ∈ s.alerts ∨
      Quiet s key ∧ s.requests.Alone (Phase.claims sha256) r key)
    (hsound : ∀ t : World ρ, p'.Sound sha256 t) (hclaims : p'.claims sha256 = none) :
    Inv sha256 ((s.createAlert key id).goto r p') := by
  have hopen : ∀ {key' id'}, id' ∈ (s.createAlert key id).openFor key' →
      id' ∈ s.openFor key' ∨ key' = key ∧ id' = id ∧ Quiet s key ∧
        s.requests.Alone (Phase.claims sha256) r key := by
    intro key' id' h
    have hmem := mem_openFor.mp h
    rcases mem_createAlert.mp hmem.1 with hold | hnew
    · exact Or.inl (mem_openFor.mpr ⟨hold, hmem.2⟩)
    · have heq : key' = key ∧ id' = id := by simpa using hnew
      rcases hfirst with hthere | hquiet
      · rw [heq.1, heq.2]
        rw [heq.2] at hmem
        exact Or.inl (mem_openFor.mpr ⟨hthere, hmem.2⟩)
      · exact Or.inr ⟨heq.1, heq.2, hquiet⟩
  refine hs.move (Table.puts_insert _ r p') ⟨?_, ?_, hs.proper.fired⟩
    ⟨fun _ h => h, fun a ha => mem_createAlert.mpr (Or.inl ha)⟩ ?_ (hsound _) ?_
  · intro key' i j hi hj
    rcases hopen hi with hold | ⟨heq, hid, hquiet, -⟩
    · rcases hopen hj with hold' | ⟨heq, -, hquiet, -⟩
      · exact hs.proper.one key' i j hold hold'
      · rw [heq] at hold
        exact absurd hold (hquiet i)
    · rcases hopen hj with hold' | ⟨-, hid', -⟩
      · rw [heq] at hold'
        exact absurd hold' (hquiet j)
      · exact hid.trans hid'.symm
  · intro a ha
    rcases mem_createAlert.mp ha with hold | rfl
    · exact hs.proper.linked a hold
    · rcases Option.ne_none_iff_exists'.mp hexists with ⟨row, hrow⟩
      exact ⟨id, row, rfl, hrow⟩
  · -- another request claims another key
    intro r' q key' hne hq hclaim hquiet i hi
    rcases hopen hi with hold | ⟨rfl, -, -, halone⟩
    · exact hquiet i hold
    · exact halone r' q hne hq hclaim
  · intro key' hkey
    rw [hclaims] at hkey
    cases hkey

/-- An incident that is inserted has no alert yet. -/
theorem openFor_insert {s t : World ρ} (hs : IncidentsProper s) {id : Uuid} {row : Incident}
    (hfresh : s.incidents.find? id = none) (halerts : t.alerts = s.alerts)
    (hincidents : t.incidents = s.incidents.insert id row) {key : String} {i : Uuid} :
    i ∈ t.openFor key ↔ i ∈ s.openFor key := by
  rw [mem_openFor, mem_openFor, halerts]
  refine and_congr_right fun hmem => ?_
  rcases hs.linked _ hmem with ⟨i', row', hi', hrow'⟩
  obtain rfl := Option.some.inj hi'
  have hne : i ≠ id := by
    intro heq
    rw [heq, hfresh] at hrow'
    cases hrow'
  unfold World.isOpen
  rw [hincidents, Table.find?_insert_of_ne _ _ hne]

theorem IncidentsProper.insert {s t : World ρ} (hs : IncidentsProper s) {id : Uuid}
    {row : Incident} (hfresh : s.incidents.find? id = none) (halerts : t.alerts = s.alerts)
    (hincidents : t.incidents = s.incidents.insert id row)
    (hfired : ∀ e ∈ t.created, e.2.rawStatus ≠ "resolved") : IncidentsProper t where
  one := by
    intro key i j hi hj
    rw [openFor_insert hs hfresh halerts hincidents] at hi hj
    exact hs.one key i j hi hj
  linked := by
    intro a ha
    rw [halerts] at ha
    rcases hs.linked a ha with ⟨i, row', hi, hrow'⟩
    refine ⟨i, row', hi, ?_⟩
    rw [hincidents, Table.find?_insert_of_ne _ _ (fun heq => ?_)]
    · exact hrow'
    · rw [heq, hfresh] at hrow'
      cases hrow'
  fired := hfired

theorem later_insert {s t : World ρ} {id : Uuid} {row : Incident} (halerts : t.alerts = s.alerts)
    (hincidents : t.incidents = s.incidents.insert id row) : Later s t where
  incidents := by
    intro i hi
    rw [hincidents, Table.find?_insert]
    split
    · intro hno
      cases hno
    · exact hi
  alerts := by
    rw [halerts]
    exact fun _ ha => ha

theorem Inv.create {s : World ρ} (hs : Inv sha256 s) {r : ρ} {a : NormalizedAlert}
    {rest : List NormalizedAlert} (hr : s.requests.find? r = some (.creating a rest)) {id : Uuid}
    (hfresh : s.incidents.find? id = none) :
    Inv sha256 ((s.createIncident id a).goto r (.storing a id rest)) := by
  have hp := hs.sound r _ hr
  have hopen : ∀ key i, i ∈ ((s.createIncident id a).goto r (.storing a id rest)).openFor key ↔
      i ∈ s.openFor key := fun key i => openFor_insert
        (t := (s.createIncident id a).goto r (.storing a id rest)) hs.proper hfresh rfl rfl
  have hquiet : ∀ key, Quiet s key →
      Quiet ((s.createIncident id a).goto r (.storing a id rest)) key := by
    intro key h i hi
    exact h i ((hopen key i).mp hi)
  refine hs.move (Table.puts_insert _ r _) (hs.proper.insert hfresh rfl rfl ?_)
    (later_insert rfl rfl) (fun _ _ key _ _ _ => hquiet key) ⟨hquiet _ hp.1, ?_⟩
    fun key hkey => hs.exclusive r _ key hr hkey
  · intro e he
    rcases List.mem_append.mp he with hold | hnew
    · exact hs.proper.fired e hold
    · rw [List.mem_singleton.mp hnew]
      exact hp.2
  · unfold World.goto World.createIncident
    dsimp only
    rw [Table.find?_insert_self]
    intro hno
    cases hno

/-- An incident ends, changes while it is open, or is opened again where nothing stands in the
way. -/
theorem Inv.transition {s : World ρ} (hs : Inv sha256 s) {id : Uuid} {status : IncidentStatus}
    (hok : (status.ended || s.isOpen id || s.revivable sha256 id) = true) :
    Inv sha256 (s.transition id status) := by
  have hfind := fun i => Table.find?_modify s.incidents id i fun row =>
    { row with status := status }
  have hopen : ∀ {key i}, i ∈ (s.transition id status).openFor key → i ∈ s.openFor key ∨
      i = id ∧ Quiet s key ∧ s.claimed sha256 key = false := by
    intro key i h
    have hmem := mem_openFor.mp h
    by_cases heq : i = id
    · subst heq
      by_cases hwas : s.isOpen i = true
      · exact Or.inl (mem_openFor.mpr ⟨hmem.1, hwas⟩)
      · -- the incident was over: it is opened again
        have hended : status.ended = false := by
          have hnow := hmem.2
          unfold World.isOpen World.transition at hnow
          rw [hfind, if_pos rfl, Option.any_map] at hnow
          rcases (Option.any_eq_true _ _).mp hnow with ⟨row, -, hrow⟩
          simpa using hrow
        rw [hended, Bool.false_or, Bool.or_eq_true] at hok
        have hrevive := hok.resolve_left hwas
        unfold World.revivable at hrevive
        have hthis := List.all_eq_true.mp hrevive _ hmem.1
        simp only [bne_self_eq_false, Bool.false_or, Bool.and_eq_true, List.isEmpty_iff,
          Bool.not_eq_true'] at hthis
        refine Or.inr ⟨rfl, fun j hj => ?_, hthis.2⟩
        rw [hthis.1] at hj
        exact absurd hj List.not_mem_nil
    · refine Or.inl (mem_openFor.mpr ⟨hmem.1, ?_⟩)
      have hnow := hmem.2
      unfold World.isOpen World.transition at hnow
      rw [hfind, if_neg heq] at hnow
      exact hnow
  have hlater : Later s (s.transition id status) := by
    refine ⟨fun i hi => ?_, fun _ ha => ha⟩
    exact fun hno => hi (Table.find?_modify_eq_none.mp hno)
  refine ⟨⟨?_, ?_, hs.proper.fired⟩, ?_, hs.exclusive⟩
  · intro key i j hi hj
    rcases hopen hi with hi | ⟨rfl, hquiet, -⟩
    · rcases hopen hj with hj | ⟨-, hquiet, -⟩
      · exact hs.proper.one key i j hi hj
      · exact absurd hi (hquiet i)
    · rcases hopen hj with hj | ⟨rfl, -⟩
      · exact absurd hj (hquiet j)
      · rfl
  · intro a ha
    rcases hs.proper.linked a ha with ⟨i, row, hi, hrow⟩
    have hsome : (s.transition id status).incidents.find? i ≠ none := by
      refine hlater.incidents i ?_
      rw [hrow]
      intro hno
      cases hno
    rcases Option.ne_none_iff_exists'.mp hsome with ⟨row', hrow'⟩
    exact ⟨i, row', hi, hrow'⟩
  · intro r p hr
    refine sound_later hlater (fun key hclaim hquiet i hi => ?_) (hs.sound r p hr)
    rcases hopen hi with hold | ⟨-, -, hfree⟩
    · exact hquiet i hold
    · exact Table.holds_eq_false.mp hfree r p hr hclaim

/-! ### Steps -/

/-- A request makes its next call. -/
theorem Inv.next {s : World ρ} (hs : Inv sha256 s) {r : ρ} {p : Phase} {d : Draw}
    (hr : s.requests.find? r = some p) (hok : carefulNext sha256 s d p = true) :
    Inv sha256 (s.next sha256 r d p) := by
  have hp := hs.sound r p hr
  have hover : Inv sha256 (s.goto r .over) := hs.idle (fun _ => trivial) rfl
  have hrest : ∀ rest, Inv sha256 (s.goto r (nextAlert rest)) :=
    fun rest => hs.idle (nextAlert_sound rest) (nextAlert_claims rest)
  cases p with
  | finding a rest => exact hs.find hok
  | linking a incident rest =>
    unfold World.next
    dsimp only
    split
    · exact hrest rest
    · rcases hs.proper.linked _ hp with ⟨i, row, hi, hrow⟩
      obtain rfl := Option.some.inj hi
      refine hs.createAlert ?_ (Or.inl hp) (nextAlert_sound rest) (nextAlert_claims rest)
      rw [hrow]
      intro hno
      cases hno
  | creating a rest =>
    unfold World.next
    dsimp only
    split
    · exact hrest rest
    · rename_i hfresh
      simp only [Bool.or_eq_true, not_or, Option.not_isSome_iff_eq_none] at hfresh
      exact hs.create hr hfresh.2
  | storing a incident rest =>
    unfold World.next
    dsimp only
    split
    · exact hrest rest
    · exact hs.createAlert hp.2 (Or.inr ⟨hp.1, hs.exclusive r _ _ hr rfl⟩) (nextAlert_sound rest) (nextAlert_claims rest)
  | reviewing incident op =>
    unfold World.next
    dsimp only
    split
    · exact hover
    · split
      · exact hs.idle (fun _ => trivial) rfl
      · exact hover
  | transiting incident op => exact (hs.transition hok).idle (fun _ => trivial) rfl
  | «over» => exact hs

/-- **The step lemma.** -/
theorem step_inv {s t : World ρ} {a : Act ρ} (hs : Inv sha256 s)
    (hok : careful sha256 s a = true) (h : step sha256 s a = some t) : Inv sha256 t := by
  unfold step at h
  cases a with
  | report id row =>
    dsimp only at h
    split at h
    · cases h
    · rename_i hfresh
      obtain rfl := Option.some.inj h
      have hlater := later_insert (s := s) (t := { s with incidents := s.incidents.insert id row })
        rfl rfl
      refine ⟨hs.proper.insert hfresh rfl rfl hs.proper.fired, fun r p hr => ?_, hs.exclusive⟩
      refine sound_later hlater (fun key _ hquiet i hi => ?_) (hs.sound r p hr)
      exact hquiet i ((openFor_insert (t := { s with incidents := s.incidents.insert id row })
        hs.proper hfresh rfl rfl).mp hi)
  | start r ask =>
    dsimp only at h
    split at h
    · cases h
    · obtain rfl := Option.some.inj h
      cases ask with
      | intake alerts => exact hs.idle (nextAlert_sound alerts) (nextAlert_claims alerts)
      | review incident op => exact hs.idle (fun _ => trivial) rfl
      | update incident op => exact hs.idle (fun _ => trivial) rfl
  | next r d =>
    rcases Option.map_eq_some_iff.mp h with ⟨p, hr, rfl⟩
    unfold careful at hok
    dsimp only at hok
    rw [hr, Option.all_some] at hok
    exact hs.next hr hok
  | stop r =>
    rcases Option.map_eq_some_iff.mp h with ⟨p, hr, rfl⟩
    exact hs.idle (fun _ => trivial) rfl

/-! ## Runs -/

theorem inv_start : Inv sha256 (World.start : World ρ) where
  proper := by
    refine ⟨?_, ?_, ?_⟩
    · intro key i j hi
      exact absurd hi List.not_mem_nil
    · intro a ha
      exact absurd ha List.not_mem_nil
    · intro e he
      exact absurd he List.not_mem_nil
  sound := by
    intro r p hr
    cases (Table.find?_empty r).symm.trans hr
  exclusive := Table.exclusive_empty

/-- The text that the sample alert is hashed as. -/
def sampleText : String :=
  "\x7b\"alert_name\": \"HighLatency\", \"fingerprint\": \"f1\", \"labels\": " ++
    "\x7b\"alertname\": \"HighLatency\"\x7d, \"source\": \"prometheus\"\x7d"

/-- An injective digest that is SHA-256 on the text of the sample alert. -/
def sampleDigest (text : String) : String :=
  if text = sampleText then
    "0e77d4775d9e94b026996a10b7b8fe8460c111e3bbac67c8eae9300df0381dc8"
  else "text:" ++ text

theorem sampleDigest_injective : Function.Injective sampleDigest := by
  have hother : ∀ t, "0e77d4775d9e94b026996a10b7b8fe8460c111e3bbac67c8eae9300df0381dc8" ≠
      "text:" ++ t := by
    intro t h
    have hlist := congrArg (fun s : String => s.toList.head?) h
    simp at hlist
  intro s t h
  unfold sampleDigest at h
  by_cases hs : s = sampleText
  · by_cases ht : t = sampleText
    · rw [hs, ht]
    · rw [if_pos hs, if_neg ht] at h
      exact absurd h (hother t)
  · by_cases ht : t = sampleText
    · rw [if_neg hs, if_pos ht] at h
      exact absurd h.symm (hother s)
    · rw [if_neg hs, if_neg ht] at h
      have hlist := congrArg String.toList h
      rw [String.toList_append, String.toList_append] at hlist
      exact String.toList_inj.mp (List.append_cancel_left hlist)

def sampleAlert (rawStatus : String) : NormalizedAlert :=
  { source := "prometheus"
    alertName := "HighLatency"
    labels := ⟨[("alertname", .str "HighLatency")], by
      simp [Value.Distinct, Json.DistinctMembers]⟩
    fingerprint := some "f1"
    rawStatus := rawStatus }

/-- The alert comes twice, one time after the other. -/
def repeated : List (Act Nat) := [
  .start 1 (.intake [sampleAlert "firing", sampleAlert "firing"]),
  .next 1 {},
  .next 1 { id := ⟨7⟩ },
  .next 1 {},
  .next 1 {},
  .next 1 {}]

/-- The end of a problem without an open incident is notified twice at once. -/
def racing : List (Act Nat) := [
  .start 1 (.intake [sampleAlert "resolved"]),
  .start 2 (.intake [sampleAlert "resolved"]),
  .next 1 {},
  .next 2 {},
  .next 1 { id := ⟨7⟩ },
  .next 2 { id := ⟨8⟩ },
  .next 1 {},
  .next 2 {}]

end AiAgentsSwd.Incidents
