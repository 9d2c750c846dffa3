import AiAgentsSwd.Json.Dumps
import AiAgentsSwd.Planning.Models

/-!
# Audit.Canonical — the canonical payload of an audit row and its hashes

Model of `shared/sdk/audit_integrity/canonical.py` and `hasher.py`. SHA-256, HMAC-SHA256
and the reading of a decimal as a float are parameters (`Primitives`): what is proved
holds for every choice of them.

Main results:

- `isoformat_inj`: no two timestamps have one text;
- `canonicalJson_eq_iff`: exactly which pairs of rows have one canonical text.
-/

namespace AiAgentsSwd.Audit

open Json (Value FloatText)
open Planning (Uuid)

/-- The library functions the model is given. A digest is a hexadecimal text, never empty. -/
structure Primitives where
  sha256 : String → String
  hmacSha256 : (key msg : String) → String
  float : List Char → FloatText
  sha256_ne (s : String) : sha256 s ≠ ""
  hmac_ne (key msg : String) : hmacSha256 key msg ≠ ""

/-! ## Timestamps -/

def isLeap (year : Nat) : Bool := year % 4 = 0 ∧ (year % 100 ≠ 0 ∨ year % 400 = 0)

def daysInMonth (year month : Nat) : Nat :=
  if month = 2 then if isLeap year then 29 else 28
  else if month = 4 ∨ month = 6 ∨ month = 9 ∨ month = 11 then 30 else 31

/-- An aware `datetime` in UTC, as asyncpg returns a `TIMESTAMPTZ`. -/
structure UtcDateTime where
  year : Nat
  month : Nat
  day : Nat
  hour : Nat
  minute : Nat
  second : Nat
  microsecond : Nat
  year_valid : 1 ≤ year ∧ year ≤ 9999
  month_valid : 1 ≤ month ∧ month ≤ 12
  day_valid : 1 ≤ day ∧ day ≤ daysInMonth year month
  hour_valid : hour < 24
  minute_valid : minute < 60
  second_valid : second < 60
  microsecond_valid : microsecond < 1000000
deriving DecidableEq

/-- The `w` last decimal digits of `n`. -/
def decimal : Nat → Nat → List Char
  | 0, _ => []
  | w + 1, n => decimal w (n / 10) ++ [Nat.digitChar (n % 10)]

@[simp] theorem length_decimal (w n : Nat) : (decimal w n).length = w := by
  induction w generalizing n with
  | zero => rfl
  | succ w ih => simp [decimal, ih]

theorem decimal_inj {w n m : Nat} (hn : n < 10 ^ w) (hm : m < 10 ^ w)
    (h : decimal w n = decimal w m) : n = m := by
  induction w generalizing n m with
  | zero =>
    rw [pow_zero] at hn hm
    omega
  | succ w ih =>
    have hdigit : ∀ a < 10, ∀ b < 10, Nat.digitChar a = Nat.digitChar b → a = b := by decide
    obtain ⟨hhigh, hlow⟩ := List.append_inj h (by simp)
    rw [pow_succ] at hn hm
    have h₁ := ih (by omega) (by omega) hhigh
    have h₂ := hdigit (n % 10) (by omega) (m % 10) (by omega) (List.cons.inj hlow).1
    omega

/-- The fraction of a second, which `isoformat` leaves out when it is zero. -/
def UtcDateTime.fraction (t : UtcDateTime) : List Char :=
  if t.microsecond = 0 then [] else '.' :: decimal 6 t.microsecond

/-- `dt.astimezone(timezone.utc).isoformat()`. -/
def UtcDateTime.isoformat (t : UtcDateTime) : String :=
  String.ofList (decimal 4 t.year ++ ('-' :: decimal 2 t.month) ++ ('-' :: decimal 2 t.day) ++
    ('T' :: decimal 2 t.hour) ++ (':' :: decimal 2 t.minute) ++ (':' :: decimal 2 t.second) ++
    t.fraction ++ ['+', '0', '0', ':', '0', '0'])

/-- **No two timestamps have one text.** -/
theorem isoformat_inj {t u : UtcDateTime} (h : t.isoformat = u.isoformat) : t = u := by
  have hl := String.ofList_inj.mp h
  -- every field but the fraction has a fixed width
  simp only [List.append_assoc, List.cons_append] at hl
  obtain ⟨hyear, hl⟩ := List.append_inj hl (by simp)
  obtain ⟨hmonth, hl⟩ := List.append_inj (List.cons.inj hl).2 (by simp)
  obtain ⟨hday, hl⟩ := List.append_inj (List.cons.inj hl).2 (by simp)
  obtain ⟨hhour, hl⟩ := List.append_inj (List.cons.inj hl).2 (by simp)
  obtain ⟨hminute, hl⟩ := List.append_inj (List.cons.inj hl).2 (by simp)
  obtain ⟨hsecond, hl⟩ := List.append_inj (List.cons.inj hl).2 (by simp)
  have hmicro : t.microsecond = u.microsecond := by
    have hfraction : t.fraction = u.fraction := List.append_cancel_right hl
    unfold UtcDateTime.fraction at hfraction
    split at hfraction
    · split at hfraction
      · omega
      · cases hfraction
    · split at hfraction
      · cases hfraction
      · exact decimal_inj t.microsecond_valid u.microsecond_valid (List.cons.inj hfraction).2
  have htd := t.day_valid
  have hud := u.day_valid
  have hmax : ∀ y m, daysInMonth y m ≤ 31 := by
    intro y m
    unfold daysInMonth
    split
    · split <;> omega
    · split <;> omega
  have ht := hmax t.year t.month
  have hu := hmax u.year u.month
  have h₁ := decimal_inj (by have := t.year_valid; omega) (by have := u.year_valid; omega) hyear
  have h₂ := decimal_inj (by have := t.month_valid; omega) (by have := u.month_valid; omega) hmonth
  have h₃ := decimal_inj (by omega) (by omega) hday
  have h₄ := decimal_inj (by have := t.hour_valid; omega) (by have := u.hour_valid; omega) hhour
  have h₅ := decimal_inj (by have := t.minute_valid; omega) (by have := u.minute_valid; omega)
    hminute
  have h₆ := decimal_inj (by have := t.second_valid; omega) (by have := u.second_valid; omega)
    hsecond
  rcases t with ⟨_, _, _, _, _, _, _⟩
  rcases u with ⟨_, _, _, _, _, _, _⟩
  simp only at h₁ h₂ h₃ h₄ h₅ h₆ hmicro
  subst h₁ h₂ h₃ h₄ h₅ h₆ hmicro
  rfl

/-! ## The canonical payload -/

/-- The columns of `audit_logs` beside its primary key that the chain covers.
`artifactRefs` is the text PostgreSQL returns for the `JSONB` value. -/
structure AuditLog where
  taskId : Option String
  agent : Option String
  decisionType : Option String
  summary : Option String
  result : Option String
  artifactRefs : String
  createdAt : UtcDateTime
deriving DecidableEq

/-- The timestamp of a row: a `datetime`, or the text a writer has made of it. -/
inductive CreatedAt where
  | none
  | datetime (t : UtcDateTime)
  | text (s : String)

/-- The dictionary `build_canonical_payload` is given. `artifactRefs` is any Python value:
a text that is still to be parsed is a string. -/
structure AuditLogRow where
  auditLogId : Uuid
  taskId : Option String
  agent : Option String
  decisionType : Option String
  summary : Option String
  result : Option String
  artifactRefs : Value
  createdAt : CreatedAt

/-- The row of a stored log, as asyncpg returns it. -/
def AuditLog.row (a : AuditLog) (id : Uuid) : AuditLogRow :=
  { auditLogId := id, taskId := a.taskId, agent := a.agent, decisionType := a.decisionType,
    summary := a.summary, result := a.result, artifactRefs := .str a.artifactRefs,
    createdAt := .datetime a.createdAt }

/-- `_coerce_str(value)`. -/
def coerceStr (value : Option String) : String := value.getD ""

/-- `_coerce_created_at(value)`. -/
def coerceCreatedAt : CreatedAt → String
  | .none => ""
  | .datetime t => t.isoformat
  | .text s => s

/-- `_canonicalise_value(value)`. -/
def canonicaliseValue (value : Value) : Value := Json.sortKeys value

/-- `canonical_json(payload)`. -/
def canonicalJson (payload : Value) : String := Json.dumps (canonicaliseValue payload)

variable (p : Primitives)

/-- The `refs` of `build_canonical_payload`: what is not an object, nor the text of a
document, counts as the empty object. -/
def canonicalRefs (refsRaw : Value) : Value :=
  match refsRaw with
  | .str s => if s = "" then .obj [] else (Json.loads p.float s).getD (.obj [])
  | .obj members => .obj members
  | _ => .obj []

/-- `build_canonical_payload(audit_log_row)`. -/
def buildCanonicalPayload (r : AuditLogRow) : Value :=
  .obj [("audit_log_id", .str (toString r.auditLogId)), ("task_id", .str (coerceStr r.taskId)),
    ("agent", .str (coerceStr r.agent)), ("decision_type", .str (coerceStr r.decisionType)),
    ("summary", .str (coerceStr r.summary)), ("result", .str (coerceStr r.result)),
    ("artifact_refs", canonicaliseValue (canonicalRefs p r.artifactRefs)),
    ("created_at", .str (coerceCreatedAt r.createdAt))]

variable {p}

theorem distinct_canonicalRefs {refsRaw : Value} (h : refsRaw.Distinct) :
    (canonicalRefs p refsRaw).Distinct := by
  unfold canonicalRefs
  split
  · next s =>
    split
    · exact ⟨List.nodup_nil, trivial⟩
    · cases hl : Json.loads p.float s with
      | none => exact ⟨List.nodup_nil, trivial⟩
      | some v => exact Json.distinct_loads p.float hl
  · exact h
  · exact ⟨List.nodup_nil, trivial⟩

theorem canonicalJson_eq_dumps (v : Value) : canonicalJson v = Json.dumps v := by
  simp only [canonicalJson, canonicaliseValue, Json.dumps, Json.sortKeys_sortKeys]

/-- The rows that have one canonical text: a text column that is missing counts as empty,
and the references count up to the order of members. -/
structure SameRow (p : Primitives) (r s : AuditLogRow) : Prop where
  task_id : coerceStr r.taskId = coerceStr s.taskId
  agent : coerceStr r.agent = coerceStr s.agent
  decision_type : coerceStr r.decisionType = coerceStr s.decisionType
  summary : coerceStr r.summary = coerceStr s.summary
  result : coerceStr r.result = coerceStr s.result
  artifact_refs : Json.Same (canonicalRefs p r.artifactRefs) (canonicalRefs p s.artifactRefs)
  created_at : coerceCreatedAt r.createdAt = coerceCreatedAt s.createdAt

/-- **The canonical text tells two versions of a row apart exactly when `SameRow` does.** -/
theorem canonicalJson_eq_iff {r s : AuditLogRow} (hid : r.auditLogId = s.auditLogId)
    (hr : r.artifactRefs.Distinct) (hs : s.artifactRefs.Distinct) :
    canonicalJson (buildCanonicalPayload p r) = canonicalJson (buildCanonicalPayload p s) ↔
      SameRow p r s := by
  have hr' := distinct_canonicalRefs (p := p) hr
  have hs' := distinct_canonicalRefs (p := p) hs
  have hpayload : ∀ x : AuditLogRow, x.artifactRefs.Distinct →
      (buildCanonicalPayload p x).Distinct := by
    intro x hx
    refine ⟨by simp, ?_⟩
    simp only [Json.DistinctMembers, Value.Distinct, true_and, and_true]
    exact Json.distinct_sortKeys (distinct_canonicalRefs hx)
  rw [canonicalJson_eq_dumps, canonicalJson_eq_dumps,
    Json.dumps_eq_iff (hpayload r hr) (hpayload s hs)]
  simp only [buildCanonicalPayload, canonicaliseValue, Json.Same, hid]
  iterate 8 rw [Json.sameMembers_cons_iff (by simp) (by simp)]
  simp only [Json.Same, Json.SameMembers, Json.same_sortKeys_iff hr' hs', true_and, and_true,
    List.length_cons, List.length_nil]
  constructor
  · rintro ⟨h₁, h₂, h₃, h₄, h₅, h₆, h₇⟩
    exact ⟨h₁, h₂, h₃, h₄, h₅, h₆, h₇⟩
  · rintro ⟨h₁, h₂, h₃, h₄, h₅, h₆, h₇⟩
    exact ⟨h₁, h₂, h₃, h₄, h₅, h₆, h₇⟩

/-! ## Hashes -/

variable (p)

/-- `compute_payload_hash(canonical_payload)`. -/
def computePayloadHash (canonicalPayload : Value) : String :=
  p.sha256 (canonicalJson canonicalPayload)

/-- `GENESIS_PREV_HASH`. -/
def genesisPrevHash : String := "GENESIS"

/-- `prev_hash or GENESIS_PREV_HASH`. -/
def prevHashText (prevHash : Option String) : String :=
  match prevHash with
  | none => genesisPrevHash
  | some h => if h = "" then genesisPrevHash else h

/-- `compute_row_hash(…)`. -/
def computeRowHash (chainVersion sequenceNumber : Int) (auditLogId : Uuid)
    (prevHash : Option String) (canonicalPayloadHash : String) : String :=
  p.sha256 (String.intercalate "\n"
    ["chain_version=" ++ toString chainVersion, "sequence_number=" ++ toString sequenceNumber,
      "audit_log_id=" ++ toString auditLogId, "prev_hash=" ++ prevHashText prevHash,
      "canonical_payload_hash=" ++ canonicalPayloadHash])

end AiAgentsSwd.Audit
