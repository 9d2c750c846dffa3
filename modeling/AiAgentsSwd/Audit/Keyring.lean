import AiAgentsSwd.Audit.Canonical

/-!
# Audit.Keyring — HMAC keys and the signer

Model of `shared/sdk/audit_integrity/keyring.py` and `signer.py`. A key is the text whose
UTF-8 bytes it is.

A keyring carries what its loaders guarantee: a configured one has its active key among
its keys and no key of an empty name, any other one has no keys.
-/

namespace AiAgentsSwd.Audit

open Json (Value field?)

/-! ## Loading a keyring -/

/-- `KEYRING_MODE_…`. -/
inductive KeyringMode where
  | none
  | legacySingleKey
  | multiKeyring
  | invalid
deriving DecidableEq

/-- The mode is one in which keys are loaded. -/
def KeyringMode.loaded : KeyringMode → Bool
  | .legacySingleKey | .multiKeyring => true
  | _ => false

/-- `AuditHmacKeyring`. -/
structure AuditHmacKeyring where
  mode : KeyringMode
  keys : List (String × String)
  activeKeyId : Option String
  invalidReason : Option String
  active_mem : mode.loaded = true → ∃ kid, activeKeyId = some kid ∧ kid ∈ keys.map Prod.fst
  keys_eq_nil : mode.loaded = false → keys = [] ∧ activeKeyId = .none
  key_ne_empty : "" ∉ keys.map Prod.fst

/-- No keys are configured. -/
def AuditHmacKeyring.empty : AuditHmacKeyring :=
  ⟨.none, [], .none, .none, by simp [KeyringMode.loaded], by simp, by simp⟩

/-- The configuration is malformed. -/
def AuditHmacKeyring.malformed (reason : String) : AuditHmacKeyring :=
  ⟨.invalid, [], .none, some reason, by simp [KeyringMode.loaded], by simp, by simp⟩

/-- `str.isspace()` of one character. -/
def isPySpace (c : Char) : Bool :=
  (9 ≤ c.toNat && c.toNat ≤ 13) || (28 ≤ c.toNat && c.toNat ≤ 32) ||
    (0x2000 ≤ c.toNat && c.toNat ≤ 0x200a) ||
    [0x85, 0xa0, 0x1680, 0x2028, 0x2029, 0x202f, 0x205f, 0x3000].contains c.toNat

/-- `text.strip()`. -/
def strip (text : String) : String :=
  String.ofList (((text.toList.dropWhile isPySpace).reverse.dropWhile isPySpace).reverse)

/-- `DEFAULT_LEGACY_KEY_ID`. -/
def defaultLegacyKeyId : String := "legacy-single-key"

/-- `_load_legacy_single_key(raw_key, key_id)`. -/
def loadLegacySingleKey (rawKey : String) (keyId : Option String) : AuditHmacKeyring :=
  if h : strip (keyId.getD "") = "" then
    ⟨.legacySingleKey, [(defaultLegacyKeyId, rawKey)], some defaultLegacyKeyId, none, by simp,
      by simp [KeyringMode.loaded], by show "" ∉ [defaultLegacyKeyId]; decide⟩
  else
    ⟨.legacySingleKey, [(strip (keyId.getD ""), rawKey)], some (strip (keyId.getD "")), none,
      by simp, by simp [KeyringMode.loaded],
      fun hmem => h (List.mem_singleton.mp hmem).symm⟩

/-- The check of one entry of `keys`, with the reason it fails for. -/
def keyEntry (m : String × Value) : Except String (String × String) :=
  if strip m.1 = "" then .error "AUDIT_HMAC_KEYRING_JSON contains an empty key_id"
  else
    match m.2 with
    | .str v =>
      if strip v = "" then
        .error ("AUDIT_HMAC_KEYRING_JSON key '" ++ m.1 ++ "' has empty or non-string value")
      else .ok (m.1, v)
    | _ => .error ("AUDIT_HMAC_KEYRING_JSON key '" ++ m.1 ++ "' has empty or non-string value")

/-- Every entry of `keys`, or the reason of the first that fails. -/
def keyEntries : List (String × Value) → Except String (List (String × String))
  | [] => .ok []
  | m :: ms =>
    match keyEntry m with
    | .error reason => .error reason
    | .ok entry =>
      match keyEntries ms with
      | .error reason => .error reason
      | .ok entries => .ok (entry :: entries)

theorem strip_empty : strip "" = "" := rfl

/-- A key that is loaded has a name. -/
theorem keyEntries_ne_empty {ms : List (String × Value)} {entries : List (String × String)}
    (h : keyEntries ms = .ok entries) : "" ∉ entries.map Prod.fst := by
  induction ms generalizing entries with
  | nil =>
    obtain rfl := Except.ok.inj h
    simp
  | cons m ms ih =>
    unfold keyEntries at h
    split at h
    · cases h
    next entry hentry =>
      split at h
      · cases h
      next rest hrest =>
        obtain rfl := Except.ok.inj h
        have hname : entry.1 ≠ "" := by
          unfold keyEntry at hentry
          split at hentry
          · cases hentry
          next hstrip =>
            split at hentry
            · split at hentry
              · cases hentry
              · obtain rfl := Except.ok.inj hentry
                intro hempty
                exact hstrip (by rw [hempty, strip_empty])
            · cases hentry
        simp only [List.map_cons, List.mem_cons, not_or]
        exact ⟨fun h => hname h.symm, ih hrest⟩

section

variable (p : Primitives) (str : Value → String)

/-- `override_active or payload.get("active_key_id") or ""`, stripped; `str` turns a
document that is not a text into one. -/
def declaredActive (overrideActive : Option String) (payload : List (String × Value)) : String :=
  if strip (overrideActive.getD "") ≠ "" then strip (overrideActive.getD "")
  else
    match field? payload "active_key_id" with
    | none => ""
    | some (.str s) => strip s
    | some .null => ""
    | some (.bool false) => ""
    | some (.int 0) => ""
    | some (.arr []) => ""
    | some (.obj []) => ""
    | some v => strip (str v)

/-- The keyring of a `keys` object that passed its checks. -/
def selectActive (entries : List (String × String)) (hne : "" ∉ entries.map Prod.fst)
    (active : String) : AuditHmacKeyring :=
  if active = "" then
    .malformed "AUDIT_HMAC_KEYRING_JSON.active_key_id or AUDIT_HMAC_ACTIVE_KEY_ID is required"
  else if h : active ∈ entries.map Prod.fst then
    ⟨.multiKeyring, entries, some active, none, fun _ => ⟨active, rfl, h⟩,
      by simp [KeyringMode.loaded], hne⟩
  else
    .malformed ("active_key_id '" ++ active ++ "' is not in AUDIT_HMAC_KEYRING_JSON.keys")

/-- `_load_keyring_json(raw, override_active)`. -/
def loadKeyringJson (raw : String) (overrideActive : Option String) : AuditHmacKeyring :=
  match Json.loads p.float raw with
  | none => .malformed "AUDIT_HMAC_KEYRING_JSON is not valid JSON"
  | some (.obj payload) =>
    match field? payload "keys" with
    | some (.obj (m :: ms)) =>
      match h : keyEntries (m :: ms) with
      | .error reason => .malformed reason
      | .ok entries =>
        selectActive entries (keyEntries_ne_empty h) (declaredActive str overrideActive payload)
    | _ => .malformed "AUDIT_HMAC_KEYRING_JSON.keys missing or empty"
  | some _ => .malformed "AUDIT_HMAC_KEYRING_JSON must be a JSON object"

/-- `AuditHmacKeyring(env=env)`. -/
def AuditHmacKeyring.ofEnv (env : String → Option String) : AuditHmacKeyring :=
  if strip ((env "AUDIT_HMAC_KEYRING_JSON").getD "") ≠ "" then
    loadKeyringJson p str (strip ((env "AUDIT_HMAC_KEYRING_JSON").getD ""))
      (env "AUDIT_HMAC_ACTIVE_KEY_ID")
  else if strip ((env "AUDIT_HMAC_KEY").getD "") ≠ "" then
    loadLegacySingleKey (strip ((env "AUDIT_HMAC_KEY").getD "")) (env "AUDIT_HMAC_KEY_ID")
  else .empty

end

namespace AuditHmacKeyring

/-- `_key_bytes_for(key_id)`. -/
def keyBytesFor (k : AuditHmacKeyring) (keyId : String) : Option String :=
  (k.keys.find? fun e => e.1 = keyId).map Prod.snd

/-- `_active_key_bytes()`. -/
def activeKeyBytes (k : AuditHmacKeyring) : Option (String × String) :=
  if k.mode.loaded then
    match k.activeKeyId with
    | none => none
    | some kid => (k.keyBytesFor kid).map fun b => (kid, b)
  else none

theorem keyBytesFor_eq_none {k : AuditHmacKeyring} {kid : String} :
    k.keyBytesFor kid = none ↔ kid ∉ k.keys.map Prod.fst := by
  simp only [keyBytesFor, Option.map_eq_none_iff, List.find?_eq_none, decide_eq_true_eq,
    List.mem_map, not_exists, not_and]

theorem mem_of_keyBytesFor {k : AuditHmacKeyring} {kid b : String}
    (h : k.keyBytesFor kid = some b) : kid ∈ k.keys.map Prod.fst := by
  by_contra hn
  rw [keyBytesFor_eq_none.mpr hn] at h
  cases h

end AuditHmacKeyring

/-! ## The signer -/

/-- `SIGNATURE_STATUS_…`. -/
inductive SignatureStatus where
  | unsigned
  | signed
  | signingKeyNotConfigured
deriving DecidableEq

/-- `VERIFY_OUTCOME_…`. -/
inductive VerifyOutcome where
  | ok
  | keyMissing
  | signatureFailed
  | noKeyring
deriving DecidableEq

/-- `UNSIGNED_KEY_ID`. -/
def unsignedKeyId : String := "unsigned"

/-- What `sign` returns: the signature, its status and the key it names. -/
structure Signature where
  signature : Option String
  status : SignatureStatus
  keyId : String

variable (p : Primitives)

/-- `AuditSigner.sign(row_hash)`. -/
def sign (k : AuditHmacKeyring) (rowHash : String) : Signature :=
  match k.activeKeyBytes with
  | none => ⟨none, .signingKeyNotConfigured, unsignedKeyId⟩
  | some (kid, b) =>
    if rowHash = "" then ⟨none, .unsigned, kid⟩ else ⟨some (p.hmacSha256 b rowHash), .signed, kid⟩

/-- `signing_key_id or active_key_id or ""`. -/
def targetKeyId (k : AuditHmacKeyring) (signingKeyId : Option String) : String :=
  if signingKeyId.getD "" ≠ "" then signingKeyId.getD "" else k.activeKeyId.getD ""

/-- `AuditSigner.verify_with(…)`. -/
def verifyWith (k : AuditHmacKeyring) (rowHash : String) (signature signingKeyId : Option String) :
    VerifyOutcome :=
  if signature.getD "" = "" then .signatureFailed
  else if k.mode = .none then .noKeyring
  else if k.mode = .invalid then .noKeyring
  else
    match k.keyBytesFor (targetKeyId k signingKeyId) with
    | none => .keyMissing
    | some b => if p.hmacSha256 b rowHash = signature.getD "" then .ok else .signatureFailed

variable {p}

/-- A signature is accepted exactly when a key of the ring, the named one or for want of a
name the active one, gives it. -/
theorem verifyWith_ok_iff {k : AuditHmacKeyring} {rowHash : String}
    {signature signingKeyId : Option String} :
    verifyWith p k rowHash signature signingKeyId = .ok ↔
      ∃ b, k.keyBytesFor (targetKeyId k signingKeyId) = some b ∧
        signature = some (p.hmacSha256 b rowHash) := by
  unfold verifyWith
  constructor
  · intro h
    by_cases hne : signature.getD "" = ""
    · rw [if_pos hne] at h
      cases h
    · rw [if_neg hne] at h
      split at h
      · cases h
      split at h
      · cases h
      split at h
      · cases h
      next b hb =>
        split at h
        · next heq =>
          refine ⟨b, hb, ?_⟩
          cases signature with
          | none => exact absurd rfl hne
          | some s => exact congrArg some heq.symm
        · cases h
  · rintro ⟨b, hb, rfl⟩
    have hloaded : k.mode.loaded = true := by
      by_contra hn
      have hnil := (k.keys_eq_nil (by simpa using hn)).1
      have hmem := AuditHmacKeyring.mem_of_keyBytesFor hb
      rw [hnil] at hmem
      cases hmem
    have hne : (some (p.hmacSha256 b rowHash)).getD "" ≠ "" := p.hmac_ne b rowHash
    have hnone : k.mode ≠ .none := by
      intro hm
      rw [hm] at hloaded
      cases hloaded
    have hinvalid : k.mode ≠ .invalid := by
      intro hm
      rw [hm] at hloaded
      cases hloaded
    rw [if_neg hne, if_neg hnone, if_neg hinvalid, hb]
    exact if_pos rfl

end AiAgentsSwd.Audit
