import AiAgentsSwd.ApprovalPolicy.PathPolicy
import Mathlib.Tactic.Common

/-!
# Incidents.Receiver — the signature of an alert

Model of `_check_auth` of `apps/orchestrator/src/alert_receiver.py`, which both receiving routes
call before they read the payload. The keyed hash is a parameter: `hexdigest key message` is what
`hmac.new(key, msg=message, digestmod=sha256).hexdigest()` gives.

What is hashed is the signature itself, so that the body plays no part (`checkAuth_body`), and
only a signature that the hash leaves as it is can pass (`checkAuth_eq_ok`).
-/

namespace AiAgentsSwd.Incidents

open ApprovalPolicy (strip)

/-- `s.encode()` -/
def encode (s : String) : List UInt8 := s.toUTF8.data.toList

/-- A request as `_check_auth` sees it: `signature` is the header, or empty. -/
structure AlertRequest where
  body : List UInt8
  signature : String
deriving DecidableEq

inductive AuthError where
  /-- 401, X-AIAGENTS-ALERT-SIGNATURE required -/
  | required
  /-- 403, invalid alert signature -/
  | invalid
  /-- `compare_digest` raises on a text with characters beyond ASCII. -/
  | typeError
deriving Repr, DecidableEq

variable (hexdigest : List UInt8 → List UInt8 → String)

/-- `_shared_secret()`, of the environment variable. -/
def sharedSecret (raw : Option String) : Option String :=
  let secret := strip (raw.getD "").toList
  if secret = [] then none else some (String.ofList secret)

/-- `hmac.compare_digest(a, b)` of two texts, the first one in hexadecimal digits. -/
def compareDigest (a b : String) : Except AuthError Bool :=
  if b.toList.all fun c => decide (c.toNat < 128) then .ok (decide (a = b)) else .error .typeError

/-- `_check_auth(request)` -/
def checkAuth (secret : Option String) (r : AlertRequest) : Except AuthError Unit :=
  match secret with
  -- local_test_unsigned
  | none => .ok ()
  | some secret =>
    if r.signature = "" then .error .required
    else do
      let same ← compareDigest (hexdigest (encode secret) (encode r.signature)) r.signature
      if same then return () else .error .invalid

variable {hexdigest} {secret : String} {r : AlertRequest}

/-- Nothing but a fixed point of the hash passes. -/
theorem signature_of_checkAuth (h : checkAuth hexdigest (some secret) r = .ok ()) :
    r.signature = hexdigest (encode secret) (encode r.signature) := by
  unfold checkAuth compareDigest at h
  simp only at h
  by_cases hempty : r.signature = ""
  · rw [if_pos hempty] at h
    cases h
  rw [if_neg hempty] at h
  by_cases hascii : (r.signature.toList.all fun c => decide (c.toNat < 128)) = true
  · rw [if_pos hascii] at h
    by_contra hne
    have hdiffer : decide (hexdigest (encode secret) (encode r.signature) = r.signature) = false :=
      decide_eq_false fun heq => hne heq.symm
    rw [hdiffer] at h
    cases h
  · rw [if_neg hascii] at h
    cases h

/-- The body is not looked at. -/
theorem checkAuth_body (r r' : AlertRequest) (hsig : r.signature = r'.signature) :
    checkAuth hexdigest (some secret) r = checkAuth hexdigest (some secret) r' := by
  unfold checkAuth
  simp only [hsig]

variable (hexdigest) in
/-- The check decides whether the signature is that of the body. -/
def Authenticates (secret : String) (r : AlertRequest) : Prop :=
  checkAuth hexdigest (some secret) r = .ok () ↔
    r.signature = hexdigest (encode secret) r.body

/-- **The check is right only about what is not genuine.** -/
theorem authenticates_iff (hfixed : r.signature ≠ hexdigest (encode secret) (encode r.signature)) :
    Authenticates hexdigest secret r ↔ r.signature ≠ hexdigest (encode secret) r.body := by
  have hrejected : checkAuth hexdigest (some secret) r ≠ .ok () :=
    fun h => hfixed (signature_of_checkAuth h)
  unfold Authenticates
  constructor
  · intro h hgenuine
    exact hrejected (h.mpr hgenuine)
  · intro hforged
    constructor
    · intro h
      exact absurd h hrejected
    · intro hgenuine
      exact absurd hgenuine hforged

/-! ## One alert -/

/-- The digests under `s3cret` of an empty list of alerts, and of that digest. -/
def digests : List (String × String) := [
  ("\x7b\"alerts\":[]\x7d", "ebee03b5dfcb900cf23c43b292f0713ca2f3328f92de490ae50b178fb8a92c77"),
  ("ebee03b5dfcb900cf23c43b292f0713ca2f3328f92de490ae50b178fb8a92c77",
    "7a01585523715bbb22cdd4a8dc45566a625cc1611619880a0876f204d21a6b51")]

/-- A keyed hash with these digests. -/
def receiverDigest (_ message : List UInt8) : String :=
  ((digests.find? fun e => encode e.1 == message).map Prod.snd).getD ""

/-- The alerts with their signature, and with that of another body. -/
def signedAlerts (signature : String) : AlertRequest where
  body := encode "\x7b\"alerts\":[]\x7d"
  signature := signature

theorem authenticates_forged : Authenticates receiverDigest "s3cret"
    (signedAlerts "7a01585523715bbb22cdd4a8dc45566a625cc1611619880a0876f204d21a6b51") :=
  (authenticates_iff (by decide +kernel)).mpr (by decide +kernel)

/-- A sender that knows the secret signs the body, and is rejected. -/
theorem genuine_rejected : ¬Authenticates receiverDigest "s3cret"
    (signedAlerts "ebee03b5dfcb900cf23c43b292f0713ca2f3328f92de490ae50b178fb8a92c77") ∧
    checkAuth receiverDigest (some "s3cret")
      (signedAlerts "ebee03b5dfcb900cf23c43b292f0713ca2f3328f92de490ae50b178fb8a92c77") =
        .error .invalid := by
  have hgenuine : (signedAlerts
      "ebee03b5dfcb900cf23c43b292f0713ca2f3328f92de490ae50b178fb8a92c77").signature =
      receiverDigest (encode "s3cret") (signedAlerts
        "ebee03b5dfcb900cf23c43b292f0713ca2f3328f92de490ae50b178fb8a92c77").body := by
    decide +kernel
  have hinvalid : checkAuth receiverDigest (some "s3cret")
      (signedAlerts "ebee03b5dfcb900cf23c43b292f0713ca2f3328f92de490ae50b178fb8a92c77") =
        .error .invalid := by
    decide +kernel
  constructor
  · intro h
    have haccepted := h.mpr hgenuine
    rw [hinvalid] at haccepted
    cases haccepted
  · exact hinvalid

end AiAgentsSwd.Incidents
