import AiAgentsSwd.ApprovalPolicy.PathPolicy
import AiAgentsSwd.Python.Dicts

/-!
# Notifications.DeliveryPolicy — which notifications may be posted to Discord

Model of `shared/sdk/notifications/real_delivery_policy.py`, and of the opt-in checks of
`NotificationDiscordClient` of `apps/notification-worker/src/discord_client.py`.

- `Sendable`: what has to hold of a payload, said without an order of checks;
- `classify_realAllowed_iff`: the checks of `classify_real_delivery` decide it.
-/

namespace AiAgentsSwd.Notifications

open ApprovalPolicy (Unicode strip)
open Json (Value field?)
open Python (Runtime orElse)

/-! ## The policy -/

/-- `DEFAULT_REAL_DELIVERY_ALLOWLIST` -/
def defaultRealDeliveryAllowlist : List String :=
  ["discord.real_test_sent", "discord.real_task_received"]

/-- `DEFAULT_REAL_DELIVERY_DENYLIST` -/
def defaultRealDeliveryDenylist : List String := [
  "workflow.*", "qa.*", "code.*", "github.*", "task.*", "llm.*", "approval.*", "audit.*",
  "incident.*", "retry.*", "backup.*", "restore_drill.*", "verification.*", "project.*",
  "discussion.*", "design_review.*", "workspace.*", "codegen.*", "delivery_pilot.*", "acceptance.*",
  "qa_evidence.*", "delivery_package.*", "acceptance_gate.*", "handoff.*", "backup_dr.*",
  "restore.*", "dr.*", "operator_action.*", "operator_review.*", "verification_rerun.*"]

/-- `s.strip()` -/
def stripped (s : String) : String := String.ofList (strip s.toList)

/-- `_split_env_list(raw)` -/
def splitEnvList (raw : String) : List String :=
  ((raw.toList.splitOn ',').map strip).filterMap fun item =>
    if item = [] then none else some (String.ofList item)

/-- `_matches_pattern(event_type, pattern)` -/
def matchesPattern (eventType pattern : String) : Bool :=
  let p := strip pattern.toList
  if p = [] then false
  else if p = eventType.toList then true
  else if ['.', '*'].isSuffixOf p then p.dropLast.isPrefixOf eventType.toList
  else if ['*'].isSuffixOf p then p.dropLast.isPrefixOf eventType.toList
  else false

/-- `_list_match(event_type, patterns)` -/
def listMatch (eventType : String) (patterns : List String) : Bool :=
  patterns.any (matchesPattern eventType)

/-- `RealDeliveryPolicy` -/
structure RealDeliveryPolicy where
  realModeEnabled : Bool
  allowlist : List String
  denylist : List String
  allowMarker : Bool
  testChannelId : String
deriving Repr, DecidableEq

/-- The variables that are set, and their values. -/
abbrev Env := String → Option String

section Env

variable (u : Unicode) (env : Env)

/-- `xs or default` -/
def orList (xs default : List String) : List String := if xs = [] then default else xs

/-- `text.strip().lower()` is the literal. -/
def reads (text literal : String) : Bool := u.lower (strip text.toList) == literal.toList

/-- `(env.get(name, default) or default)` -/
def envOr (name default : String) : String :=
  let value := (env name).getD default
  if value = "" then default else value

/-- `load_policy_from_env(env, real_mode_enabled=…)` -/
def loadPolicyFromEnv (realModeEnabled : Option Bool) : RealDeliveryPolicy :=
  let testChannel := stripped ((env "DISCORD_TEST_CHANNEL_ID").getD "")
  { realModeEnabled := realModeEnabled.getD <|
      stripped ((env "DISCORD_BOT_TOKEN").getD "") != "" && testChannel != "" &&
        reads u (envOr env "RUN_REAL_DISCORD_TEST" "false") "true"
    allowlist := orList (splitEnvList ((env "REAL_DISCORD_ALLOWLIST").getD ""))
      defaultRealDeliveryAllowlist
    denylist := orList (splitEnvList ((env "REAL_DISCORD_DENYLIST").getD ""))
      defaultRealDeliveryDenylist
    allowMarker := !reads u ((env "REAL_DISCORD_ALLOW_MARKER").getD "true") "false"
    testChannelId := testChannel }

end Env

/-! ## One payload -/

/-- The `decision` of a decision. -/
inductive Decision where
  | simulated
  | realAllowed
  | realBlocked
  | skipped
deriving Repr, DecidableEq

def Decision.text : Decision → String
  | .simulated => "simulated"
  | .realAllowed => "real_allowed"
  | .realBlocked => "real_blocked"
  | .skipped => "skipped"

/-- The `reason` of a decision. -/
inductive Reason where
  | empty
  | realModeDisabled
  | missingMarker
  | eventNotAllowed
  | eventDenied
  | wrongChannel
  | productionExecuted
  | tokenMissing
  | clientCannotDeliver
deriving Repr, DecidableEq

def Reason.text : Reason → String
  | .empty => ""
  | .realModeDisabled => "real_mode_disabled"
  | .missingMarker => "missing_real_delivery_marker"
  | .eventNotAllowed => "event_type_not_allowed"
  | .eventDenied => "event_type_denied"
  | .wrongChannel => "wrong_channel"
  | .productionExecuted => "production_executed_not_false"
  | .tokenMissing => "token_missing"
  | .clientCannotDeliver => "client_cannot_deliver"

/-- `RealDeliveryDecision` -/
structure RealDeliveryDecision where
  decision : Decision
  reason : Reason
  eventType : String
  targetChannel : String
  sandbox : Bool
  externalSent : Bool
deriving Repr, DecidableEq

/-- A dictionary of `stream.notifications`. -/
abbrev Payload := List (String × Value)

/-- The value is `True` itself. -/
def isTrue : Option Value → Bool
  | some (.bool b) => b
  | _ => false

/-- `_has_marker(payload)` -/
def hasMarker (payload : Payload) : Bool :=
  match field? payload "metadata" with
  | some (.obj metadata) =>
    isTrue (field? metadata "real_delivery") || isTrue (field? payload "real_delivery")
  | _ => isTrue (field? payload "real_delivery")

section Classify

variable (rt : Runtime) (u : Unicode)

/-- `True`, or a text that reads so. -/
def assertsTrue : Option Value → Bool
  | some (.bool b) => b
  | some (.str s) => reads u s "true"
  | _ => false

/-- `_production_executed_is_false(payload)` -/
def productionExecutedIsFalse (payload : Payload) : Bool :=
  let ofMetadata := match field? payload "metadata" with
    | some (.obj metadata) => field? metadata "production_executed"
    | _ => none
  !assertsTrue u ofMetadata && !assertsTrue u (field? payload "production_executed")

/-- `str(payload.get(name) or payload.get(other) or default)` -/
def textOf (payload : Payload) (name other default : String) : String :=
  rt.text (orElse (field? payload name) (orElse (field? payload other) (.str default)))

/-- The event type that the policy reads. -/
def eventTypeOf (payload : Payload) : String := stripped (textOf rt payload "event_type" "event" "")

/-- The channel that a payload asks for. -/
def targetOf (payload : Payload) : String :=
  stripped (textOf rt payload "target_channel" "channel_id" "")

/-- `classify_real_delivery(payload, policy)` -/
def classifyRealDelivery (payload : Payload) (policy : RealDeliveryPolicy) :
    RealDeliveryDecision :=
  let eventType := eventTypeOf rt payload
  let blocked (reason : Reason) : RealDeliveryDecision :=
    ⟨.realBlocked, reason, eventType, policy.testChannelId, false, false⟩
  if !policy.realModeEnabled then
    ⟨.simulated, .realModeDisabled, eventType, "sandbox-channel", true, false⟩
  else if policy.testChannelId = "" then
    ⟨.skipped, .tokenMissing, eventType, "sandbox-channel", true, false⟩
  else if targetOf rt payload ≠ "" ∧ targetOf rt payload ≠ policy.testChannelId then
    blocked .wrongChannel
  else if !productionExecutedIsFalse u payload then blocked .productionExecuted
  else if listMatch eventType policy.denylist then blocked .eventDenied
  else if listMatch eventType policy.allowlist || policy.allowMarker && hasMarker payload then
    ⟨.realAllowed, .empty, eventType, policy.testChannelId, false, false⟩
  else blocked (if policy.allowMarker then .missingMarker else .eventNotAllowed)

end Classify

/-! ## What the policy lets through -/

/-- A pattern is an event type, or the start of one and a star. -/
def Covers (pattern eventType : String) : Prop :=
  strip pattern.toList ≠ [] ∧
    (strip pattern.toList = eventType.toList ∨
      ∃ start, strip pattern.toList = start ++ ['*'] ∧ start <+: eventType.toList)

/-- The star at the end of a pattern is the same whatever stands before it. -/
theorem matchesPattern_iff {eventType pattern : String} :
    matchesPattern eventType pattern = true ↔ Covers pattern eventType := by
  unfold matchesPattern Covers
  generalize strip pattern.toList = p
  simp only
  by_cases hnil : p = []
  · simp [hnil]
  rw [if_neg hnil]
  by_cases heq : p = eventType.toList
  · simp [heq, heq ▸ hnil]
  rw [if_neg heq]
  -- the pattern ends with a star or it covers nothing else
  by_cases hstar : ['*'] <:+ p
  · obtain ⟨start, hstart⟩ := hstar
    have hlast : p.dropLast = start := by rw [← hstart, List.dropLast_concat]
    have hcover : (∃ s, p = s ++ ['*'] ∧ s <+: eventType.toList) ↔ start <+: eventType.toList := by
      constructor
      · rintro ⟨s, hs, hprefix⟩
        rw [← hstart, List.append_left_inj] at hs
        rwa [hs]
      · intro hprefix
        exact ⟨start, hstart.symm, hprefix⟩
    have hend : ['*'].isSuffixOf p = true := List.isSuffixOf_iff_suffix.mpr ⟨start, hstart⟩
    simp [hend, hcover, hlast, heq, hnil]
  · have hend : ['*'].isSuffixOf p = false := by
      rw [← Bool.not_eq_true, List.isSuffixOf_iff_suffix]
      exact hstar
    have hdot : ['.', '*'].isSuffixOf p = false := by
      rw [← Bool.not_eq_true, List.isSuffixOf_iff_suffix]
      intro h
      exact hstar ((List.suffix_cons '.' ['*']).trans h)
    have hcover : ¬∃ s, p = s ++ ['*'] ∧ s <+: eventType.toList := by
      rintro ⟨s, hs, -⟩
      exact hstar ⟨s, hs.symm⟩
    simp [hend, hdot, hcover, heq]

theorem listMatch_iff {eventType : String} {patterns : List String} :
    listMatch eventType patterns = true ↔ ∃ p ∈ patterns, Covers p eventType := by
  unfold listMatch
  simp only [List.any_eq_true, matchesPattern_iff]

section Sendable

variable (rt : Runtime) (u : Unicode)

/-- What the policy asks of a payload that is to leave the platform. -/
structure Permitted (policy : RealDeliveryPolicy) (payload : Payload) : Prop where
  mode : policy.realModeEnabled = true
  channel : policy.testChannelId ≠ ""
  target : targetOf rt payload = "" ∨ targetOf rt payload = policy.testChannelId
  production : productionExecutedIsFalse u payload = true
  notDenied : ∀ p ∈ policy.denylist, ¬Covers p (eventTypeOf rt payload)
  optedIn : (∃ p ∈ policy.allowlist, Covers p (eventTypeOf rt payload)) ∨
    policy.allowMarker = true ∧ hasMarker payload = true

variable {rt u} {payload : Payload} {policy : RealDeliveryPolicy}

theorem classify_realAllowed_iff :
    (classifyRealDelivery rt u payload policy).decision = .realAllowed ↔
      Permitted rt u policy payload := by
  have hdenied : listMatch (eventTypeOf rt payload) policy.denylist = true ↔
      ∃ p ∈ policy.denylist, Covers p (eventTypeOf rt payload) := listMatch_iff
  have hallowed : listMatch (eventTypeOf rt payload) policy.allowlist = true ↔
      ∃ p ∈ policy.allowlist, Covers p (eventTypeOf rt payload) := listMatch_iff
  have hparts : Permitted rt u policy payload ↔
      policy.realModeEnabled = true ∧ policy.testChannelId ≠ "" ∧
      ¬(targetOf rt payload ≠ "" ∧ targetOf rt payload ≠ policy.testChannelId) ∧
      productionExecutedIsFalse u payload = true ∧
      ¬listMatch (eventTypeOf rt payload) policy.denylist = true ∧
      (listMatch (eventTypeOf rt payload) policy.allowlist ||
        policy.allowMarker && hasMarker payload) = true := by
    rw [Bool.or_eq_true, Bool.and_eq_true, hdenied, hallowed, not_and_not_right]
    constructor
    · intro h
      refine ⟨h.mode, h.channel, ?_, h.production, ?_, h.optedIn⟩
      · exact fun hne => h.target.resolve_left hne
      · rintro ⟨p, hp, hcovers⟩
        exact h.notDenied p hp hcovers
    · rintro ⟨hmode, hchannel, htarget, hproduction, hnot, hin⟩
      refine ⟨hmode, hchannel, ?_, hproduction, ?_, hin⟩
      · exact or_iff_not_imp_left.mpr htarget
      · exact fun p hp hcovers => hnot ⟨p, hp, hcovers⟩
  rw [hparts]
  unfold classifyRealDelivery
  -- the checks, in the order of the source
  by_cases hmode : policy.realModeEnabled = true
  swap
  · simp [hmode]
  by_cases hchannel : policy.testChannelId = ""
  · simp [hmode, hchannel]
  by_cases htarget : targetOf rt payload ≠ "" ∧ targetOf rt payload ≠ policy.testChannelId
  · simp [hmode, hchannel, htarget]
  by_cases hproduction : productionExecutedIsFalse u payload = true
  swap
  · simp [hmode, hchannel, htarget, hproduction]
  by_cases hdeny : listMatch (eventTypeOf rt payload) policy.denylist = true
  · simp [hmode, hchannel, htarget, hproduction, hdeny]
  by_cases hin : (listMatch (eventTypeOf rt payload) policy.allowlist ||
      policy.allowMarker && hasMarker payload) = true
  · simp only [hmode, hchannel, htarget, hproduction, hdeny, hin]
    simp [hchannel]
  · simp only [hmode, hchannel, htarget, hproduction, hdeny, hin]
    simp

end Sendable

end AiAgentsSwd.Notifications
