import AiAgentsSwd.ApprovalPolicy.PathPolicy
import AiAgentsSwd.Text.Codecs
import AiAgentsSwd.Text.Decimal
import AiAgentsSwd.Text.Segments

/-!
# Operator.SessionTokens — the tokens of a session

Model of `issue_session`, `verify_session`, `issue_csrf` and `verify_csrf` of
`shared/sdk/operator_actions`, under one signing key: `mac` is HMAC-SHA256 under that key and
`sha256` the digest of a token. Both kinds of token sign texts joined by bars, and a verifier
splits what it reads at every bar.

A history is the calls that issued tokens; a presented token is `NotForged` where a verifier that
finds its signature right finds a message that was signed. Then a session token has three fields
and what a CSRF token signs has two, so neither passes for the other, and nothing passes that was
not issued. An identity key with a bar gives a fourth field: its sessions never verify
(`sessions_law_iff`).
-/

namespace AiAgentsSwd.Operator

open ApprovalPolicy (isSpace strip)
open Text (decodeUtf8 decodeUtf8_encodeUtf8 encodeUtf8 encodeUtf8_append encodeUtf8_inj hexdigest
  intOf intOf_strOf strOf)
open Text.Base64 (b64 b64_plain unb64 unb64_b64)

/-! ## Tokens -/

/-- `f"{_b64(payload)}.{_b64(sig)}"` -/
def joinToken (payload sig : List UInt8) : String :=
  String.ofList (b64 payload ++ '.' :: b64 sig)

/-- `token.split(".", 1)`, both parts decoded: none where a verifier returns before it compares
signatures. -/
def readToken (token : String) : Option (List UInt8 × List UInt8) :=
  if token = "" ∨ '.' ∉ token.toList then none
  else do
    let payload ← unb64 (token.toList.takeWhile (· ≠ '.'))
    let sig ← unb64 ((token.toList.dropWhile (· ≠ '.')).drop 1)
    return (payload, sig)

/-- `payload.decode("utf-8").split("|")` -/
def fields (payload : List UInt8) : Option (List (List Char)) :=
  (decodeUtf8 payload).map fun text => text.toList.splitOn '|'

/-- `int(field)` -/
def int (field : List Char) : Option Int := intOf (strip field)

/-- What `verify_session` returns. -/
structure Claims where
  identityKey : String
  issuedAt : Int
  expiresAt : Int
deriving Repr, DecidableEq

variable (mac sha256 : List UInt8 → List UInt8)

/-- `session_hash(token)` -/
def sessionHash (token : String) : String := hexdigest (sha256 (encodeUtf8 token))

/-- `f"{identity_key}|{issued}|{expires}"` -/
def sessionPayload (identityKey : String) (issued expires : Int) : String :=
  String.ofList (identityKey.toList ++ '|' :: (strOf issued ++ '|' :: strOf expires))

/-- `issue_session(identity_key, ttl_seconds, now)` -/
def issueSession (identityKey : String) (ttlSeconds now : Int) : String × Int × Int :=
  let payload := encodeUtf8 (sessionPayload identityKey now (now + ttlSeconds))
  (joinToken payload (mac payload), now, now + ttlSeconds)

/-- `verify_session(token, now)` -/
def verifySession (token : String) (now : Int) : Option Claims :=
  match readToken token with
  | none => none
  | some (payload, sig) =>
    if sig ≠ mac payload then none
    else match fields payload with
      | some [identityKey, issued, expires] => do
        let issued ← int issued
        let expires ← int expires
        if expires ≤ now then none
        else return { identityKey := String.ofList identityKey, issuedAt := issued,
                      expiresAt := expires }
      -- too many values to unpack, or too few, or no text at all
      | _ => none

/-- `session_token_hash[:16]` -/
def hashPrefix (sessionTokenHash : String) : List Char := sessionTokenHash.toList.take 16

/-- `f"{session_token_hash[:16]}|{issued}"` -/
def csrfPayload (sessionTokenHash : String) (issued : Int) : String :=
  String.ofList (hashPrefix sessionTokenHash ++ '|' :: strOf issued)

/-- `b"csrf:" + payload` -/
def csrfMessage (payload : List UInt8) : List UInt8 := encodeUtf8 "csrf:" ++ payload

/-- `issue_csrf(session_token_hash, now)` -/
def issueCsrf (sessionTokenHash : String) (now : Int) : String :=
  let payload := encodeUtf8 (csrfPayload sessionTokenHash now)
  joinToken payload (mac (csrfMessage payload))

/-- `verify_csrf(token, session_token_hash, now, ttl)` -/
def verifyCsrf (token sessionTokenHash : String) (now ttl : Int) : Bool :=
  if sessionTokenHash = "" then false
  else match readToken token with
    | none => false
    | some (payload, sig) =>
      if sig ≠ mac (csrfMessage payload) then false
      else match fields payload with
        | some [bound, issued] => match int issued with
          | none => false
          | some issued =>
            if bound ≠ hashPrefix sessionTokenHash then false else decide (now < issued + ttl)
        | _ => false

/-! ## Histories -/

/-- A call that issues a token: `issue_session`, or `issue_csrf` for the hash of a token. -/
inductive Call where
  | session (identityKey : String) (ttlSeconds now : Int)
  | csrf (token : String) (now : Int)
deriving Repr, DecidableEq

namespace Call

/-- The payload of the token. -/
def payload : Call → List UInt8
  | session identityKey ttlSeconds now =>
    encodeUtf8 (sessionPayload identityKey now (now + ttlSeconds))
  | csrf token now => encodeUtf8 (csrfPayload (sessionHash sha256 token) now)

/-- What the key signs for it. -/
def message : Call → List UInt8
  | session identityKey ttlSeconds now =>
    encodeUtf8 (sessionPayload identityKey now (now + ttlSeconds))
  | csrf token now => csrfMessage (encodeUtf8 (csrfPayload (sessionHash sha256 token) now))

/-- The token. -/
def token : Call → String
  | session identityKey ttlSeconds now => (issueSession mac identityKey ttlSeconds now).1
  | csrf token now => issueCsrf mac (sessionHash sha256 token) now

end Call

/-- Of what is signed with the key, a presented token has a signature only for what was signed: the
two messages are those that the two verifiers look at. -/
def NotForged (history : List Call) (token : String) : Prop :=
  ∀ payload sig, readToken token = some (payload, sig) →
    ∀ message, message = payload ∨ message = csrfMessage payload → sig = mac message →
      ∃ call ∈ history, call.message sha256 = message

/-- What the tokens of a history are good for. -/
structure Law (history : List Call) : Prop where
  /-- A session verifies to what it was issued with, until it expires. -/
  verifies : ∀ identityKey ttlSeconds issued,
    Call.session identityKey ttlSeconds issued ∈ history → ∀ now < issued + ttlSeconds,
      verifySession mac (issueSession mac identityKey ttlSeconds issued).1 now =
        some ⟨identityKey, issued, issued + ttlSeconds⟩
  /-- `verify_session` accepts the payloads of sessions only. -/
  session : ∀ token, NotForged mac sha256 history token → ∀ now claims,
    verifySession mac token now = some claims →
      ∃ identityKey ttlSeconds issued, Call.session identityKey ttlSeconds issued ∈ history ∧
        (readToken token).map Prod.fst =
          some ((Call.session identityKey ttlSeconds issued).payload sha256) ∧
        claims = ⟨identityKey, issued, issued + ttlSeconds⟩ ∧ now < issued + ttlSeconds
  /-- `verify_csrf` accepts the payloads of CSRF tokens only, issued for a session with the same
  prefix, and until they expire. -/
  csrf : ∀ token, NotForged mac sha256 history token → ∀ sessionTokenHash now ttl,
    verifyCsrf mac token sessionTokenHash now ttl = true →
      ∃ sessionToken issued, Call.csrf sessionToken issued ∈ history ∧
        (readToken token).map Prod.fst = some ((Call.csrf sessionToken issued).payload sha256) ∧
        hashPrefix (sessionHash sha256 sessionToken) = hashPrefix sessionTokenHash ∧
        now < issued + ttl
  /-- No CSRF token is a session token. -/
  csrfNotSession : ∀ sessionToken issued, Call.csrf sessionToken issued ∈ history →
    ∀ now, verifySession mac ((Call.csrf sessionToken issued).token mac sha256) now = none
  /-- No session token is a CSRF token. -/
  sessionNotCsrf : ∀ identityKey ttlSeconds issued,
    Call.session identityKey ttlSeconds issued ∈ history → ∀ sessionTokenHash now ttl,
      verifyCsrf mac ((Call.session identityKey ttlSeconds issued).token mac sha256)
        sessionTokenHash now ttl = false

/-! ## Fields -/

variable {mac sha256} {payload sig : List UInt8}

theorem takeWhile_plain {s t : List Char} (h : ∀ c ∈ s, c ≠ '.') :
    (s ++ '.' :: t).takeWhile (· ≠ '.') = s ∧ (s ++ '.' :: t).dropWhile (· ≠ '.') = '.' :: t := by
  induction s with
  | nil => exact ⟨rfl, rfl⟩
  | cons c s ih =>
    rw [List.forall_mem_cons] at h
    rcases ih h.2 with ⟨htake, hdrop⟩
    constructor
    · rw [List.cons_append, List.takeWhile_cons_of_pos (by simp [h.1]), htake]
    · rw [List.cons_append, List.dropWhile_cons_of_pos (by simp [h.1]), hdrop]

theorem readToken_joinToken (payload sig : List UInt8) :
    readToken (joinToken payload sig) = some (payload, sig) := by
  have htext : (joinToken payload sig).toList = b64 payload ++ '.' :: b64 sig :=
    String.toList_ofList
  have hopen : ¬ (joinToken payload sig = "" ∨ '.' ∉ (joinToken payload sig).toList) := by
    rintro (hempty | hdot)
    · rw [hempty] at htext
      simp at htext
    · rw [htext] at hdot
      simp at hdot
  have hplain : ∀ c ∈ b64 payload, c ≠ '.' := fun c hc => (b64_plain hc).2.1
  have hsplit := @takeWhile_plain (b64 payload) (b64 sig) hplain
  rw [readToken, if_neg hopen, htext, hsplit.1, hsplit.2, unb64_b64, List.drop_one, List.tail_cons,
    unb64_b64]
  rfl

theorem fields_encodeUtf8 (text : String) :
    fields (encodeUtf8 text) = some (text.toList.splitOn '|') := by
  rw [fields, decodeUtf8_encodeUtf8]
  rfl

/-- A payload that decodes is the encoding of its text. -/
theorem exists_of_fields {parts : List (List Char)} (h : fields payload = some parts) :
    ∃ text, payload = encodeUtf8 text ∧ text.toList.splitOn '|' = parts := by
  rw [fields, Option.map_eq_some_iff] at h
  rcases h with ⟨text, hdecode, hparts⟩
  refine ⟨text, ?_, hparts⟩
  unfold decodeUtf8 String.fromUTF8? at hdecode
  split at hdecode
  · rw [← Option.some.inj hdecode]
    rfl
  · cases hdecode

/-- What is written of an integer has neither a bar nor white space. -/
theorem strOf_spec {i : Int} {c : Char} (h : c ∈ strOf i) : c ≠ '|' ∧ isSpace c = false := by
  have hplain : ∀ c ∈ '-' :: Text.asciiDigits, c ≠ '|' ∧ isSpace c = false :=
    List.all_iff_forall_prop.mp (by decide)
  exact hplain c (List.mem_cons.mpr (Text.mem_strOf h))

theorem int_strOf (i : Int) : int (strOf i) = some i := by
  have hspace : ∀ s : List Char, (∀ c ∈ s, isSpace c = false) → s.dropWhile isSpace = s := by
    intro s hs
    cases s with
    | nil => rfl
    | cons c s =>
      rw [List.dropWhile_cons_of_neg]
      rw [hs c List.mem_cons_self]
      exact Bool.false_ne_true
  have hstrip : strip (strOf i) = strOf i := by
    unfold strip
    rw [hspace _ fun c hc => (strOf_spec hc).2,
      hspace _ fun c hc => (strOf_spec (List.mem_reverse.mp hc)).2, List.reverse_reverse]
  rw [int, hstrip, intOf_strOf]

theorem splitOn_strOf (i : Int) : (strOf i).splitOn '|' = [strOf i] :=
  List.splitOn_eq_singleton fun h => (strOf_spec h).1 rfl

/-- The identity key takes as many fields as its bars make of it, and the times take two. -/
theorem splitOn_sessionPayload (identityKey : String) (issued expires : Int) :
    (sessionPayload identityKey issued expires).toList.splitOn '|' =
      identityKey.toList.splitOn '|' ++ [strOf issued, strOf expires] := by
  rw [sessionPayload, String.toList_ofList, List.splitOn_append_cons_self,
    List.splitOn_append_cons_self, splitOn_strOf, splitOn_strOf]
  rfl

/-- A session hash is hexadecimal digits. -/
theorem bar_not_mem_hashPrefix (token : String) : '|' ∉ hashPrefix (sessionHash sha256 token) := by
  intro h
  have hhex := Text.mem_hexdigest (List.mem_of_mem_take h)
  revert hhex
  decide

theorem splitOn_csrfPayload (token : String) (issued : Int) :
    (csrfPayload (sessionHash sha256 token) issued).toList.splitOn '|' =
      [hashPrefix (sessionHash sha256 token), strOf issued] := by
  rw [csrfPayload, String.toList_ofList, List.splitOn_append_cons_self, splitOn_strOf,
    List.splitOn_eq_singleton (bar_not_mem_hashPrefix token)]
  rfl

/-- A prefix without a bar makes no field more. -/
theorem length_splitOn_csrf (text : String) :
    (("csrf:" ++ text).toList.splitOn '|').length = (text.toList.splitOn '|').length := by
  rw [Text.length_splitOn, Text.length_splitOn, String.toList_append, List.count_append]
  have hnone : List.count '|' "csrf:".toList = 0 := by
    decide
  omega

theorem csrfMessage_encodeUtf8 (text : String) :
    csrfMessage (encodeUtf8 text) = encodeUtf8 ("csrf:" ++ text) :=
  (encodeUtf8_append "csrf:" text).symm

/-! ## The verifiers -/

variable {token identityKey : String} {now issued expires : Int}

/-- Three fields make a session, until it expires. -/
theorem verifySession_eq_some {claims : Claims} (h : verifySession mac token now = some claims) :
    ∃ payload, readToken token = some (payload, mac payload) ∧
      ∃ key issuedField expiresField, fields payload = some [key, issuedField, expiresField] ∧
        ∃ issued expires, int issuedField = some issued ∧ int expiresField = some expires ∧
          now < expires ∧ claims = ⟨String.ofList key, issued, expires⟩ := by
  unfold verifySession at h
  split at h
  · cases h
  case h_2 payload sig hread =>
    split at h
    · cases h
    case isFalse hsig =>
      rw [ne_eq, not_not] at hsig
      rw [hsig] at hread
      refine ⟨payload, hread, ?_⟩
      split at h
      case h_1 key issuedField expiresField hfields =>
        refine ⟨key, issuedField, expiresField, hfields, ?_⟩
        rw [Option.bind_eq_bind, Option.bind_eq_some_iff] at h
        rcases h with ⟨issued, hissued, h⟩
        rw [Option.bind_eq_some_iff] at h
        rcases h with ⟨expires, hexpires, h⟩
        split at h
        · cases h
        case isFalse hlive =>
          exact ⟨issued, expires, hissued, hexpires, by omega, (Option.some.inj h).symm⟩
      case h_2 => cases h

/-- Two fields, the first of them the prefix of the hash, make a CSRF token until it expires. -/
theorem verifyCsrf_eq_true {sessionTokenHash : String} {ttl : Int}
    (h : verifyCsrf mac token sessionTokenHash now ttl = true) :
    ∃ payload, readToken token = some (payload, mac (csrfMessage payload)) ∧
      ∃ issuedField, fields payload = some [hashPrefix sessionTokenHash, issuedField] ∧
        ∃ issued, int issuedField = some issued ∧ now < issued + ttl := by
  unfold verifyCsrf at h
  split at h
  · cases h
  split at h
  · cases h
  case h_2 payload sig hread =>
    split at h
    · cases h
    case isFalse hsig =>
      rw [ne_eq, not_not] at hsig
      rw [hsig] at hread
      refine ⟨payload, hread, ?_⟩
      split at h
      case h_1 bound issuedField hfields =>
        split at h
        · cases h
        case h_2 issued hissued =>
          split at h
          · cases h
          case isFalse hbound =>
            rw [ne_eq, not_not] at hbound
            rw [hbound] at hfields
            exact ⟨issuedField, hfields, issued, hissued, of_decide_eq_true h⟩
      case h_2 => cases h

/-- A session whose identity key has no bar verifies. -/
theorem verifySession_issueSession (hbar : '|' ∉ identityKey.toList) {ttlSeconds : Int}
    (hlive : now < issued + ttlSeconds) :
    verifySession mac (issueSession mac identityKey ttlSeconds issued).1 now =
      some ⟨identityKey, issued, issued + ttlSeconds⟩ := by
  have hread := readToken_joinToken
    (encodeUtf8 (sessionPayload identityKey issued (issued + ttlSeconds)))
    (mac (encodeUtf8 (sessionPayload identityKey issued (issued + ttlSeconds))))
  have hfields := fields_encodeUtf8 (sessionPayload identityKey issued (issued + ttlSeconds))
  rw [splitOn_sessionPayload, List.splitOn_eq_singleton hbar, List.singleton_append] at hfields
  unfold verifySession issueSession
  simp only [hread, ne_eq, not_true_eq_false, if_false, hfields, int_strOf]
  show (if issued + ttlSeconds ≤ now then none
    else some (Claims.mk (String.ofList identityKey.toList) issued (issued + ttlSeconds))) = _
  rw [if_neg (by omega), String.ofList_toList]

/-- A payload of a session is read back only where its identity key has no bar. -/
theorem fields_session {key issuedField expiresField : List Char}
    (h : fields (encodeUtf8 (sessionPayload identityKey issued expires)) =
      some [key, issuedField, expiresField]) :
    '|' ∉ identityKey.toList ∧ key = identityKey.toList ∧ issuedField = strOf issued ∧
      expiresField = strOf expires := by
  rw [fields_encodeUtf8, splitOn_sessionPayload] at h
  have hparts := Option.some.inj h
  have hlength := congrArg List.length hparts
  rw [List.length_append, Text.length_splitOn] at hlength
  have hbar : '|' ∉ identityKey.toList := by
    rw [← List.count_eq_zero]
    simp only [List.length_cons, List.length_nil] at hlength
    omega
  rw [List.splitOn_eq_singleton hbar, List.singleton_append] at hparts
  simp only [List.cons.injEq, and_true] at hparts
  exact ⟨hbar, hparts.1.symm, hparts.2.1.symm, hparts.2.2.symm⟩

/-- **A session with a bar in its identity key never verifies.** -/
theorem verifySession_of_bar (hbar : '|' ∈ identityKey.toList) (ttlSeconds : Int) :
    verifySession mac (issueSession mac identityKey ttlSeconds issued).1 now = none := by
  by_contra hne
  rcases Option.ne_none_iff_exists'.mp hne with ⟨claims, hclaims⟩
  rcases verifySession_eq_some hclaims with ⟨payload, hread, _, _, _, hfields, -⟩
  rw [issueSession, readToken_joinToken] at hread
  have hpayload : encodeUtf8 (sessionPayload identityKey issued (issued + ttlSeconds)) = payload :=
    (Prod.ext_iff.mp (Option.some.inj hread)).1
  rw [← hpayload] at hfields
  exact (fields_session hfields).1 hbar

/-! ## Histories -/

variable {history : List Call}

/-- What `verify_session` accepts was issued as a session. -/
theorem issued_of_verifySession (hforged : NotForged mac sha256 history token) {claims : Claims}
    (h : verifySession mac token now = some claims) :
    ∃ identityKey ttlSeconds issued, Call.session identityKey ttlSeconds issued ∈ history ∧
      (readToken token).map Prod.fst =
        some ((Call.session identityKey ttlSeconds issued).payload sha256) ∧
      claims = ⟨identityKey, issued, issued + ttlSeconds⟩ ∧ now < issued + ttlSeconds := by
  rcases verifySession_eq_some h with
    ⟨payload, hread, key, issuedField, expiresField, hfields, issued, expires, hissued, hexpires,
      hlive, rfl⟩
  rcases hforged payload (mac payload) hread payload (Or.inl rfl) rfl with ⟨call, hmem, hmessage⟩
  cases call with
  | session identityKey ttlSeconds now =>
    rw [← hmessage] at hfields
    rcases fields_session hfields with ⟨-, rfl, rfl, rfl⟩
    rw [int_strOf] at hissued hexpires
    obtain rfl := Option.some.inj hissued
    obtain rfl := Option.some.inj hexpires
    refine ⟨identityKey, ttlSeconds, now, hmem, ?_, ?_, hlive⟩
    · rw [hread, ← hmessage]
      rfl
    · rw [String.ofList_toList]
  | csrf token now =>
    -- what is signed for a CSRF token has two fields
    have hmsg : payload = encodeUtf8 ("csrf:" ++ csrfPayload (sessionHash sha256 token) now) := by
      rw [← hmessage, Call.message, csrfMessage_encodeUtf8]
    rw [hmsg, fields_encodeUtf8] at hfields
    have hlength := congrArg List.length (Option.some.inj hfields)
    rw [length_splitOn_csrf, splitOn_csrfPayload] at hlength
    simp at hlength

/-- What `verify_csrf` accepts was issued as a CSRF token. -/
theorem issued_of_verifyCsrf (hforged : NotForged mac sha256 history token)
    {sessionTokenHash : String} {ttl : Int}
    (h : verifyCsrf mac token sessionTokenHash now ttl = true) :
    ∃ sessionToken issued, Call.csrf sessionToken issued ∈ history ∧
      (readToken token).map Prod.fst = some ((Call.csrf sessionToken issued).payload sha256) ∧
      hashPrefix (sessionHash sha256 sessionToken) = hashPrefix sessionTokenHash ∧
      now < issued + ttl := by
  rcases verifyCsrf_eq_true h with ⟨payload, hread, issuedField, hfields, issued, hissued, hlive⟩
  rcases hforged payload _ hread (csrfMessage payload) (Or.inr rfl) rfl with ⟨call, hmem, hmessage⟩
  cases call with
  | session identityKey ttlSeconds now =>
    -- what is signed for a session has three fields at least, with the prefix or without it
    rcases exists_of_fields hfields with ⟨text, rfl, hparts⟩
    rw [csrfMessage_encodeUtf8] at hmessage
    have htext := encodeUtf8_inj hmessage
    have hlength := length_splitOn_csrf text
    rw [← htext, hparts, splitOn_sessionPayload, List.length_append, Text.length_splitOn] at hlength
    simp only [List.length_cons, List.length_nil] at hlength
    omega
  | csrf sessionToken now =>
    have hpayload := List.append_cancel_left hmessage
    rw [← hpayload, fields_encodeUtf8, splitOn_csrfPayload] at hfields
    have hparts := Option.some.inj hfields
    simp only [List.cons.injEq, and_true] at hparts
    rw [← hparts.2, int_strOf] at hissued
    obtain rfl := Option.some.inj hissued
    refine ⟨sessionToken, now, hmem, ?_, hparts.1, hlive⟩
    rw [hread, ← hpayload]
    rfl

/-- A CSRF token has a field too few for a session. -/
theorem verifySession_issueCsrf (sessionToken : String) :
    verifySession mac (issueCsrf mac (sessionHash sha256 sessionToken) issued) now = none := by
  by_contra hne
  rcases Option.ne_none_iff_exists'.mp hne with ⟨claims, hclaims⟩
  rcases verifySession_eq_some hclaims with ⟨payload, hread, _, _, _, hfields, -⟩
  rw [issueCsrf, readToken_joinToken] at hread
  have hpayload : encodeUtf8 (csrfPayload (sessionHash sha256 sessionToken) issued) = payload :=
    (Prod.ext_iff.mp (Option.some.inj hread)).1
  rw [← hpayload, fields_encodeUtf8, splitOn_csrfPayload] at hfields
  have hlength := congrArg List.length (Option.some.inj hfields)
  simp at hlength

/-- A session token has a field too many for a CSRF token. -/
theorem verifyCsrf_issueSession (ttlSeconds ttl : Int) (sessionTokenHash : String) :
    verifyCsrf mac (issueSession mac identityKey ttlSeconds issued).1 sessionTokenHash now ttl =
      false := by
  by_contra hne
  rcases verifyCsrf_eq_true (Bool.not_eq_false _ ▸ hne) with ⟨payload, hread, _, hfields, -⟩
  rw [issueSession, readToken_joinToken] at hread
  have hpayload : encodeUtf8 (sessionPayload identityKey issued (issued + ttlSeconds)) = payload :=
    (Prod.ext_iff.mp (Option.some.inj hread)).1
  rw [← hpayload, fields_encodeUtf8, splitOn_sessionPayload] at hfields
  have hlength := congrArg List.length (Option.some.inj hfields)
  rw [List.length_append, Text.length_splitOn] at hlength
  simp only [List.length_cons, List.length_nil] at hlength
  omega

/-- **The tokens of a history keep the law exactly when no identity key has a bar.** -/
theorem sessions_law_iff (mac sha256 : List UInt8 → List UInt8) (history : List Call) :
    Law mac sha256 history ↔ ∀ identityKey ttlSeconds issued,
      Call.session identityKey ttlSeconds issued ∈ history → '|' ∉ identityKey.toList := by
  constructor
  · intro hlaw identityKey ttlSeconds issued hmem hbar
    have hverifies := hlaw.verifies identityKey ttlSeconds issued hmem
      (issued + ttlSeconds - 1) (by omega)
    rw [verifySession_of_bar hbar] at hverifies
    cases hverifies
  · intro hbars
    exact {
      verifies := fun identityKey ttlSeconds issued hmem now hlive =>
        verifySession_issueSession (hbars identityKey ttlSeconds issued hmem) hlive
      session := fun token hforged now claims h => issued_of_verifySession hforged h
      csrf := fun token hforged sessionTokenHash now ttl h => issued_of_verifyCsrf hforged h
      csrfNotSession := fun sessionToken issued _ now => verifySession_issueCsrf sessionToken
      sessionNotCsrf := fun identityKey ttlSeconds issued _ sessionTokenHash now ttl =>
        verifyCsrf_issueSession ttlSeconds ttl sessionTokenHash }

/-- The session of `ops|alice`, as a login for tests issues it, is not one that verifies. -/
theorem sessions_law_fails :
    ¬ Law (fun message => message) (fun message => message) [.session "ops|alice" 1800 0] := by
  intro hlaw
  have hverifies := hlaw.verifies "ops|alice" 1800 0 List.mem_cons_self 0 (by omega)
  rw [verifySession_of_bar (by decide)] at hverifies
  cases hverifies

end AiAgentsSwd.Operator
