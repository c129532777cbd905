import Mathlib.Data.List.Basic

/-!
# The two signature checks

`verify_signature` checks the requests of a business service, and
`verify_runtime_tool` those of a runtime to the tools of the business; the first
raises a `SignatureError` for what it does not accept, the second a `ValueError`.
Both parse texts that the sender controls, and both let something else through:
comparing a signature that is not ASCII raises a `TypeError`, a key or a path that
has no UTF-8 encoding a `UnicodeEncodeError`, which is a `ValueError` and no
`SignatureError`; and `verify_runtime_tool` does not catch what a timestamp or a
rotation time outside of the calendar raises.

`verify_fails_closed_iff` has the exact condition of both. A text is a list of
code points here, since Python's may hold a surrogate; times are in microseconds.
-/

namespace AgentRuntime

/-- `str`. -/
abbrev PyStr := List Nat

def pyStr (text : String) : PyStr := text.toList.map Char.toNat

namespace SignatureCheck

/-- `text.isascii()`. -/
def isAscii (text : PyStr) : Bool := text.all fun c => decide (c < 128)

/-- `text.encode()` does not raise. -/
def encodable (text : PyStr) : Bool := text.all fun c => decide (c < 0xd800 ∨ 0xdfff < c)

/-- What is raised. -/
inductive SecurityException
  | signatureError (message : String)
  | valueError (message : String)
  | unicodeEncodeError
  | typeError
  | overflowError
  | osError

/-- What `datetime.fromtimestamp` raises outside of its range. -/
inductive TimeException
  | overflowError | osError | valueError
  deriving DecidableEq

/-- What `datetime.fromisoformat` reads; `utc` is none where `astimezone` raises
an `OverflowError`. -/
inductive IsoTime
  | naive
  | aware (utc : Option Int)

/-- What the code takes from Python. -/
structure PySecurity where
  lower : PyStr → PyStr
  upper : PyStr → PyStr
  /-- `int`; none where it raises a `ValueError`. -/
  parseInt : PyStr → Option Int
  /-- `datetime.fromtimestamp`, in UTC. -/
  fromTimestamp : Int → Except TimeException Int
  /-- `datetime.fromisoformat`; none where it raises a `ValueError`. -/
  fromIsoFormat : PyStr → Option IsoTime
  /-- `hashlib.sha256(body).hexdigest()`. -/
  sha256 : List UInt8 → PyStr
  /-- `hmac.new(key.encode(), message.encode(), sha256).hexdigest()`. -/
  hmac : PyStr → PyStr → PyStr
  /-- A digest is written in hexadecimal digits. -/
  hmac_ascii : ∀ key message, isAscii (hmac key message) = true

/-- A value of the configuration. -/
inductive ConfigValue
  | none
  | str (text : PyStr)
  | dict (fields : List (PyStr × ConfigValue))
  | other

/-- The clients or the runtimes that are configured. -/
abbrev Peers := List (PyStr × List (PyStr × ConfigValue))

/-- What the headers claim, all of it present and not empty. -/
structure Claim where
  identity : PyStr
  keyId : PyStr
  timestamp : PyStr
  signature : PyStr

/-- A header that is there and not empty. -/
def header (headers : List (PyStr × PyStr)) (name : String) : Option PyStr :=
  match headers.lookup (pyStr name) with
  | some value => if value.isEmpty then none else some value
  | none => none

/-- The claim of the headers, with the identity under the name. -/
def claimOf (headers : List (PyStr × PyStr)) (identity : String) : Option Claim :=
  match header headers identity, header headers "x-agent-key-id",
      header headers "x-agent-timestamp", header headers "x-agent-signature" with
  | some identity, some keyId, some timestamp, some signature =>
    some ⟨identity, keyId, timestamp, signature⟩
  | _, _, _, _ => none

/-- `datetime.fromtimestamp(int(timestamp), UTC)`. -/
def instantOf (py : PySecurity) (timestamp : PyStr) : Except TimeException Int :=
  match py.parseInt timestamp with
  | some n => py.fromTimestamp n
  | none => .error .valueError

/-- The instant is further from now than the tolerance, in seconds. -/
def expired (now instant tolerance : Int) : Bool :=
  decide (1000000 * tolerance < ((now - instant).natAbs : Int))

/-- The entry of a key in the configuration of a peer. -/
def keyEntry (peer : List (PyStr × ConfigValue)) (keyId : PyStr) : ConfigValue :=
  match (peer.lookup (pyStr "keys")).getD (.dict []) with
  | .dict keys => (keys.lookup keyId).getD .none
  | _ => .none

def newline : PyStr := [10]

/-- What is signed. -/
def canonical (py : PySecurity) (method path timestamp : PyStr) (body : List UInt8) : PyStr :=
  method ++ newline ++ path ++ newline ++ timestamp ++ newline ++ py.sha256 body

/-- The HMAC of a message; none where the message or the key has no encoding. -/
def hmacOf (py : PySecurity) (key message : PyStr) : Option PyStr :=
  if encodable message && encodable key then some (py.hmac key message) else none

/-- `hmac.compare_digest`; none where it raises a `TypeError`. -/
def compareDigest (a b : PyStr) : Option Bool :=
  if isAscii a && isAscii b then some (decide (a = b)) else none

/-! ## `verify_signature` -/

def unknownService : SecurityException := .signatureError "缺少或未知服务身份"

/-- A header of the other direction. -/
def hasRuntimeId (py : PySecurity) (headers : List (PyStr × PyStr)) : Bool :=
  headers.any fun h => decide (py.lower h.1 = pyStr "x-agent-runtime-id")

def serviceKey : ConfigValue → Option PyStr
  | .str key => some key
  | _ => none

/-- `verify_signature`, at the instant `now`. -/
def verifySignature (py : PySecurity) (now : Int) (headers : List (PyStr × PyStr))
    (method path : PyStr) (body : List UInt8) (clients : Peers) (tolerance : Int) :
    Except SecurityException PyStr :=
  if hasRuntimeId py headers then .error unknownService
  else
    match claimOf headers "x-agent-client-id" with
    | none => .error unknownService
    | some claim =>
      match clients.lookup claim.identity with
      | none => .error unknownService
      | some client =>
        match instantOf py claim.timestamp with
        | .error _ => .error (.signatureError "timestamp 无效")
        | .ok instant =>
          if expired now instant tolerance then .error (.signatureError "timestamp 已过期")
          else
            match serviceKey (keyEntry client claim.keyId) with
            | none => .error (.signatureError "签名密钥不可用")
            | some key =>
              match hmacOf py key (canonical py (py.upper method) path claim.timestamp body) with
              | none => .error .unicodeEncodeError
              | some expected =>
                match compareDigest expected claim.signature with
                | none => .error .typeError
                | some false => .error (.signatureError "签名不匹配")
                | some true => .ok claim.identity

/-! ## `verify_runtime_tool` -/

/-- `value.replace("Z", "+00:00")`. -/
def replaceZ (value : PyStr) : PyStr :=
  value.flatMap fun c => if c = 90 then pyStr "+00:00" else [c]

/-- `_parse_rotation_time`. -/
def parseRotationTime (py : PySecurity) : ConfigValue → Except SecurityException (Option Int)
  | .none => .ok none
  | .str value =>
    match py.fromIsoFormat (replaceZ value) with
    | none => .error (.valueError "Invalid isoformat string")
    | some .naive => .error (.valueError "rotation time timezone required")
    | some (.aware none) => .error .overflowError
    | some (.aware (some utc)) => .ok (some utc)
  | _ => .error (.valueError "rotation time invalid")

/-- The window of a key is open. -/
def inWindow (now : Int) (notBefore notAfter : Option Int) : Bool :=
  notBefore.all (fun t => decide (t ≤ now)) && notAfter.all fun t => decide (now ≤ t)

/-- The two times of a window. -/
def rotationWindow (py : PySecurity) (fields : List (PyStr × ConfigValue)) :
    Except SecurityException (Option Int × Option Int) := do
  let notBefore ← parseRotationTime py ((fields.lookup (pyStr "not_before")).getD .none)
  let notAfter ← parseRotationTime py ((fields.lookup (pyStr "not_after")).getD .none)
  pure (notBefore, notAfter)

/-- The secret of a key with a window, while it is open. -/
def windowedSecret (py : PySecurity) (now : Int) (fields : List (PyStr × ConfigValue)) :
    Except SecurityException (Option PyStr) :=
  match (fields.lookup (pyStr "secret")).getD .none with
  | .str secret =>
    match rotationWindow py fields with
    | .ok (notBefore, notAfter) =>
      .ok (if inWindow now notBefore notAfter then some secret else none)
    | .error (.valueError _) => .ok none
    | .error e => .error e
  | _ => .ok none

/-- `_active_key_secret`. -/
def activeKeySecret (py : PySecurity) (now : Int) :
    ConfigValue → Except SecurityException (Option PyStr)
  | .str secret => .ok (some secret)
  | .dict fields => windowedSecret py now fields
  | _ => .ok none

def toolSignatureInvalid : SecurityException := .valueError "Runtime 工具签名无效"

/-- `verify_runtime_tool`; the clock is read for the request at `now`, and for the
window of the key at `later`. -/
def verifyRuntimeTool (py : PySecurity) (now later : Int) (headers : List (PyStr × PyStr))
    (method path : PyStr) (body : List UInt8) (runtimes : Peers) (tolerance : Int) :
    Except SecurityException PyStr :=
  match claimOf headers "x-agent-runtime-id" with
  | none => .error (.valueError "缺少 Runtime 工具身份")
  | some claim =>
    match instantOf py claim.timestamp with
    | .error .valueError => .error (.valueError "Runtime 工具时间戳无效")
    | .error .overflowError => .error .overflowError
    | .error .osError => .error .osError
    | .ok instant =>
      -- raised inside of the `try`, and caught there
      if expired now instant tolerance then .error (.valueError "Runtime 工具时间戳无效")
      else
        match activeKeySecret py later
            (keyEntry ((runtimes.lookup claim.identity).getD []) claim.keyId) with
        | .error e => .error e
        | .ok none => .error toolSignatureInvalid
        | .ok (some secret) =>
          match hmacOf py secret (canonical py method path claim.timestamp body) with
          | none => .error .unicodeEncodeError
          | some expected =>
            match compareDigest claim.signature expected with
            | none => .error .typeError
            | some false => .error toolSignatureInvalid
            | some true => .ok claim.identity

/-! ## Failing closed -/

section

variable (py : PySecurity) (now later : Int) (headers : List (PyStr × PyStr))
  (method path : PyStr) (body : List UInt8) (peers : Peers) (tolerance : Int)

/-- The instant is within the tolerance, in seconds. -/
def Recent (now instant tolerance : Int) : Prop :=
  ((now - instant).natAbs : Int) ≤ 1000000 * tolerance

/-- The identity is the one claimed, the timestamp recent, and the signature the
HMAC of the request under the key configured for the identity. -/
def ServiceAuthentic (identity : PyStr) : Prop :=
  ∃ claim client instant key, claimOf headers "x-agent-client-id" = some claim
    ∧ claim.identity = identity
    ∧ peers.lookup identity = some client
    ∧ keyEntry client claim.keyId = .str key
    ∧ instantOf py claim.timestamp = .ok instant
    ∧ Recent now instant tolerance
    ∧ claim.signature = py.hmac key (canonical py (py.upper method) path claim.timestamp body)

/-- The key of an entry, inside of its window if it has one. -/
def KeyConfigured (secret : PyStr) (entry : ConfigValue) : Prop :=
  entry = .str secret
    ∨ ∃ fields notBefore notAfter, entry = .dict fields
      ∧ (fields.lookup (pyStr "secret")).getD .none = .str secret
      ∧ rotationWindow py fields = .ok (notBefore, notAfter)
      ∧ (∀ t, notBefore = some t → t ≤ later) ∧ ∀ t, notAfter = some t → later ≤ t

/-- The same for a runtime, whose key may have a window. -/
def ToolAuthentic (identity : PyStr) : Prop :=
  ∃ claim instant secret, claimOf headers "x-agent-runtime-id" = some claim
    ∧ claim.identity = identity
    ∧ KeyConfigured py later secret (keyEntry ((peers.lookup identity).getD []) claim.keyId)
    ∧ instantOf py claim.timestamp = .ok instant
    ∧ Recent now instant tolerance
    ∧ claim.signature = py.hmac secret (canonical py method path claim.timestamp body)

/-- `verify_signature` returns an identity that is authentic, or raises a
`SignatureError`. -/
def ServiceFailsClosed : Prop :=
  match verifySignature py now headers method path body peers tolerance with
  | .ok identity => ServiceAuthentic py now headers method path body peers tolerance identity
  | .error (.signatureError _) => True
  | .error _ => False

/-- `verify_runtime_tool` returns an identity that is authentic, or raises a
`ValueError`; a `UnicodeEncodeError` is one. -/
def ToolFailsClosed : Prop :=
  match verifyRuntimeTool py now later headers method path body peers tolerance with
  | .ok identity => ToolAuthentic py now later headers method path body peers tolerance identity
  | .error (.valueError _) => True
  | .error .unicodeEncodeError => True
  | .error _ => False

/-- The request comes as far as the signature, and the signature is not ASCII, or
what is signed or the key has no encoding. -/
def ServiceEscapes : Prop :=
  hasRuntimeId py headers = false
    ∧ ∃ claim client instant key, claimOf headers "x-agent-client-id" = some claim
      ∧ peers.lookup claim.identity = some client
      ∧ instantOf py claim.timestamp = .ok instant
      ∧ Recent now instant tolerance
      ∧ keyEntry client claim.keyId = .str key
      ∧ ((encodable (canonical py (py.upper method) path claim.timestamp body)
          && encodable key) = false
        ∨ isAscii claim.signature = false)

/-- The window of a key that has one holds a time outside of the calendar. -/
def WindowOverflows (entry : ConfigValue) : Prop :=
  ∃ fields secret, entry = .dict fields
    ∧ (fields.lookup (pyStr "secret")).getD .none = .str secret
    ∧ rotationWindow py fields = .error .overflowError

/-- The claim is complete, and its timestamp outside of the range of the platform;
or it is recent, and the window of the key overflows, or the key can be used and
the signature is not ASCII. -/
def ToolEscapes : Prop :=
  ∃ claim, claimOf headers "x-agent-runtime-id" = some claim
    ∧ (instantOf py claim.timestamp = .error .overflowError
      ∨ instantOf py claim.timestamp = .error .osError
      ∨ ∃ instant, instantOf py claim.timestamp = .ok instant ∧ Recent now instant tolerance
        ∧ (WindowOverflows py (keyEntry ((peers.lookup claim.identity).getD []) claim.keyId)
          ∨ ∃ secret,
            KeyConfigured py later secret
              (keyEntry ((peers.lookup claim.identity).getD []) claim.keyId)
            ∧ (encodable (canonical py method path claim.timestamp body)
                && encodable secret) = true
            ∧ isAscii claim.signature = false))

end

section

variable {py : PySecurity} {now later : Int} {headers : List (PyStr × PyStr)}
  {method path : PyStr} {body : List UInt8} {peers : Peers} {tolerance : Int}

theorem expired_eq_false {instant : Int} :
    expired now instant tolerance = false ↔ Recent now instant tolerance := by
  unfold expired Recent
  rw [decide_eq_false_iff_not, Int.not_lt]

theorem serviceKey_eq_some {entry : ConfigValue} {key : PyStr} :
    serviceKey entry = some key ↔ entry = .str key := by
  cases entry with
  | str text =>
    constructor
    · intro h
      rw [Option.some.inj h]
    · intro h
      cases h
      rfl
  | none | dict _ | other =>
    constructor
    · intro h
      cases h
    · intro h
      cases h

/-- The comparison with a digest, which is ASCII itself. -/
theorem compareDigest_none {a b : PyStr} (hb : isAscii b = true) :
    compareDigest a b = none ↔ isAscii a = false := by
  unfold compareDigest
  rw [hb, Bool.and_true]
  cases isAscii a with
  | true =>
    constructor
    · intro h
      cases h
    · intro h
      cases h
  | false => exact ⟨fun _ => rfl, fun _ => rfl⟩

theorem compareDigest_comm (a b : PyStr) : compareDigest a b = compareDigest b a := by
  unfold compareDigest
  rw [Bool.and_comm]
  split
  · rw [decide_eq_decide.mpr (eq_comm (a := a) (b := b))]
  · rfl

theorem eq_of_compareDigest {a b : PyStr} (h : compareDigest a b = some true) : a = b := by
  unfold compareDigest at h
  split at h
  · exact of_decide_eq_true (Option.some.inj h)
  · cases h

theorem hmacOf_none {key message : PyStr} :
    hmacOf py key message = none ↔ (encodable message && encodable key) = false := by
  unfold hmacOf
  cases encodable message && encodable key with
  | true =>
    constructor
    · intro h
      cases h
    · intro h
      cases h
  | false => exact ⟨fun _ => rfl, fun _ => rfl⟩

theorem hmacOf_some {key message digest : PyStr} (h : hmacOf py key message = some digest) :
    digest = py.hmac key message ∧ (encodable message && encodable key) = true := by
  unfold hmacOf at h
  split at h
  next hencodable => exact ⟨(Option.some.inj h).symm, hencodable⟩
  · cases h

theorem hmacOf_ascii {key message digest : PyStr} (h : hmacOf py key message = some digest) :
    isAscii digest = true := by
  rw [(hmacOf_some h).1]
  exact py.hmac_ascii _ _

/-! ### The service -/

/-- A request that escapes raises what is no `SignatureError`. -/
theorem verifySignature_escapes
    (h : ServiceEscapes py now headers method path body peers tolerance) :
    verifySignature py now headers method path body peers tolerance = .error .unicodeEncodeError
      ∨ verifySignature py now headers method path body peers tolerance = .error .typeError := by
  obtain ⟨hruntime, claim, client, instant, key, hclaim, hclient, hinstant, hrecent, hkey,
    hbad⟩ := h
  unfold verifySignature
  rw [hruntime, if_neg Bool.false_ne_true, hclaim]
  dsimp only
  rw [hclient]
  dsimp only
  rw [hinstant]
  dsimp only
  rw [expired_eq_false.mpr hrecent, if_neg Bool.false_ne_true, serviceKey_eq_some.mpr hkey]
  dsimp only
  cases hdigest : hmacOf py key (canonical py (py.upper method) path claim.timestamp body) with
  | none => exact .inl rfl
  | some expected =>
    obtain ⟨_, hencodable⟩ := hmacOf_some hdigest
    dsimp only
    rcases hbad with hbad | hbad
    · rw [hencodable] at hbad
      cases hbad
    · rw [compareDigest_comm, (compareDigest_none (hmacOf_ascii hdigest)).mpr hbad]
      exact .inr rfl

/-- All that `verify_signature` can do. -/
theorem verifySignature_cases :
    (∃ message, verifySignature py now headers method path body peers tolerance
        = .error (.signatureError message))
      ∨ ServiceEscapes py now headers method path body peers tolerance
      ∨ ∃ identity, verifySignature py now headers method path body peers tolerance = .ok identity
        ∧ ServiceAuthentic py now headers method path body peers tolerance identity := by
  unfold verifySignature
  cases hruntime : hasRuntimeId py headers with
  | true => exact .inl ⟨_, rfl⟩
  | false =>
    rw [if_neg Bool.false_ne_true]
    cases hclaim : claimOf headers "x-agent-client-id" with
    | none => exact .inl ⟨_, rfl⟩
    | some claim =>
      dsimp only
      cases hclient : peers.lookup claim.identity with
      | none => exact .inl ⟨_, rfl⟩
      | some client =>
        dsimp only
        cases hinstant : instantOf py claim.timestamp with
        | error e => exact .inl ⟨_, rfl⟩
        | ok instant =>
          dsimp only
          cases hexpired : expired now instant tolerance with
          | true => exact .inl ⟨_, rfl⟩
          | false =>
            have hrecent := expired_eq_false.mp hexpired
            rw [if_neg Bool.false_ne_true]
            cases hentry : serviceKey (keyEntry client claim.keyId) with
            | none => exact .inl ⟨_, rfl⟩
            | some key =>
              have hkey := serviceKey_eq_some.mp hentry
              -- from here on only the encoding and the comparison can go wrong
              have hescapes : (encodable (canonical py (py.upper method) path claim.timestamp body)
                  && encodable key) = false ∨ isAscii claim.signature = false →
                  ServiceEscapes py now headers method path body peers tolerance :=
                fun hbad => ⟨hruntime, claim, client, instant, key, hclaim, hclient, hinstant,
                  hrecent, hkey, hbad⟩
              dsimp only
              cases hdigest : hmacOf py key
                  (canonical py (py.upper method) path claim.timestamp body) with
              | none => exact .inr (.inl (hescapes (.inl (hmacOf_none.mp hdigest))))
              | some expected =>
                obtain ⟨hexpected, _⟩ := hmacOf_some hdigest
                have hascii := hmacOf_ascii hdigest
                dsimp only
                cases hequal : compareDigest expected claim.signature with
                | none =>
                  rw [compareDigest_comm] at hequal
                  exact .inr (.inl (hescapes (.inr ((compareDigest_none hascii).mp hequal))))
                | some equal =>
                  cases equal with
                  | false => exact .inl ⟨_, rfl⟩
                  | true =>
                    refine .inr (.inr ⟨claim.identity, rfl, claim, client, instant, key, hclaim,
                      rfl, hclient, hkey, hinstant, hrecent, ?_⟩)
                    rw [← eq_of_compareDigest hequal, hexpected]

theorem serviceFailsClosed_iff :
    ServiceFailsClosed py now headers method path body peers tolerance
      ↔ ¬ ServiceEscapes py now headers method path body peers tolerance := by
  unfold ServiceFailsClosed
  constructor
  · intro hclosed hescapes
    rcases verifySignature_escapes hescapes with hresult | hresult
    · rw [hresult] at hclosed
      exact hclosed
    · rw [hresult] at hclosed
      exact hclosed
  · intro hescapes
    rcases verifySignature_cases with ⟨message, hresult⟩ | h | ⟨identity, hresult, hauthentic⟩
    · rw [hresult]
      trivial
    · exact absurd h hescapes
    · rw [hresult]
      exact hauthentic

/-! ### The key of a runtime -/

theorem inWindow_iff {notBefore notAfter : Option Int} :
    inWindow later notBefore notAfter = true
      ↔ (∀ t, notBefore = some t → t ≤ later) ∧ ∀ t, notAfter = some t → later ≤ t := by
  unfold inWindow
  rw [Bool.and_eq_true]
  refine and_congr ?_ ?_
  · cases notBefore with
    | none => exact ⟨fun _ t h => absurd h (Option.some_ne_none t).symm, fun _ => rfl⟩
    | some t =>
      constructor
      · intro h t' heq
        cases heq
        exact of_decide_eq_true h
      · exact fun h => decide_eq_true (h t rfl)
  · cases notAfter with
    | none => exact ⟨fun _ t h => absurd h (Option.some_ne_none t).symm, fun _ => rfl⟩
    | some t =>
      constructor
      · intro h t' heq
        cases heq
        exact of_decide_eq_true h
      · exact fun h => decide_eq_true (h t rfl)

/-- An error of a window. -/
def WindowError (e : SecurityException) : Prop :=
  (∃ message, e = .valueError message) ∨ e = .overflowError

theorem parseRotationTime_error {value : ConfigValue} {e : SecurityException}
    (h : parseRotationTime py value = .error e) : WindowError e := by
  unfold parseRotationTime at h
  split at h
  · cases h
  · split at h
    · cases h
      exact .inl ⟨_, rfl⟩
    · cases h
      exact .inl ⟨_, rfl⟩
    · cases h
      exact .inr rfl
    · cases h
  · cases h
    exact .inl ⟨_, rfl⟩

theorem rotationWindow_error {fields : List (PyStr × ConfigValue)} {e : SecurityException}
    (h : rotationWindow py fields = .error e) : WindowError e := by
  unfold rotationWindow at h
  cases hbefore : parseRotationTime py ((fields.lookup (pyStr "not_before")).getD .none) with
  | error e' =>
    rw [hbefore] at h
    cases h
    exact parseRotationTime_error hbefore
  | ok notBefore =>
    cases hafter : parseRotationTime py ((fields.lookup (pyStr "not_after")).getD .none) with
    | error e' =>
      rw [hbefore, hafter] at h
      cases h
      exact parseRotationTime_error hafter
    | ok notAfter =>
      rw [hbefore, hafter] at h
      cases h

/-- All that `_active_key_secret` can do. -/
theorem activeKeySecret_cases (entry : ConfigValue) :
    activeKeySecret py later entry = .ok none
      ∨ (∃ secret, activeKeySecret py later entry = .ok (some secret)
        ∧ KeyConfigured py later secret entry)
      ∨ (activeKeySecret py later entry = .error .overflowError ∧ WindowOverflows py entry) := by
  cases entry with
  | none | other => exact .inl rfl
  | str secret => exact .inr (.inl ⟨secret, rfl, .inl rfl⟩)
  | dict fields =>
    unfold activeKeySecret windowedSecret
    dsimp only
    cases hsecret : (fields.lookup (pyStr "secret")).getD .none with
    | none | dict _ | other => exact .inl rfl
    | str secret =>
      dsimp only
      cases hwindow : rotationWindow py fields with
      | error e =>
        rcases rotationWindow_error hwindow with ⟨message, rfl⟩ | rfl
        · exact .inl rfl
        · exact .inr (.inr ⟨rfl, fields, secret, rfl, hsecret, hwindow⟩)
      | ok window =>
        obtain ⟨notBefore, notAfter⟩ := window
        dsimp only
        cases hopen : inWindow later notBefore notAfter with
        | false => exact .inl rfl
        | true =>
          obtain ⟨hbefore, hafter⟩ := inWindow_iff.mp hopen
          exact .inr (.inl ⟨secret, rfl, .inr ⟨fields, notBefore, notAfter, rfl, hsecret, hwindow,
            hbefore, hafter⟩⟩)

theorem activeKeySecret_configured {secret : PyStr} {entry : ConfigValue}
    (h : KeyConfigured py later secret entry) :
    activeKeySecret py later entry = .ok (some secret) := by
  rcases h with rfl | ⟨fields, notBefore, notAfter, rfl, hsecret, hwindow, hbefore, hafter⟩
  · rfl
  · show windowedSecret py later fields = _
    unfold windowedSecret
    rw [hsecret]
    dsimp only
    rw [hwindow]
    dsimp only
    rw [inWindow_iff.mpr ⟨hbefore, hafter⟩, if_pos rfl]

theorem activeKeySecret_overflows {entry : ConfigValue} (h : WindowOverflows py entry) :
    activeKeySecret py later entry = .error .overflowError := by
  obtain ⟨fields, secret, rfl, hsecret, hwindow⟩ := h
  show windowedSecret py later fields = _
  unfold windowedSecret
  rw [hsecret]
  dsimp only
  rw [hwindow]

/-! ### The tools -/

/-- A request that escapes raises what is no `ValueError`. -/
theorem verifyRuntimeTool_escapes
    (h : ToolEscapes py now later headers method path body peers tolerance) :
    ∃ e, verifyRuntimeTool py now later headers method path body peers tolerance = .error e
      ∧ (e = .overflowError ∨ e = .osError ∨ e = .typeError) := by
  obtain ⟨claim, hclaim, hinstant | hinstant | ⟨instant, hinstant, hrecent, hkey⟩⟩ := h
  · refine ⟨.overflowError, ?_, .inl rfl⟩
    unfold verifyRuntimeTool
    rw [hclaim]
    dsimp only
    rw [hinstant]
  · refine ⟨.osError, ?_, .inr (.inl rfl)⟩
    unfold verifyRuntimeTool
    rw [hclaim]
    dsimp only
    rw [hinstant]
  · unfold verifyRuntimeTool
    rw [hclaim]
    dsimp only
    rw [hinstant]
    dsimp only
    rw [expired_eq_false.mpr hrecent, if_neg Bool.false_ne_true]
    rcases hkey with hwindow | ⟨secret, hconfigured, hencodable, hascii⟩
    · rw [activeKeySecret_overflows hwindow]
      exact ⟨_, rfl, .inl rfl⟩
    · rw [activeKeySecret_configured hconfigured]
      dsimp only
      cases hdigest : hmacOf py secret (canonical py method path claim.timestamp body) with
      | none =>
        rw [hmacOf_none, hencodable] at hdigest
        cases hdigest
      | some expected =>
        dsimp only
        rw [(compareDigest_none (hmacOf_ascii hdigest)).mpr hascii]
        exact ⟨_, rfl, .inr (.inr rfl)⟩

/-- A `ValueError`. -/
def IsValueError (e : SecurityException) : Prop :=
  (∃ message, e = .valueError message) ∨ e = .unicodeEncodeError

/-- All that `verify_runtime_tool` can do. -/
theorem verifyRuntimeTool_cases :
    (∃ e, verifyRuntimeTool py now later headers method path body peers tolerance = .error e
        ∧ IsValueError e)
      ∨ ToolEscapes py now later headers method path body peers tolerance
      ∨ ∃ identity,
        verifyRuntimeTool py now later headers method path body peers tolerance = .ok identity
        ∧ ToolAuthentic py now later headers method path body peers tolerance identity := by
  unfold verifyRuntimeTool
  cases hclaim : claimOf headers "x-agent-runtime-id" with
  | none => exact .inl ⟨_, rfl, .inl ⟨_, rfl⟩⟩
  | some claim =>
    dsimp only
    cases hinstant : instantOf py claim.timestamp with
    | error e =>
      cases e with
      | valueError => exact .inl ⟨_, rfl, .inl ⟨_, rfl⟩⟩
      | overflowError => exact .inr (.inl ⟨claim, hclaim, .inl hinstant⟩)
      | osError => exact .inr (.inl ⟨claim, hclaim, .inr (.inl hinstant)⟩)
    | ok instant =>
      dsimp only
      cases hexpired : expired now instant tolerance with
      | true => exact .inl ⟨_, rfl, .inl ⟨_, rfl⟩⟩
      | false =>
        have hrecent := expired_eq_false.mp hexpired
        rw [if_neg Bool.false_ne_true]
        rcases @activeKeySecret_cases py later
            (keyEntry ((peers.lookup claim.identity).getD []) claim.keyId) with
          hnone | ⟨secret, hsecret, hconfigured⟩ | ⟨_, hwindow⟩
        · rw [hnone]
          exact .inl ⟨_, rfl, .inl ⟨_, rfl⟩⟩
        · rw [hsecret]
          dsimp only
          cases hdigest : hmacOf py secret (canonical py method path claim.timestamp body) with
          | none => exact .inl ⟨_, rfl, .inr rfl⟩
          | some expected =>
            obtain ⟨hexpected, hencodable⟩ := hmacOf_some hdigest
            have hascii := hmacOf_ascii hdigest
            dsimp only
            cases hequal : compareDigest claim.signature expected with
            | none =>
              exact .inr (.inl ⟨claim, hclaim, .inr (.inr ⟨instant, hinstant, hrecent,
                .inr ⟨secret, hconfigured, hencodable, (compareDigest_none hascii).mp hequal⟩⟩)⟩)
            | some equal =>
              cases equal with
              | false => exact .inl ⟨_, rfl, .inl ⟨_, rfl⟩⟩
              | true =>
                refine .inr (.inr ⟨claim.identity, rfl, claim, instant, secret, hclaim, rfl,
                  hconfigured, hinstant, hrecent, ?_⟩)
                rw [eq_of_compareDigest hequal, hexpected]
        · exact .inr (.inl ⟨claim, hclaim, .inr (.inr ⟨instant, hinstant, hrecent, .inl hwindow⟩)⟩)

theorem toolFailsClosed_iff :
    ToolFailsClosed py now later headers method path body peers tolerance
      ↔ ¬ ToolEscapes py now later headers method path body peers tolerance := by
  unfold ToolFailsClosed
  constructor
  · intro hclosed hescapes
    obtain ⟨e, hresult, he⟩ := verifyRuntimeTool_escapes hescapes
    rw [hresult] at hclosed
    rcases he with rfl | rfl | rfl
    · exact hclosed
    · exact hclosed
    · exact hclosed
  · intro hescapes
    rcases verifyRuntimeTool_cases with ⟨e, hresult, he⟩ | h | ⟨identity, hresult, hauthentic⟩
    · rw [hresult]
      rcases he with ⟨message, rfl⟩ | rfl
      · trivial
      · trivial
    · exact absurd h hescapes
    · rw [hresult]
      exact hauthentic

end

/-- **When the two checks fail closed.** -/
theorem verify_fails_closed_iff (py : PySecurity) (now later : Int)
    (headers : List (PyStr × PyStr)) (method path : PyStr) (body : List UInt8)
    (clients runtimes : Peers) (tolerance : Int) :
    (ServiceFailsClosed py now headers method path body clients tolerance
        ↔ ¬ ServiceEscapes py now headers method path body clients tolerance)
      ∧ (ToolFailsClosed py now later headers method path body runtimes tolerance
        ↔ ¬ ToolEscapes py now later headers method path body runtimes tolerance) :=
  ⟨serviceFailsClosed_iff, toolFailsClosed_iff⟩

/-- Python, on what is used below; the digests are written as zeros. -/
def samplePy : PySecurity where
  lower text := text
  upper text := text
  parseInt text := if text = pyStr "1700000000" then some 1700000000 else none
  fromTimestamp n := .ok (1000000 * n)
  fromIsoFormat _ := none
  sha256 _ := List.replicate 64 48
  hmac _ _ := List.replicate 64 48
  hmac_ascii _ _ := rfl

/-- Two seconds after the timestamp. -/
def sampleNow : Int := 1700000002000000

def samplePeers : Peers :=
  [(pyStr "memoir", [(pyStr "keys", .dict [(pyStr "k1", .str (pyStr "secret"))])])]

/-- A request with a signature that is not ASCII. -/
def accented (identity : String) : List (PyStr × PyStr) :=
  [(pyStr identity, pyStr "memoir"), (pyStr "x-agent-key-id", pyStr "k1"),
   (pyStr "x-agent-timestamp", pyStr "1700000000"), (pyStr "x-agent-signature", pyStr "é")]

/-- Both checks raise a `TypeError` for it. -/
theorem accented_escapes :
    ¬ ServiceFailsClosed samplePy sampleNow (accented "x-agent-client-id") (pyStr "POST")
        (pyStr "/runs") [] samplePeers 300
      ∧ ¬ ToolFailsClosed samplePy sampleNow sampleNow (accented "x-agent-runtime-id")
        (pyStr "POST") (pyStr "/tools") [] samplePeers 300
      ∧ verifySignature samplePy sampleNow (accented "x-agent-client-id") (pyStr "POST")
        (pyStr "/runs") [] samplePeers 300 = .error .typeError
      ∧ verifyRuntimeTool samplePy sampleNow sampleNow (accented "x-agent-runtime-id")
        (pyStr "POST") (pyStr "/tools") [] samplePeers 300 = .error .typeError := by
  have hservice : verifySignature samplePy sampleNow (accented "x-agent-client-id") (pyStr "POST")
      (pyStr "/runs") [] samplePeers 300 = .error .typeError := by
    with_unfolding_all rfl
  have htool : verifyRuntimeTool samplePy sampleNow sampleNow (accented "x-agent-runtime-id")
      (pyStr "POST") (pyStr "/tools") [] samplePeers 300 = .error .typeError := by
    with_unfolding_all rfl
  refine ⟨fun h => ?_, fun h => ?_, hservice, htool⟩
  · unfold ServiceFailsClosed at h
    rw [hservice] at h
    exact h
  · unfold ToolFailsClosed at h
    rw [htool] at h
    exact h

end SignatureCheck

end AgentRuntime
