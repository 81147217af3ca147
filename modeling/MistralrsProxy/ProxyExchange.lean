import MistralrsProxy.AuditLog
import MistralrsProxy.KeyAuthenticate
import MistralrsProxy.PercentDecode
import MistralrsProxy.ProxyHeaders
import MistralrsProxy.Runtime

/-! One exchange, from the head of a request to the head of its response. What the audit log, the routing and the
backend answer to the handler are arguments of it; the bodies pass through. -/

open Bytes

namespace MistralrsProxy

namespace HeaderFields

def get (name : HeaderName) (fields : HeaderFields) : Option (List UInt8) := (fields.getAll name).head?

/-- `HeaderMap::insert`: the value takes the place of all values of the name. -/
def insert (name : HeaderName) (value : List UInt8) : HeaderFields → HeaderFields
  | [] => [(name, value)]
  | field :: rest =>
      if field.1 = name then (name, value) :: HeaderFields.remove rest name else field :: insert name value rest

/-- The fields as `authenticate` reads them. -/
def toMap (fields : HeaderFields) : HeaderMap :=
  fields.map fun field => (String.ofList (field.1.val.map fun byte => Char.ofNat byte.toNat), field.2)

end HeaderFields

def host : HeaderName := .fromStatic "host"
def userAgent : HeaderName := .fromStatic "user-agent"
def contentLength : HeaderName := .fromStatic "content-length"
def contentType : HeaderName := .fromStatic "content-type"
def acceptEncoding : HeaderName := .fromStatic "accept-encoding"
def retryAfter : HeaderName := .fromStatic "retry-after"
def wwwAuthenticate : HeaderName := .fromStatic "www-authenticate"
def proxyRequestId : HeaderName := .fromStatic "x-proxy-request-id"
def openwebuiUserNameHeader : HeaderName := .fromStatic "x-openwebui-user-name"
def openwebuiUserIdHeader : HeaderName := .fromStatic "x-openwebui-user-id"
def openwebuiChatIdHeader : HeaderName := .fromStatic "x-openwebui-chat-id"

def identity : List UInt8 := asciiBytes "identity"

/-- The code that the handler calls: the names and values that are taken, SHA-256, the decoder of text, and the parser
of a path with its query, with the reason why it fails. -/
structure ProxyEnv where
  names : HeaderNames
  visible : VisibleAscii
  digest : String → Digest
  lossy : LossyDecoder
  pathAndQuery : String → Except String Unit

/-- What the URI of a request answers. -/
structure RequestUri where
  text : String
  authority : Option String
  path : String
  query : Option String
  deriving DecidableEq, Repr

structure RequestHead where
  method : String
  uri : RequestUri
  version : String
  headers : HeaderFields

/-- The head of a request to a backend. -/
structure UpstreamHead where
  method : String
  authority : String
  pathAndQuery : String
  version : String
  headers : HeaderFields

inductive ResponseBody where
  | error (type code message : String)
  | relayed
  deriving DecidableEq, Repr

structure ResponseHead where
  status : Nat
  headers : HeaderFields
  body : ResponseBody

/-- `str::parse::<u64>`: an optional plus sign and at least one digit, in range. -/
def parseU64 (text : List Char) : Option Nat :=
  let digits := match text with
    | '+' :: rest => rest
    | rest => rest
  if digits = [] ∨ digits.any (fun char => !char.isDigit) then none
  else
    let value := digits.foldl (fun value char => value * 10 + (char.toNat - '0'.toNat)) 0
    if value < 2 ^ 64 then some value else none

def headerString (lossy : LossyDecoder) (value : Option (List UInt8)) : Option String :=
  value.map fun bytes => String.ofList (lossy.decode bytes)

namespace RequestInfo

/-- The loggable fields of a request and its authentication result. -/
def new (lossy : LossyDecoder) (peer : String × Nat) (head : RequestHead) (auth : Authentication) : RequestInfo where
  clientIp := peer.1
  clientPort := peer.2
  method := head.method
  uri := head.uri.text
  httpVersion := head.version
  host := (headerString lossy (head.headers.get MistralrsProxy.host)).or head.uri.authority
  userAgent := headerString lossy (head.headers.get MistralrsProxy.userAgent)
  contentLength :=
    (headerString lossy (head.headers.get MistralrsProxy.contentLength)).bind fun value => parseU64 value.toList
  keySha256 := auth.keySha256
  identity := auth.identity
  authorized := match auth.result with
    | .ok () => true
    | .error _ => false
  authError := match auth.result with
    | .ok () => none
    | .error error => some error.code
  openwebuiUser := none

/-- The user headers count only on requests authorized by the key of this name. -/
def withOpenwebuiUser (lossy : LossyDecoder) (headers : HeaderFields) (keyName : Option String) (info : RequestInfo) :
    RequestInfo :=
  let trusted := info.authorized && keyName.any fun name => info.identity.any fun identity => identity.name == name
  if !trusted then info
  else
    let user : OpenWebUiUser :=
      { name := (headerString lossy (headers.get openwebuiUserNameHeader)).map fun name =>
          String.ofList (percentDecode lossy name.toList)
        id := headerString lossy (headers.get openwebuiUserIdHeader)
        chatId := headerString lossy (headers.get openwebuiChatIdHeader) }
    if user.name.isSome || user.id.isSome then { info with openwebuiUser := some user } else info

end RequestInfo

def jsonErrorBody (status : Nat) (type code message : String) : ResponseHead :=
  ⟨status, [(contentType, asciiBytes "application/json")], .error type code message⟩

def ResponseHead.insert (name : HeaderName) (value : List UInt8) (response : ResponseHead) : ResponseHead :=
  { response with headers := response.headers.insert name value }

def serviceUnavailable : ResponseHead :=
  (jsonErrorBody 503 "api_error" "service_unavailable"
    "The service is temporarily unavailable. Please retry shortly.").insert retryAfter (asciiBytes "1")

def authenticationError (error : AuthError) : ResponseHead :=
  let status := if error = .disabled then 403 else 401
  (jsonErrorBody status "invalid_request_error" error.code error.message).insert wwwAuthenticate (asciiBytes "Bearer")

/-- `str::trim_end_matches('/')`. -/
def trimEndSlashes (path : String) : String := String.ofList (path.toList.rdropWhile (· == '/'))

/-- The path and the query that a backend is asked for. -/
def upstreamPathAndQuery (upstream : Uri) (incoming : RequestUri) : String :=
  let basePath := trimEndSlashes upstream.path
  let path :=
    if basePath = "" then incoming.path
    else if incoming.path = "/" then basePath ++ "/"
    else basePath ++ incoming.path
  match incoming.query with
  | some query => path ++ "?" ++ query
  | none => path

/-- What `forward` leaves: the request that was sent to a backend, the events of the log, and the response. -/
structure Forwarded where
  sent : Option UpstreamHead
  events : List EventBody
  response : ResponseHead

/-- `forward`; no result stands for a panic. The selection comes with the parsed URL of its backend, and `upstream` is
what becomes of a request. -/
def forward (env : ProxyEnv) (routedAt : Nat) (selection : Option (RoutingDecision × Uri))
    (upstream : UpstreamHead → Except String (Nat × HeaderFields)) (head : RequestHead) : Option Forwarded :=
  match selection with
  | none =>
      some ⟨none, [.requestRouted routedAt (.unavailable "no_eligible_backend")], serviceUnavailable⟩
  | some (decision, backend) =>
      let routed := EventBody.requestRouted routedAt (.ofDecision decision)
      let pathAndQuery := upstreamPathAndQuery backend head.uri
      match env.pathAndQuery pathAndQuery with
      | .error error =>
          some ⟨none, [routed], jsonErrorBody 400 "invalid_request_error" "invalid_proxy_uri"
            ("Could not construct upstream URI: " ++ error)⟩
      | .ok () =>
          (removeHopByHopHeaders env.names head.headers).bind fun headers =>
            let sent : UpstreamHead :=
              { method := head.method
                authority := backend.authority
                pathAndQuery := pathAndQuery
                version := "HTTP/1.1"
                headers := (headers.insert host (asciiBytes backend.authority)).insert acceptEncoding identity }
            match upstream sent with
            | .error error =>
                some ⟨some sent, [routed, .requestError ("backend request failed: " ++ error)], serviceUnavailable⟩
            | .ok (status, headers) =>
                (removeHopByHopHeaders env.names headers).map fun headers =>
                  ⟨some sent, [routed], ⟨status, headers, .relayed⟩⟩

/-- Whether the response is a stream of server-sent events. -/
def isEventStream (visible : VisibleAscii) (headers : HeaderFields) : Bool :=
  ((headers.get contentType).bind visible.toStr).any fun value =>
    eqIgnoreAsciiCase (trimText (value.takeWhile (· ≠ ';'))) "text/event-stream".toList

/-- What `proxy` leaves: what was recorded of the request, and what `forward` leaves with the events around it. -/
structure ProxyExchange where
  info : RequestInfo
  sent : Option UpstreamHead
  events : List EventBody
  response : ResponseHead

/-- The key store, the trusted key, the peer, the identity of the request and the times the handler reads. -/
structure ProxyCall where
  index : KeyIndex
  openwebuiKey : Option String
  peer : String × Nat
  requestId : String
  startedAt : Nat
  routedAt : Nat

/-- `proxy`; no result stands for a panic. `admission` is the answer of the log. -/
def proxy (env : ProxyEnv) (call : ProxyCall) (admission : Except AuditAdmissionError Unit)
    (selection : Option (RoutingDecision × Uri)) (upstream : UpstreamHead → Except String (Nat × HeaderFields))
    (head : RequestHead) : Option ProxyExchange :=
  (authenticate env.visible env.digest head.headers.toMap call.index).bind fun auth =>
    let info :=
      (RequestInfo.new env.lossy call.peer head auth).withOpenwebuiUser env.lossy head.headers call.openwebuiKey
    match admission with
    | .error .saturated =>
        some ⟨info, none, [], jsonErrorBody 503 "api_error" "logger_saturated"
          "The audit log is at its admitted-request limit; retry shortly."⟩
    | .error .unavailable =>
        some ⟨info, none, [], jsonErrorBody 503 "api_error" "logger_unavailable"
          "The audit log writer is unavailable; the proxy is failing closed."⟩
    | .ok () =>
        let forwarded := match auth.result with
          | .ok () => forward env call.routedAt selection upstream head
          | .error error => some ⟨none, [], authenticationError error⟩
        forwarded.map fun forwarded =>
          let response := forwarded.response.insert proxyRequestId (asciiBytes call.requestId)
          let started := EventBody.responseStarted response.status (isEventStream env.visible response.headers)
          ⟨info, forwarded.sent, .requestStarted call.startedAt info :: (forwarded.events ++ [started]), response⟩

namespace HeaderFields

variable {name : HeaderName} {value : List UInt8} {fields : HeaderFields}

theorem getAll_remove_self (fields : HeaderFields) (name : HeaderName) : (fields.remove name).getAll name = [] :=
  getAll_filter_of_removed (fun other => decide (other ≠ name)) (decide_eq_false fun hne => hne rfl) fields

theorem getAll_remove_of_ne {other : HeaderName} (h : other ≠ name) (fields : HeaderFields) :
    (fields.remove name).getAll other = fields.getAll other :=
  getAll_filter (fun other => decide (other ≠ name)) (decide_eq_true h) fields

theorem getAll_cons (field : HeaderName × List UInt8) (fields : HeaderFields) (name : HeaderName) :
    getAll name (field :: fields) = if field.1 = name then field.2 :: getAll name fields else getAll name fields := by
  unfold getAll
  rw [List.filterMap_cons]
  by_cases h : field.1 = name
  · rw [if_pos h, if_pos h]
  · rw [if_neg h, if_neg h]

theorem getAll_insert_self (name : HeaderName) (value : List UInt8) (fields : HeaderFields) :
    (fields.insert name value).getAll name = [value] := by
  induction fields with
  | nil => rw [insert, getAll_cons, if_pos rfl, getAll, List.filterMap_nil]
  | cons field rest ih =>
      rw [insert]
      split
      · rw [getAll_cons, if_pos rfl, getAll_remove_self]
      · rename_i hne
        rw [getAll_cons, if_neg hne, ih]

theorem getAll_insert_of_ne {other : HeaderName} (h : other ≠ name) (value : List UInt8) (fields : HeaderFields) :
    (fields.insert name value).getAll other = fields.getAll other := by
  induction fields with
  | nil => rw [insert, getAll_cons, if_neg (Ne.symm h)]
  | cons field rest ih =>
      rw [insert]
      split
      · rename_i heq
        rw [getAll_cons, if_neg (Ne.symm h), getAll_remove_of_ne h, getAll_cons, heq, if_neg (Ne.symm h)]
      · rw [getAll_cons, getAll_cons, ih]

end HeaderFields

/-- The fields of one hop made of those of another: some are set, and of the others those are kept that do not concern
the other hop only. -/
structure Rewrites (names : HeaderNames) (before : HeaderFields) (own : List (HeaderName × List UInt8))
    (after : HeaderFields) : Prop where
  owned : ∀ field ∈ own, after.getAll field.1 = [field.2]
  dropped : ∀ name, name ∉ own.map Prod.fst → name ∈ hopByHopNames ∨ ListedByConnection names before name →
    after.getAll name = []
  kept : ∀ name, name ∉ own.map Prod.fst → name ∉ hopByHopNames → ¬ListedByConnection names before name →
    after.getAll name = before.getAll name

theorem rewrites_remove (names : HeaderNames) (fields : HeaderFields) :
    ∃ left, removeHopByHopHeaders names fields = some left ∧ Rewrites names fields [] left := by
  obtain ⟨listed, hmem, hremoved⟩ := removeHopByHopHeaders_eq names fields
  refine ⟨_, hremoved, ?_, ?_, ?_⟩
  · intro field hfield
    cases hfield
  · intro name _ hname
    refine HeaderFields.getAll_filter_of_removed (fun name => decide (name ∉ hopByHopNames ∧ name ∉ listed))
      (decide_eq_false ?_) fields
    rintro ⟨hhop, hlisted⟩
    rw [hmem] at hlisted
    exact hname.elim hhop hlisted
  · intro name _ hhop hlisted
    rw [← hmem] at hlisted
    exact HeaderFields.getAll_filter (fun name => decide (name ∉ hopByHopNames ∧ name ∉ listed))
      (decide_eq_true ⟨hhop, hlisted⟩) fields

theorem Rewrites.insert {names : HeaderNames} {before after : HeaderFields} {own : List (HeaderName × List UInt8)}
    (h : Rewrites names before own after) {name : HeaderName} (hname : name ∉ own.map Prod.fst) (value : List UInt8) :
    Rewrites names before ((name, value) :: own) (after.insert name value) := by
  refine ⟨?_, ?_, ?_⟩
  · intro field hfield
    rcases List.mem_cons.mp hfield with rfl | hrest
    · exact HeaderFields.getAll_insert_self _ _ _
    · have hne : field.1 ≠ name := by
        rintro rfl
        exact hname (List.mem_map_of_mem hrest)
      rw [HeaderFields.getAll_insert_of_ne hne]
      exact h.owned field hrest
  · intro other hother hdropped
    rw [List.map_cons, List.mem_cons, not_or] at hother
    rw [HeaderFields.getAll_insert_of_ne hother.1]
    exact h.dropped other hother.2 hdropped
  · intro other hother hhop hlisted
    rw [List.map_cons, List.mem_cons, not_or] at hother
    rw [HeaderFields.getAll_insert_of_ne hother.1]
    exact h.kept other hother.2 hhop hlisted

/-- Both ways to join the paths put the one behind the other. -/
theorem upstreamPathAndQuery_eq (upstream : Uri) (incoming : RequestUri) :
    upstreamPathAndQuery upstream incoming = trimEndSlashes upstream.path ++ incoming.path ++
      match incoming.query with
      | some query => "?" ++ query
      | none => "" := by
  have hpath : (if trimEndSlashes upstream.path = "" then incoming.path
      else if incoming.path = "/" then trimEndSlashes upstream.path ++ "/"
      else trimEndSlashes upstream.path ++ incoming.path) = trimEndSlashes upstream.path ++ incoming.path := by
    split
    · rename_i hempty
      rw [hempty, String.empty_append]
    · split
      · rename_i hroot
        rw [hroot]
      · rfl
  unfold upstreamPathAndQuery
  simp only [hpath]
  cases incoming.query with
  | none => rw [String.append_empty]
  | some query => simp only [String.append_assoc]

/-- An index made of the records answers to every request, and lets in those who present an enabled key of them. -/
theorem authenticate_sound (visible : VisibleAscii) (digest : String → Digest) {records : List KeyRecord}
    {index : KeyIndex} (hindex : KeyIndex.fromRecords records = .ok index)
    (hbounded : records.length ≤ Machine.isizeMax)
    (headers : HeaderMap) :
    ∃ auth, authenticate visible digest headers index = some auth ∧ auth.Sound visible digest records headers := by
  by_cases hpresents : ∃ key, Presents visible headers key
  · obtain ⟨key, hkey⟩ := hpresents
    by_cases hstored : ∃ record ∈ records, record.Matches (digest key)
    · obtain ⟨record, hmem, hmatches⟩ := hstored
      exact ⟨_, authenticate_known hindex hbounded hkey hmem hmatches,
        Authentication.sound_known (KeyIndex.fromRecords_indexes hindex) hkey hmem hmatches⟩
    · have hnone : ∀ record ∈ records, ¬record.Matches (digest key) := fun record hmem hmatches =>
        hstored ⟨record, hmem, hmatches⟩
      exact ⟨_, authenticate_unknown hindex hkey hnone, Authentication.sound_unknown hkey hnone⟩
  · have habsent : ∀ key, ¬Presents visible headers key := fun key hkey => hpresents ⟨key, hkey⟩
    have hrejected : authenticate visible digest headers index = some (.rejected .missing) ∨
        authenticate visible digest headers index = some (.rejected .malformed) := authenticate_absent habsent
    rcases hrejected with heq | heq
    · exact ⟨_, heq, Authentication.sound_rejected habsent (.inl rfl)⟩
    · exact ⟨_, heq, Authentication.sound_rejected habsent (.inr rfl)⟩

/-- The request to a backend is the one that came, but for its place and for what concerns one hop only. -/
structure Sends (names : HeaderNames) (backend : Uri) (head : RequestHead) (sent : UpstreamHead) : Prop where
  method : sent.method = head.method
  authority : sent.authority = backend.authority
  pathAndQuery : sent.pathAndQuery = trimEndSlashes backend.path ++ head.uri.path ++
    match head.uri.query with
    | some query => "?" ++ query
    | none => ""
  version : sent.version = "HTTP/1.1"
  headers : Rewrites names head.headers [(acceptEncoding, identity), (host, asciiBytes backend.authority)] sent.headers

section Forward

variable {env : ProxyEnv} {routedAt : Nat} {selection : Option (RoutingDecision × Uri)} {head : RequestHead}
variable {upstream : UpstreamHead → Except String (Nat × HeaderFields)}

/-- What `forward` comes to. -/
inductive Forwards (env : ProxyEnv) (routedAt : Nat) (selection : Option (RoutingDecision × Uri))
    (upstream : UpstreamHead → Except String (Nat × HeaderFields)) (head : RequestHead) : Forwarded → Prop
  | unrouted (hselection : selection = none) :
      Forwards env routedAt selection upstream head
        ⟨none, [.requestRouted routedAt (.unavailable "no_eligible_backend")], serviceUnavailable⟩
  | unbuilt (decision : RoutingDecision) (backend : Uri) (error : String)
      (hselection : selection = some (decision, backend))
      (hpath : env.pathAndQuery (upstreamPathAndQuery backend head.uri) = .error error) :
      Forwards env routedAt selection upstream head
        ⟨none, [.requestRouted routedAt (.ofDecision decision)],
          jsonErrorBody 400 "invalid_request_error" "invalid_proxy_uri" ("Could not construct upstream URI: " ++ error)⟩
  | failed (decision : RoutingDecision) (backend : Uri) (sent : UpstreamHead) (error : String)
      (hselection : selection = some (decision, backend))
      (hpath : env.pathAndQuery (upstreamPathAndQuery backend head.uri) = .ok ())
      (hsent : Sends env.names backend head sent) (hupstream : upstream sent = .error error) :
      Forwards env routedAt selection upstream head
        ⟨some sent, [.requestRouted routedAt (.ofDecision decision),
          .requestError ("backend request failed: " ++ error)], serviceUnavailable⟩
  | answered (decision : RoutingDecision) (backend : Uri) (sent : UpstreamHead) (status : Nat)
      (headers left : HeaderFields) (hselection : selection = some (decision, backend))
      (hpath : env.pathAndQuery (upstreamPathAndQuery backend head.uri) = .ok ())
      (hsent : Sends env.names backend head sent) (hupstream : upstream sent = .ok (status, headers))
      (hleft : Rewrites env.names headers [] left) :
      Forwards env routedAt selection upstream head
        ⟨some sent, [.requestRouted routedAt (.ofDecision decision)], ⟨status, left, .relayed⟩⟩

theorem forward_spec (env : ProxyEnv) (routedAt : Nat) (selection : Option (RoutingDecision × Uri))
    (upstream : UpstreamHead → Except String (Nat × HeaderFields)) (head : RequestHead) :
    ∃ forwarded, forward env routedAt selection upstream head = some forwarded ∧
      Forwards env routedAt selection upstream head forwarded := by
  rcases selection with _ | ⟨decision, backend⟩
  · exact ⟨_, rfl, .unrouted rfl⟩
  · obtain ⟨left, hleft, hrewrites⟩ := rewrites_remove env.names head.headers
    have hhost := hrewrites.insert (List.not_mem_nil : host ∉ [].map Prod.fst) (asciiBytes backend.authority)
    have hdistinct : acceptEncoding ∉ [(host, asciiBytes backend.authority)].map Prod.fst := by
      have hne : acceptEncoding ≠ host := by decide
      exact fun hmem => hne (List.mem_singleton.mp hmem)
    unfold forward
    cases hpath : env.pathAndQuery (upstreamPathAndQuery backend head.uri) with
    | error error =>
        simp only [hpath]
        exact ⟨_, rfl, .unbuilt decision backend error rfl hpath⟩
    | ok =>
        simp only [hpath, hleft, Option.bind_some]
        have hsent : Sends env.names backend head
            { method := head.method
              authority := backend.authority
              pathAndQuery := upstreamPathAndQuery backend head.uri
              version := "HTTP/1.1"
              headers := (left.insert host (asciiBytes backend.authority)).insert acceptEncoding identity } :=
          ⟨rfl, rfl, upstreamPathAndQuery_eq backend head.uri, rfl, hhost.insert hdistinct identity⟩
        split
        · rename_i error hupstream
          exact ⟨_, rfl, .failed decision backend _ error rfl hpath hsent hupstream⟩
        · rename_i status headers hupstream
          obtain ⟨left', hleft', hrewrites'⟩ := rewrites_remove env.names headers
          rw [hleft']
          exact ⟨_, rfl, .answered decision backend _ status headers left' rfl hpath hsent hupstream hrewrites'⟩

/-- The events of `forward` come after the first of the request and before its last. -/
theorem Forwards.middle {forwarded : Forwarded} (h : Forwards env routedAt selection upstream head forwarded) :
    ∀ event ∈ forwarded.events, event.isMiddle = true := by
  cases h with
  | unrouted | unbuilt | failed | answered => simp [EventBody.isMiddle]

end Forward

namespace RequestInfo

/-- Only the user changes, and it is named on behalf of the key that is trusted with that. -/
theorem withOpenwebuiUser_cases (lossy : LossyDecoder) (headers : HeaderFields) (keyName : Option String)
    (info : RequestInfo) :
    ∃ user, info.withOpenwebuiUser lossy headers keyName = { info with openwebuiUser := user } ∧
      (user = info.openwebuiUser ∨
        info.authorized = true ∧ ∃ who, info.identity = some who ∧ keyName = some who.name) := by
  unfold withOpenwebuiUser
  simp only
  split
  · exact ⟨_, rfl, .inl rfl⟩
  · rename_i htrusted
    simp only [Bool.not_eq_true', Bool.not_eq_false, Bool.and_eq_true] at htrusted
    obtain ⟨hauthorized, hname⟩ := htrusted
    obtain ⟨name, rfl, hidentity⟩ := (Option.any_eq_true _ _).mp hname
    obtain ⟨who, hwho, heq⟩ := (Option.any_eq_true _ _).mp hidentity
    split
    · exact ⟨_, rfl, .inr ⟨hauthorized, who, hwho, by rw [beq_iff_eq.mp heq]⟩⟩
    · exact ⟨_, rfl, .inl rfl⟩

theorem authorized_new (lossy : LossyDecoder) (peer : String × Nat) (head : RequestHead) (auth : Authentication) :
    (RequestInfo.new lossy peer head auth).authorized = true ↔ auth.result = .ok () := by
  unfold RequestInfo.new
  cases auth.result with
  | ok => simp
  | error error => simp

end RequestInfo

/-- What `proxy` comes to, for what was found out about the key and recorded of the request. -/
inductive Exchanges (env : ProxyEnv) (call : ProxyCall) (selection : Option (RoutingDecision × Uri))
    (upstream : UpstreamHead → Except String (Nat × HeaderFields)) (head : RequestHead) (auth : Authentication)
    (info : RequestInfo) : Except AuditAdmissionError Unit → ProxyExchange → Prop
  | refused (error : AuditAdmissionError) (code message : String) :
      Exchanges env call selection upstream head auth info (.error error)
        ⟨info, none, [], jsonErrorBody 503 "api_error" code message⟩
  | turnedAway (error : AuthError) (streaming : Bool) (hresult : auth.result = .error error) :
      Exchanges env call selection upstream head auth info (.ok ())
        ⟨info, none,
          [.requestStarted call.startedAt info, .responseStarted (authenticationError error).status streaming],
          (authenticationError error).insert proxyRequestId (asciiBytes call.requestId)⟩
  | forwarded (forwarded : Forwarded) (streaming : Bool) (hresult : auth.result = .ok ())
      (hforwards : Forwards env call.routedAt selection upstream head forwarded) :
      Exchanges env call selection upstream head auth info (.ok ())
        ⟨info, forwarded.sent,
          .requestStarted call.startedAt info ::
            (forwarded.events ++ [.responseStarted forwarded.response.status streaming]),
          forwarded.response.insert proxyRequestId (asciiBytes call.requestId)⟩

theorem proxy_spec (env : ProxyEnv) (store : KeyRecords) (call : ProxyCall)
    (admission : Except AuditAdmissionError Unit)
    (selection : Option (RoutingDecision × Uri)) (upstream : UpstreamHead → Except String (Nat × HeaderFields))
    (head : RequestHead) (hindex : KeyIndex.fromRecords store.records = .ok call.index) :
    ∃ auth exchange, auth.Sound env.visible env.digest store.records head.headers.toMap ∧
      proxy env call admission selection upstream head = some exchange ∧
      Exchanges env call selection upstream head auth
        ((RequestInfo.new env.lossy call.peer head auth).withOpenwebuiUser env.lossy head.headers call.openwebuiKey)
        admission exchange := by
  obtain ⟨auth, hauth, hsound⟩ := authenticate_sound env.visible env.digest hindex store.bounded
    head.headers.toMap
  unfold proxy
  rw [hauth, Option.bind_some]
  rcases admission with (_ | _) | _
  · exact ⟨auth, _, hsound, rfl, .refused .unavailable _ _⟩
  · exact ⟨auth, _, hsound, rfl, .refused .saturated _ _⟩
  · cases hresult : auth.result with
    | error error => exact ⟨auth, _, hsound, rfl, .turnedAway error _ hresult⟩
    | ok =>
        obtain ⟨forwarded, hforwarded, hforwards⟩ := forward_spec env call.routedAt selection upstream head
        simp only [hforwarded, Option.map_some]
        exact ⟨auth, _, hsound, rfl, .forwarded forwarded _ hresult hforwards⟩

/-- The headers present a key of the records, enabled or not, that belongs to this identity. -/
def ProxyEnv.Presented (env : ProxyEnv) (store : KeyRecords) (head : RequestHead) (disabled : Bool)
    (who : KeyIdentity) :
    Prop :=
  Resolves env.visible env.digest store.records head.headers.toMap disabled who

/-- What the record of a request says about its exchange, for a body that ended so. -/
structure RequestRecord.Tells (env : ProxyEnv) (store : KeyRecords) (call : ProxyCall)
    (selection : Option (RoutingDecision × Uri)) (head : RequestHead) (exchange : ProxyExchange) (outcome : BodyOutcome)
    (line : RequestRecord) : Prop where
  status : line.status = some exchange.response.status
  authorized : line.info.authorized = true ↔ ∃ who, env.Presented store head false who
  who : ∀ disabled who, env.Presented store head disabled who → line.info.identity = some who
  user : line.info.openwebuiUser.isSome = true →
    ∃ who, env.Presented store head false who ∧ call.openwebuiKey = some who.name
  backend : exchange.sent.isSome = true → line.routing.backendId = selection.map fun routed => routed.1.backendId
  error : exchange.response.body = .relayed → line.error = outcome.describe.2.2

section Exchange

variable {env : ProxyEnv} {store : KeyRecords} {call : ProxyCall} {admission : Except AuditAdmissionError Unit}
variable {selection : Option (RoutingDecision × Uri)} {upstream : UpstreamHead → Except String (Nat × HeaderFields)}
variable {head : RequestHead} {auth : Authentication} {info : RequestInfo} {exchange : ProxyExchange}

theorem granted_iff (hsound : auth.Sound env.visible env.digest store.records head.headers.toMap) :
    auth.result = .ok () ↔ ∃ who, env.Presented store head false who := by
  constructor
  · intro hresult
    obtain ⟨who, hwho⟩ := Option.isSome_iff_exists.mp (hsound.known (.inl hresult))
    exact ⟨who, (hsound.granted who).mp ⟨hresult, hwho⟩⟩
  · rintro ⟨who, hwho⟩
    exact ((hsound.granted who).mpr hwho).1

theorem disabled_iff (hsound : auth.Sound env.visible env.digest store.records head.headers.toMap) :
    auth.result = .error .disabled ↔ ∃ who, env.Presented store head true who := by
  constructor
  · intro hresult
    obtain ⟨who, hwho⟩ := Option.isSome_iff_exists.mp (hsound.known (.inr hresult))
    exact ⟨who, (hsound.disabled who).mp ⟨hresult, hwho⟩⟩
  · rintro ⟨who, hwho⟩
    exact ((hsound.disabled who).mpr hwho).1

theorem identity_of_presented (hsound : auth.Sound env.visible env.digest store.records head.headers.toMap)
    {disabled : Bool} {who : KeyIdentity} (h : env.Presented store head disabled who) : auth.identity = some who := by
  cases disabled with
  | false => exact ((hsound.granted who).mpr h).2
  | true => exact ((hsound.disabled who).mpr h).2

namespace Exchanges

/-- A request is sent to a backend if nothing is in the way, and only then. -/
theorem sent_iff (hsound : auth.Sound env.visible env.digest store.records head.headers.toMap)
    (h : Exchanges env call selection upstream head auth info admission exchange) :
    exchange.sent.isSome = true ↔ admission = .ok () ∧ (∃ who, env.Presented store head false who) ∧
      ∃ decision backend, selection = some (decision, backend) ∧
        env.pathAndQuery (upstreamPathAndQuery backend head.uri) = .ok () := by
  rw [← granted_iff hsound]
  cases h with
  | refused error code message => simp
  | turnedAway error streaming hresult => simp [hresult]
  | forwarded forwarded streaming hresult hforwards =>
      cases hforwards with
      | unrouted hselection => simp [hselection]
      | unbuilt decision backend error hselection hpath => simp [hselection, hpath]
      | failed decision backend sent error hselection hpath => simp [hresult, hselection, hpath]
      | answered decision backend sent status headers left hselection hpath => simp [hresult, hselection, hpath]

/-- The backend is asked what the client asked, and the client is answered what the backend answered. -/
theorem relays (h : Exchanges env call selection upstream head auth info admission exchange) {sent : UpstreamHead}
    (hsent : exchange.sent = some sent) :
    ∃ decision backend, selection = some (decision, backend) ∧ Sends env.names backend head sent ∧
      match upstream sent with
      | .ok (status, headers) => exchange.response.status = status ∧ exchange.response.body = .relayed ∧
          Rewrites env.names headers [(proxyRequestId, asciiBytes call.requestId)] exchange.response.headers
      | .error _ => exchange.response.status = 503 ∧ exchange.response.body ≠ .relayed := by
  cases h with
  | refused | turnedAway => cases hsent
  | forwarded forwarded streaming hresult hforwards =>
      cases hforwards with
      | unrouted | unbuilt => cases hsent
      | failed decision backend sent error hselection hpath hsends hupstream =>
          cases hsent
          rw [hupstream]
          refine ⟨decision, backend, hselection, hsends, rfl, ?_⟩
          simp [ResponseHead.insert, serviceUnavailable, jsonErrorBody]
      | answered decision backend sent status headers left hselection hpath hsends hupstream hleft =>
          cases hsent
          rw [hupstream]
          exact ⟨decision, backend, hselection, hsends, rfl, rfl, hleft.insert (List.not_mem_nil) _⟩

theorem unsent (h : Exchanges env call selection upstream head auth info admission exchange)
    (hsent : exchange.sent = none) : 400 ≤ exchange.response.status ∧ exchange.response.body ≠ .relayed := by
  cases h with
  | refused error code message => exact ⟨by simp [jsonErrorBody], by simp [jsonErrorBody]⟩
  | turnedAway error streaming hresult =>
      cases error <;> simp [authenticationError, jsonErrorBody, ResponseHead.insert]
  | forwarded forwarded streaming hresult hforwards =>
      cases hforwards with
      | unrouted | unbuilt => simp [serviceUnavailable, jsonErrorBody, ResponseHead.insert]
      | failed | answered => cases hsent

theorem denied (hsound : auth.Sound env.visible env.digest store.records head.headers.toMap)
    (h : Exchanges env call selection upstream head auth info (.ok ()) exchange)
    (hdenied : ¬∃ who, env.Presented store head false who) :
    (∃ who, env.Presented store head true who) ∧ exchange.response.status = 403 ∨
      (¬∃ who, env.Presented store head true who) ∧ exchange.response.status = 401 := by
  rw [← granted_iff hsound] at hdenied
  rw [← disabled_iff hsound]
  cases h with
  | turnedAway error streaming hresult =>
      rw [hresult]
      by_cases hdisabled : error = .disabled
      · subst hdisabled
        exact .inl ⟨rfl, rfl⟩
      · refine .inr ⟨fun heq => hdisabled (Except.error.inj heq), ?_⟩
        simp [authenticationError, jsonErrorBody, ResponseHead.insert, hdisabled]
  | forwarded forwarded streaming hresult => exact absurd hresult hdenied

end Exchanges

/-- The record of an exchange from the events of it. -/
theorem RequestRecord.tells_of_events (rest : List EventBody) (streaming : Bool) {id : RequestId} {atUnixMs : Nat}
    {outcome : BodyOutcome} {observation : BodyObservation}
    (hsound : auth.Sound env.visible env.digest store.records head.headers.toMap)
    (hevents : exchange.events =
      .requestStarted call.startedAt ((RequestInfo.new env.lossy call.peer head auth).withOpenwebuiUser env.lossy
        head.headers call.openwebuiKey) :: (rest ++ [.responseStarted exchange.response.status streaming]))
    (hmiddle : ∀ event ∈ rest, event.isMiddle = true)
    (hrouted : exchange.sent.isSome = true →
      ∃ decision backend atUnixMs, selection = some (decision, backend) ∧
        latest EventBody.routed? rest = some (atUnixMs, .ofDecision decision))
    (herror : exchange.response.body = .relayed → latest EventBody.error? rest = none) :
    ∃ line, (Account.after id (exchange.events ++ [.responseFinished atUnixMs outcome observation])).records = [line] ∧
      line.Tells env store call selection head exchange outcome := by
  obtain ⟨user, hinfo, huser⟩ := RequestInfo.withOpenwebuiUser_cases env.lossy head.headers call.openwebuiKey
    (RequestInfo.new env.lossy call.peer head auth)
  rw [hinfo] at hevents
  have hall : ∀ event ∈ rest ++ [EventBody.responseStarted exchange.response.status streaming],
      event.isMiddle = true := by
    intro event hevent
    rcases List.mem_append.mp hevent with hrest | hlast
    · exact hmiddle event hrest
    · rw [List.mem_singleton.mp hlast]
      rfl
  obtain ⟨entry, hentry, hafter⟩ := Account.after_closed id call.startedAt atUnixMs _ _ outcome observation hall
  rw [hevents, List.cons_append, hafter]
  have hauthorized : entry.info.authorized = true ↔ ∃ who, env.Presented store head false who := by
    rw [hentry.info, ← granted_iff hsound]
    exact RequestInfo.authorized_new env.lossy call.peer head auth
  have hidentity : entry.info.identity = auth.identity := by
    rw [hentry.info]
    rfl
  refine ⟨_, rfl, ?_, hauthorized, ?_, ?_, ?_, ?_⟩
  · change entry.status = _
    rw [hentry.status, latest_snoc]
    rfl
  · intro disabled who hwho
    exact hidentity.trans (identity_of_presented hsound hwho)
  · intro hsome
    change entry.info.openwebuiUser.isSome = true at hsome
    rw [hentry.info] at hsome
    rcases huser with rfl | ⟨hgranted, who, hwho, hkey⟩
    · cases hsome
    · rw [RequestInfo.authorized_new] at hgranted
      exact ⟨who, (hsound.granted who).mp ⟨hgranted, hwho⟩, hkey⟩
  · intro hsent
    obtain ⟨decision, backend, routedAt, hselection, hlatest⟩ := hrouted hsent
    change (entry.routing.getD RoutingInfo.absent).backendId = _
    rw [hentry.routing, latest_snoc, hlatest, hselection]
    rfl
  · intro hrelayed
    change entry.error.or _ = _
    rw [hentry.error, latest_snoc, herror hrelayed]
    rfl

/-- An admitted exchange has one record, and the record agrees with the response. -/
theorem Exchanges.tells {id : RequestId} {atUnixMs : Nat} {outcome : BodyOutcome} {observation : BodyObservation}
    (hsound : auth.Sound env.visible env.digest store.records head.headers.toMap)
    (h : Exchanges env call selection upstream head auth
      ((RequestInfo.new env.lossy call.peer head auth).withOpenwebuiUser env.lossy head.headers call.openwebuiKey)
      (.ok ()) exchange) :
    ∃ line, (Account.after id (exchange.events ++ [.responseFinished atUnixMs outcome observation])).records = [line] ∧
      line.Tells env store call selection head exchange outcome := by
  cases h with
  | turnedAway error streaming hresult =>
      refine RequestRecord.tells_of_events [] streaming hsound rfl ?_ ?_ ?_
      · simp
      · intro hsent
        cases hsent
      · intro _
        rfl
  | forwarded forwarded streaming hresult hforwards =>
      refine RequestRecord.tells_of_events _ _ hsound rfl hforwards.middle ?_ ?_
      · intro hsent
        cases hforwards with
        | unrouted | unbuilt => cases hsent
        | failed decision backend sent error hselection => exact ⟨decision, backend, call.routedAt, hselection, rfl⟩
        | answered decision backend sent status headers left hselection =>
            exact ⟨decision, backend, call.routedAt, hselection, rfl⟩
      · intro hrelayed
        cases hforwards with
        | unrouted | unbuilt | failed => cases hrelayed
        | answered => rfl

theorem Exchanges.stamped (h : Exchanges env call selection upstream head auth info (.ok ()) exchange) :
    exchange.response.headers.getAll proxyRequestId = [asciiBytes call.requestId] := by
  cases h with
  | turnedAway | forwarded => exact HeaderFields.getAll_insert_self _ _ _

end Exchange

/-- Whatever a client sends, it is answered; and whatever a backend answers. A request goes to a backend if and only if
the log admits it, it presents an enabled key and a backend can be asked; it arrives as it was, apart from its place and
the fields of one hop, and the answer comes back in the same way. A request without an enabled key is told so. One
record is made of every admitted request, and it agrees with what the client and the backend have seen; no request that
is not admitted leaves a trace. -/
theorem requests_pass_with_an_enabled_key (env : ProxyEnv) (store : KeyRecords) (call : ProxyCall)
    (admission : Except AuditAdmissionError Unit) (selection : Option (RoutingDecision × Uri))
    (upstream : UpstreamHead → Except String (Nat × HeaderFields)) (head : RequestHead)
    (hindex : KeyIndex.fromRecords store.records = .ok call.index) :
    ∃ exchange, proxy env call admission selection upstream head = some exchange ∧
      (exchange.sent.isSome = true ↔ admission = .ok () ∧ (∃ who, env.Presented store head false who) ∧
        ∃ decision backend, selection = some (decision, backend) ∧
          env.pathAndQuery (upstreamPathAndQuery backend head.uri) = .ok ()) ∧
      (∀ sent, exchange.sent = some sent →
        ∃ decision backend, selection = some (decision, backend) ∧ Sends env.names backend head sent ∧
          match upstream sent with
          | .ok (status, headers) => exchange.response.status = status ∧ exchange.response.body = .relayed ∧
              Rewrites env.names headers [(proxyRequestId, asciiBytes call.requestId)] exchange.response.headers
          | .error _ => exchange.response.status = 503 ∧ exchange.response.body ≠ .relayed) ∧
      (exchange.sent = none → 400 ≤ exchange.response.status ∧ exchange.response.body ≠ .relayed) ∧
      (admission = .ok () → exchange.response.headers.getAll proxyRequestId = [asciiBytes call.requestId] ∧
        ((¬∃ who, env.Presented store head false who) →
          (∃ who, env.Presented store head true who) ∧ exchange.response.status = 403 ∨
            (¬∃ who, env.Presented store head true who) ∧ exchange.response.status = 401) ∧
        ∀ id atUnixMs outcome observation, ∃ line,
          (Account.after id (exchange.events ++ [.responseFinished atUnixMs outcome observation])).records = [line] ∧
            line.Tells env store call selection head exchange outcome) ∧
      (admission ≠ .ok () → exchange.events = []) := by
  obtain ⟨auth, exchange, hsound, hproxy, hexchanges⟩ :=
    proxy_spec env store call admission selection upstream head hindex
  refine ⟨exchange, hproxy, hexchanges.sent_iff hsound, fun sent hsent => hexchanges.relays hsent, hexchanges.unsent,
    ?_, ?_⟩
  · rintro rfl
    exact ⟨hexchanges.stamped, hexchanges.denied hsound, fun _ _ _ _ => hexchanges.tells hsound⟩
  · intro hrefused
    cases hexchanges with
    | refused => rfl
    | turnedAway | forwarded => exact absurd rfl hrefused

/-- Visible names, and paths that begin with a slash. -/
def sampleEnv : ProxyEnv where
  names := ⟨fun bytes => !bytes.isEmpty && bytes.all fun byte => decide (33 ≤ byte.toNat ∧ byte.toNat ≤ 126), rfl⟩
  visible := printableAscii
  digest := aliceDigest
  lossy := strictDecoder
  pathAndQuery := fun path => if path.toList.head? = some '/' then .ok () else .error "invalid format"

def sampleHead : RequestHead where
  method := "GET"
  uri := ⟨"/v1/models?all=1", none, "/v1/models", some "all=1"⟩
  version := "HTTP/2.0"
  headers := [(.fromStatic "authorization", asciiBytes ("bEaReR  " ++ aliceKey)), (connection, asciiBytes "X-Trace"),
    (.fromStatic "x-trace", asciiBytes "1"), (acceptEncoding, asciiBytes "gzip"), (acceptEncoding, asciiBytes "br"),
    (.fromStatic "x-keep", asciiBytes "2")]

def sampleSelection : RoutingDecision × Uri :=
  (⟨"a", "least-pressure-v1", .leastInflightFallback, 1, none, none, none, none, none, none, 0⟩,
    ⟨"127.0.0.1:1234", "/api/"⟩)

/-- Alice's request goes to the backend, with its path behind the backend's, without the fields that it lists as those
of one hop, and for an uncompressed body. -/
theorem requests_pass_with_an_enabled_key_alice :
    ∃ index, KeyIndex.fromRecords aliceRecords.records = .ok index ∧
      ∃ exchange sent, proxy sampleEnv ⟨index, none, ("127.0.0.1", 9), "id", 10, 11⟩ (.ok ()) (some sampleSelection)
          (fun _ => .ok (200, [(connection, asciiBytes "close"), (contentType, asciiBytes "text/plain")])) sampleHead =
          some exchange ∧
        exchange.sent = some sent ∧ sent.pathAndQuery = "/api/v1/models?all=1" ∧
        sent.headers.getAll acceptEncoding = [identity] ∧ sent.headers.getAll (.fromStatic "x-trace") = [] ∧
        exchange.response.status = 200 ∧ exchange.response.headers.getAll connection = [] := by
  have hrecords : ∃ index, KeyIndex.fromRecords aliceRecords.records = .ok index := ⟨_, rfl⟩
  obtain ⟨index, hindex⟩ := hrecords
  obtain ⟨exchange, hproxy, hsent, hrelays, -⟩ := requests_pass_with_an_enabled_key sampleEnv aliceRecords
    ⟨index, none, ("127.0.0.1", 9), "id", 10, 11⟩ (.ok ()) (some sampleSelection)
    (fun _ => .ok (200, [(connection, asciiBytes "close"), (contentType, asciiBytes "text/plain")])) sampleHead hindex
  have hkey : Presents printableAscii sampleHead.headers.toMap aliceKey :=
    ⟨asciiBytes ("bEaReR  " ++ aliceKey), ("bEaReR  " ++ aliceKey).toList,
      "bEaReR".toList, by decide +kernel, by decide +kernel, by decide +kernel, by decide +kernel⟩
  have hpresented : ∃ who, sampleEnv.Presented aliceRecords sampleHead false who :=
    ⟨_, aliceKey, hkey,
      ⟨"alice", "AAAAAAAA", "201C9E52C5B888ADCA996DEAFA688CA6E245CA73AE94E4A76A43F77309B12F3F", true, false, 0⟩,
      List.mem_cons_of_mem _ (List.mem_singleton_self _), by decide +kernel, rfl, rfl⟩
  have hpath : sampleEnv.pathAndQuery (upstreamPathAndQuery sampleSelection.2 sampleHead.uri) = .ok () := by
    decide +kernel
  obtain ⟨sent, hsome⟩ := Option.isSome_iff_exists.mp (hsent.mpr ⟨rfl, hpresented, _, _, rfl, hpath⟩)
  obtain ⟨decision, backend, hselection, hsends, hstatus, -, hrewrites⟩ := hrelays sent hsome
  cases hselection
  have hlisted : ListedByConnection sampleEnv.names sampleHead.headers (.fromStatic "x-trace") :=
    ⟨asciiBytes "X-Trace", by decide +kernel, asciiBytes "X-Trace", by decide +kernel, by decide +kernel, by
      unfold EqIgnoreAsciiCase
      decide +kernel⟩
  have hother : connection ∉ [proxyRequestId] := by decide
  refine ⟨index, hindex, exchange, sent, hproxy, hsome, ?_, hsends.headers.owned _ List.mem_cons_self, ?_, hstatus, ?_⟩
  · rw [hsends.pathAndQuery]
    decide +kernel
  · exact hsends.headers.dropped _ (by decide) (.inr hlisted)
  · exact hrewrites.dropped connection hother (.inl (by decide))

end MistralrsProxy
