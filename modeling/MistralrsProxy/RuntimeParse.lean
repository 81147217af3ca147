import MistralrsProxy.Runtime
import MistralrsProxy.TelemetryParse

/-! Reading a runtime configuration. The decoding of TOML, and reading and building URLs, are parameters; the validation
in between is the program's own. -/

namespace MistralrsProxy

def runtimeSchemaVersion : Nat := 1
def defaultMetricsPath : String := "/metrics"
def defaultReadinessPath : String := "/v1/models"

/-- A URL as it was read. -/
structure RawUri where
  scheme : Option String
  authority : Option String
  path : String
  query : Option String
  deriving DecidableEq, Repr

structure BackendFile where
  id : String
  url : String
  metricsUrl : Option String
  readinessUrl : Option String
  capacity : Option Nat
  deriving DecidableEq, Repr

/-- The decoded file, with its defaults filled in. -/
structure RuntimeFile where
  schemaVersion : Nat
  backends : List BackendFile
  kvSoftLimit : Float64
  telemetry : TelemetryConfig
  readiness : ReadinessConfig
  deriving DecidableEq

inductive RuntimeConfigError where
  | parse (message : String)
  | validation (message : String)
  | invalidBackendUrl (id field url reason : String)
  deriving DecidableEq, Repr

/-- What the libraries do: decode a file, read a URL, and build one from an authority and a path. -/
structure ConfigOps where
  fromToml : String → Except String RuntimeFile
  parseUri : String → Except String RawUri
  buildUri : String → String → Except String Uri

def Float64.isInUnit : Float64 → Bool
  | .finite value => decide (0 ≤ value ∧ value < 1)
  | .infinite _ | .nan => false

/-- The rational a finite number stands for. -/
def Float64.value : Float64 → ℚ
  | .finite value => value
  | .infinite _ | .nan => 0

/-- The controls that have to be positive, with their names. -/
def RuntimeFile.positiveControls (file : RuntimeFile) : List (String × Nat) :=
  [("telemetry.scrape_interval_ms", file.telemetry.scrapeIntervalMs),
    ("telemetry.scrape_timeout_ms", file.telemetry.scrapeTimeoutMs),
    ("telemetry.stale_after_ms", file.telemetry.staleAfterMs),
    ("readiness.probe_interval_ms", file.readiness.probeIntervalMs),
    ("readiness.probe_timeout_ms", file.readiness.probeTimeoutMs)]

def validateControls (file : RuntimeFile) : Except RuntimeConfigError Unit :=
  if !file.kvSoftLimit.isInUnit then
    .error (.validation "routing.kv_soft_limit must be greater than or equal to 0 and less than 1")
  else
    match file.positiveControls.find? fun control => control.2 == 0 with
    | some (name, _) => .error (.validation (name ++ " must be positive"))
    | none =>
        if file.telemetry.staleAfterMs < file.telemetry.scrapeIntervalMs then
          .error (.validation "telemetry.stale_after_ms must be at least telemetry.scrape_interval_ms")
        else if file.readiness.successThreshold = 0 ∨ file.readiness.failureThreshold = 0 then
          .error (.validation "readiness thresholds must be positive")
        else .ok ()

def validateBackendId (id : String) : Except RuntimeConfigError Unit :=
  if id.toList = [] ∨ 64 < id.utf8ByteSize then
    .error (.validation "backend ids must contain between 1 and 64 characters")
  else if !(id.toList.all fun char => char.isAlphanum || char == '-' || char == '_' || char == '.') then
    .error (.validation ("backend id " ++ debugText id ++ " may contain only ASCII letters, digits, '-', '_' and '.'"))
  else .ok ()

def validateUri (uri : RawUri) : Except String Uri :=
  if uri.scheme ≠ some "http" then .error "URL must use http:// (this build has no TLS connector)"
  else
    match uri.authority with
    | none => .error "URL must include a host"
    | some authority =>
        if '@' ∈ authority.toList then .error "URL cannot include user information"
        else if uri.query.isSome then .error "URL cannot include a query string"
        else .ok ⟨authority, uri.path⟩

def parseBackendUrl (ops : ConfigOps) (id field value : String) : Except RuntimeConfigError Uri :=
  match ops.parseUri value with
  | .error error => .error (.invalidBackendUrl id field value ("invalid URI: " ++ error))
  | .ok uri =>
      match validateUri uri with
      | .error reason => .error (.invalidBackendUrl id field value reason)
      | .ok uri => .ok uri

/-- `append_path`, for a URL that has been validated. -/
def appendPath (ops : ConfigOps) (base : Uri) (suffix : String) : Except String Uri :=
  let basePath := (base.path.toList.reverse.dropWhile (· == '/')).reverse
  let suffix := suffix.toList.dropWhile (· == '/')
  ops.buildUri base.authority
    (String.ofList (if basePath = [] then '/' :: suffix else basePath ++ '/' :: suffix))

/-- An endpoint that is given, or the default one under the request URL. -/
def endpointUrl (ops : ConfigOps) (id field : String) (given : Option String) (url : Uri) (suffix : String) :
    Except RuntimeConfigError Uri :=
  match given with
  | some value => parseBackendUrl ops id field value
  | none =>
      match appendPath ops url suffix with
      | .error reason => .error (.invalidBackendUrl id field url.render reason)
      | .ok uri => .ok uri

/-- The body of the loop over the backends, given the ids before. -/
def BackendFile.validate (ops : ConfigOps) (ids : List String) (raw : BackendFile) :
    Except RuntimeConfigError Backend := do
  validateBackendId raw.id
  if raw.id ∈ ids then throw (.validation ("backend id " ++ debugText raw.id ++ " appears more than once"))
  let url ← parseBackendUrl ops raw.id "url" raw.url
  let metricsUrl ← endpointUrl ops raw.id "metrics_url" raw.metricsUrl url defaultMetricsPath
  let readinessUrl ← endpointUrl ops raw.id "readiness_url" raw.readinessUrl url defaultReadinessPath
  if raw.capacity = some 0 then throw (.validation ("backend " ++ debugText raw.id ++ " capacity must be positive"))
  return ⟨raw.id, url, metricsUrl, readinessUrl, raw.capacity⟩

def validateBackends (ops : ConfigOps) (ids : List String) : List BackendFile → Except RuntimeConfigError (List Backend)
  | [] => .ok []
  | raw :: rest =>
      match raw.validate ops ids with
      | .error error => .error error
      | .ok backend =>
          match validateBackends ops (raw.id :: ids) rest with
          | .error error => .error error
          | .ok backends => .ok (backend :: backends)

/-- `RuntimeConfig::parse`. -/
def RuntimeConfig.parse (ops : ConfigOps) (contents : String) : Except RuntimeConfigError RuntimeConfig :=
  match ops.fromToml contents with
  | .error error => .error (.parse error)
  | .ok file =>
      if file.schemaVersion ≠ runtimeSchemaVersion then
        .error (.validation ("unsupported runtime schema version " ++ toString file.schemaVersion ++
          " (this build understands " ++ toString runtimeSchemaVersion ++ ")"))
      else if file.backends = [] then .error (.validation "runtime config must contain at least one backend")
      else
        match validateControls file with
        | .error error => .error error
        | .ok () =>
            match validateBackends ops [] file.backends with
            | .error error => .error error
            | .ok backends =>
                .ok
                  { backends := backends
                    routing := ⟨file.kvSoftLimit.value⟩
                    telemetry := file.telemetry
                    readiness := file.readiness }

theorem validateControls_softLimit {file : RuntimeFile} (h : validateControls file = .ok ()) :
    0 ≤ file.kvSoftLimit.value ∧ file.kvSoftLimit.value < 1 := by
  unfold validateControls at h
  split at h
  · cases h
  · rename_i hunit
    simp only [Bool.not_eq_true', Bool.not_eq_false] at hunit
    cases hlimit : file.kvSoftLimit with
    | finite value =>
        rw [hlimit] at hunit
        exact of_decide_eq_true hunit
    | infinite negative =>
        rw [hlimit] at hunit
        cases hunit
    | nan =>
        rw [hlimit] at hunit
        cases hunit

theorem BackendFile.validate_ok {ops : ConfigOps} {ids : List String} {raw : BackendFile} {backend : Backend}
    (h : raw.validate ops ids = .ok backend) : backend.id = raw.id ∧ raw.id ∉ ids ∧ backend.capacity ≠ some 0 := by
  simp only [validate, bind, Except.bind, pure, Except.pure] at h
  split at h
  · cases h
  · split at h
    · cases h
    · rename_i hnew
      split at h
      · cases h
      · split at h
        · cases h
        · split at h
          · cases h
          · split at h
            · cases h
            · rename_i hcapacity
              cases h
              exact ⟨rfl, hnew, hcapacity⟩

theorem validateBackends_ok {ops : ConfigOps} {files : List BackendFile} {ids : List String} {backends : List Backend}
    (h : validateBackends ops ids files = .ok backends) :
    (backends.map Backend.id).Nodup ∧ ∀ backend ∈ backends, backend.id ∉ ids ∧ backend.capacity ≠ some 0 := by
  induction files generalizing ids backends with
  | nil =>
      cases h
      exact ⟨List.nodup_nil, fun _ hmem => absurd hmem List.not_mem_nil⟩
  | cons raw rest ih =>
      rw [validateBackends] at h
      split at h
      · cases h
      · rename_i backend hbackend
        split at h
        · cases h
        · rename_i others hothers
          cases h
          obtain ⟨hid, hnew, hcapacity⟩ := BackendFile.validate_ok hbackend
          obtain ⟨hnodup, hall⟩ := ih hothers
          refine ⟨?_, ?_⟩
          · rw [List.map_cons, List.nodup_cons]
            refine ⟨?_, hnodup⟩
            intro hmem
            obtain ⟨other, hother, hsame⟩ := List.mem_map.mp hmem
            exact (hall other hother).1 (hsame ▸ hid ▸ List.mem_cons_self)
          · intro other hother
            rcases List.mem_cons.mp hother with rfl | hother
            · exact ⟨hid ▸ hnew, hcapacity⟩
            · exact ⟨fun hmem => (hall other hother).1 (List.mem_cons_of_mem _ hmem), (hall other hother).2⟩

/-- An accepted configuration has distinct backends, a soft limit below one, and no zero capacity. -/
theorem RuntimeConfig.parse_ok {ops : ConfigOps} {contents : String} {config : RuntimeConfig}
    (h : RuntimeConfig.parse ops contents = .ok config) :
    config.Distinct ∧ (0 ≤ config.routing.kvSoftLimit ∧ config.routing.kvSoftLimit < 1) ∧
      ∀ backend ∈ config.backends, backend.capacity ≠ some 0 := by
  unfold RuntimeConfig.parse at h
  split at h
  · cases h
  · split at h
    · cases h
    · split at h
      · cases h
      · split at h
        · cases h
        · rename_i hcontrols
          split at h
          · cases h
          · rename_i backends hbackends
            cases h
            obtain ⟨hnodup, hall⟩ := validateBackends_ok hbackends
            exact ⟨hnodup, validateControls_softLimit hcontrols, fun backend hmem => (hall backend hmem).2⟩

end MistralrsProxy
