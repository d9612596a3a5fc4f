import S3Gateway.Cache.Metadata

/-!
# Configuration (`internal/config`)

`Load` starts from defaults, lets environment variables override them and refuses what it
cannot use. `BuildTLSConfig` makes the TLS settings of the server from the files they name.

Together they fail closed (`tls_of_load`): whoever asks for TLS gets a server with the
certificate, the minimum version and the check of client certificates that the variables
say, or no server at all.

An environment variable that is set to the empty string counts as not set.
-/

namespace S3Gateway

open Lib

/-! ## Package `strconv` -/

/-- `strconv.ErrSyntax` and `strconv.ErrRange`. -/
inductive NumErr where
  | errSyntax
  | errRange
deriving DecidableEq

/-- `strconv.NumError`. -/
structure NumError where
  func : GoString
  num : GoString
  err : NumErr
deriving DecidableEq

/-- One digit of `strconv.ParseUint(s, 10, 64)`. -/
def decimalDigit (n : Nat) (c : UInt8) : Except NumErr Nat :=
  if 48 ≤ c ∧ c ≤ 57 then
    if n * 10 + (c.toNat - 48) < 2 ^ 64 then .ok (n * 10 + (c.toNat - 48)) else .error .errRange
  else .error .errSyntax

/-- `strconv.ParseUint(s, 10, 64)`. -/
def parseUint (s : GoString) : Except NumErr Nat :=
  if s = [] then .error .errSyntax else s.foldlM decimalDigit 0

/-- `strconv.ParseInt(s, 10, 64)`. -/
def parseInt (s : GoString) : Except NumErr Int :=
  match s with
  | 45 :: digits => do -- '-'
    let un ← parseUint digits
    if un > 2 ^ 63 then .error .errRange else .ok (-un)
  | 43 :: digits => positive digits -- '+'
  | digits => positive digits
where
  positive (digits : GoString) : Except NumErr Int := do
    let un ← parseUint digits
    if un ≥ 2 ^ 63 then .error .errRange else .ok un

example : parseInt (gs "-9223372036854775808") = .ok (-2 ^ 63) ∧
    parseInt (gs "9223372036854775808") = .error .errRange ∧
    parseInt (gs "20 49") = .error .errSyntax := by
  decide

/-! ## `Load` -/

namespace Config

structure S3Config where
  endpoint : GoString
  accessKey : GoString
  secretKey : GoString
  bucket : GoString
  region : GoString
  useSSL : Bool
  pathStyle : Bool

structure NFSConfig where
  port : Int
  bindAddr : GoString

structure HealthConfig where
  port : Int

structure CacheConfig where
  metadataTTL : Time
  dataDir : GoString
  dataMaxSize : Int

structure LogConfig where
  level : GoString

structure TLSConfig where
  enable : Bool
  certFile : GoString
  keyFile : GoString
  clientCAFile : GoString
  minVersion : GoString

end Config

structure Config where
  s3 : Config.S3Config
  nfs : Config.NFSConfig
  health : Config.HealthConfig
  cache : Config.CacheConfig
  log : Config.LogConfig
  tls : Config.TLSConfig

/-- What `Load` refuses. -/
inductive LoadError where
  /-- "invalid NAME: ..." -/
  | invalid (name : GoString) (err : NumError)
  /-- "invalid CACHE_METADATA_TTL: ..." -/
  | invalidTTL (err : GoError)
  /-- "NFS_TLS_ENABLE=true requires NFS_TLS_CERT_FILE and NFS_TLS_KEY_FILE" -/
  | tlsFilesRequired
  /-- "invalid NFS_TLS_MIN_VERSION ... (want "1.2" or "1.3")" -/
  | invalidMinVersion (v : GoString)
  /-- "S3_ACCESS_KEY and S3_SECRET_KEY environment variables are required" -/
  | credentialsRequired

namespace Config

section Overrides

variable (getenv : GoString → GoString)

/-- A variable that is taken as it is. -/
def stringVar (name : String) (dflt : GoString) : GoString :=
  if getenv (gs name) = [] then dflt else getenv (gs name)

/-- A switch. -/
def boolVar (name : String) (dflt : Bool) : Bool :=
  if getenv (gs name) = [] then dflt
  else getenv (gs name) == gs "true" || getenv (gs name) == gs "1"

/-- A number, read by `strconv.Atoi` or `strconv.ParseInt`. -/
def numberVar (func name : String) (dflt : Int) : Except LoadError Int :=
  if getenv (gs name) = [] then .ok dflt
  else
    match parseInt (getenv (gs name)) with
    | .ok n => .ok n
    | .error err => .error (.invalid (gs name) ⟨gs func, getenv (gs name), err⟩)

/-- A duration. -/
def ttlVar (parseDuration : GoString → Except GoError Time) (dflt : Time) :
    Except LoadError Time :=
  if getenv (gs "CACHE_METADATA_TTL") = [] then .ok dflt
  else
    match parseDuration (getenv (gs "CACHE_METADATA_TTL")) with
    | .ok d => .ok d
    | .error err => .error (.invalidTTL err)

end Overrides

/-- `Load` checks the TLS settings if they are wanted. -/
def TLSConfig.check (t : TLSConfig) : Except LoadError Unit :=
  if !t.enable then .ok ()
  else if t.certFile = [] ∨ t.keyFile = [] then .error .tlsFilesRequired
  else if t.minVersion = [] ∨ t.minVersion = gs "1.2" ∨ t.minVersion = gs "1.3" then .ok ()
  else .error (.invalidMinVersion t.minVersion)

def S3Config.check (s : S3Config) : Except LoadError Unit :=
  if s.accessKey = [] ∨ s.secretKey = [] then .error .credentialsRequired else .ok ()

/-- The defaults with the overrides; those that can be refused are read before. -/
def ofEnv (getenv : GoString → GoString) (nfsPort healthPort dataMaxSize : Int)
    (metadataTTL : Time) : Config where
  s3 :=
    { endpoint := stringVar getenv "S3_ENDPOINT" (gs "localhost:9000")
      accessKey := stringVar getenv "S3_ACCESS_KEY" []
      secretKey := stringVar getenv "S3_SECRET_KEY" []
      bucket := stringVar getenv "S3_BUCKET" (gs "data")
      region := stringVar getenv "S3_REGION" (gs "us-east-1")
      useSSL := boolVar getenv "S3_USE_SSL" true
      pathStyle := boolVar getenv "S3_PATH_STYLE" true }
  nfs :=
    { port := nfsPort
      bindAddr := stringVar getenv "NFS_BIND_ADDR" (gs "0.0.0.0") }
  health := { port := healthPort }
  cache :=
    { metadataTTL
      dataDir := stringVar getenv "CACHE_DATA_DIR" (gs "/var/cache/s3gw")
      dataMaxSize }
  log := { level := stringVar getenv "LOG_LEVEL" (gs "info") }
  tls :=
    { enable := boolVar getenv "NFS_TLS_ENABLE" false
      certFile := stringVar getenv "NFS_TLS_CERT_FILE" []
      keyFile := stringVar getenv "NFS_TLS_KEY_FILE" []
      clientCAFile := stringVar getenv "NFS_TLS_CLIENT_CA_FILE" []
      minVersion := stringVar getenv "NFS_TLS_MIN_VERSION" (gs "1.3") }

/-- `Load`. The configuration file is not read yet. -/
def load (getenv : GoString → GoString) (parseDuration : GoString → Except GoError Time) :
    Except LoadError Config := do
  let nfsPort ← numberVar getenv "Atoi" "NFS_PORT" 2049
  let healthPort ← numberVar getenv "Atoi" "HEALTH_PORT" 9090
  let dataMaxSize ← numberVar getenv "ParseInt" "CACHE_DATA_MAX_SIZE" (10 * 1024 * 1024 * 1024)
  let metadataTTL ← ttlVar getenv parseDuration (60 * second)
  let cfg := ofEnv getenv nfsPort healthPort dataMaxSize metadataTTL
  cfg.tls.check
  cfg.s3.check
  return cfg

/-! ## `BuildTLSConfig` -/

/-- `tls.VersionTLS12` and `tls.VersionTLS13`. -/
def versionTLS12 : UInt16 := 0x0303
def versionTLS13 : UInt16 := 0x0304

/-- `tls.ClientAuthType`, as far as it is used. -/
inductive ClientAuth where
  | noClientCert
  | requireAndVerifyClientCert
deriving DecidableEq

/-- `tls.Config`, as far as it is used. -/
structure ServerTLS (Cert CertPool : Type) where
  certificates : List Cert
  minVersion : UInt16
  clientCAs : Option CertPool
  clientAuth : ClientAuth

/-- The files the TLS settings name, and what `crypto/tls` and `crypto/x509` make of them. -/
structure TLSFiles (Cert CertPool : Type) where
  loadX509KeyPair : GoString → GoString → Except GoError Cert
  readFile : GoString → Except GoError Bytes
  /-- `AppendCertsFromPEM` on a new pool: `none` if there is no usable certificate. -/
  certsFromPEM : Bytes → Option CertPool

/-- `BuildTLSConfig`. -/
def TLSConfig.buildTLSConfig {Cert CertPool : Type} (t : TLSConfig)
    (files : TLSFiles Cert CertPool) : Except GoError (Option (ServerTLS Cert CertPool)) :=
  if !t.enable then .ok none
  else
    match files.loadX509KeyPair t.certFile t.keyFile with
    | .error err => .error (.wrap (gs "load TLS cert/key") err)
    | .ok cert =>
      let cfg : ServerTLS Cert CertPool :=
        { certificates := [cert]
          minVersion := if t.minVersion = gs "1.2" then versionTLS12 else versionTLS13
          clientCAs := none
          clientAuth := .noClientCert }
      if t.clientCAFile = [] then .ok (some cfg)
      else
        match files.readFile t.clientCAFile with
        | .error err => .error (.wrap (gs "read client CA") err)
        | .ok caBytes =>
          match files.certsFromPEM caBytes with
          | none =>
            .error (.text (gs "client CA file " ++ t.clientCAFile ++
              gs " contains no usable certs"))
          | some pool =>
            .ok (some { cfg with
              clientCAs := some pool
              clientAuth := .requireAndVerifyClientCert })

/-! ## What `Load` accepts -/

theorem bind_eq_ok {ε α β : Type} {x : Except ε α} {f : α → Except ε β} {b : β} :
    x >>= f = .ok b ↔ ∃ a, x = .ok a ∧ f a = .ok b := by
  cases x with
  | error err =>
    refine ⟨fun h => ?_, ?_⟩
    · cases h
    · rintro ⟨a, ha, -⟩
      cases ha
  | ok a =>
    refine ⟨fun h => ⟨a, rfl, h⟩, ?_⟩
    rintro ⟨a', ha, h⟩
    cases ha
    exact h

section Load

variable {getenv : GoString → GoString} {parseDuration : GoString → Except GoError Time}
  {cfg : Config}

theorem load_eq_ok : load getenv parseDuration = .ok cfg ↔
    ∃ nfsPort healthPort dataMaxSize metadataTTL,
      numberVar getenv "Atoi" "NFS_PORT" 2049 = .ok nfsPort ∧
      numberVar getenv "Atoi" "HEALTH_PORT" 9090 = .ok healthPort ∧
      numberVar getenv "ParseInt" "CACHE_DATA_MAX_SIZE" (10 * 1024 * 1024 * 1024)
        = .ok dataMaxSize ∧
      ttlVar getenv parseDuration (60 * second) = .ok metadataTTL ∧
      cfg = ofEnv getenv nfsPort healthPort dataMaxSize metadataTTL ∧
      cfg.tls.check = .ok () ∧ cfg.s3.check = .ok () := by
  unfold load
  simp only [bind_eq_ok]
  constructor
  · rintro ⟨nfsPort, hnfs, healthPort, hhealth, size, hsize, ttl, httl, _, htls, _, hs3, heq⟩
    cases heq
    exact ⟨nfsPort, healthPort, size, ttl, hnfs, hhealth, hsize, httl, rfl, htls, hs3⟩
  · rintro ⟨nfsPort, healthPort, size, ttl, hnfs, hhealth, hsize, httl, rfl, htls, hs3⟩
    exact ⟨nfsPort, hnfs, healthPort, hhealth, size, hsize, ttl, httl, (), htls, (), hs3, rfl⟩

/-- A variable without a default is what the environment says. -/
theorem stringVar_nil (name : String) : stringVar getenv name [] = getenv (gs name) := by
  unfold stringVar
  split
  · next h => exact h.symm
  · rfl

theorem stringVar_ne_nil {name : String} {dflt : GoString} (h : dflt ≠ []) :
    stringVar getenv name dflt ≠ [] := by
  unfold stringVar
  split
  · exact h
  · assumption

end Load

/-- TLS is asked for. -/
def TLSWanted (getenv : GoString → GoString) : Prop :=
  getenv (gs "NFS_TLS_ENABLE") = gs "true" ∨ getenv (gs "NFS_TLS_ENABLE") = gs "1"

/-- Client certificates are checked if a file of authorities is named, against the
certificates in that file. -/
structure ServerTLS.ChecksClients {Cert CertPool : Type} (tls : ServerTLS Cert CertPool)
    (files : TLSFiles Cert CertPool) (clientCAFile : GoString) : Prop where
  off : clientCAFile = [] → tls.clientAuth = .noClientCert
  on : clientCAFile ≠ [] → ∃ pem pool, files.readFile clientCAFile = .ok pem ∧
    files.certsFromPEM pem = some pool ∧ tls.clientCAs = some pool ∧
    tls.clientAuth = .requireAndVerifyClientCert

/-- The TLS settings are those the environment asks for. -/
structure TLSAsAsked {Cert CertPool : Type} (getenv : GoString → GoString)
    (files : TLSFiles Cert CertPool) (tls : Option (ServerTLS Cert CertPool)) : Prop where
  off : ¬TLSWanted getenv → tls = none
  on : TLSWanted getenv → ∃ cert cfg, tls = some cfg ∧
    files.loadX509KeyPair (getenv (gs "NFS_TLS_CERT_FILE")) (getenv (gs "NFS_TLS_KEY_FILE"))
      = .ok cert ∧
    cfg.certificates = [cert] ∧
    cfg.minVersion = (if getenv (gs "NFS_TLS_MIN_VERSION") = gs "1.2" then versionTLS12
      else versionTLS13) ∧
    cfg.ChecksClients files (getenv (gs "NFS_TLS_CLIENT_CA_FILE"))

theorem enable_iff_tlsWanted {getenv : GoString → GoString} :
    boolVar getenv "NFS_TLS_ENABLE" false = true ↔ TLSWanted getenv := by
  unfold boolVar TLSWanted
  split
  · next h =>
    rw [h]
    decide
  · simp

/-- `BuildTLSConfig` gives the settings that were asked for, or an error. -/
theorem tls_of_build {Cert CertPool : Type} {t : TLSConfig} {files : TLSFiles Cert CertPool}
    {tls : Option (ServerTLS Cert CertPool)} (h : t.buildTLSConfig files = .ok tls) :
    (t.enable = false → tls = none) ∧
      (t.enable = true → ∃ cert cfg, tls = some cfg ∧
        files.loadX509KeyPair t.certFile t.keyFile = .ok cert ∧ cfg.certificates = [cert] ∧
        cfg.minVersion = (if t.minVersion = gs "1.2" then versionTLS12 else versionTLS13) ∧
        cfg.ChecksClients files t.clientCAFile) := by
  unfold TLSConfig.buildTLSConfig at h
  split at h
  · next hoff =>
    cases h
    exact ⟨fun _ => rfl, fun hon => by simp [hon] at hoff⟩
  · next hon =>
    refine ⟨fun hoff => by simp [hoff] at hon, fun _ => ?_⟩
    split at h
    · cases h
    · next cert hcert =>
      dsimp only at h
      split at h
      · next hca =>
        cases h
        exact ⟨cert, _, rfl, hcert, rfl, rfl, fun _ => rfl, fun hne => absurd hca hne⟩
      · next hca =>
        split at h
        · cases h
        · next pem hpem =>
          split at h
          · cases h
          · next pool hpool =>
            cases h
            exact ⟨cert, _, rfl, hcert, rfl, rfl, fun hnil => absurd hnil hca,
              fun _ => ⟨pem, pool, hpem, hpool, rfl, rfl⟩⟩

/-- Whoever asks for TLS gets what was asked for, or no configuration. -/
theorem tls_of_load {Cert CertPool : Type} {getenv : GoString → GoString}
    {parseDuration : GoString → Except GoError Time} {cfg : Config}
    (hload : load getenv parseDuration = .ok cfg) {files : TLSFiles Cert CertPool}
    {tls : Option (ServerTLS Cert CertPool)} (hbuild : cfg.tls.buildTLSConfig files = .ok tls) :
    TLSAsAsked getenv files tls := by
  obtain ⟨nfsPort, healthPort, size, ttl, -, -, -, -, rfl, -, -⟩ := load_eq_ok.mp hload
  obtain ⟨hoff, hon⟩ := tls_of_build hbuild
  refine ⟨fun hno => hoff ?_, fun hwanted => ?_⟩
  · exact Bool.eq_false_of_not_eq_true fun henable => hno (enable_iff_tlsWanted.mp henable)
  · obtain ⟨cert, cfg, htls, hcert, hcerts, hmin, hclients⟩ :=
      hon (enable_iff_tlsWanted.mpr hwanted)
    refine ⟨cert, cfg, htls, ?_, hcerts, hmin.trans ?_, ?_⟩
    · simpa only [ofEnv, stringVar_nil] using hcert
    · -- the default is no version 1.2
      show (if stringVar getenv _ _ = _ then _ else _) = _
      refine if_congr ?_ rfl rfl
      unfold stringVar
      split
      · next hnil =>
        rw [hnil]
        decide
      · rfl
    · simpa only [ofEnv, stringVar_nil] using hclients

end Config

end S3Gateway
