import S3Gateway.Config.Load
import S3Gateway.S3fs.Resolve

/-!
# Starting the gateway (`cmd/s3nfsgw/main.go`, `internal/nfs/server.go`, `internal/s3`)

`main` loads the configuration, makes sure of the bucket, starts the health server, opens
the handle store, builds the TLS settings and creates the NFS server; it exits at the first
of these that fails. `startup` is that, up to the call of `Serve`.

- A server that is created has the TLS settings that were asked for, credentials, a bucket
  that exists and a data cache (`startup_fails_closed`).
- Two settings make no difference to it: the log level, and the lifetime of metadata, for
  which `NewServer` takes the default (`startup_ignores_settings`).
- The life of the process, with its starts, failed starts and ends, is a run of the gateway
  (`process_refines_gateway`).
-/

namespace S3Gateway

open Lib

/-! ## The S3 backend -/

/-- `S3Backend`. -/
inductive S3Backend where
  | minio
  | aws
  | objectScale
deriving DecidableEq

/-- `strings.Contains`. -/
def containsString (s sub : GoString) : Bool := s.tails.any fun t => hasPrefix t sub

/-- `DetectBackend`, for endpoints in ASCII. -/
def detectBackend (endpoint : GoString) : S3Backend :=
  let host := trimPrefix (trimPrefix endpoint (gs "http://")) (gs "https://")
  if (gs ":9020").isSuffixOf host || (gs ":9021").isSuffixOf host then .objectScale
  else if (gs ":9000").isSuffixOf host then .minio
  else
    let lower := host.map toLower
    if containsString lower (gs "objectscale") || containsString lower (gs "dell") then
      .objectScale
    else if containsString lower (gs "minio") then .minio
    else if containsString lower (gs "amazonaws.com") || containsString lower (gs "s3.") then .aws
    else .aws

/-- The hints of `wrapConnectionError`. -/
def S3Backend.hints : S3Backend → List GoString
  | .objectScale =>
    [gs "verify the endpoint uses port 9020 (HTTP) or 9021 (HTTPS)",
      gs "ensure path-style addressing is enabled (S3_PATH_STYLE=true)",
      gs "check that the ObjectScale namespace and bucket exist",
      gs "if using HTTPS, verify the TLS certificate is trusted or set " ++
        gs "S3_USE_SSL=false for testing"]
  | .minio =>
    [gs "verify MinIO is running and reachable at the configured endpoint",
      gs "check that access key and secret key are correct"]
  | .aws => []

/-! ## `main` -/

/-- What makes `main` exit. -/
inductive StartError where
  /-- "failed to load configuration" -/
  | load (err : LoadError)
  /-- "create minio client: ..." -/
  | createClient (err : GoError)
  /-- `wrapConnectionError` -/
  | connection (backend : S3Backend) (err : GoError) (hints : List GoString)
  /-- "bucket ... does not exist on ... backend" -/
  | noBucket (bucket : GoString) (backend : S3Backend)
  /-- "failed to start health server" -/
  | health (err : GoError)
  /-- "failed to create data directory" -/
  | dataDirectory (err : GoError)
  /-- "failed to open handle store" -/
  | handleStore (err : GoError)
  /-- "failed to build TLS config" -/
  | buildTLS (err : GoError)
  /-- "failed to create NFS server" -/
  | newServer (err : GoError)
  /-- `NewDataCache` panics. -/
  | crashed

/-- What the process finds when it starts. -/
structure Machine (Cert CertPool : Type) where
  getenv : GoString → GoString
  parseDuration : GoString → Except GoError Time
  files : Config.TLSFiles Cert CertPool
  /-- `minio.New` -/
  minioNew : Config.S3Config → Except GoError Unit
  /-- `BucketExists` -/
  bucketExists : GoString → Except GoError Bool
  /-- `net.Listen` of the health server -/
  listen : GoString → Except GoError Unit
  mkdirAll : GoString → Except GoError Unit
  /-- `bolt.Open` -/
  boltOpen : GoString → Except GoError Unit
  /-- Whether the transaction of `init` commits. -/
  commit : Bool
  sha256 : Sha256
  /-- The files in a cache directory, and how looking at them goes. -/
  disk : GoString → Disk
  scan : ScanOutcome
  now : Time
  /-- `NewServerTCP` -/
  newServerTCP : GoString → Except GoError Unit

/-- `Server`: where it listens, and what it serves from besides S3. -/
structure Server (Cert CertPool : Type) where
  addr : GoString
  tls : Option (Config.ServerTLS Cert CertPool)
  handles : HandleStore
  cache : MetadataCache
  dataCache : Option DataCache

/-- The gateway that is served; `w` is what the process is part of. -/
def Server.gateway {Cert CertPool : Type} (srv : Server Cert CertPool) (w : World) : Gateway :=
  ⟨{ w with handles := srv.handles, cache := some srv.cache, dataCache := srv.dataCache }, []⟩

section Main

variable {Cert CertPool : Type} (m : Machine Cert CertPool)

/-- `ValidateConnection`. -/
def validateConnection (bucket : GoString) (backend : S3Backend) : Except StartError Unit :=
  match m.bucketExists bucket with
  | .error err => .error (.connection backend err backend.hints)
  | .ok found => if found then .ok () else .error (.noBucket bucket backend)

/-- `NewClient`. -/
def newClient (cfg : Config.S3Config) : Except StartError Unit := do
  (m.minioNew cfg).mapError .createClient
  validateConnection m cfg.bucket (detectBackend cfg.endpoint)

/-- `NewHandleStore` on the database `db`. -/
def openHandleStore (dbPath : GoString) (db : BoltDB) : Except StartError HandleStore := do
  (m.boltOpen dbPath).mapError fun err => .handleStore (.wrap (gs "open bbolt") err)
  match HandleStore.newHandleStore db m.commit with
  | none => .error (.handleStore .txFailed)
  | some handles => .ok handles

/-- The data cache of `NewServer`. -/
def openDataCache (dir : GoString) (maxSize : Int) : Except StartError (Option DataCache) :=
  if dir = [] then .ok none
  else
    match newDataCache m.sha256 { maxSize, dataTTL := 0 } m.scan m.now (m.disk dir) with
    | none => .error .crashed
    | some (.error err) => .error (.newServer (.wrap (gs "create data cache") err))
    | some (.ok dc) => .ok (some dc)

/-- `NewServer`. The metadata cache gets the default settings. -/
def newServer (cfg : Config) (tls : Option (Config.ServerTLS Cert CertPool))
    (handles : HandleStore) : Except StartError (Server Cert CertPool) := do
  let cache := newMetadataCache defaultCacheConfig
  let dataCache ← openDataCache m cfg.cache.dataDir cfg.cache.dataMaxSize
  let addr := cfg.nfs.bindAddr ++ gs ":" ++ itoa cfg.nfs.port
  (m.newServerTCP addr).mapError fun err => .newServer (.wrap (gs "create NFS server") err)
  return { addr, tls, handles, cache, dataCache }

/-- `main` up to the handle store. -/
def connect (dataDir : GoString) : Except StartError Config := do
  let cfg ← (Config.load m.getenv m.parseDuration).mapError .load
  newClient m cfg.s3
  (m.listen (gs ":" ++ itoa cfg.health.port)).mapError .health
  (m.mkdirAll dataDir).mapError .dataDirectory
  return cfg

/-- `main` from there to `Serve`. -/
def serve (cfg : Config) (handles : HandleStore) : Except StartError (Server Cert CertPool) := do
  let tls ← (cfg.tls.buildTLSConfig m.files).mapError .buildTLS
  newServer m cfg tls handles

/-- `filepath.Join` of the data directory and the database's name. -/
def handlesPath (dataDir : GoString) : GoString :=
  if dataDir = [] then gs "handles.db" else clean (dataDir ++ gs "/handles.db")

/-- `main` up to `Serve`: the server or why there is none, and the database it leaves. -/
def startup (dataDir : GoString) (db : BoltDB) :
    Except StartError (Server Cert CertPool) × BoltDB :=
  match connect m dataDir with
  | .error err => (.error err, db)
  | .ok cfg =>
    match openHandleStore m (handlesPath dataDir) db with
    | .error err => (.error err, db)
    | .ok handles => (serve m cfg handles, handles.db)

end Main

/-! ## What is started -/

section Started

variable {Cert CertPool : Type} {m : Machine Cert CertPool} {cfg : Config} {handles : HandleStore}
  {srv : Server Cert CertPool} {dataDir : GoString} {db : BoltDB}

theorem mapError_eq_ok {ε ε' α : Type} {x : Except ε α} {f : ε → ε'} {a : α} :
    x.mapError f = .ok a ↔ x = .ok a := by
  cases x with
  | error err => simp [Except.mapError]
  | ok a' => simp [Except.mapError]

theorem validateConnection_eq_ok {bucket : GoString} {backend : S3Backend} :
    validateConnection m bucket backend = .ok () ↔ m.bucketExists bucket = .ok true := by
  unfold validateConnection
  cases m.bucketExists bucket with
  | error err => simp
  | ok found => cases found <;> simp

theorem connect_eq_ok : connect m dataDir = .ok cfg ↔
    Config.load m.getenv m.parseDuration = .ok cfg ∧ m.minioNew cfg.s3 = .ok () ∧
      m.bucketExists cfg.s3.bucket = .ok true ∧
      m.listen (gs ":" ++ itoa cfg.health.port) = .ok () ∧ m.mkdirAll dataDir = .ok () := by
  unfold connect newClient
  simp only [Config.bind_eq_ok, mapError_eq_ok]
  constructor
  · rintro ⟨cfg', hload, _, ⟨_, hnew, hbucket⟩, _, hlisten, _, hmkdir, heq⟩
    cases heq
    exact ⟨hload, hnew, validateConnection_eq_ok.mp hbucket, hlisten, hmkdir⟩
  · rintro ⟨hload, hnew, hbucket, hlisten, hmkdir⟩
    exact ⟨cfg, hload, (), ⟨(), hnew, validateConnection_eq_ok.mpr hbucket⟩, (), hlisten, (),
      hmkdir, rfl⟩

theorem serve_eq_ok : serve m cfg handles = .ok srv ↔
    ∃ tls dataCache, cfg.tls.buildTLSConfig m.files = .ok tls ∧
      openDataCache m cfg.cache.dataDir cfg.cache.dataMaxSize = .ok dataCache ∧
      m.newServerTCP (cfg.nfs.bindAddr ++ gs ":" ++ itoa cfg.nfs.port) = .ok () ∧
      srv = ⟨cfg.nfs.bindAddr ++ gs ":" ++ itoa cfg.nfs.port, tls, handles,
        newMetadataCache defaultCacheConfig, dataCache⟩ := by
  unfold serve newServer
  simp only [Config.bind_eq_ok, mapError_eq_ok]
  constructor
  · rintro ⟨tls, htls, dataCache, hdata, _, hlisten, heq⟩
    cases heq
    exact ⟨tls, dataCache, htls, hdata, hlisten, rfl⟩
  · rintro ⟨tls, dataCache, htls, hdata, hlisten, rfl⟩
    exact ⟨tls, htls, dataCache, hdata, (), hlisten, rfl⟩

theorem startup_eq_ok : (startup m dataDir db).1 = .ok srv ↔
    ∃ cfg handles, connect m dataDir = .ok cfg ∧
      openHandleStore m (handlesPath dataDir) db = .ok handles ∧
      serve m cfg handles = .ok srv := by
  unfold startup
  constructor
  · intro h
    split at h
    · cases h
    · next cfg hcfg =>
      split at h
      · cases h
      · next handles hhandles => exact ⟨cfg, handles, hcfg, hhandles, h⟩
  · rintro ⟨cfg, handles, hcfg, hhandles, hserve⟩
    rw [hcfg]
    dsimp only
    rw [hhandles]
    exact hserve

/-- The data cache cannot be switched off: the variable for its directory counts as not set
if it is empty. -/
theorem isSome_of_openDataCache {dir : GoString} {maxSize : Int} {dataCache : Option DataCache}
    (hdir : dir ≠ []) (h : openDataCache m dir maxSize = .ok dataCache) :
    dataCache.isSome = true := by
  rw [openDataCache, if_neg hdir] at h
  split at h
  · cases h
  · cases h
  · cases h
    rfl

/-- The gateway serves as it was told to, or not at all. In whatever environment it is
started: if it comes to serve, its TLS settings are those the variables ask for (the
certificate of the named files, the minimum version, the check of client certificates), it
has credentials, the bucket exists, and there is a data cache. -/
theorem startup_fails_closed (h : (startup m dataDir db).1 = .ok srv) :
    Config.TLSAsAsked m.getenv m.files srv.tls ∧
      (m.getenv (gs "S3_ACCESS_KEY") ≠ [] ∧ m.getenv (gs "S3_SECRET_KEY") ≠ []) ∧
      m.bucketExists (Config.stringVar m.getenv "S3_BUCKET" (gs "data")) = .ok true ∧
      srv.dataCache.isSome = true := by
  obtain ⟨cfg, handles, hconnect, -, hserve⟩ := startup_eq_ok.mp h
  obtain ⟨hload, -, hbucket, -, -⟩ := connect_eq_ok.mp hconnect
  obtain ⟨tls, dataCache, htls, hdata, -, rfl⟩ := serve_eq_ok.mp hserve
  refine ⟨Config.tls_of_load hload htls, ?_⟩
  obtain ⟨nfsPort, healthPort, size, ttl, -, -, -, -, rfl, -, hcred⟩ := Config.load_eq_ok.mp hload
  refine ⟨?_, hbucket, isSome_of_openDataCache (Config.stringVar_ne_nil (by decide)) hdata⟩
  simpa [Config.S3Config.check, Config.ofEnv, Config.stringVar_nil] using hcred

/-- A machine on which everything works, with these variables. -/
def Machine.working (vars : GoMap GoString GoString) : Machine Unit Unit where
  getenv name := (vars.lookup name).getD []
  parseDuration _ := .ok (3600 * second)
  files := ⟨fun _ _ => .ok (), fun _ => .ok [], fun _ => some ()⟩
  minioNew _ := .ok ()
  bucketExists _ := .ok true
  listen _ := .ok ()
  mkdirAll _ := .ok ()
  boltOpen _ := .ok ()
  commit := true
  sha256 := DataCache.padded
  disk _ := ∅
  scan := ⟨true, true, fun _ => true, fun _ => true⟩
  now := 0
  newServerTCP _ := .ok ()

/-- Variables that ask for TLS and for the check of client certificates. -/
def tlsVars : GoMap GoString GoString :=
  [(gs "S3_ACCESS_KEY", gs "a"), (gs "S3_SECRET_KEY", gs "s"), (gs "NFS_TLS_ENABLE", gs "true"),
    (gs "NFS_TLS_CERT_FILE", gs "c"), (gs "NFS_TLS_KEY_FILE", gs "k"),
    (gs "NFS_TLS_CLIENT_CA_FILE", gs "ca")].foldl (fun vars v => vars.insert v.1 v.2) ∅

theorem startup_fails_closed_tls :
    ∃ srv, (startup (.working tlsVars) (gs "/d") .empty).1 = .ok srv ∧
      Config.TLSAsAsked (Machine.working tlsVars).getenv (Machine.working tlsVars).files
        srv.tls := by
  have hok : (startup (.working tlsVars) (gs "/d") .empty).1.isOk = true := by decide
  cases hstart : (startup (.working tlsVars) (gs "/d") .empty).1 with
  | error err =>
    rw [hstart] at hok
    cases hok
  | ok srv => exact ⟨srv, rfl, (startup_fails_closed hstart).1⟩

/-- The two configurations are the same in all that is used of them. -/
structure Config.SameUse (cfg cfg' : Config) : Prop where
  s3 : cfg'.s3 = cfg.s3
  nfs : cfg'.nfs = cfg.nfs
  health : cfg'.health = cfg.health
  tls : cfg'.tls = cfg.tls
  dataDir : cfg'.cache.dataDir = cfg.cache.dataDir
  dataMaxSize : cfg'.cache.dataMaxSize = cfg.cache.dataMaxSize

/-- The environments differ in the log level and the lifetime of metadata at most. -/
def SameEnv (getenv getenv' : GoString → GoString) : Prop :=
  ∀ name, name ≠ gs "LOG_LEVEL" → name ≠ gs "CACHE_METADATA_TTL" → getenv' name = getenv name

/-- The variable is none of the two. -/
abbrev Used (name : String) : Prop :=
  gs name ≠ gs "LOG_LEVEL" ∧ gs name ≠ gs "CACHE_METADATA_TTL"

section SameEnv

variable {getenv getenv' : GoString → GoString} {name : String}

theorem SameEnv.stringVar (h : SameEnv getenv getenv') (hname : Used name) (dflt : GoString) :
    Config.stringVar getenv' name dflt = Config.stringVar getenv name dflt := by
  rw [Config.stringVar, Config.stringVar, h _ hname.1 hname.2]

theorem SameEnv.boolVar (h : SameEnv getenv getenv') (hname : Used name) (dflt : Bool) :
    Config.boolVar getenv' name dflt = Config.boolVar getenv name dflt := by
  rw [Config.boolVar, Config.boolVar, h _ hname.1 hname.2]

theorem SameEnv.numberVar (h : SameEnv getenv getenv') (hname : Used name) (func : String)
    (dflt : Int) :
    Config.numberVar getenv' func name dflt = Config.numberVar getenv func name dflt := by
  rw [Config.numberVar, Config.numberVar, h _ hname.1 hname.2]

end SameEnv

theorem sameUse_ofEnv {getenv getenv' : GoString → GoString} (h : SameEnv getenv getenv')
    (nfsPort healthPort dataMaxSize : Int) (metadataTTL metadataTTL' : Time) :
    (Config.ofEnv getenv nfsPort healthPort dataMaxSize metadataTTL).SameUse
      (Config.ofEnv getenv' nfsPort healthPort dataMaxSize metadataTTL') where
  s3 := by
    rw [Config.ofEnv, Config.ofEnv]
    dsimp only
    rw [h.stringVar (by decide), h.stringVar (by decide), h.stringVar (by decide),
      h.stringVar (by decide), h.stringVar (by decide), h.boolVar (by decide),
      h.boolVar (by decide)]
  nfs := by
    rw [Config.ofEnv, Config.ofEnv]
    dsimp only
    rw [h.stringVar (by decide)]
  health := rfl
  tls := by
    rw [Config.ofEnv, Config.ofEnv]
    dsimp only
    rw [h.boolVar (by decide), h.stringVar (by decide), h.stringVar (by decide),
      h.stringVar (by decide), h.stringVar (by decide)]
  dataDir := h.stringVar (by decide) _
  dataMaxSize := rfl

/-- The checks of `Load` see no difference. -/
theorem same_checks {cfg cfg' : Config} (h : cfg.SameUse cfg') :
    let checked : Config → Except LoadError Config := fun cfg => do
      cfg.tls.check
      cfg.s3.check
      return cfg
    (∃ err, checked cfg = .error err ∧ checked cfg' = .error err) ∨
      ∃ c c', checked cfg = .ok c ∧ checked cfg' = .ok c' ∧ c.SameUse c' := by
  intro checked
  dsimp only [checked]
  rw [h.tls, h.s3]
  cases cfg.tls.check with
  | error err => exact Or.inl ⟨err, rfl, rfl⟩
  | ok _ =>
    cases cfg.s3.check with
    | error err => exact Or.inl ⟨err, rfl, rfl⟩
    | ok _ => exact Or.inr ⟨cfg, cfg', rfl, rfl, h⟩

theorem load_of_sameEnv {getenv getenv' : GoString → GoString}
    {parseDuration : GoString → Except GoError Time} (h : SameEnv getenv getenv') {d d' : Time}
    (hd : Config.ttlVar getenv parseDuration (60 * second) = .ok d)
    (hd' : Config.ttlVar getenv' parseDuration (60 * second) = .ok d') :
    (∃ err, Config.load getenv parseDuration = .error err ∧
        Config.load getenv' parseDuration = .error err) ∨
      ∃ cfg cfg', Config.load getenv parseDuration = .ok cfg ∧
        Config.load getenv' parseDuration = .ok cfg' ∧ cfg.SameUse cfg' := by
  unfold Config.load
  rw [h.numberVar (by decide), h.numberVar (by decide), h.numberVar (by decide), hd, hd']
  cases Config.numberVar getenv "Atoi" "NFS_PORT" 2049 with
  | error err => exact Or.inl ⟨err, rfl, rfl⟩
  | ok nfsPort =>
    cases Config.numberVar getenv "Atoi" "HEALTH_PORT" 9090 with
    | error err => exact Or.inl ⟨err, rfl, rfl⟩
    | ok healthPort =>
      cases Config.numberVar getenv "ParseInt" "CACHE_DATA_MAX_SIZE" _ with
      | error err => exact Or.inl ⟨err, rfl, rfl⟩
      | ok size =>
        have hsame := sameUse_ofEnv h nfsPort healthPort size d d'
        refine same_checks hsame

theorem connect_of_sameUse {getenv' : GoString → GoString} {cfg cfg' : Config}
    (hload : Config.load m.getenv m.parseDuration = .ok cfg)
    (hload' : Config.load getenv' m.parseDuration = .ok cfg') (h : cfg.SameUse cfg') :
    (∃ err, connect m dataDir = .error err ∧
        connect { m with getenv := getenv' } dataDir = .error err) ∨
      connect m dataDir = .ok cfg ∧ connect { m with getenv := getenv' } dataDir = .ok cfg' := by
  have hclient : newClient { m with getenv := getenv' } cfg'.s3 = newClient m cfg.s3 := by
    rw [h.s3]
    rfl
  unfold connect
  dsimp only
  rw [hload, hload']
  dsimp only [Except.mapError, bind, Except.bind]
  rw [hclient, h.health]
  cases newClient m cfg.s3 with
  | error err => exact Or.inl ⟨err, rfl, rfl⟩
  | ok _ =>
    cases m.listen (gs ":" ++ itoa cfg.health.port) with
    | error err => exact Or.inl ⟨_, rfl, rfl⟩
    | ok _ =>
      cases m.mkdirAll dataDir with
      | error err => exact Or.inl ⟨_, rfl, rfl⟩
      | ok _ => exact Or.inr ⟨rfl, rfl⟩

/-- The log level and the lifetime of metadata make no difference: as long as the lifetimes
can be read at all, the gateway is started, or not, in the same way. -/
theorem startup_ignores_settings {getenv' : GoString → GoString} (h : SameEnv m.getenv getenv')
    {d d' : Time} (hd : Config.ttlVar m.getenv m.parseDuration (60 * second) = .ok d)
    (hd' : Config.ttlVar getenv' m.parseDuration (60 * second) = .ok d') (dataDir : GoString)
    (db : BoltDB) : startup { m with getenv := getenv' } dataDir db = startup m dataDir db := by
  have herror : ∀ {err}, connect m dataDir = .error err →
      connect { m with getenv := getenv' } dataDir = .error err →
      startup { m with getenv := getenv' } dataDir db = startup m dataDir db := by
    intro err hc hc'
    rw [startup, startup, hc, hc']
  rcases load_of_sameEnv h hd hd' with ⟨err, hload, hload'⟩ | ⟨cfg, cfg', hload, hload', hsame⟩
  · have hc : connect m dataDir = .error (.load err) := by
      rw [connect, hload]
      rfl
    refine herror hc ?_
    rw [connect, hload']
    rfl
  · rcases connect_of_sameUse hload hload' hsame with ⟨err, hc, hc'⟩ | ⟨hc, hc'⟩
    · exact herror hc hc'
    · have hserve : ∀ handles,
          serve { m with getenv := getenv' } cfg' handles = serve m cfg handles := by
        intro handles
        unfold serve newServer
        dsimp only
        rw [hsame.tls, hsame.nfs, hsame.dataDir, hsame.dataMaxSize]
        rfl
      rw [startup, startup, hc, hc']
      dsimp only
      show (match openHandleStore m (handlesPath dataDir) db with
        | .error err => (Except.error err, db)
        | .ok handles => (serve { m with getenv := getenv' } cfg' handles, handles.db)) = _
      cases openHandleStore m (handlesPath dataDir) db with
      | error err => rfl
      | ok handles =>
        dsimp only
        rw [hserve]

/-- The same variables, with more to be logged and an hour for metadata. -/
def ttlVars : GoMap GoString GoString :=
  (tlsVars.insert (gs "LOG_LEVEL") (gs "debug")).insert (gs "CACHE_METADATA_TTL") (gs "1h")

theorem startup_ignores_settings_ttl :
    startup { Machine.working tlsVars with getenv := (Machine.working ttlVars).getenv } (gs "/d")
        .empty
      = startup (.working tlsVars) (gs "/d") .empty := by
  have hsame : SameEnv (Machine.working tlsVars).getenv (Machine.working ttlVars).getenv := by
    intro name hlog httl
    show (ttlVars.lookup name).getD [] = (tlsVars.lookup name).getD []
    rw [ttlVars, AList.lookup_insert_ne httl, AList.lookup_insert_ne hlog]
  have hunset : Config.ttlVar (Machine.working tlsVars).getenv
      (Machine.working tlsVars).parseDuration (60 * second) = .ok (60 * second) := by rfl
  have hhour : Config.ttlVar (Machine.working ttlVars).getenv
      (Machine.working tlsVars).parseDuration (60 * second) = .ok (3600 * second) := by rfl
  exact startup_ignores_settings hsame hunset hhour _ _

end Started

/-! ## The life of the process -/

/-- What happens to the process and around it. -/
inductive ProcessEvent (Cert CertPool : Type) where
  /-- A client begins an operation. -/
  | begin (files : GoMap Nat File) (op : Op)
  /-- Operation `i` makes its next call. -/
  | call (i : Nat)
  | evictExpired
  /-- Other clients of S3 change the bucket. -/
  | s3 (b : Bucket)
  /-- The process ends, whatever it is doing. -/
  | exit
  /-- A process is started. While one is up, another one waits for the database. -/
  | exec (m : Machine Cert CertPool) (dataDir : GoString)

/-- The process, if it is up, and the world around it. -/
structure Process where
  gateway : Gateway
  up : Bool

namespace Process

/-- No process has been started yet, and the database is new. -/
def initial (b : Bucket) (env : Nat → Outcome) : Process where
  gateway :=
    let w := (Gateway.start b env none none).shared
    ⟨{ w with handles := { w.handles with db := .empty } }, []⟩
  up := false

/-- Something happens to the process if it is up. -/
def runs (p : Process) (e : GatewayEvent) : Process :=
  if p.up then { p with gateway := Gateway.step p.gateway e } else p

def step {Cert CertPool : Type} (p : Process) : ProcessEvent Cert CertPool → Process
  | .begin files op => p.runs (.begin files op)
  | .call i => p.runs (.call i)
  | .evictExpired => p.runs .evictExpired
  | .s3 b => { p with gateway := Gateway.step p.gateway (.s3 b) }
  | .exit => ⟨⟨p.gateway.shared, []⟩, false⟩
  | .exec m dataDir =>
    if p.up then p
    else
      let w := p.gateway.shared
      match startup m dataDir w.handles.db with
      | (.ok srv, _) => ⟨srv.gateway w, true⟩
      | (.error _, db) => ⟨⟨{ w with handles := { w.handles with db } }, []⟩, false⟩

end Process

namespace HandleStore

theorem initDB_initDB (db : BoltDB) : initDB (initDB db) = initDB db := by
  by_cases hroot : uint64ToBytes rootInode ∈ db.inodes
  · have hinit : initDB db = db := if_pos hroot
    rw [hinit, hinit]
  · refine if_pos ?_
    have hinit : initDB db = { db with
        inodes := db.inodes.insert (uint64ToBytes rootInode) [0]
        keys := db.keys.insert [0] (uint64ToBytes rootInode) } := if_neg hroot
    rw [hinit]
    exact (AList.mem_insert _).mpr (Or.inl rfl)

theorem nextInode_initDB (db : BoltDB) : (initDB db).nextInode = db.nextInode := by
  show BoltDB.nextInode (if _ then _ else _) = _
  split <;> rfl

/-- What is loaded depends on the database as `init` leaves it. -/
theorem newHandleStore_congr {db db' : BoltDB} (h : initDB db = initDB db') :
    newHandleStore db true = newHandleStore db' true := by
  have hnext : db.nextInode = db'.nextInode := by
    rw [← nextInode_initDB db, h, nextInode_initDB]
  rw [newHandleStore, newHandleStore, h, hnext]

theorem db_of_newHandleStore {db : BoltDB} {commit : Bool} {handles : HandleStore}
    (h : newHandleStore db commit = some handles) : commit = true ∧ handles.db = initDB db := by
  cases commit with
  | false => cases h
  | true =>
    cases h
    exact ⟨rfl, rfl⟩

end HandleStore

section Refinement

variable {Cert CertPool : Type}

/-- A start that fails leaves a database that loads as before. -/
theorem initDB_startup (m : Machine Cert CertPool) (dataDir : GoString) (db : BoltDB) :
    HandleStore.initDB (startup m dataDir db).2 = HandleStore.initDB db := by
  unfold startup
  split
  · rfl
  · split
    · rfl
    · next handles hhandles =>
      obtain ⟨_, -, hopen⟩ := Config.bind_eq_ok.mp hhandles
      cases hstore : HandleStore.newHandleStore db m.commit with
      | none =>
        rw [hstore] at hopen
        cases hopen
      | some store =>
        rw [hstore] at hopen
        cases hopen
        obtain ⟨-, hdb⟩ := HandleStore.db_of_newHandleStore hstore
        rw [hdb]
        exact HandleStore.initDB_initDB db

/-- A start that succeeds serves what the database holds, with a metadata cache of default
settings and a data cache. -/
theorem started_of_startup {m : Machine Cert CertPool} {dataDir : GoString} {db : BoltDB}
    {srv : Server Cert CertPool} (h : (startup m dataDir db).1 = .ok srv) :
    HandleStore.newHandleStore db true = some srv.handles ∧
      srv.cache = newMetadataCache defaultCacheConfig ∧ srv.dataCache.isSome = true := by
  obtain ⟨cfg, handles, hconnect, hopen, hserve⟩ := startup_eq_ok.mp h
  obtain ⟨hload, -⟩ := connect_eq_ok.mp hconnect
  obtain ⟨tls, dataCache, -, hdata, -, rfl⟩ := serve_eq_ok.mp hserve
  obtain ⟨_, _, _, _, -, -, -, -, rfl, -, -⟩ := Config.load_eq_ok.mp hload
  refine ⟨?_, rfl, isSome_of_openDataCache (Config.stringVar_ne_nil (by decide)) hdata⟩
  obtain ⟨_, -, hopen⟩ := Config.bind_eq_ok.mp hopen
  cases hstore : HandleStore.newHandleStore db m.commit with
  | none =>
    rw [hstore] at hopen
    cases hopen
  | some store =>
    rw [hstore] at hopen
    cases hopen
    obtain ⟨hcommit, -⟩ := HandleStore.db_of_newHandleStore hstore
    rw [hcommit] at hstore
    exact hstore

/-- The process is at the same point as the gateway. While it is down, what it had in memory
does not count, and the database loads as the gateway's does. -/
structure Process.At (p : Process) (g : Gateway) : Prop where
  up : p.up = true → p.gateway = g
  same : ∃ db, p.gateway.shared = { g.shared with handles := { g.shared.handles with db } } ∧
    HandleStore.initDB db = HandleStore.initDB g.shared.handles.db

/-- The restarts of a process. -/
def RestartsLikeMain (e : GatewayEvent) : Prop :=
  ∀ config dataCache, e = .restart config dataCache →
    config = some defaultCacheConfig ∧ dataCache.isSome = true

namespace Process.At

variable {p : Process} {g : Gateway}

theorem of_eq (h : p.gateway = g) : p.At g :=
  ⟨fun _ => h, g.shared.handles.db, congrArg Pool.shared h, rfl⟩

theorem of_down (hdown : p.up = false) (db : BoltDB)
    (hshared : p.gateway.shared
      = { g.shared with handles := { g.shared.handles with db } })
    (hdb : HandleStore.initDB db = HandleStore.initDB g.shared.handles.db) : p.At g :=
  ⟨fun hup => Bool.noConfusion (hup.symm.trans hdown), db, hshared, hdb⟩

/-- What happens to a process that is up happens to the gateway; one that is down does not
notice. -/
theorem runs (h : p.At g) {e : GatewayEvent} (he : RestartsLikeMain e) :
    ∃ gevents : List GatewayEvent, (p.runs e).At (gevents.foldl Gateway.step g) ∧
      ∀ e ∈ gevents, RestartsLikeMain e := by
  unfold Process.runs
  split
  · next hup =>
    refine ⟨[e], of_eq ?_, List.forall_mem_singleton.mpr he⟩
    rw [h.up hup]
    rfl
  · exact ⟨[], h, List.forall_mem_nil _⟩

theorem exec (h : p.At g) (hdown : p.up = false) (m : Machine Cert CertPool) (dataDir : GoString) :
    ∃ gevents : List GatewayEvent, (p.step (.exec m dataDir)).At (gevents.foldl Gateway.step g) ∧
      ∀ e ∈ gevents, RestartsLikeMain e := by
  obtain ⟨db, hshared, hdb⟩ := h.same
  have hpdb : p.gateway.shared.handles.db = db := by rw [hshared]
  simp only [Process.step, hdown, Bool.false_eq_true, if_false, hpdb]
  cases hstart : startup m dataDir db with
  | mk server db' =>
    cases server with
    | error err =>
      refine ⟨[], of_down rfl db' ?_ ?_, List.forall_mem_nil _⟩
      · show { p.gateway.shared with handles := { p.gateway.shared.handles with db := db' } } = _
        rw [hshared]
        rfl
      · have hinit := initDB_startup m dataDir db
        rw [hstart] at hinit
        exact hinit.trans hdb
    | ok srv =>
      have hok : (startup m dataDir db).1 = .ok srv := by rw [hstart]
      obtain ⟨hhandles, hcache, hdata⟩ := started_of_startup hok
      rw [HandleStore.newHandleStore_congr hdb] at hhandles
      refine ⟨[.restart (some defaultCacheConfig) srv.dataCache], of_eq ?_, ?_⟩
      · dsimp only
        rw [List.foldl_cons, List.foldl_nil, Gateway.step, hhandles, Server.gateway, hshared, hcache]
        rfl
      · rintro e he config dataCache rfl
        cases List.mem_singleton.mp he
        exact ⟨rfl, hdata⟩

theorem step (h : p.At g) (e : ProcessEvent Cert CertPool) :
    ∃ gevents : List GatewayEvent, (p.step e).At (gevents.foldl Gateway.step g) ∧
      ∀ e ∈ gevents, RestartsLikeMain e := by
  cases e with
  | begin files op => exact h.runs fun _ _ heq => by cases heq
  | call i => exact h.runs fun _ _ heq => by cases heq
  | evictExpired => exact h.runs fun _ _ heq => by cases heq
  | s3 b =>
    obtain ⟨db, hshared, hdb⟩ := h.same
    refine ⟨[.s3 b], ⟨fun hup => ?_, db, ?_, hdb⟩, List.forall_mem_singleton.mpr ?_⟩
    · show Gateway.step p.gateway (.s3 b) = _
      rw [h.up hup]
      rfl
    · show { p.gateway.shared with bucket := b } = _
      rw [hshared]
      rfl
    · exact fun _ _ heq => by cases heq
  | exit =>
    obtain ⟨db, hshared, hdb⟩ := h.same
    exact ⟨[], of_down rfl db hshared hdb, List.forall_mem_nil _⟩
  | exec m dataDir =>
    cases hup : p.up with
    | false => exact h.exec hup m dataDir
    | true =>
      refine ⟨[], ?_, List.forall_mem_nil _⟩
      simp only [Process.step, hup, if_true]
      exact h

end Process.At

/-- The life of the process is a run of the gateway: from a new database on, whatever starts
fail and whenever the process ends, a process that is up is where a gateway is after some
events. Its restarts give the metadata cache the default settings and always have a data
cache. So what holds of all runs of the gateway holds of the process. -/
theorem process_refines_gateway (b : Bucket) (env : Nat → Outcome)
    (events : List (ProcessEvent Cert CertPool)) :
    ∃ gevents : List GatewayEvent, (∀ e ∈ gevents, RestartsLikeMain e) ∧
      let p := events.foldl Process.step (Process.initial b env)
      p.up = true → p.gateway = gevents.foldl Gateway.step (Gateway.start b env none none) := by
  have hrun : ∀ (events : List (ProcessEvent Cert CertPool)) (p : Process) (g : Gateway), p.At g →
      ∃ gevents : List GatewayEvent, (∀ e ∈ gevents, RestartsLikeMain e) ∧
        (events.foldl Process.step p).At (gevents.foldl Gateway.step g) := by
    intro events
    induction events with
    | nil => exact fun p g h => ⟨[], List.forall_mem_nil _, h⟩
    | cons e events ih =>
      intro p g h
      obtain ⟨first, hfirst, hmain⟩ := h.step e
      obtain ⟨rest, hmain', hrest⟩ := ih _ _ hfirst
      refine ⟨first ++ rest, fun e he => ?_, ?_⟩
      · exact (List.mem_append.mp he).elim (hmain e) (hmain' e)
      · rw [List.foldl_append]
        exact hrest
  have hinitial : (Process.initial b env).At (Gateway.start b env none none) :=
    .of_down rfl .empty rfl (HandleStore.initDB_initDB .empty).symm
  obtain ⟨gevents, hmain, hat⟩ := hrun events _ _ hinitial
  exact ⟨gevents, hmain, hat.up⟩

end Refinement

end S3Gateway
