import S3Gateway.Lib.Pool
import S3Gateway.S3fs.Session

/-!
# The gateway under concurrent clients

NFS clients call the methods of `S3FS` and of open files at the same time, and
nothing but the services' own locks orders them. `Gateway` is the services with
any number of operations under way, each at some call of its method; an event of
its life is the next call of one of them, a new operation, an eviction round of
the metadata cache, a change of the bucket by other clients of S3, or a restart
of the process, which may come at any point.

Most methods call the handle store and the caches in ways that cannot do harm,
whatever the answers (`PlainCalls`). The exceptions are `Rename` and `Remove`, which
take keys out of the handle store, and `Readdir`, which stores a listing.
-/

namespace S3Gateway

open Lib

/-- The method an operation runs, with the open files it may be on. The eviction
round is no method. -/
def methodOf (files : GoMap Nat File) : Op → Gw Unit
  | .openFile path flags => do let _ ← openFile path flags; pure ()
  | .file fd op =>
    match files.lookup fd with
    | none => pure ()
    | some f => do let _ ← f.perform op; pure ()
  | .stat path => do let _ ← stat path; pure ()
  | .chmod path mode => do let _ ← chmod path mode; pure ()
  | .chown path uid gid => do let _ ← chown path uid gid; pure ()
  | .setXattr path name value option => do let _ ← setXattr path name value option; pure ()
  | .listXattrs path => do let _ ← listXattrs path; pure ()
  | .removeXattr path name => do let _ ← removeXattr path name; pure ()
  | .symlink target linkPath => do let _ ← symlink target linkPath; pure ()
  | .readlink path => do let _ ← readlink path; pure ()
  | .rename oldpath newpath => do let _ ← rename oldpath newpath; pure ()
  | .remove path => do let _ ← remove path; pure ()
  | .mkdirAll path => do let _ ← mkdirAll path; pure ()
  | .copy srcPath dstPath => do let _ ← copy srcPath dstPath; pure ()
  | .evictExpired => pure ()

/-- The services and the operations under way. -/
abbrev Gateway := Pool Eff World Unit

/-- What happens to a gateway. -/
inductive GatewayEvent where
  /-- A client begins an operation; `files` are the open files as it finds them. -/
  | begin (files : GoMap Nat File) (op : Op)
  /-- Operation `i` makes its next call. -/
  | call (i : Nat)
  /-- One round of `evictionLoop`. -/
  | evictExpired
  /-- Other clients of S3 change the bucket. -/
  | s3 (b : Bucket)
  /-- The process ends, whatever it is doing, and is started again. A start that
  fails leaves the database as it was and is no event. -/
  | restart (config : Option CacheConfig) (dataCache : Option DataCache)

namespace Gateway

/-- A gateway started on an empty database. -/
def start (b : Bucket) (env : Nat → Outcome) (config : Option CacheConfig)
    (dataCache : Option DataCache) : Gateway where
  shared :=
    { World.start b with
      env, dataCache, cache := config.map newMetadataCache }
  threads := []

/-- One event. -/
def step (g : Gateway) : GatewayEvent → Gateway
  | .begin files op => g.spawn (methodOf files op)
  | .call i => Pool.step World.handle g i
  | .evictExpired =>
    { g with shared := { g.shared.begin with
        cache := g.shared.cache.map (·.evictExpired g.shared.begin.clock) } }
  | .s3 b => { g with shared := { g.shared with bucket := b } }
  | .restart config dataCache =>
    match HandleStore.newHandleStore g.shared.handles.db true with
    | none => g
    | some handles =>
      ⟨{ g.shared with handles, dataCache, cache := config.map newMetadataCache }, []⟩

end Gateway

/-! ## Calls that do no harm -/

/-- Not one of the calls that take keys out of the handle store or store a
listing. -/
def Eff.plain {β : Type} : Eff β → Bool
  | .removeByKey .. | .renameKey .. | .putDirListing .. => false
  | _ => true

/-- Not one of the calls that store something in the metadata cache, either. -/
def Eff.quiet {β : Type} (e : Eff β) : Bool := e.plain && !e.learns

/-- The method makes plain calls only, whatever the answers. -/
abbrev PlainCalls {α : Type} (p : Gw α) : Prop := Prog.Only (fun _ e => e.plain = true) p

abbrev QuietCalls {α : Type} (p : Gw α) : Prop := Prog.Only (fun _ e => e.quiet = true) p

theorem QuietCalls.plain {α : Type} {p : Gw α} (h : QuietCalls p) : PlainCalls p :=
  h.mono fun _ he => (Bool.and_eq_true_iff.mp he).1

/-- The method stores nothing in the metadata cache, apart from negative entries. -/
abbrev LearnsNothing {α : Type} (p : Gw α) : Prop := Prog.Only (fun _ e => e.learns = false) p

theorem QuietCalls.learnsNothing {α : Type} {p : Gw α} (h : QuietCalls p) : LearnsNothing p :=
  h.mono fun _ he => Bool.not_eq_true' _ ▸ (Bool.and_eq_true_iff.mp he).2

theorem quiet_newWritableFile (path s3Key : GoString) (info : FileInfo) :
    QuietCalls (newWritableFile path s3Key info) := by
  refine Prog.only_bind (Prog.only_call rfl) fun res => ?_
  cases res <;> exact Prog.only_pure _

theorem plain_createPlaceholder (path s3Key : GoString) :
    PlainCalls (createPlaceholder path s3Key) := by
  refine Prog.only_bind (Prog.only_call rfl) fun res => ?_
  cases res with
  | error err => exact Prog.only_pure _
  | ok inode =>
    refine Prog.only_bind (Prog.only_call rfl) fun res => ?_
    cases res with
    | error err => exact Prog.only_pure _
    | ok _ =>
      refine Prog.only_bind (Prog.only_call rfl) fun now => ?_
      refine Prog.only_bind (Prog.only_call rfl) fun _ => ?_
      refine Prog.only_bind (Prog.only_call rfl) fun _ => ?_
      refine Prog.only_bind ?_ fun _ => Prog.only_pure _
      refine Prog.only_bind (quiet_newWritableFile _ _ _).plain fun res => ?_
      cases res <;> exact Prog.only_pure _

theorem plain_openMarker (path dirKey : GoString) : PlainCalls (openMarker path dirKey) := by
  refine Prog.only_bind (Prog.only_call rfl) fun res => ?_
  cases res with
  | error err => exact Prog.only_pure _
  | ok objInfo =>
    refine Prog.only_bind (Prog.only_call rfl) fun res => ?_
    cases res with
    | error err => exact Prog.only_pure _
    | ok inode => exact Prog.only_bind (Prog.only_call rfl) fun _ => Prog.only_pure _

theorem plain_implicitDirInfo (path dirKey : GoString) :
    PlainCalls (implicitDirInfo path dirKey) := by
  refine Prog.only_bind (Prog.only_call rfl) fun res => ?_
  cases res with
  | error err => exact Prog.only_pure _
  | ok inode =>
    exact Prog.only_bind (Prog.only_call rfl) fun _ =>
      Prog.only_bind (Prog.only_call rfl) fun _ => Prog.only_pure _

theorem plain_openDirectory (path dirKey : GoString) : PlainCalls (openDirectory path dirKey) := by
  refine Prog.only_bind (Prog.only_call rfl) fun res => ?_
  cases res with
  | error err => exact plain_openMarker path dirKey
  | ok entries =>
    dsimp only
    split
    · exact plain_openMarker path dirKey
    · exact Prog.only_bind (plain_implicitDirInfo path dirKey) fun _ => Prog.only_pure _

theorem plain_openFile (path : GoString) (flags : Nat) : PlainCalls (openFile path flags) := by
  unfold openFile
  dsimp only
  split
  · exact Prog.only_bind (Prog.only_call rfl) fun _ =>
      Prog.only_bind (Prog.only_call rfl) fun _ => Prog.only_pure _
  · refine Prog.only_bind (Prog.only_call rfl) fun res => ?_
    cases res with
    | error err =>
      dsimp only
      split
      · exact plain_createPlaceholder _ _
      · exact plain_openDirectory _ _
    | ok objInfo =>
      refine Prog.only_bind (Prog.only_call rfl) fun res => ?_
      cases res with
      | error err => exact Prog.only_pure _
      | ok inode =>
        refine Prog.only_bind (Prog.only_call rfl) fun _ => ?_
        split
        · exact Prog.only_bind (quiet_newWritableFile _ _ _).plain fun _ => Prog.only_pure _
        · exact Prog.only_pure _

theorem plain_cacheGet (s3Key : GoString) : PlainCalls (cacheGet s3Key) := by
  refine Prog.only_bind (Prog.only_call rfl) fun res => ?_
  cases res with
  | none => exact Prog.only_pure _
  | some entry =>
    dsimp only
    split
    · exact Prog.only_pure _
    · refine Prog.only_bind (Prog.only_call rfl) fun res => ?_
      cases res <;> exact Prog.only_pure _

theorem plain_statFound (path key : GoString) (isDir : Bool) (objInfo : ObjectInfo) :
    PlainCalls (statFound path key isDir objInfo) := by
  refine Prog.only_bind (Prog.only_call rfl) fun res => ?_
  cases res with
  | error err => exact Prog.only_pure _
  | ok inode => exact Prog.only_bind (Prog.only_call rfl) fun _ => Prog.only_pure _

theorem plain_statMissing (s3Key dirKey : GoString) : PlainCalls (statMissing s3Key dirKey) :=
  Prog.only_bind (Prog.only_call rfl) fun _ =>
    Prog.only_bind (Prog.only_call rfl) fun _ => Prog.only_pure _

theorem plain_statS3 (path s3Key dirKey : GoString) : PlainCalls (statS3 path s3Key dirKey) := by
  refine Prog.only_bind (Prog.only_call rfl) fun res => ?_
  cases res with
  | ok objInfo => exact plain_statFound _ _ _ _
  | error err =>
    refine Prog.only_bind (Prog.only_call rfl) fun res => ?_
    cases res with
    | ok objInfo => exact plain_statFound _ _ _ _
    | error err =>
      refine Prog.only_bind (Prog.only_call rfl) fun res => ?_
      cases res with
      | error err => exact plain_statMissing _ _
      | ok entries =>
        dsimp only
        split
        · exact plain_statMissing _ _
        · exact plain_implicitDirInfo _ _

theorem plain_stat (path : GoString) : PlainCalls (stat path) := by
  unfold stat
  dsimp only
  split
  · exact Prog.only_bind (Prog.only_call rfl) fun _ =>
      Prog.only_bind (Prog.only_call rfl) fun _ => Prog.only_pure _
  · refine Prog.only_bind (plain_cacheGet _) fun res => ?_
    split
    · exact Prog.only_pure _
    · refine Prog.only_bind (plain_cacheGet _) fun res => ?_
      split
      · exact Prog.only_pure _
      · exact plain_statS3 _ _ _

/-- Looking a path up and replacing its metadata. -/
theorem quiet_headPath_bind {path : GoString} {α : Type}
    {k : Option (GoString × ObjectInfo) → Gw α} (hk : ∀ r, QuietCalls (k r)) :
    QuietCalls (headPath path >>= k) := by
  refine Prog.only_bind ?_ hk
  refine Prog.only_bind (Prog.only_call rfl) fun res => ?_
  cases res with
  | ok objInfo => exact Prog.only_pure _
  | error err =>
    refine Prog.only_bind (Prog.only_call rfl) fun res => ?_
    cases res <;> exact Prog.only_pure _

theorem quiet_replaceMetadata (what key : GoString) (metadata : Metadata) :
    QuietCalls (replaceMetadata what key metadata) := by
  refine Prog.only_bind (Prog.only_call rfl) fun res => ?_
  cases res with
  | error err => exact Prog.only_pure _
  | ok _ => exact Prog.only_bind (Prog.only_call rfl) fun _ => Prog.only_pure _

theorem quiet_chmod (path : GoString) (mode : FileMode) : QuietCalls (chmod path mode) := by
  refine quiet_headPath_bind fun r => ?_
  rcases r with _ | ⟨key, info⟩
  · exact Prog.only_pure _
  · exact quiet_replaceMetadata _ _ _

theorem quiet_chown (path : GoString) (uid gid : Int) : QuietCalls (chown path uid gid) := by
  refine quiet_headPath_bind fun r => ?_
  rcases r with _ | ⟨key, info⟩
  · exact Prog.only_pure _
  · exact quiet_replaceMetadata _ _ _

theorem quiet_setXattr (path name value : GoString) (option : UInt32) :
    QuietCalls (setXattr path name value option) := by
  unfold setXattr
  split
  · exact Prog.only_pure _
  · split
    · exact Prog.only_pure _
    · refine quiet_headPath_bind fun r => ?_
      rcases r with _ | ⟨key, info⟩
      · exact Prog.only_pure _
      · dsimp only
        split
        · exact Prog.only_pure _
        · split
          · exact Prog.only_pure _
          · exact quiet_replaceMetadata _ _ _

theorem quiet_listXattrs (path : GoString) : QuietCalls (listXattrs path) := by
  refine quiet_headPath_bind fun r => ?_
  rcases r with _ | ⟨key, info⟩ <;> exact Prog.only_pure _

theorem quiet_removeXattr (path name : GoString) : QuietCalls (removeXattr path name) := by
  unfold removeXattr
  split
  · exact Prog.only_pure _
  · refine quiet_headPath_bind fun r => ?_
    rcases r with _ | ⟨key, info⟩
    · exact Prog.only_pure _
    · dsimp only
      split
      · exact Prog.only_pure _
      · exact quiet_replaceMetadata _ _ _

theorem quiet_symlink (target linkPath : GoString) : QuietCalls (symlink target linkPath) := by
  unfold symlink
  split
  · exact Prog.only_pure _
  · split
    · exact Prog.only_pure _
    · refine Prog.only_bind (Prog.only_call rfl) fun res => ?_
      cases res with
      | ok _ => exact Prog.only_pure _
      | error _ =>
        refine Prog.only_bind (Prog.only_call rfl) fun res => ?_
        cases res with
        | error err => exact Prog.only_pure _
        | ok _ => exact Prog.only_bind (Prog.only_call rfl) fun _ => Prog.only_pure _

theorem quiet_readlink (path : GoString) : QuietCalls (readlink path) := by
  refine Prog.only_bind (Prog.only_call rfl) fun res => ?_
  cases res with
  | error err => exact Prog.only_pure _
  | ok info =>
    dsimp only
    split <;> exact Prog.only_pure _

theorem quiet_mkdirAll (path : GoString) : QuietCalls (mkdirAll path) := by
  refine Prog.only_bind (Prog.only_call rfl) fun res => ?_
  cases res with
  | error err => exact Prog.only_pure _
  | ok _ =>
    refine Prog.only_bind (Prog.only_call rfl) fun res => ?_
    cases res with
    | error err => exact Prog.only_pure _
    | ok _ =>
      exact Prog.only_bind (Prog.only_call rfl) fun _ =>
        Prog.only_bind (Prog.only_call rfl) fun _ =>
          Prog.only_bind (Prog.only_call rfl) fun _ => Prog.only_pure _

theorem quiet_copy (srcPath dstPath : GoString) : QuietCalls (copy srcPath dstPath) := by
  refine Prog.only_bind (Prog.only_call rfl) fun res => ?_
  cases res with
  | error err => exact Prog.only_pure _
  | ok _ =>
    exact Prog.only_bind (Prog.only_call rfl) fun _ =>
      Prog.only_bind (Prog.only_call rfl) fun _ => Prog.only_pure _

theorem learnsNothing_rename (oldpath newpath : GoString) :
    LearnsNothing (rename oldpath newpath) := by
  have hobject : ∀ what which oldKey newKey,
      LearnsNothing (renameObject what which oldKey newKey) := by
    intro what which oldKey newKey
    refine Prog.only_bind (Prog.only_call rfl) fun res => ?_
    cases res with
    | error err => exact Prog.only_pure _
    | ok _ =>
      refine Prog.only_bind (Prog.only_call rfl) fun res => ?_
      cases res with
      | error err => exact Prog.only_pure _
      | ok _ =>
        refine Prog.only_bind (Prog.only_call rfl) fun _ => ?_
        refine Prog.only_bind (Prog.only_call rfl) fun _ => ?_
        refine Prog.only_bind (Prog.only_call rfl) fun _ => ?_
        refine Prog.only_bind (Prog.only_call rfl) fun _ => ?_
        refine Prog.only_bind (Prog.only_call rfl) fun _ => ?_
        refine Prog.only_bind (Prog.only_call rfl) fun _ => ?_
        exact Prog.only_bind (Prog.only_call rfl) fun _ => Prog.only_pure _
  refine Prog.only_bind (Prog.only_call rfl) fun res => ?_
  cases res with
  | ok _ => exact hobject _ _ _ _
  | error _ =>
    refine Prog.only_bind (Prog.only_call rfl) fun res => ?_
    cases res with
    | ok _ => exact hobject _ _ _ _
    | error _ => exact Prog.only_pure _

theorem learnsNothing_remove (path : GoString) : LearnsNothing (remove path) := by
  have hobject : ∀ what key, LearnsNothing (removeObject what key) := by
    intro what key
    refine Prog.only_bind (Prog.only_call rfl) fun res => ?_
    cases res with
    | error err => exact Prog.only_pure _
    | ok _ =>
      refine Prog.only_bind (Prog.only_call rfl) fun _ => ?_
      refine Prog.only_bind (Prog.only_call rfl) fun _ => ?_
      refine Prog.only_bind (Prog.only_call rfl) fun _ => ?_
      exact Prog.only_bind (Prog.only_call rfl) fun _ => Prog.only_pure _
  refine Prog.only_bind (Prog.only_call rfl) fun res => ?_
  cases res with
  | ok _ => exact hobject _ _
  | error _ =>
    refine Prog.only_bind (Prog.only_call rfl) fun res => ?_
    cases res with
    | ok _ => exact hobject _ _
    | error _ => exact Prog.only_pure _

/-! ### Calls on open files -/

/-- One of the calls a `Read` makes. -/
def Eff.fetches {β : Type} : Eff β → Bool
  | .getObjectRange .. | .dataGet .. | .dataPut .. => true
  | _ => false

theorem Eff.quiet_of_fetches {β : Type} {e : Eff β} (h : e.fetches = true) : e.quiet = true := by
  cases e
  case getObjectRange => rfl
  case dataGet => rfl
  case dataPut => rfl
  all_goals cases h

/-- The program makes the calls of a `Read` only. -/
abbrev Fetches {α : Type} (p : Gw α) : Prop := Prog.Only (fun _ e => e.fetches = true) p

theorem fetches_fetchFromS3 (r : ChunkReader) (off length : Int) :
    Fetches (r.fetchFromS3 off length) := by
  refine Prog.only_bind (Prog.only_call rfl) fun res => ?_
  cases res with
  | error err => exact Prog.only_pure _
  | ok body =>
    dsimp only
    split
    all_goals first
      | exact Prog.only_pure _
      | split
        · exact Prog.only_bind (Prog.only_call rfl) fun _ => Prog.only_pure _
        · exact Prog.only_pure _

theorem fetches_fetchChunk (r : ChunkReader) (off : Int) : Fetches (r.fetchChunk off) := by
  have hwith : ∀ length cached, Fetches (r.fetchWith off length cached) := by
    intro length cached
    cases cached with
    | none => exact fetches_fetchFromS3 r off length
    | some content =>
      simp only [ChunkReader.fetchWith]
      split
      · exact Prog.only_pure _
      · exact fetches_fetchFromS3 r off length
  unfold ChunkReader.fetchChunk
  dsimp only
  split
  · exact Prog.only_pure _
  · split
    · exact Prog.only_bind (Prog.only_call rfl) fun cached => hwith _ cached
    · exact hwith _ _

theorem fetches_readLoop (n fuel : Nat) (r : ChunkReader) (off : Int) (data : Bytes) :
    Fetches (ChunkReader.readLoop n fuel r off data) := by
  induction fuel generalizing r off data with
  | zero => exact Prog.only_pure _
  | succ fuel ih =>
    unfold ChunkReader.readLoop
    split
    · dsimp only
      split
      · exact ih _ _ _
      · refine Prog.only_bind (fetches_fetchChunk r off) fun res => ?_
        obtain ⟨res, r'⟩ := res
        cases res with
        | error err => exact Prog.only_pure _
        | ok _ => exact ih _ _ _
    · exact Prog.only_pure _

theorem fetches_readAt (fuel : Nat) (r : ChunkReader) (n : Nat) (off : Int) :
    Fetches (r.readAt fuel n off) := by
  unfold ChunkReader.readAt
  split
  · exact Prog.only_pure _
  · exact Prog.only_bind (fetches_readLoop _ _ _ _ _) fun _ => Prog.only_pure _

theorem fetches_s3File_read (fuel : Nat) (f : S3File) (n : Nat) : Fetches (f.read fuel n) := by
  unfold S3File.read
  split
  · exact Prog.only_pure _
  · split
    · exact Prog.only_pure _
    · refine Prog.only_bind (fetches_readAt _ _ _ _) fun res => ?_
      rcases res with _ | ⟨res, r⟩ <;> exact Prog.only_pure _

theorem quiet_s3File_read (fuel : Nat) (f : S3File) (n : Nat) : QuietCalls (f.read fuel n) :=
  (fetches_s3File_read fuel f n).mono fun _ he => Eff.quiet_of_fetches he

theorem quiet_s3File_truncate (f : S3File) : QuietCalls f.truncate := by
  unfold S3File.truncate
  split
  · exact Prog.only_pure _
  · split
    · exact Prog.only_pure _
    · refine Prog.only_bind (Prog.only_call rfl) fun res => ?_
      cases res with
      | error err => exact Prog.only_pure _
      | ok _ =>
        exact Prog.only_bind (Prog.only_call rfl) fun _ =>
          Prog.only_bind (Prog.only_call rfl) fun _ => Prog.only_pure _

theorem quiet_onTmp {α : Type} (f : S3WritableFile)
    (act : ByteFile UInt8 → Except GoError α × ByteFile UInt8) : QuietCalls (f.onTmp act) := by
  have hdown : QuietCalls f.ensureDownloaded := by
    unfold S3WritableFile.ensureDownloaded
    split
    · exact Prog.only_pure _
    · refine Prog.only_bind (Prog.only_call rfl) fun res => ?_
      cases res with
      | error err => exact Prog.only_pure _
      | ok body =>
        dsimp only
        split <;> exact Prog.only_pure _
  unfold S3WritableFile.onTmp
  split
  · exact Prog.only_pure _
  · refine Prog.only_bind hdown fun res => ?_
    obtain ⟨res, f'⟩ := res
    cases res <;> exact Prog.only_pure _

theorem plain_close (f : S3WritableFile) : PlainCalls f.close := by
  unfold S3WritableFile.close
  split
  · exact Prog.only_pure _
  · refine Prog.only_bind (Prog.only_call rfl) fun res => ?_
    cases res with
    | error err => exact Prog.only_pure _
    | ok _ =>
      exact Prog.only_bind (Prog.only_call rfl) fun _ =>
        Prog.only_bind (Prog.only_call rfl) fun _ =>
          Prog.only_bind (Prog.only_call rfl) fun _ =>
            Prog.only_bind (Prog.only_call rfl) fun _ =>
              Prog.only_bind (Prog.only_call rfl) fun _ => Prog.only_pure _

theorem plain_s3WritableFile_call (f : S3WritableFile) (op : FileOp) : PlainCalls (f.call op) := by
  cases op with
  | read fuel n => exact Prog.only_bind (quiet_onTmp f _).plain fun _ => Prog.only_pure _
  | write p => exact Prog.only_bind (quiet_onTmp f _).plain fun _ => Prog.only_pure _
  | seek offset whence => exact Prog.only_bind (quiet_onTmp f _).plain fun _ => Prog.only_pure _
  | close => exact Prog.only_bind (plain_close f) fun _ => Prog.only_pure _
  | truncate => exact Prog.only_pure _
  | readdir count => exact Prog.only_pure _
  | stat => exact Prog.only_pure _
  | sync => exact Prog.only_pure _

/-- Every call on an `s3File` but `Readdir` is quiet. -/
theorem quiet_s3File_perform (f : S3File) {op : FileOp} (hop : ∀ count, op ≠ .readdir count) :
    QuietCalls (f.perform op) := by
  cases op with
  | read fuel n =>
    refine Prog.only_bind (quiet_s3File_read fuel f n) fun res => ?_
    rcases res with _ | ⟨res, f'⟩ <;> exact Prog.only_pure _
  | truncate => exact Prog.only_bind (quiet_s3File_truncate f) fun _ => Prog.only_pure _
  | readdir count => exact absurd rfl (hop count)
  | write p => exact Prog.only_pure _
  | seek offset whence => exact Prog.only_pure _
  | stat => exact Prog.only_pure _
  | sync => exact Prog.only_pure _
  | close => exact Prog.only_pure _

end S3Gateway
