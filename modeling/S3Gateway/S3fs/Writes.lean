import S3Gateway.S3fs.Resolve
import S3Gateway.S3fs.FaultCoherence
import S3Gateway.S3fs.Stores

/-!
# What the operations write

The calls by which an operation changes objects or inodes, with all their arguments
(`Writes`): few of them, and the same ones whatever S3 answers. All others only ask
(`writes_methodOf`).

The lemmas about single methods hold for any condition `C` on calls that all questions meet:
a method meets it if its few writing calls do.
-/

namespace S3Gateway

open Lib

/-- The keys whose object the call may change, or whose inode it may change. -/
def Eff.alters {β : Type} : Eff β → List GoString
  | .putObject key _ _ | .deleteObject key | .copyObject _ key | .copyObjectWithMetadata key _
  | .createDirMarker key | .removeByKey key => [key]
  | .renameKey oldKey newKey => [oldKey, newKey]
  | _ => []

/-- The keys of the object a rename moves, and of where it goes: those of a file, or those
of a directory marker. -/
def RenameKeys (oldpath newpath : GoString) (keys : GoString × GoString) : Prop :=
  keys = (s3KeyFromPath oldpath, s3KeyFromPath newpath) ∨
    keys = (s3DirKey (s3KeyFromPath oldpath), s3DirKey (s3KeyFromPath newpath))

/-! ## Methods -/

section Methods

variable {C : (β : Type) → Eff β → Prop} {α : Type}

/-- A question. -/
theorem only_ask_bind (hask : ∀ {β : Type} (e : Eff β), e.alters = [] → C β e) {β : Type}
    {e : Eff β} (he : e.alters = []) {f : β → Gw α} (hf : ∀ b, Prog.Only C (f b)) :
    Prog.Only C (Prog.call e >>= f) :=
  Prog.only_bind (Prog.only_call (hask e he)) hf

variable (hask : ∀ {β : Type} (e : Eff β), e.alters = [] → C β e)
include hask

theorem only_newWritableFile (path s3Key : GoString) (info : FileInfo) :
    Prog.Only C (newWritableFile path s3Key info) := by
  refine only_ask_bind hask rfl fun res => ?_
  cases res <;> exact Prog.only_pure _

theorem only_createPlaceholder (path : GoString) {s3Key : GoString}
    (hput : C _ (.putObject s3Key [] defaultMetadata)) :
    Prog.Only C (createPlaceholder path s3Key) := by
  refine only_ask_bind hask rfl fun res => ?_
  cases res with
  | error err => exact Prog.only_pure _
  | ok inode =>
    refine Prog.only_bind (Prog.only_call hput) fun res => ?_
    cases res with
    | error err => exact Prog.only_pure _
    | ok _ =>
      refine only_ask_bind hask rfl fun now => only_ask_bind hask rfl fun _ => ?_
      refine only_ask_bind hask rfl fun _ => ?_
      refine Prog.only_bind ?_ fun _ => Prog.only_pure _
      refine Prog.only_bind (only_newWritableFile hask _ _ _) fun res => ?_
      cases res <;> exact Prog.only_pure _

theorem only_openMarker (path dirKey : GoString) : Prog.Only C (openMarker path dirKey) := by
  refine only_ask_bind hask rfl fun res => ?_
  cases res with
  | error err => exact Prog.only_pure _
  | ok objInfo =>
    refine only_ask_bind hask rfl fun res => ?_
    cases res with
    | error err => exact Prog.only_pure _
    | ok inode => exact only_ask_bind hask rfl fun _ => Prog.only_pure _

theorem only_implicitDirInfo (path dirKey : GoString) :
    Prog.Only C (implicitDirInfo path dirKey) := by
  refine only_ask_bind hask rfl fun res => ?_
  cases res with
  | error err => exact Prog.only_pure _
  | ok inode =>
    exact only_ask_bind hask rfl fun _ => only_ask_bind hask rfl fun _ => Prog.only_pure _

theorem only_openDirectory (path dirKey : GoString) : Prog.Only C (openDirectory path dirKey) := by
  refine only_ask_bind hask rfl fun res => ?_
  cases res with
  | error err => exact only_openMarker hask path dirKey
  | ok entries =>
    dsimp only
    split
    · exact only_openMarker hask path dirKey
    · exact Prog.only_bind (only_implicitDirInfo hask path dirKey) fun _ => Prog.only_pure _

theorem only_openFile {path : GoString} {flags : Nat}
    (hput : writableFlags flags = true → C _ (.putObject (s3KeyFromPath path) [] defaultMetadata)) :
    Prog.Only C (openFile path flags) := by
  unfold openFile
  dsimp only
  split
  · exact only_ask_bind hask rfl fun _ => only_ask_bind hask rfl fun _ => Prog.only_pure _
  · refine only_ask_bind hask rfl fun res => ?_
    cases res with
    | error err =>
      dsimp only
      split
      · next hflags => exact only_createPlaceholder hask _ (hput hflags)
      · exact only_openDirectory hask _ _
    | ok objInfo =>
      refine only_ask_bind hask rfl fun res => ?_
      cases res with
      | error err => exact Prog.only_pure _
      | ok inode =>
        refine only_ask_bind hask rfl fun _ => ?_
        split
        · exact Prog.only_bind (only_newWritableFile hask _ _ _) fun _ => Prog.only_pure _
        · exact Prog.only_pure _

theorem only_cacheGet (s3Key : GoString) : Prog.Only C (cacheGet s3Key) := by
  refine only_ask_bind hask rfl fun res => ?_
  cases res with
  | none => exact Prog.only_pure _
  | some entry =>
    dsimp only
    split
    · exact Prog.only_pure _
    · refine only_ask_bind hask rfl fun res => ?_
      cases res <;> exact Prog.only_pure _

theorem only_statFound (path key : GoString) (isDir : Bool) (objInfo : ObjectInfo) :
    Prog.Only C (statFound path key isDir objInfo) := by
  refine only_ask_bind hask rfl fun res => ?_
  cases res with
  | error err => exact Prog.only_pure _
  | ok inode => exact only_ask_bind hask rfl fun _ => Prog.only_pure _

theorem only_statMissing (s3Key dirKey : GoString) : Prog.Only C (statMissing s3Key dirKey) :=
  only_ask_bind hask rfl fun _ => only_ask_bind hask rfl fun _ => Prog.only_pure _

theorem only_statS3 (path s3Key dirKey : GoString) : Prog.Only C (statS3 path s3Key dirKey) := by
  refine only_ask_bind hask rfl fun res => ?_
  cases res with
  | ok objInfo => exact only_statFound hask _ _ _ _
  | error err =>
    refine only_ask_bind hask rfl fun res => ?_
    cases res with
    | ok objInfo => exact only_statFound hask _ _ _ _
    | error err =>
      refine only_ask_bind hask rfl fun res => ?_
      cases res with
      | error err => exact only_statMissing hask _ _
      | ok entries =>
        dsimp only
        split
        · exact only_statMissing hask _ _
        · exact only_implicitDirInfo hask _ _

theorem only_stat (path : GoString) : Prog.Only C (stat path) := by
  unfold stat
  dsimp only
  split
  · exact only_ask_bind hask rfl fun _ => only_ask_bind hask rfl fun _ => Prog.only_pure _
  · refine Prog.only_bind (only_cacheGet hask _) fun res => ?_
    split
    · exact Prog.only_pure _
    · refine Prog.only_bind (only_cacheGet hask _) fun res => ?_
      split
      · exact Prog.only_pure _
      · exact only_statS3 hask _ _ _

/-- The lookup of the attribute methods answers with one of the path's two keys. -/
theorem only_headPath_bind {path : GoString} {k : Option (GoString × ObjectInfo) → Gw α}
    (hnone : Prog.Only C (k none))
    (hsome : ∀ key objInfo, key ∈ [s3KeyFromPath path, s3DirKey (s3KeyFromPath path)] →
      Prog.Only C (k (some (key, objInfo)))) : Prog.Only C (headPath path >>= k) := by
  unfold headPath
  dsimp only
  refine only_ask_bind hask rfl fun res => ?_
  cases res with
  | ok objInfo => exact hsome _ _ List.mem_cons_self
  | error err =>
    refine only_ask_bind hask rfl fun res => ?_
    cases res with
    | ok objInfo => exact hsome _ _ (List.mem_cons_of_mem _ List.mem_cons_self)
    | error err => exact hnone

theorem only_replaceMetadata (what : GoString) {key : GoString} {metadata : Metadata}
    (hcopy : C _ (.copyObjectWithMetadata key metadata)) :
    Prog.Only C (replaceMetadata what key metadata) := by
  refine Prog.only_bind (Prog.only_call hcopy) fun res => ?_
  cases res with
  | error err => exact Prog.only_pure _
  | ok _ => exact only_ask_bind hask rfl fun _ => Prog.only_pure _

theorem only_chmod {path : GoString} (mode : FileMode)
    (hcopy : ∀ key ∈ [s3KeyFromPath path, s3DirKey (s3KeyFromPath path)], ∀ metadata,
      C _ (.copyObjectWithMetadata key metadata)) :
    Prog.Only C (chmod path mode) :=
  only_headPath_bind hask (Prog.only_pure _) fun _ _ hkey =>
    only_replaceMetadata hask _ (hcopy _ hkey _)

theorem only_chown {path : GoString} (uid gid : Int)
    (hcopy : ∀ key ∈ [s3KeyFromPath path, s3DirKey (s3KeyFromPath path)], ∀ metadata,
      C _ (.copyObjectWithMetadata key metadata)) :
    Prog.Only C (chown path uid gid) :=
  only_headPath_bind hask (Prog.only_pure _) fun _ _ hkey =>
    only_replaceMetadata hask _ (hcopy _ hkey _)

theorem only_setXattr {path : GoString} (name value : GoString) (option : UInt32)
    (hcopy : ∀ key ∈ [s3KeyFromPath path, s3DirKey (s3KeyFromPath path)], ∀ metadata,
      C _ (.copyObjectWithMetadata key metadata)) :
    Prog.Only C (setXattr path name value option) := by
  unfold setXattr
  split
  · exact Prog.only_pure _
  · split
    · exact Prog.only_pure _
    · refine only_headPath_bind hask (Prog.only_pure _) fun key objInfo hkey => ?_
      dsimp only
      split
      · exact Prog.only_pure _
      · split
        · exact Prog.only_pure _
        · exact only_replaceMetadata hask _ (hcopy _ hkey _)

theorem only_listXattrs (path : GoString) : Prog.Only C (listXattrs path) :=
  only_headPath_bind hask (Prog.only_pure _) fun _ _ _ => Prog.only_pure _

theorem only_removeXattr {path : GoString} (name : GoString)
    (hcopy : ∀ key ∈ [s3KeyFromPath path, s3DirKey (s3KeyFromPath path)], ∀ metadata,
      C _ (.copyObjectWithMetadata key metadata)) :
    Prog.Only C (removeXattr path name) := by
  unfold removeXattr
  split
  · exact Prog.only_pure _
  · refine only_headPath_bind hask (Prog.only_pure _) fun key objInfo hkey => ?_
    dsimp only
    split
    · exact Prog.only_pure _
    · exact only_replaceMetadata hask _ (hcopy _ hkey _)

theorem only_symlink {target linkPath : GoString}
    (hput : C _ (.putObject (s3KeyFromPath linkPath) [] (symlinkMetadata target))) :
    Prog.Only C (symlink target linkPath) := by
  unfold symlink
  split
  · exact Prog.only_pure _
  · split
    · exact Prog.only_pure _
    · refine only_ask_bind hask rfl fun res => ?_
      cases res with
      | ok _ => exact Prog.only_pure _
      | error _ =>
        refine Prog.only_bind (Prog.only_call hput) fun res => ?_
        cases res with
        | error err => exact Prog.only_pure _
        | ok _ => exact only_ask_bind hask rfl fun _ => Prog.only_pure _

theorem only_readlink (path : GoString) : Prog.Only C (readlink path) := by
  refine only_ask_bind hask rfl fun res => ?_
  cases res with
  | error err => exact Prog.only_pure _
  | ok info =>
    dsimp only
    split <;> exact Prog.only_pure _

theorem only_renameObject (what which : GoString) {oldKey newKey : GoString}
    (hcopy : C _ (.copyObject oldKey newKey)) (hdelete : C _ (.deleteObject oldKey))
    (hrename : C _ (.renameKey oldKey newKey)) :
    Prog.Only C (renameObject what which oldKey newKey) := by
  refine Prog.only_bind (Prog.only_call hcopy) fun res => ?_
  cases res with
  | error err => exact Prog.only_pure _
  | ok _ =>
    refine Prog.only_bind (Prog.only_call hdelete) fun res => ?_
    cases res with
    | error err => exact Prog.only_pure _
    | ok _ =>
      refine Prog.only_bind (Prog.only_call hrename) fun _ => ?_
      refine only_ask_bind hask rfl fun _ => only_ask_bind hask rfl fun _ => ?_
      refine only_ask_bind hask rfl fun _ => only_ask_bind hask rfl fun _ => ?_
      exact only_ask_bind hask rfl fun _ => only_ask_bind hask rfl fun _ => Prog.only_pure _

theorem only_rename {oldpath newpath : GoString}
    (hwrites : ∀ oldKey newKey, RenameKeys oldpath newpath (oldKey, newKey) →
      C _ (.copyObject oldKey newKey) ∧ C _ (.deleteObject oldKey) ∧
        C _ (.renameKey oldKey newKey)) :
    Prog.Only C (rename oldpath newpath) := by
  refine only_ask_bind hask rfl fun res => ?_
  cases res with
  | ok _ =>
    obtain ⟨hcopy, hdelete, hrename⟩ := hwrites _ _ (Or.inl rfl)
    exact only_renameObject hask _ _ hcopy hdelete hrename
  | error _ =>
    refine only_ask_bind hask rfl fun res => ?_
    cases res with
    | ok _ =>
      obtain ⟨hcopy, hdelete, hrename⟩ := hwrites _ _ (Or.inr rfl)
      exact only_renameObject hask _ _ hcopy hdelete hrename
    | error _ => exact Prog.only_pure _

theorem only_removeObject (what : GoString) {key : GoString} (hdelete : C _ (.deleteObject key))
    (hremove : C _ (.removeByKey key)) : Prog.Only C (removeObject what key) := by
  refine Prog.only_bind (Prog.only_call hdelete) fun res => ?_
  cases res with
  | error err => exact Prog.only_pure _
  | ok _ =>
    refine Prog.only_bind (Prog.only_call hremove) fun _ => only_ask_bind hask rfl fun _ => ?_
    exact only_ask_bind hask rfl fun _ => only_ask_bind hask rfl fun _ => Prog.only_pure _

theorem only_remove {path : GoString}
    (hwrites : ∀ key ∈ [s3KeyFromPath path, s3DirKey (s3KeyFromPath path)],
      C _ (.deleteObject key) ∧ C _ (.removeByKey key)) :
    Prog.Only C (remove path) := by
  refine only_ask_bind hask rfl fun res => ?_
  cases res with
  | ok _ =>
    obtain ⟨hdelete, hremove⟩ := hwrites _ List.mem_cons_self
    exact only_removeObject hask _ hdelete hremove
  | error _ =>
    refine only_ask_bind hask rfl fun res => ?_
    cases res with
    | ok _ =>
      obtain ⟨hdelete, hremove⟩ := hwrites _ (List.mem_cons_of_mem _ List.mem_cons_self)
      exact only_removeObject hask _ hdelete hremove
    | error _ => exact Prog.only_pure _

theorem only_mkdirAll {path : GoString}
    (hmarker : C _ (.createDirMarker (s3DirKey (s3KeyFromPath path)))) :
    Prog.Only C (mkdirAll path) := by
  refine Prog.only_bind (Prog.only_call hmarker) fun res => ?_
  cases res with
  | error err => exact Prog.only_pure _
  | ok _ =>
    refine only_ask_bind hask rfl fun res => ?_
    cases res with
    | error err => exact Prog.only_pure _
    | ok _ =>
      refine only_ask_bind hask rfl fun _ => only_ask_bind hask rfl fun _ => ?_
      exact only_ask_bind hask rfl fun _ => Prog.only_pure _

theorem only_copy {srcPath dstPath : GoString}
    (hcopy : C _ (.copyObject (s3KeyFromPath srcPath) (s3KeyFromPath dstPath))) :
    Prog.Only C (copy srcPath dstPath) := by
  refine Prog.only_bind (Prog.only_call hcopy) fun res => ?_
  cases res with
  | error err => exact Prog.only_pure _
  | ok _ => exact only_ask_bind hask rfl fun _ => only_ask_bind hask rfl fun _ => Prog.only_pure _

/-! ### Open files -/

theorem only_read (fuel : Nat) (f : S3File) (n : Nat) : Prog.Only C (f.read fuel n) := by
  refine (fetches_s3File_read fuel f n).mono fun e he => hask e ?_
  cases e
  case getObjectRange => rfl
  case dataGet => rfl
  case dataPut => rfl
  all_goals cases he

theorem only_truncate {f : S3File}
    (hput : f.writable = true → C _ (.putObject f.s3Key [] defaultMetadata)) :
    Prog.Only C f.truncate := by
  unfold S3File.truncate
  split
  · exact Prog.only_pure _
  · split
    · exact Prog.only_pure _
    · next hwritable =>
      refine Prog.only_bind (Prog.only_call (hput (by simpa using hwritable))) fun res => ?_
      cases res with
      | error err => exact Prog.only_pure _
      | ok _ =>
        exact only_ask_bind hask rfl fun _ => only_ask_bind hask rfl fun _ => Prog.only_pure _

theorem only_readdirCached (entries : List CacheEntry) (infos : List FileInfo) :
    Prog.Only C (S3File.readdirCached entries infos) := by
  induction entries generalizing infos with
  | nil => exact Prog.only_pure _
  | cons ce entries ih =>
    unfold S3File.readdirCached
    dsimp only
    split
    · exact ih _
    · refine only_ask_bind hask rfl fun res => ?_
      cases res with
      | error err => exact Prog.only_pure _
      | ok inode => exact ih _

theorem only_entryMeta (isDir : Bool) (key : GoString) :
    Prog.Only C (S3File.entryMeta isDir key) := by
  unfold S3File.entryMeta
  split
  · exact Prog.only_pure _
  · refine only_ask_bind hask rfl fun res => ?_
    cases res <;> exact Prog.only_pure _

theorem only_readdirList (pfx : GoString) (entries : List ListEntry) (infos : List FileInfo)
    (cached : List CacheEntry) : Prog.Only C (S3File.readdirList pfx entries infos cached) := by
  induction entries generalizing infos cached with
  | nil => exact Prog.only_pure _
  | cons entry entries ih =>
    unfold S3File.readdirList
    dsimp only
    split
    · exact ih _ _
    · refine only_ask_bind hask rfl fun res => ?_
      cases res with
      | error err => exact Prog.only_pure _
      | ok inode =>
        refine Prog.only_bind (only_entryMeta hask _ _) fun _ => ?_
        exact only_ask_bind hask rfl fun _ => ih _ _

theorem only_readdir (f : S3File) (count : Int) : Prog.Only C (f.readdir count) := by
  unfold S3File.readdir
  split
  · exact Prog.only_pure _
  · refine only_ask_bind hask rfl fun res => ?_
    cases res with
    | some cachedEntries =>
      exact Prog.only_bind (only_readdirCached hask _ _) fun _ => Prog.only_pure _
    | none =>
      refine only_ask_bind hask rfl fun res => ?_
      cases res with
      | error err => exact Prog.only_pure _
      | ok entries =>
        refine Prog.only_bind (only_readdirList hask _ _ _ _) fun res => ?_
        cases res with
        | error err => exact Prog.only_pure _
        | ok r => exact only_ask_bind hask rfl fun _ => Prog.only_pure _

theorem only_onTmp (f : S3WritableFile)
    (act : ByteFile UInt8 → Except GoError α × ByteFile UInt8) : Prog.Only C (f.onTmp act) := by
  have hdown : Prog.Only C f.ensureDownloaded := by
    unfold S3WritableFile.ensureDownloaded
    split
    · exact Prog.only_pure _
    · refine only_ask_bind hask rfl fun res => ?_
      cases res with
      | error err => exact Prog.only_pure _
      | ok body =>
        dsimp only
        split <;> exact Prog.only_pure _
  unfold S3WritableFile.onTmp
  split
  · exact Prog.only_pure _
  · refine Prog.only_bind hdown fun res => ?_
    obtain ⟨res, f'⟩ := res
    cases res <;> exact Prog.only_pure _

theorem only_close {f : S3WritableFile}
    (hput : f.closed = false → C _ (.putObject f.s3Key f.tmp.data defaultMetadata)) :
    Prog.Only C f.close := by
  unfold S3WritableFile.close
  split
  · exact Prog.only_pure _
  · next hclosed =>
    refine Prog.only_bind (Prog.only_call (hput (by simpa using hclosed))) fun res => ?_
    cases res with
    | error err => exact Prog.only_pure _
    | ok _ =>
      refine only_ask_bind hask rfl fun _ => only_ask_bind hask rfl fun _ => ?_
      refine only_ask_bind hask rfl fun _ => ?_
      exact only_ask_bind hask rfl fun _ => only_ask_bind hask rfl fun _ => Prog.only_pure _

end Methods

/-! ## Operations -/

/-- The calls by which an operation changes objects or inodes. -/
inductive Writes (files : GoMap Nat File) : Op → (β : Type) → Eff β → Prop where
  /-- `createPlaceholder`. -/
  | placeholder {path : GoString} {flags : Nat} (hflags : writableFlags flags = true) :
      Writes files (.openFile path flags) _ (.putObject (s3KeyFromPath path) [] defaultMetadata)
  /-- `Close` of a writable file. -/
  | upload {fd : Nat} {f : S3WritableFile} (hfd : files.lookup fd = some (.s3WritableFile f))
      (hopen : f.closed = false) :
      Writes files (.file fd .close) _ (.putObject f.s3Key f.tmp.data defaultMetadata)
  | truncate {fd : Nat} {f : S3File} (hfd : files.lookup fd = some (.s3File f))
      (hwritable : f.writable = true) :
      Writes files (.file fd .truncate) _ (.putObject f.s3Key [] defaultMetadata)
  | metadata {op : Op} {path key : GoString} (hop : op.rewrites = some path)
      (hkey : key ∈ [s3KeyFromPath path, s3DirKey (s3KeyFromPath path)]) (metadata : Metadata) :
      Writes files op _ (.copyObjectWithMetadata key metadata)
  | link {target linkPath : GoString} :
      Writes files (.symlink target linkPath) _
        (.putObject (s3KeyFromPath linkPath) [] (symlinkMetadata target))
  | move {oldpath newpath oldKey newKey : GoString}
      (hkeys : RenameKeys oldpath newpath (oldKey, newKey)) :
      Writes files (.rename oldpath newpath) _ (.copyObject oldKey newKey)
  | moved {oldpath newpath oldKey newKey : GoString}
      (hkeys : RenameKeys oldpath newpath (oldKey, newKey)) :
      Writes files (.rename oldpath newpath) _ (.deleteObject oldKey)
  | renamed {oldpath newpath oldKey newKey : GoString}
      (hkeys : RenameKeys oldpath newpath (oldKey, newKey)) :
      Writes files (.rename oldpath newpath) _ (.renameKey oldKey newKey)
  | remove {path key : GoString}
      (hkey : key ∈ [s3KeyFromPath path, s3DirKey (s3KeyFromPath path)]) :
      Writes files (.remove path) _ (.deleteObject key)
  | removed {path key : GoString}
      (hkey : key ∈ [s3KeyFromPath path, s3DirKey (s3KeyFromPath path)]) :
      Writes files (.remove path) _ (.removeByKey key)
  | marker {path : GoString} :
      Writes files (.mkdirAll path) _ (.createDirMarker (s3DirKey (s3KeyFromPath path)))
  | copy {srcPath dstPath : GoString} :
      Writes files (.copy srcPath dstPath) _
        (.copyObject (s3KeyFromPath srcPath) (s3KeyFromPath dstPath))

/-- A call of an operation is a question, or one of those it writes by. -/
def AsksOrWrites (files : GoMap Nat File) (op : Op) (β : Type) (e : Eff β) : Prop :=
  e.alters = [] ∨ Writes files op β e

/-- The calls of an open file. -/
theorem writes_file_perform {files : GoMap Nat File} {fd : Nat} {f : File}
    (hfd : files.lookup fd = some f) (op : FileOp) :
    (f.perform op).Only (AsksOrWrites files (.file fd op)) := by
  have hask : ∀ {β : Type} (e : Eff β), e.alters = [] → AsksOrWrites files (.file fd op) β e :=
    fun _ => Or.inl
  cases f with
  | s3File f =>
    refine Prog.only_bind ?_ fun _ => Prog.only_pure _
    cases op with
    | read fuel n =>
      refine Prog.only_bind (only_read hask fuel f n) fun res => ?_
      rcases res with _ | ⟨res, f'⟩ <;> exact Prog.only_pure _
    | truncate =>
      refine Prog.only_bind (only_truncate hask fun hwritable => ?_) fun _ => Prog.only_pure _
      exact Or.inr (.truncate hfd hwritable)
    | readdir count => exact Prog.only_bind (only_readdir hask f count) fun _ => Prog.only_pure _
    | _ => exact Prog.only_pure _
  | s3WritableFile f =>
    refine Prog.only_bind ?_ fun _ => Prog.only_pure _
    cases op with
    | read fuel n => exact Prog.only_bind (only_onTmp hask f _) fun _ => Prog.only_pure _
    | write p => exact Prog.only_bind (only_onTmp hask f _) fun _ => Prog.only_pure _
    | seek offset whence => exact Prog.only_bind (only_onTmp hask f _) fun _ => Prog.only_pure _
    | close =>
      refine Prog.only_bind (only_close hask fun hopen => ?_) fun _ => Prog.only_pure _
      exact Or.inr (.upload hfd hopen)
    | _ => exact Prog.only_pure _

/-- Every operation writes by the calls listed for it. -/
theorem writes_methodOf (files : GoMap Nat File) (op : Op) :
    (methodOf files op).Only (AsksOrWrites files op) := by
  have hask : ∀ {β : Type} (e : Eff β), e.alters = [] → AsksOrWrites files op β e := fun _ => Or.inl
  have hdiscard : ∀ {α : Type} {p : Gw α}, p.Only (AsksOrWrites files op) →
      Prog.Only (AsksOrWrites files op) (do let _ ← p; pure ()) :=
    fun hp => Prog.only_bind hp fun _ => Prog.only_pure _
  cases op with
  | openFile path flags =>
    exact hdiscard (only_openFile hask fun hflags => Or.inr (.placeholder hflags))
  | file fd op =>
    simp only [methodOf]
    cases hfd : files.lookup fd with
    | none => exact Prog.only_pure _
    | some f => exact hdiscard (writes_file_perform hfd op)
  | stat path => exact hdiscard (only_stat hask path)
  | chmod path mode =>
    exact hdiscard (only_chmod hask mode fun key hkey m => Or.inr (.metadata rfl hkey m))
  | chown path uid gid =>
    exact hdiscard (only_chown hask uid gid fun key hkey m => Or.inr (.metadata rfl hkey m))
  | setXattr path name value option =>
    exact hdiscard (only_setXattr hask name value option fun key hkey m =>
      Or.inr (.metadata rfl hkey m))
  | listXattrs path => exact hdiscard (only_listXattrs hask path)
  | removeXattr path name =>
    exact hdiscard (only_removeXattr hask name fun key hkey m => Or.inr (.metadata rfl hkey m))
  | symlink target linkPath => exact hdiscard (only_symlink hask (Or.inr .link))
  | readlink path => exact hdiscard (only_readlink hask path)
  | rename oldpath newpath =>
    exact hdiscard (only_rename hask fun _ _ hkeys =>
      ⟨Or.inr (.move hkeys), Or.inr (.moved hkeys), Or.inr (.renamed hkeys)⟩)
  | remove path =>
    exact hdiscard (only_remove hask fun _ hkey => ⟨Or.inr (.remove hkey), Or.inr (.removed hkey)⟩)
  | mkdirAll path => exact hdiscard (only_mkdirAll hask (Or.inr .marker))
  | copy srcPath dstPath => exact hdiscard (only_copy hask (Or.inr .copy))
  | evictExpired => exact Prog.only_pure _

end S3Gateway
