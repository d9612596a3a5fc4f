import S3Gateway.S3fs.File

/-!
# Filesystem operations (`internal/s3fs/filesystem.go`, `internal/s3fs/copy.go`)

The methods of `S3FS`, call by call. A path names the object at its key or, with
a slash behind it, a directory: an explicit marker object, or any object below
it. Arguments that the code never reads (the permissions of `OpenFile` and
`MkdirAll`) are left out.
-/

namespace S3Gateway

open Lib

def oRDONLY : Nat := 0
def oWRONLY : Nat := 1
def oRDWR : Nat := 2
def oCREATE : Nat := 64

/-- `flags & (O_WRONLY|O_RDWR|O_CREATE) != 0`. -/
def writableFlags (flags : Nat) : Bool := flags &&& (oWRONLY ||| oRDWR ||| oCREATE) != 0

/-- `GetFileId`. -/
def getFileId (fi : FileInfo) : UInt64 := fi.inode

/-- `GetHandle`. -/
def getHandle (fi : FileInfo) : Except GoError Bytes :=
  if getFileId fi = 0 then .error .errNotExist else .ok (inodeToHandle (getFileId fi))

/-- `ResolveHandle`. -/
def resolveHandle (handles : HandleStore) (handle : Bytes) : Except GoError GoString :=
  match handleToInode handle with
  | .error err => .error err
  | .ok inode =>
    match handles.getKey inode with
    | none => .error .errNotExist
    | some key => if key = [] then .ok [slash] else .ok (slash :: trimSuffixSlash key)

/-- The `s3File` `OpenFile` returns for a directory. -/
def openDir (path s3Key : GoString) (info : FileInfo) : File :=
  .s3File { path, s3Key, info, isDir := true, writable := false, offset := 0, chunked := none
            closed := false, etag := [] }

/-- The branch of `OpenFile` that creates an empty placeholder. -/
def createPlaceholder (path s3Key : GoString) : Gw (Except GoError File) := do
  match ← Prog.call (.getOrCreateInode s3Key) with
  | .error err => pure (.error err)
  | .ok inode =>
    match ← Prog.call (.putObject s3Key [] defaultMetadata) with
    | .error err => pure (.error (.wrap (gs "create empty placeholder") err))
    | .ok () =>
      let now ← Prog.call .now
      let info := newFileInfoFromS3 (nameFromPath path) 0 now false inode ∅
      cachePut s3Key info
      cacheInvalidateParent s3Key
      let f ← newEmptyWritableFile path s3Key info
      pure (f.map .s3WritableFile)

/-- `OpenFile` on an explicit directory marker. -/
def openMarker (path dirKey : GoString) : Gw (Except GoError File) := do
  match ← Prog.call (.headObject dirKey) with
  | .error _ => pure (.error .errNotExist)
  | .ok objInfo =>
    match ← Prog.call (.getOrCreateInode dirKey) with
    | .error err => pure (.error err)
    | .ok inode =>
      let info := newFileInfoFromS3 (nameFromPath path) objInfo.size objInfo.lastModified true
        inode objInfo.userMetadata
      cachePut dirKey info
      pure (.ok (openDir path dirKey info))

/-- The info of a directory that is known to have children. -/
def implicitDirInfo (path dirKey : GoString) : Gw (Except GoError FileInfo) := do
  match ← Prog.call (.getOrCreateInode dirKey) with
  | .error err => pure (.error err)
  | .ok inode =>
    let now ← Prog.call .now
    let info := newDirInfo (nameFromPath path) inode now
    cachePut dirKey info
    pure (.ok info)

/-- The branch of `OpenFile` for a path that is no file: a directory with
children, or an explicit directory marker. -/
def openDirectory (path dirKey : GoString) : Gw (Except GoError File) := do
  match ← Prog.call (.listObjects dirKey) with
  | .error _ => openMarker path dirKey
  | .ok entries =>
    if entries = [] then openMarker path dirKey
    else
      let info ← implicitDirInfo path dirKey
      pure (info.map (openDir path dirKey))

/-- `OpenFile`. -/
def openFile (path : GoString) (flags : Nat) : Gw (Except GoError File) := do
  let s3Key := s3KeyFromPath path
  if s3Key = [] then
    let inode ← Prog.call (.getOrCreateInode [])
    let now ← Prog.call .now
    -- the allocation error is ignored, the inode is then 0
    let info := newDirInfo [slash] (inode.toOption.getD 0) now
    pure (.ok (openDir [slash] [] info))
  else
    match ← Prog.call (.headObject s3Key) with
    | .ok objInfo =>
      match ← Prog.call (.getOrCreateInode s3Key) with
      | .error err => pure (.error err)
      | .ok inode =>
        let info := newFileInfoFromS3WithETag (nameFromPath path) objInfo.size objInfo.lastModified
          false inode objInfo.userMetadata objInfo.etag
        cachePut s3Key info
        if writableFlags flags then
          let f ← newWritableFile path s3Key info
          pure (f.map .s3WritableFile)
        else
          pure (.ok (.s3File
            { path, s3Key, info, isDir := false, writable := false, offset := 0, chunked := none
              closed := false, etag := objInfo.etag }))
    | .error _ =>
      if writableFlags flags then createPlaceholder path s3Key
      else openDirectory path (s3DirKey s3Key)

/-- `Stat` once S3 has the object. -/
def statFound (path key : GoString) (isDir : Bool) (objInfo : ObjectInfo) :
    Gw (Except GoError FileInfo) := do
  match ← Prog.call (.getOrCreateInode key) with
  | .error err => pure (.error err)
  | .ok inode =>
    let info := newFileInfoFromS3 (nameFromPath path) objInfo.size objInfo.lastModified isDir
      inode objInfo.userMetadata
    cachePut key info
    pure (.ok info)

/-- `Stat` once S3 has nothing: negative entries for the file and the directory. -/
def statMissing (s3Key dirKey : GoString) : Gw (Except GoError FileInfo) := do
  cachePutNegative s3Key
  cachePutNegative dirKey
  pure (.error .errNotExist)

/-- The part of `Stat` that asks S3: for the file, for a directory marker, for
anything below the directory. -/
def statS3 (path s3Key dirKey : GoString) : Gw (Except GoError FileInfo) := do
  match ← Prog.call (.headObject s3Key) with
  | .ok objInfo => statFound path s3Key (objInfo.isDir || hasSuffixSlash s3Key) objInfo
  | .error _ =>
    match ← Prog.call (.headObject dirKey) with
    | .ok objInfo => statFound path dirKey true objInfo
    | .error _ =>
      match ← Prog.call (.listObjects dirKey) with
      | .error _ => statMissing s3Key dirKey
      | .ok entries =>
        if entries = [] then statMissing s3Key dirKey else implicitDirInfo path dirKey

/-- `Stat` once the file key has no positive cache entry: the cache entry of the
directory key, then S3. -/
def statDir (path s3Key dirKey : GoString) : Gw (Except GoError FileInfo) := do
  match ← cacheGet dirKey with
  | some (some fi) => pure (.ok { fi with name := nameFromPath path })
  | _ => statS3 path s3Key dirKey

/-- `Stat`. -/
def stat (path : GoString) : Gw (Except GoError FileInfo) := do
  let s3Key := s3KeyFromPath path
  if s3Key = [] then
    let inode ← Prog.call (.getOrCreateInode [])
    let now ← Prog.call .now
    pure (.ok (newDirInfo [slash] (inode.toOption.getD 0) now))
  else
    match ← cacheGet s3Key with
    | some (some fi) => pure (.ok { fi with name := nameFromPath path })
    | _ => statDir path s3Key (s3DirKey s3Key)

/-- The key of the object a path names: its own key if there is such an object,
else the key of its directory marker. -/
def objectKey (b : Bucket) (path : GoString) : GoString :=
  if (b.get (s3KeyFromPath path)).isSome then s3KeyFromPath path else s3DirKey (s3KeyFromPath path)

/-- The lookup of `Chmod`, `Chown` and the xattr methods: the object at the
path's key or, failing that, its directory marker. -/
def headPath (path : GoString) : Gw (Option (GoString × ObjectInfo)) := do
  let s3Key := s3KeyFromPath path
  match ← Prog.call (.headObject s3Key) with
  | .ok objInfo => pure (some (s3Key, objInfo))
  | .error _ =>
    let dirKey := s3DirKey s3Key
    match ← Prog.call (.headObject dirKey) with
    | .ok objInfo => pure (some (dirKey, objInfo))
    | .error _ => pure none

/-- Replace the metadata of an object and drop its cache entry; `what` names the
operation in the error. -/
def replaceMetadata (what key : GoString) (metadata : Metadata) : Gw (Except GoError Unit) := do
  match ← Prog.call (.copyObjectWithMetadata key metadata) with
  | .error err => pure (.error (.wrap what err))
  | .ok () =>
    cacheInvalidate key
    pure (.ok ())

/-- `Chmod`. -/
def chmod (path : GoString) (mode : FileMode) : Gw (Except GoError Unit) := do
  match ← headPath path with
  | none => pure (.error .errNotExist)
  | some (key, objInfo) =>
    replaceMetadata (gs "chmod") key
      (objInfo.userMetadata.insert metaKeyMode (formatOctal mode.perm))

/-- `Chown`: a negative id leaves the stored one. -/
def chown (path : GoString) (uid gid : Int) : Gw (Except GoError Unit) := do
  match ← headPath path with
  | none => pure (.error .errNotExist)
  | some (key, objInfo) =>
    let userMeta := objInfo.userMetadata
    let userMeta := if uid ≥ 0 then userMeta.insert metaKeyUID (itoa uid) else userMeta
    let userMeta := if gid ≥ 0 then userMeta.insert metaKeyGID (itoa gid) else userMeta
    replaceMetadata (gs "chown") key userMeta

/-- The metadata of a symlink object. -/
def symlinkMetadata (target : GoString) : Metadata :=
  (((AList.insert metaKeySymlinkTarget target ∅).insert metaKeyUID (itoa defaultUID)).insert
    metaKeyGID (itoa defaultGID)).insert metaKeyMode (gs "0777")

/-- `Symlink`. -/
def symlink (target linkPath : GoString) : Gw (Except GoError Unit) :=
  if target = [] then pure (.error (.text (gs "empty symlink target")))
  else if target.length > 4080 then
    pure (.error (.text (gs "symlink target too long (max 4080 bytes)")))
  else do
    let s3Key := s3KeyFromPath linkPath
    match ← Prog.call (.headObject s3Key) with
    | .ok _ => pure (.error .errExist)
    | .error _ =>
      match ← Prog.call (.putObject s3Key [] (symlinkMetadata target)) with
      | .error err => pure (.error (.wrap (gs "create symlink") err))
      | .ok () =>
        cacheInvalidateParent s3Key
        pure (.ok ())

/-- `Readlink`. -/
def readlink (path : GoString) : Gw (Except GoError GoString) := do
  match ← Prog.call (.headObject (s3KeyFromPath path)) with
  | .error _ => pure (.error .errNotExist)
  | .ok objInfo =>
    let target := symlinkTarget objInfo.userMetadata
    if target = [] then pure (.error (.text (gs "not a symlink"))) else pure (.ok target)

/-- Either branch of `Rename`: `what` and `which` name the object in the errors. -/
def renameObject (what which oldKey newKey : GoString) : Gw (Except GoError Unit) := do
  match ← Prog.call (.copyObject oldKey newKey) with
  | .error err => pure (.error (.wrap what err))
  | .ok () =>
    match ← Prog.call (.deleteObject oldKey) with
    | .error err => pure (.error (.wrap which err))
    | .ok () =>
      let _ ← Prog.call (.renameKey oldKey newKey)
      cacheInvalidate oldKey
      cacheInvalidate newKey
      cacheInvalidateParent oldKey
      cacheInvalidateParent newKey
      dataCacheInvalidate oldKey
      dataCacheInvalidate newKey
      pure (.ok ())

/-- `Rename`. -/
def rename (oldpath newpath : GoString) : Gw (Except GoError Unit) := do
  let oldKey := s3KeyFromPath oldpath
  let newKey := s3KeyFromPath newpath
  match ← Prog.call (.headObject oldKey) with
  | .ok _ => renameObject (gs "copy object") (gs "delete old object") oldKey newKey
  | .error _ =>
    match ← Prog.call (.headObject (s3DirKey oldKey)) with
    | .ok _ =>
      renameObject (gs "copy dir marker") (gs "delete old dir marker") (s3DirKey oldKey)
        (s3DirKey newKey)
    | .error _ => pure (.error .errNotExist)

/-- Either branch of `Remove`. -/
def removeObject (what key : GoString) : Gw (Except GoError Unit) := do
  match ← Prog.call (.deleteObject key) with
  | .error err => pure (.error (.wrap what err))
  | .ok () =>
    let _ ← Prog.call (.removeByKey key)
    cacheInvalidate key
    cacheInvalidateParent key
    dataCacheInvalidate key
    pure (.ok ())

/-- `Remove`. -/
def remove (path : GoString) : Gw (Except GoError Unit) := do
  let s3Key := s3KeyFromPath path
  match ← Prog.call (.headObject s3Key) with
  | .ok _ => removeObject (gs "delete object") s3Key
  | .error _ =>
    match ← Prog.call (.headObject (s3DirKey s3Key)) with
    | .ok _ => removeObject (gs "delete dir marker") (s3DirKey s3Key)
    | .error _ => pure (.error .errNotExist)

/-- `MkdirAll`. -/
def mkdirAll (path : GoString) : Gw (Except GoError Unit) := do
  let s3Key := s3KeyFromPath path
  let dirKey := s3DirKey s3Key
  match ← Prog.call (.createDirMarker dirKey) with
  | .error err => pure (.error (.wrap (gs "create dir marker") err))
  | .ok () =>
    match ← Prog.call (.getOrCreateInode dirKey) with
    | .error err => pure (.error (.wrap (gs "allocate inode") err))
    | .ok _ =>
      cacheInvalidate dirKey
      cacheInvalidate s3Key
      cacheInvalidateParent dirKey
      pure (.ok ())

/-- `Copy`. -/
def copy (srcPath dstPath : GoString) : Gw (Except GoError Unit) := do
  let srcKey := s3KeyFromPath srcPath
  let dstKey := s3KeyFromPath dstPath
  match ← Prog.call (.copyObject srcKey dstKey) with
  | .error err => pure (.error (.wrap (gs "copy " ++ srcKey ++ gs " -> " ++ dstKey) err))
  | .ok () =>
    cacheInvalidate dstKey
    cacheInvalidateParent dstKey
    pure (.ok ())

end S3Gateway
