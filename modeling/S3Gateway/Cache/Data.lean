import S3Gateway.Cache.Metadata
import S3Gateway.Encoding

/-!
# The data cache (`internal/cache/data.go`)

A disk-backed LRU cache of object contents. An entry is a file named by the
SHA-256 digest of key and ETag, in a shard directory named by the first two
characters of that digest; an in-memory index with sizes and access times says
which files count.

The disk is part of the state: a map from (shard, file name) to files. Methods
that take the lock more than once are split into their locked sections
(`getIndex`, `getOpen`, `putIndex`). Slicing `key[:2]` out of a shorter key
panics; functions that slice return `none` in that case.
-/

namespace S3Gateway

open Lib

/-- SHA-256, of which only the length of its digests matters here. -/
structure Sha256 where
  sum256 : Bytes → Bytes
  length_sum256 : ∀ b, (sum256 b).length = 32

/-- A stand-in for SHA-256 that does not collide on short strings without trailing
zeros. -/
def DataCache.padded : Sha256 where
  sum256 b := (b ++ List.replicate 32 0).take 32
  length_sum256 b := by
    simp only [List.length_take, List.length_append, List.length_replicate]
    omega

def defaultDataCacheMaxSize : Int := 10 * 1024 * 1024 * 1024

/-- `DataCacheConfig`, without the directory's name and the eviction interval. -/
structure DataCacheConfig where
  maxSize : Int
  /-- `0` means no expiry. -/
  dataTTL : Time

/-- `dataEntry`. -/
structure DataEntry where
  key : GoString
  s3Key : GoString
  size : Int
  accessTime : Time

/-- A file in the cache directory. -/
structure DiskFile where
  data : Bytes
  modTime : Time

/-- `DataCache`, with the contents of its directory. -/
structure DataCache where
  sha256 : Sha256
  config : DataCacheConfig
  items : GoMap GoString Nat
  order : LinkedList DataEntry
  currentSize : Int
  disk : GoMap (GoString × GoString) DiskFile

/-- The step at which a `Put` fails, if it does. -/
inductive PutFailure where
  | mkdirAll
  | createTemp
  /-- The copy or the close of the temp file. -/
  | write
  | rename

/-- The error of a failed `Put`. -/
def PutFailure.error : PutFailure → GoError
  | .mkdirAll => .wrap (gs "create shard dir") (.errno (gs "mkdir"))
  | .createTemp => .wrap (gs "create temp file") (.errno (gs "open"))
  | .write => .wrap (gs "write cache file") (.errno (gs "write"))
  | .rename => .wrap (gs "rename cache file") (.errno (gs "rename"))

namespace DataCache

/-- `cacheKey`. -/
def cacheKey (dc : DataCache) (s3Key etag : GoString) : GoString :=
  hexEncodeToString (dc.sha256.sum256 (s3Key ++ etag))

/-- `cachePath`, relative to the cache directory. -/
def cachePath (key : GoString) : Option (GoString × GoString) :=
  if key.length < 2 then none else some (key.take 2, key)

/-- Forget an entry of the index. -/
def dropEntry (dc : DataCache) (key : GoString) (elem : Nat) (entry : DataEntry) : DataCache :=
  { dc with
    currentSize := dc.currentSize - entry.size
    order := dc.order.remove elem
    items := dc.items.erase key }

/-- Delete an entry's file and forget the entry. -/
def removeEntry (dc : DataCache) (key : GoString) (elem : Nat) (entry : DataEntry) :
    Option DataCache :=
  (cachePath key).map fun path =>
    { dc.dropEntry key elem entry with disk := dc.disk.erase path }

/-- Whether the time-to-live of an entry is over. -/
def ttlExpired (dc : DataCache) (now : Time) (entry : DataEntry) : Bool :=
  dc.config.dataTTL > 0 && now - entry.accessTime > dc.config.dataTTL

/-- The first locked section of `Get`: the element of a usable entry. -/
def getIndex (dc : DataCache) (now : Time) (key : GoString) : Option (Option Nat × DataCache) :=
  match dc.items.lookup key with
  | none => some (none, dc)
  | some elem =>
    match dc.order.value elem with
    | none => some (none, dc)
    | some entry =>
      if dc.ttlExpired now entry then (dc.removeEntry key elem entry).map fun dc => (none, dc)
      else
        let order := dc.order.update elem fun entry => { entry with accessTime := now }
        some (some elem, { dc with order := order.moveToFront elem })

/-- The rest of `Get`: open the file, or forget the entry if that fails. -/
def getOpen (dc : DataCache) (openOk : Bool) (key : GoString) (path : GoString × GoString)
    (elem : Nat) : Option Bytes × DataCache :=
  match openOk, dc.disk.lookup path with
  | true, some file => (some file.data, dc)
  | _, _ =>
    match dc.order.value elem with
    | none => (none, dc)
    | some entry => (none, dc.dropEntry key elem entry)

/-- `Get`: the contents of the file it opens, or a miss. -/
def get (dc : DataCache) (now : Time) (openOk : Bool) (s3Key etag : GoString) :
    Option (Option Bytes × DataCache) :=
  let key := dc.cacheKey s3Key etag
  (cachePath key).bind fun path =>
    (dc.getIndex now key).map fun
      | (none, dc) => (none, dc)
      | (some elem, dc) => dc.getOpen openOk key path elem

/-- One eviction loop: drop entries from the back of the list (`elems` is what is
left of it, back first) while `cond` holds for the last one. -/
def evictWhile (cond : DataCache → DataEntry → Bool) : List Nat → DataCache → Option DataCache
  | [], dc => some dc
  | elem :: elems, dc =>
    match dc.order.value elem with
    | none => some dc
    | some entry =>
      if cond dc entry then (dc.removeEntry entry.key elem entry).bind (evictWhile cond elems)
      else some dc

/-- `evict`: by age, then by size. -/
def evict (dc : DataCache) (now : Time) : Option DataCache :=
  (evictWhile (fun dc entry => dc.ttlExpired now entry) dc.order.order.reverse dc).bind fun dc =>
    evictWhile (fun dc _ => dc.currentSize > dc.config.maxSize) dc.order.order.reverse dc

/-- The locked section of `Put`. -/
def putIndex (dc : DataCache) (now : Time) (key s3Key : GoString) (written : Int) : DataCache :=
  match dc.items.lookup key with
  | some elem =>
    let oldSize := match dc.order.value elem with
      | some old => old.size
      | none => 0
    let order := dc.order.update elem fun old => { old with size := written, accessTime := now }
    { dc with
      currentSize := dc.currentSize - oldSize + written
      order := order.moveToFront elem }
  | none =>
    { dc with
      order := dc.order.pushFront { key, s3Key, size := written, accessTime := now }
      items := dc.items.insert key dc.order.next
      currentSize := dc.currentSize + written }

/-- `Put`. A failed step before the rename leaves the directory as it was: the
temp file is removed. -/
def put (dc : DataCache) (now : Time) (failure : Option PutFailure) (s3Key etag : GoString)
    (data : Bytes) : Option (Except GoError Unit × DataCache) :=
  let key := dc.cacheKey s3Key etag
  (cachePath key).bind fun path =>
    match failure with
    | some f => some (.error f.error, dc)
    | none =>
      let dc := { dc with disk := dc.disk.insert path ⟨data, now⟩ }
      ((dc.putIndex now key s3Key data.length).evict now).map fun dc => (.ok (), dc)

/-- `Invalidate`. -/
def invalidate (dc : DataCache) (s3Key : GoString) : Option DataCache :=
  dc.items.entries.foldlM (fun dc kv =>
    match dc.order.value kv.2 with
    | none => some dc
    | some entry => if entry.s3Key = s3Key then dc.removeEntry kv.1 kv.2 entry else some dc) dc

end DataCache

/-! ## Start -/

/-- The files of a cache directory, by shard and name. -/
abbrev Disk := GoMap (GoString × GoString) DiskFile

/-- What the file system contributes to `NewDataCache`. -/
structure ScanOutcome where
  /-- Whether `os.MkdirAll` of the cache directory succeeds. -/
  mkdirAll : Bool
  /-- Whether `os.ReadDir` of the cache directory succeeds. -/
  readDir : Bool
  /-- Whether `os.ReadDir` of a shard directory succeeds. -/
  readShard : GoString → Bool
  /-- Whether `Info` of a file succeeds. -/
  info : GoString × GoString → Bool

namespace Disk

/-- The shard directories, as `os.ReadDir` lists them. -/
def shards (disk : Disk) : List GoString :=
  ((disk.keys.map Prod.fst).dedup).insertionSort (· ≤ ·)

/-- The files of a shard directory, as `os.ReadDir` lists them. -/
def filesOf (disk : Disk) (shard : GoString) : List (GoString × DiskFile) :=
  ((disk.entries.filter fun kv => kv.1.1 = shard).map fun kv => (kv.1.2, kv.2)).insertionSort
    fun a b => a.1 ≤ b.1

end Disk

namespace DataCache

/-- A cache that has not looked at its directory. Non-positive sizes get the default. -/
def unscanned (sha256 : Sha256) (config : DataCacheConfig) (disk : Disk) : DataCache where
  sha256
  config :=
    { config with
      maxSize := if config.maxSize ≤ 0 then defaultDataCacheMaxSize else config.maxSize }
  items := ∅
  order := .empty
  currentSize := 0
  disk

/-- The body of the inner loop of `scanDir`. The S3 key of the file is not known. -/
def scanFile (o : ScanOutcome) (shard : GoString) (dc : DataCache) (f : GoString × DiskFile) :
    DataCache :=
  if hasPrefix f.1 (gs ".tmp-") then dc
  else if !o.info (shard, f.1) then dc
  else
    { dc with
      order := dc.order.pushBack
        { key := f.1, s3Key := [], size := f.2.data.length, accessTime := f.2.modTime }
      items := dc.items.insert f.1 dc.order.next
      currentSize := dc.currentSize + f.2.data.length }

/-- The body of the outer loop of `scanDir`. -/
def scanShard (o : ScanOutcome) (dc : DataCache) (shard : GoString) : DataCache :=
  if shard.length ≠ 2 then dc
  else if !o.readShard shard then dc
  else (Disk.filesOf dc.disk shard).foldl (scanFile o shard) dc

/-- `scanDir`. -/
def scanDir (dc : DataCache) (o : ScanOutcome) : DataCache :=
  if !o.readDir then dc else (Disk.shards dc.disk).foldl (scanShard o) dc

end DataCache

/-- `NewDataCache` on a directory with the files `disk`. -/
def newDataCache (sha256 : Sha256) (config : DataCacheConfig) (o : ScanOutcome) (now : Time)
    (disk : Disk) : Option (Except GoError DataCache) :=
  if !o.mkdirAll then some (.error (.wrap (gs "create cache dir") (.errno (gs "mkdir"))))
  else (((DataCache.unscanned sha256 config disk).scanDir o).evict now).map .ok

end S3Gateway
