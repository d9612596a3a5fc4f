import S3Gateway.Lib.Container
import S3Gateway.Path

/-!
# The S3 service behind `S3API`

`internal/s3/interface.go` is what the filesystem layer sees of S3. A bucket maps
non-empty keys to objects (S3 rejects the empty key, which the `Bucket` structure
records as an invariant); every call either acts on the bucket atomically and
strongly consistently, or fails without effect. Downloads return a body that
delivers bytes and then ends or fails.

How the network treats a call is not up to the gateway: each call is answered
under a `Fault`, and statements quantify over all of them. `Client.HeadObject`
and `Client.ListObjects` (`internal/s3/client.go`) decide which fields reach the
gateway: `HeadObject` never sets `IsDir`, and a listing marks a zero-sized entry
whose key ends in `/` as a directory.
-/

namespace S3Gateway

open Lib

/-- Instants and durations, in nanoseconds. -/
abbrev Time := Int

/-- Object contents. -/
abbrev Bytes := List UInt8

/-- S3 user metadata. -/
abbrev Metadata := GoMap GoString GoString

/-- Errors. `wrap msg err` is `fmt.Errorf("<msg>: %w", err)`, `text msg` an error
with no cause. -/
inductive GoError where
  /-- `io.EOF` -/
  | eof
  /-- `io.ErrUnexpectedEOF` -/
  | unexpectedEOF
  /-- `os.ErrClosed` -/
  | errClosed
  /-- `os.ErrNotExist` -/
  | errNotExist
  /-- `os.ErrExist` -/
  | errExist
  /-- `os.ErrInvalid` -/
  | errInvalid
  /-- S3 has no object with this key. -/
  | noSuchKey
  /-- S3 rejects the key. -/
  | invalidKey
  /-- Any other failure of an S3 call or of its body: timeouts, resets, refusals. -/
  | transport (code : Nat)
  /-- A bbolt transaction that did not commit. -/
  | txFailed
  /-- A failed system call on a local file. -/
  | errno (name : GoString)
  | text (msg : GoString)
  | wrap (msg : GoString) (err : GoError)
deriving DecidableEq

/-- How the transport treats one S3 call. -/
inductive Fault where
  /-- The call is answered. -/
  | none
  /-- The call fails and has no effect. -/
  | call (err : GoError)
  /-- A download is answered, but its body stops after `n` bytes with `err`
  (`io.EOF` for a body that is short but ends normally). -/
  | body (n : Nat) (err : GoError)
deriving DecidableEq

/-- A response body: the bytes it delivers and the error its reader reports after
the last of them, `io.EOF` at a normal end. -/
structure Body where
  data : Bytes
  err : GoError
deriving DecidableEq

/-- An object as the service stores it. -/
structure Object where
  data : Bytes
  userMetadata : Metadata
  lastModified : Time
  etag : GoString

/-- A bucket. S3 rejects the empty key, so no object ever has it. -/
structure Bucket where
  objects : GoMap GoString Object
  noEmptyKey : [] ∉ objects

/-- `ObjectInfo` (`internal/s3/client.go`); the content type, which the gateway
never reads, is left out. -/
structure ObjectInfo where
  key : GoString
  size : Int
  lastModified : Time
  etag : GoString
  isDir : Bool
  userMetadata : Metadata

/-- `ListEntry` (`internal/s3/client.go`). -/
structure ListEntry where
  key : GoString
  size : Int
  lastModified : Time
  etag : GoString
  isDir : Bool

namespace Fault

/-- The error a call without a body fails with, if the transport fails it. -/
def callError : Fault → Option GoError
  | .call err => some err
  | _ => Option.none

/-- The body of a download of `data`. -/
def deliver : Fault → Bytes → Body
  | .body n err, data => ⟨data.take n, err⟩
  | _, data => ⟨data, .eof⟩

end Fault

namespace Bucket

/-- The empty bucket. -/
def empty : Bucket := ⟨∅, AList.notMem_empty _⟩

/-- The object stored under a key. -/
def get (b : Bucket) (key : GoString) : Option Object := b.objects.lookup key

/-- Store an object, replacing what the key held. -/
def put (b : Bucket) (key : GoString) (o : Object) (h : key ≠ []) : Bucket where
  objects := b.objects.insert key o
  noEmptyKey := by
    rw [AList.mem_insert]
    rintro (h' | h')
    · exact h h'.symm
    · exact b.noEmptyKey h'

/-- Drop a key. -/
def remove (b : Bucket) (key : GoString) : Bucket where
  objects := b.objects.erase key
  noEmptyKey := fun h => b.noEmptyKey (AList.mem_erase.mp h).2

/-- A bucket with one object, `f`. -/
def onlyF (data : Bytes) (etag : GoString) : Bucket :=
  empty.put (gs "f") ⟨data, ∅, 0, etag⟩ (by decide)

/-- The bytes of an object. -/
def dataAt (b : Bucket) (key : GoString) : Option Bytes := (b.get key).map Object.data

/-- The keys of the bucket. -/
def keys (b : Bucket) : List GoString := b.objects.keys

@[simp] theorem get_nil (b : Bucket) : b.get [] = none :=
  AList.lookup_eq_none.mpr b.noEmptyKey

theorem get_put (b : Bucket) (key key' : GoString) (o : Object) (h : key ≠ []) :
    (b.put key o h).get key' = if key' = key then some o else b.get key' :=
  GoMap.lookup_insert_ite _ _ _ _

@[simp] theorem get_put_self (b : Bucket) (key : GoString) (o : Object) (h : key ≠ []) :
    (b.put key o h).get key = some o := by
  rw [get_put, if_pos rfl]

theorem dataAt_put (b : Bucket) (key : GoString) (o : Object) (h : key ≠ []) :
    (b.put key o h).dataAt key = some o.data := by
  rw [dataAt, get_put_self]
  rfl

theorem get_remove (b : Bucket) (key key' : GoString) :
    (b.remove key).get key' = if key' = key then none else b.get key' :=
  GoMap.lookup_erase_ite _ _ _

theorem mem_keys {b : Bucket} {key : GoString} : key ∈ b.keys ↔ ∃ o, b.get key = some o :=
  AList.mem_keys.symm.trans (GoMap.mem_iff_lookup _ _)

theorem ne_nil_of_get {b : Bucket} {key : GoString} {o : Object} (h : b.get key = some o) :
    key ≠ [] := by
  rintro rfl
  simp at h

/-! ## Calls -/

/-- `HeadObject`. -/
def headObject (b : Bucket) (key : GoString) : Except GoError ObjectInfo :=
  match b.get key with
  | none => .error .noSuchKey
  | some o => .ok
    { key, size := o.data.length, lastModified := o.lastModified, etag := o.etag
      isDir := false, userMetadata := o.userMetadata }

/-- `GetObject`: the whole contents. -/
def getObject (b : Bucket) (key : GoString) : Except GoError Bytes :=
  match b.get key with
  | none => .error .noSuchKey
  | some o => .ok o.data

/-- `GetObjectRange`: the bytes `offset ≤ i < offset + length`. -/
def getObjectRange (b : Bucket) (key : GoString) (offset length : Int) : Except GoError Bytes :=
  (b.getObject key).map fun data => (data.drop offset.toNat).take length.toNat

/-- `PutObject`. -/
def putObject (b : Bucket) (key : GoString) (o : Object) : Except GoError Unit × Bucket :=
  if h : key = [] then (.error .invalidKey, b) else (.ok (), b.put key o h)

/-- `DeleteObject`. Deleting an absent key succeeds. -/
def deleteObject (b : Bucket) (key : GoString) : Except GoError Unit × Bucket :=
  if key = [] then (.error .invalidKey, b) else (.ok (), b.remove key)

/-- `CopyObject`: data and metadata of `src` under `dst`. -/
def copyObject (b : Bucket) (src dst : GoString) (now : Time) (etag : GoString) :
    Except GoError Unit × Bucket :=
  match b.get src with
  | none => (.error .noSuchKey, b)
  | some o => b.putObject dst { o with lastModified := now, etag := etag }

/-- `CopyObjectWithMetadata`: the object onto itself, with new metadata. -/
def copyObjectWithMetadata (b : Bucket) (key : GoString) (metadata : Metadata) (now : Time)
    (etag : GoString) : Except GoError Unit × Bucket :=
  match b.get key with
  | none => (.error .noSuchKey, b)
  | some o => b.putObject key
      { data := o.data, userMetadata := metadata, lastModified := now, etag := etag }

/-- What a listing with delimiter `/` shows of a key below `pfx`: the key
itself, or the common prefix up to the first slash behind `pfx`. -/
def childOf (pfx key : GoString) : GoString :=
  let rest := key.drop pfx.length
  if slash ∈ rest then pfx ++ rest.takeWhile (· != slash) ++ [slash] else key

/-- The keys and common prefixes a listing of `pfx` shows, in key order. -/
def listKeys (b : Bucket) (pfx : GoString) : List GoString :=
  (((b.keys.filter (hasPrefix · pfx)).map (childOf pfx)).dedup).insertionSort (· ≤ ·)

/-- The listing entry of a key or common prefix. -/
def listEntry (b : Bucket) (pfx child : GoString) : ListEntry :=
  match b.get child with
  | some o =>
    if child ≠ pfx ∧ hasSuffixSlash child then ⟨child, 0, 0, [], true⟩
    else ⟨child, o.data.length, o.lastModified, o.etag, o.data = [] && hasSuffixSlash child⟩
  | none => ⟨child, 0, 0, [], true⟩

/-- `ListObjects`. -/
def listObjects (b : Bucket) (pfx : GoString) : List ListEntry :=
  (b.listKeys pfx).map (b.listEntry pfx)

theorem putObject_of_ne {b : Bucket} {key : GoString} (o : Object) (h : key ≠ []) :
    b.putObject key o = (.ok (), b.put key o h) := dif_neg h

theorem putObject_nil (b : Bucket) (o : Object) : b.putObject [] o = (.error .invalidKey, b) :=
  dif_pos rfl

theorem deleteObject_of_ne {b : Bucket} {key : GoString} (h : key ≠ []) :
    b.deleteObject key = (.ok (), b.remove key) := if_neg h

theorem headObject_ok {b : Bucket} {key : GoString} {info : ObjectInfo}
    (h : b.headObject key = .ok info) :
    ∃ o, b.get key = some o ∧ info.size = o.data.length ∧ info.lastModified = o.lastModified ∧
      info.etag = o.etag ∧ info.isDir = false ∧ info.userMetadata = o.userMetadata := by
  unfold headObject at h
  split at h
  · cases h
  · next o ho =>
    cases h
    exact ⟨o, ho, rfl, rfl, rfl, rfl, rfl⟩

theorem headObject_error {b : Bucket} {key : GoString} {err : GoError}
    (h : b.headObject key = .error err) : b.get key = none := by
  unfold headObject at h
  split at h
  · assumption
  · cases h

@[simp] theorem listEntry_key (b : Bucket) (pfx child : GoString) :
    (b.listEntry pfx child).key = child := by
  unfold listEntry
  split
  · split <;> rfl
  · rfl

/-- What a listing shows of a key is a prefix of the key. -/
theorem childOf_prefix {pfx key : GoString} (h : pfx <+: key) : childOf pfx key <+: key := by
  obtain ⟨rest, rfl⟩ := h
  unfold childOf
  dsimp only
  rw [List.drop_left]
  split
  · next hs =>
    rw [List.append_assoc, List.prefix_append_right_inj]
    induction rest with
    | nil => exact absurd hs List.not_mem_nil
    | cons x xs ih =>
      by_cases hx : x = slash
      · simp [hx]
      · have hxs : slash ∈ xs := (List.mem_cons.mp hs).resolve_left (Ne.symm hx)
        rw [List.takeWhile_cons_of_pos (by simpa using hx), List.cons_append,
          List.cons_prefix_cons]
        exact ⟨rfl, ih hxs⟩
  · exact List.prefix_refl _

/-- The keys of a listing. -/
theorem mem_listKeys {b : Bucket} {pfx child : GoString} :
    child ∈ b.listKeys pfx ↔ ∃ key, key ∈ b.keys ∧ pfx <+: key ∧ childOf pfx key = child := by
  simp [listKeys, List.mem_insertionSort, hasPrefix, and_assoc]

/-- A listing entry whose key does not end in a slash is an object of the bucket,
with that object's size. -/
theorem listEntry_file {b : Bucket} {pfx child : GoString} (h : child ∈ b.listKeys pfx)
    (hs : hasSuffixSlash child = false) :
    ∃ o, b.get child = some o ∧ (b.listEntry pfx child).size = o.data.length ∧
      (b.listEntry pfx child).isDir = false := by
  obtain ⟨key, hkey, -, hchild⟩ := mem_listKeys.mp h
  have hkc : key = child := by
    unfold childOf at hchild
    dsimp only at hchild
    split at hchild
    · rw [← hchild, hasSuffixSlash_concat] at hs
      cases hs
    · exact hchild
  obtain ⟨o, ho⟩ := mem_keys.mp (hkc ▸ hkey)
  exact ⟨o, ho, by simp [listEntry, ho, hs], by simp [listEntry, ho, hs]⟩

end Bucket

end S3Gateway
