import S3Gateway.S3fs.Attrs

/-!
# Inodes and handles (`internal/s3fs/handle.go`)

The handle store gives every S3 key an inode number and keeps the two directions
of the mapping twice: in memory (`inodeToKey`, `keyToInode`) and in a bbolt
database with the buckets `inodes`, `keys` and `meta`. The database is opened by
`newHandleStore`, which rebuilds both maps from the `inodes` bucket alone.

A bbolt transaction either commits all its writes or none of them; `commit` says
which, for every operation that starts one. A bucket is an association list;
`ForEach` visits it in byte order of the keys, which for big-endian inode numbers
is numeric order.
-/

namespace S3Gateway

open Lib

/-- `rootInode`. -/
def rootInode : UInt64 := 1

/-- Big-endian bytes of `n`, the last `w` of them. -/
def bigEndian : Nat → Nat → Bytes
  | 0, _ => []
  | w + 1, n => bigEndian w (n / 256) ++ [UInt8.ofNat n]

/-- `uint64ToBytes`. -/
def uint64ToBytes (v : UInt64) : Bytes := bigEndian 8 v.toNat

/-- `binary.BigEndian.Uint64`. -/
def bytesToUint64 (b : Bytes) : UInt64 :=
  UInt64.ofNat (b.foldl (fun acc x => acc * 256 + x.toNat) 0)

/-- `s3KeyToBolt`: bbolt rejects empty keys, so the root is stored as a NUL byte. -/
def s3KeyToBolt (s3Key : GoString) : Bytes := if s3Key = [] then [0] else s3Key

/-- `boltToS3Key`. -/
def boltToS3Key (b : Bytes) : GoString := if b = [0] then [] else b

/-- The three bbolt buckets; `meta` holds one key, `next_inode`. -/
structure BoltDB where
  inodes : GoMap Bytes Bytes
  keys : GoMap Bytes Bytes
  nextInode : Option Bytes

/-- A database file that was just created. -/
def BoltDB.empty : BoltDB := ⟨∅, ∅, none⟩

/-- `HandleStore`. -/
structure HandleStore where
  db : BoltDB
  nextInode : UInt64
  inodeToKey : GoMap UInt64 GoString
  keyToInode : GoMap GoString UInt64

namespace HandleStore

/-- The callback of `inodes.ForEach` in `init`. -/
def loadMapping (maps : GoMap UInt64 GoString × GoMap GoString UInt64)
    (kv : Sigma fun _ : Bytes => Bytes) : GoMap UInt64 GoString × GoMap GoString UInt64 :=
  let inode := bytesToUint64 kv.1
  let key := boltToS3Key kv.2
  (maps.1.insert inode key, maps.2.insert key inode)

/-- Byte order of the keys of a bucket. -/
def boltLE (a b : Sigma fun _ : Bytes => Bytes) : Prop := a.1 ≤ b.1

instance : DecidableRel boltLE := fun a b => inferInstanceAs (Decidable (a.1 ≤ b.1))

/-- The database after `init` has made sure that the root inode exists. -/
def initDB (db : BoltDB) : BoltDB :=
  let root := uint64ToBytes rootInode
  if root ∈ db.inodes then db
  else { db with inodes := db.inodes.insert root [0], keys := db.keys.insert [0] root }

/-- `NewHandleStore` on an existing or new database; `none` when the transaction
of `init` fails. -/
def newHandleStore (db : BoltDB) (commit : Bool) : Option HandleStore :=
  if commit then
    let db' := initDB db
    let maps := (db'.inodes.entries.insertionSort boltLE).foldl loadMapping (∅, ∅)
    some
      { db := db'
        nextInode := match db.nextInode with
          | some v => bytesToUint64 v
          | none => rootInode + 1
        inodeToKey := maps.1
        keyToInode := maps.2 }
  else none

/-- The read-locked lookup of `GetOrCreateInode`, which is `GetInode`. -/
def getInode (s : HandleStore) (s3Key : GoString) : Option UInt64 := s.keyToInode.lookup s3Key

/-- The write-locked section of `GetOrCreateInode`. -/
def createInode (s : HandleStore) (s3Key : GoString) (commit : Bool) :
    Except GoError UInt64 × HandleStore :=
  match s.keyToInode.lookup s3Key with
  | some inode => (.ok inode, s)
  | none =>
    if s.nextInode = 0 then -- wrapped around
      (.error (.text (gs "inode counter overflow: maximum inodes reached")), s)
    else
      let inode := s.nextInode
      let s := { s with nextInode := s.nextInode + 1 }
      if commit then
        (.ok inode,
          { s with
            db :=
              { inodes := s.db.inodes.insert (uint64ToBytes inode) (s3KeyToBolt s3Key)
                keys := s.db.keys.insert (s3KeyToBolt s3Key) (uint64ToBytes inode)
                nextInode := some (uint64ToBytes s.nextInode) }
            inodeToKey := s.inodeToKey.insert inode s3Key
            keyToInode := s.keyToInode.insert s3Key inode })
      else (.error (.wrap (gs "persist inode") .txFailed), s)

/-- `GetOrCreateInode`. -/
def getOrCreateInode (s : HandleStore) (s3Key : GoString) (commit : Bool) :
    Except GoError UInt64 × HandleStore :=
  match s.getInode s3Key with
  | some inode => (.ok inode, s)
  | none => s.createInode s3Key commit

/-- `GetKey`. -/
def getKey (s : HandleStore) (inode : UInt64) : Option GoString := s.inodeToKey.lookup inode

/-- `RemoveByKey`. -/
def removeByKey (s : HandleStore) (s3Key : GoString) (commit : Bool) :
    Except GoError Unit × HandleStore :=
  match s.keyToInode.lookup s3Key with
  | none => (.ok (), s)
  | some inode =>
    if commit then
      (.ok (),
        { s with
          db := { s.db with
            inodes := s.db.inodes.erase (uint64ToBytes inode)
            keys := s.db.keys.erase (s3KeyToBolt s3Key) }
          inodeToKey := s.inodeToKey.erase inode
          keyToInode := s.keyToInode.erase s3Key })
    else (.error (.wrap (gs "remove inode") .txFailed), s)

/-- `RenameKey`. -/
def renameKey (s : HandleStore) (oldKey newKey : GoString) (commit : Bool) :
    Except GoError Unit × HandleStore :=
  match s.keyToInode.lookup oldKey with
  | none => (.error .errNotExist, s)
  | some inode =>
    if commit then
      (.ok (),
        { s with
          db := { s.db with
            keys := (s.db.keys.erase (s3KeyToBolt oldKey)).insert (s3KeyToBolt newKey)
              (uint64ToBytes inode)
            inodes := s.db.inodes.insert (uint64ToBytes inode) (s3KeyToBolt newKey) }
          keyToInode := (s.keyToInode.erase oldKey).insert newKey inode
          inodeToKey := s.inodeToKey.insert inode newKey })
    else (.error (.wrap (gs "rename inode") .txFailed), s)

end HandleStore

/-- `InodeToHandle`. -/
def inodeToHandle (inode : UInt64) : Bytes := uint64ToBytes inode

/-- `HandleToInode`. -/
def handleToInode (handle : Bytes) : Except GoError UInt64 :=
  if handle.length < 8 then
    .error (.text (gs "invalid handle length: " ++ itoa handle.length))
  else .ok (bytesToUint64 (handle.take 8))

/-! ## Encodings -/

theorem foldl_bigEndian (w n acc : Nat) :
    (bigEndian w n).foldl (fun acc x => acc * 256 + x.toNat) acc
      = acc * 256 ^ w + n % 256 ^ w := by
  induction w generalizing n with
  | zero => simp [bigEndian, Nat.mod_one]
  | succ w ih =>
    rw [bigEndian, List.foldl_append, ih]
    have hb : (UInt8.ofNat n).toNat = n % 256 := by simp
    simp only [List.foldl_cons, List.foldl_nil, hb]
    have hsplit : n % 256 ^ (w + 1) = n / 256 % 256 ^ w * 256 + n % 256 := by
      rw [Nat.pow_succ, Nat.mul_comm (256 ^ w) 256, Nat.mod_mul]
      omega
    rw [hsplit, Nat.pow_succ, Nat.add_mul, Nat.mul_assoc, Nat.add_assoc]

/-- Decoding an inode number gives it back. -/
@[simp] theorem bytesToUint64_uint64ToBytes (v : UInt64) : bytesToUint64 (uint64ToBytes v) = v := by
  rw [bytesToUint64, uint64ToBytes, foldl_bigEndian]
  have hlt : v.toNat < 256 ^ 8 := v.toNat_lt
  rw [Nat.mod_eq_of_lt hlt]
  simp

theorem length_bigEndian (w n : Nat) : (bigEndian w n).length = w := by
  induction w generalizing n with
  | zero => rfl
  | succ w ih => rw [bigEndian, List.length_append, ih, List.length_singleton]

/-- A handle names its inode. -/
theorem handleToInode_inodeToHandle (inode : UInt64) :
    handleToInode (inodeToHandle inode) = .ok inode := by
  have hlen : (uint64ToBytes inode).length = 8 := length_bigEndian 8 _
  rw [handleToInode, inodeToHandle, hlen, if_neg (by decide), List.take_of_length_le (by omega),
    bytesToUint64_uint64ToBytes]

theorem uint64ToBytes_injective : Function.Injective uint64ToBytes :=
  Function.LeftInverse.injective bytesToUint64_uint64ToBytes

/-- Decoding a stored key gives it back, the reserved NUL key apart. -/
theorem boltToS3Key_s3KeyToBolt {key : GoString} (h : key ≠ [0]) :
    boltToS3Key (s3KeyToBolt key) = key := by
  by_cases hk : key = []
  · rw [hk]
    rfl
  · rw [s3KeyToBolt, if_neg hk, boltToS3Key, if_neg h]

/-- Encoding a loaded key gives back what was stored; nothing is stored empty. -/
theorem s3KeyToBolt_boltToS3Key {b : Bytes} (h : b ≠ []) : s3KeyToBolt (boltToS3Key b) = b := by
  by_cases hb : b = [0]
  · rw [hb]
    rfl
  · rw [boltToS3Key, if_neg hb, s3KeyToBolt, if_neg h]

theorem s3KeyToBolt_ne_nil (key : GoString) : s3KeyToBolt key ≠ [] := by
  by_cases hk : key = []
  · rw [hk]
    decide
  · rw [s3KeyToBolt, if_neg hk]
    exact hk

end S3Gateway
