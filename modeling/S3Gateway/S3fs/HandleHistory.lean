import S3Gateway.S3fs.HandleProof

/-!
# Inodes over the whole history of a database

Two statements about a handle store that do not need its maps to be inverse, and
so hold of every history, renames onto existing keys included.

- **No inode is given out twice** (`allocations_increasing`). The counter in
  memory runs ahead of the counter on disk when a transaction fails, and a reopen
  falls back to the one on disk. What never moves back is the counter on disk: an
  allocation takes an inode at or above it and commits the successor, so it is
  above everything allocated before (`diskCounter`).
- **A restart is invisible** (`restart_preserves_keys`). Byte for byte, the
  `inodes` bucket is the image of `inodeToKey` (`HandleStore.Sound.stored`), and a
  transaction that fails changes neither.
-/

namespace S3Gateway

open Lib

/-- Operations on the handle store with any keys, each with the outcome of its
transaction. -/
inductive StoreOp where
  | getOrCreateInode (key : GoString) (commit : Bool)
  | removeByKey (key : GoString) (commit : Bool)
  | renameKey (oldKey newKey : GoString) (commit : Bool)
  | close
  | newHandleStore (commit : Bool)

namespace HandleProc

/-- The database file of the process. -/
def db : HandleProc → BoltDB
  | .closed db => db
  | .opened s => s.db

/-- One operation. Operations other than opening need an open store. -/
def perform : HandleProc → StoreOp → HandleProc
  | .opened s, .getOrCreateInode key commit => .opened (s.getOrCreateInode key commit).2
  | .opened s, .removeByKey key commit => .opened (s.removeByKey key commit).2
  | .opened s, .renameKey oldKey newKey commit => .opened (s.renameKey oldKey newKey commit).2
  | .opened s, .close => .closed s.db
  | .closed db, .newHandleStore commit =>
    match HandleStore.newHandleStore db commit with
    | some s => .opened s
    | none => .closed db
  | p, _ => p

/-- The inode a call of `GetOrCreateInode` allocates: the one it returns for a key
that had none. -/
def allocates : HandleProc → StoreOp → Option UInt64
  | .opened s, .getOrCreateInode key commit =>
    if key ∈ s.keyToInode then none else (s.getOrCreateInode key commit).1.toOption
  | _, _ => none

/-- The inodes allocated along a history, in order. -/
def allocations (p : HandleProc) (ops : List StoreOp) : List UInt64 :=
  (outputs perform allocates p ops).reduceOption

end HandleProc

/-! ## Fresh inodes -/

namespace HandleStore

theorem loadedCounter_initDB (db : BoltDB) : (initDB db).loadedCounter = db.loadedCounter := by
  show BoltDB.loadedCounter (if _ then _ else _) = _
  split <;> rfl

end HandleStore

namespace HandleProc

/-- The counter on disk, as a bound. -/
def diskCounter (p : HandleProc) : Nat := BoltDB.counter p.db.loadedCounter

/-- The counter in memory is never behind the counter on disk. -/
def Counts : HandleProc → Prop
  | .closed _ => True
  | .opened s => BoltDB.counter s.db.loadedCounter ≤ BoltDB.counter s.nextInode

/-- What one operation does to the counter on disk: it stays or grows, and an
allocation takes an inode at or above it and leaves it one above that inode. -/
structure Advances (p : HandleProc) (op : StoreOp) : Prop where
  counts : (p.perform op).Counts
  mono : p.diskCounter ≤ (p.perform op).diskCounter
  above : ∀ i, p.allocates op = some i →
    p.diskCounter ≤ i.toNat ∧ (p.perform op).diskCounter = i.toNat + 1

/-- An operation that allocates nothing and leaves the counter on disk alone. -/
theorem Advances.of_loadedCounter_eq {p p' : HandleProc} {op : StoreOp} (hp : p.perform op = p')
    (hcounts : p'.Counts) (hload : p'.db.loadedCounter = p.db.loadedCounter)
    (hnone : p.allocates op = none) : p.Advances op := by
  subst hp
  refine ⟨hcounts, Nat.le_of_eq ?_, fun i hi => ?_⟩
  · rw [diskCounter, diskCounter, hload]
  · rw [hnone] at hi
    cases hi

theorem advances_getOrCreateInode {s : HandleStore} (h : Counts (.opened s)) (key : GoString)
    (commit : Bool) : Advances (.opened s) (.getOrCreateInode key commit) := by
  have hle : BoltDB.counter s.db.loadedCounter ≤ BoltDB.counter s.nextInode := h
  have hsucc := HandleStore.counter_succ s.nextInode
  have hc := s.creates key commit
  have hperform : perform (.opened s) (.getOrCreateInode key commit)
      = .opened (s.getOrCreateInode key commit).2 := rfl
  have hallocates : allocates (.opened s) (.getOrCreateInode key commit)
      = if key ∈ s.keyToInode then none else (s.getOrCreateInode key commit).1.toOption := rfl
  generalize s.getOrCreateInode key commit = res at hc hperform hallocates
  obtain ⟨r, s'⟩ := res
  cases hc with
  | found hi =>
    have hk := (GoMap.mem_iff_lookup _ _).mpr ⟨_, hi⟩
    exact .of_loadedCounter_eq hperform h rfl (hallocates.trans (if_pos hk))
  | exhausted hk => exact .of_loadedCounter_eq hperform h rfl (hallocates.trans (if_neg hk))
  | aborted hk hw =>
    refine .of_loadedCounter_eq hperform ?_ rfl (hallocates.trans (if_neg hk))
    have hnext : BoltDB.counter s.nextInode = s.nextInode.toNat := if_neg hw
    show BoltDB.counter s.db.loadedCounter ≤ BoltDB.counter (s.nextInode + 1)
    omega
  | committed hk hw =>
    have hnext : BoltDB.counter s.nextInode = s.nextInode.toNat := if_neg hw
    have hdisk : BoltDB.counter (s.allocated key).db.loadedCounter = s.nextInode.toNat + 1 := by
      rw [HandleStore.loadedCounter_allocated, hsucc]
    constructor
    · rw [hperform]
      exact Nat.le_of_eq (hdisk.trans hsucc.symm)
    · rw [hperform]
      show BoltDB.counter s.db.loadedCounter ≤ BoltDB.counter (s.allocated key).db.loadedCounter
      omega
    · intro i hi
      rw [hallocates, if_neg hk] at hi
      cases hi
      rw [hperform]
      refine ⟨?_, hdisk⟩
      show BoltDB.counter s.db.loadedCounter ≤ _
      omega

theorem Counts.advances {p : HandleProc} (h : p.Counts) (op : StoreOp) : p.Advances op := by
  have hcounts : ∀ {s s' : HandleStore}, Counts (.opened s) → s'.nextInode = s.nextInode ∧
      s'.db.loadedCounter = s.db.loadedCounter → Counts (.opened s') := by
    rintro s s' hs ⟨hnext, hload⟩
    show BoltDB.counter s'.db.loadedCounter ≤ BoltDB.counter s'.nextInode
    rw [hnext, hload]
    exact hs
  cases p with
  | closed db =>
    cases op with
    | newHandleStore commit =>
      cases commit with
      | false => exact .of_loadedCounter_eq rfl h rfl rfl
      | true =>
        -- the counter in memory is read from disk
        refine .of_loadedCounter_eq rfl ?_ (HandleStore.loadedCounter_initDB db) rfl
        show BoltDB.counter (HandleStore.initDB db).loadedCounter ≤ BoltDB.counter db.loadedCounter
        rw [HandleStore.loadedCounter_initDB]
    | _ => exact .of_loadedCounter_eq rfl h rfl rfl
  | opened s =>
    cases op with
    | getOrCreateInode key commit => exact advances_getOrCreateInode h key commit
    | removeByKey key commit =>
      have hsame := (s.removes key commit).counters
      exact .of_loadedCounter_eq rfl (hcounts h hsame) hsame.2 rfl
    | renameKey oldKey newKey commit =>
      have hsame := (s.renames oldKey newKey commit).counters
      exact .of_loadedCounter_eq rfl (hcounts h hsame) hsame.2 rfl
    | close => exact .of_loadedCounter_eq rfl trivial rfl rfl
    | newHandleStore commit => exact .of_loadedCounter_eq rfl h rfl rfl

/-- Along a whole history: the allocated inodes increase, from the counter on disk
at the start up to the counter on disk at the end. -/
theorem Counts.allocations {p : HandleProc} (h : p.Counts) (ops : List StoreOp) :
    (p.allocations ops).Pairwise (· < ·) ∧
      (∀ i ∈ p.allocations ops, p.diskCounter ≤ i.toNat ∧
        i.toNat < (ops.foldl perform p).diskCounter) ∧
      p.diskCounter ≤ (ops.foldl perform p).diskCounter ∧ (ops.foldl perform p).Counts := by
  induction ops generalizing p with
  | nil =>
    refine ⟨.nil, fun i hi => ?_, Nat.le_refl _, h⟩
    cases hi
  | cons op ops ih =>
    obtain ⟨hcounts, hmono, habove⟩ := h.advances op
    obtain ⟨hinc, hbounds, hle, hlast⟩ := ih hcounts
    have hfoldl : (op :: ops).foldl perform p = ops.foldl perform (p.perform op) := rfl
    rw [hfoldl]
    cases ha : p.allocates op with
    | none =>
      have hcons : p.allocations (op :: ops) = (p.perform op).allocations ops := by
        rw [HandleProc.allocations, outputs, ha]
        rfl
      rw [hcons]
      refine ⟨hinc, fun i hi => ?_, Nat.le_trans hmono hle, hlast⟩
      exact ⟨Nat.le_trans hmono (hbounds i hi).1, (hbounds i hi).2⟩
    | some j =>
      have hcons : p.allocations (op :: ops) = j :: (p.perform op).allocations ops := by
        rw [HandleProc.allocations, outputs, ha]
        rfl
      obtain ⟨hj, hjnext⟩ := habove j ha
      rw [hcons]
      refine ⟨List.pairwise_cons.mpr ⟨fun i hi => ?_, hinc⟩, fun i hi => ?_,
        Nat.le_trans hmono hle, hlast⟩
      · have := (hbounds i hi).1
        exact UInt64.lt_iff_toNat_lt.mpr (by omega)
      · rcases List.mem_cons.mp hi with rfl | hi
        · omega
        · have := hbounds i hi
          omega

end HandleProc

/-- Over every history of a database whose counter is past the root inode, as it is
in a new one, with any keys, failed transactions and reopens: the allocated inodes
strictly increase, none of them is 0 or the root inode, and once the last inode has
been allocated, or the counter in memory has wrapped around, a call for a key
without an inode fails and changes nothing. (When the transaction for the last
inode fails, that inode has not been allocated; a reopen goes back to it, not
around.) -/
theorem allocations_increasing (db : BoltDB) (hdb : 1 < BoltDB.counter db.loadedCounter)
    (ops : List StoreOp) :
    let issued := HandleProc.allocations (.closed db) ops
    issued.Pairwise (· < ·) ∧ (∀ i ∈ issued, i ≠ 0 ∧ i ≠ rootInode) ∧
      ∀ s, ops.foldl HandleProc.perform (.closed db) = .opened s →
        s.nextInode = 0 ∨ UInt64.ofNat (2 ^ 64 - 1) ∈ issued →
        ∀ key commit, key ∉ s.keyToInode → s.getOrCreateInode key commit
          = (.error (.text (gs "inode counter overflow: maximum inodes reached")), s) := by
  dsimp only
  have hinit : HandleProc.Counts (.closed db) := trivial
  obtain ⟨hinc, hbounds, -, hlast⟩ := hinit.allocations ops
  have hstart : 1 < HandleProc.diskCounter (.closed db) := hdb
  refine ⟨hinc, fun i hi => ?_, fun s hs hex key commit hkey => ?_⟩
  · have hlow := (hbounds i hi).1
    have h1 : 1 < i.toNat := by omega
    constructor
    · rintro rfl
      exact absurd h1 (by decide)
    · rintro rfl
      exact absurd h1 (by decide)
  · have hwrapped : s.nextInode = 0 := by
      rcases hex with hw | hmax
      · exact hw
      · -- the counter on disk is above the last inode, so both counters are 0
        have hhigh := (hbounds _ hmax).2
        rw [hs] at hhigh hlast
        have hle : HandleProc.diskCounter (.opened s) ≤ BoltDB.counter s.nextInode := hlast
        have hmaxNat : (UInt64.ofNat (2 ^ 64 - 1)).toNat = 2 ^ 64 - 1 := by decide
        have hlt : s.nextInode.toNat < 2 ^ 64 := s.nextInode.toNat_lt
        by_contra hne
        have hnext : BoltDB.counter s.nextInode = s.nextInode.toNat := if_neg hne
        omega
    have hc := s.creates key commit
    generalize s.getOrCreateInode key commit = res at hc ⊢
    obtain ⟨r, s'⟩ := res
    cases hc with
    | found hi => exact absurd ((GoMap.mem_iff_lookup _ _).mpr ⟨_, hi⟩) hkey
    | exhausted => rfl
    | aborted _ hw => exact absurd hwrapped hw
    | committed _ hw => exact absurd hwrapped hw

/-- A database whose counter is at the last inode. -/
def BoltDB.lastInode : BoltDB := ⟨∅, ∅, some (uint64ToBytes (UInt64.ofNat (2 ^ 64 - 1)))⟩

/-- The last inode is given out once; a reopen does not bring it back. -/
theorem allocations_end_at_last_inode :
    HandleProc.allocations (.closed .lastInode)
        [.newHandleStore true, .getOrCreateInode (gs "a") true, .removeByKey (gs "a") true, .close,
          .newHandleStore true] = [UInt64.ofNat (2 ^ 64 - 1)] ∧
      ∀ s, [StoreOp.newHandleStore true, .getOrCreateInode (gs "a") true,
            .removeByKey (gs "a") true, .close, .newHandleStore true].foldl
          HandleProc.perform (.closed .lastInode) = .opened s →
        ∀ key commit, key ∉ s.keyToInode → s.getOrCreateInode key commit
          = (.error (.text (gs "inode counter overflow: maximum inodes reached")), s) := by
  have hissued : HandleProc.allocations (.closed .lastInode)
      [.newHandleStore true, .getOrCreateInode (gs "a") true, .removeByKey (gs "a") true, .close,
        .newHandleStore true] = [UInt64.ofNat (2 ^ 64 - 1)] := by decide
  refine ⟨hissued, fun s hs => ?_⟩
  refine (allocations_increasing .lastInode (by decide) _).2.2 s hs (Or.inr ?_)
  rw [hissued]
  exact List.mem_singleton.mpr rfl

/-! ## The database mirrors the maps -/

/-- An `inodes` bucket holds, byte for byte, the mapping of inodes to keys. -/
def Mirrors (bucket : GoMap Bytes Bytes) (m : GoMap UInt64 GoString) : Prop :=
  ∀ inode, bucket.lookup (uint64ToBytes inode) = (m.lookup inode).map s3KeyToBolt

namespace Mirrors

variable {bucket : GoMap Bytes Bytes} {m : GoMap UInt64 GoString}

theorem insert (h : Mirrors bucket m) (inode : UInt64) (key : GoString) :
    Mirrors (bucket.insert (uint64ToBytes inode) (s3KeyToBolt key)) (m.insert inode key) := by
  intro i
  rw [GoMap.lookup_insert_ite, GoMap.lookup_insert_ite]
  by_cases hi : i = inode
  · rw [hi, if_pos rfl, if_pos rfl]
    rfl
  · rw [if_neg (fun h' => hi (uint64ToBytes_injective h')), if_neg hi]
    exact h i

theorem erase (h : Mirrors bucket m) (inode : UInt64) :
    Mirrors (bucket.erase (uint64ToBytes inode)) (m.erase inode) := by
  intro i
  rw [GoMap.lookup_erase_ite, GoMap.lookup_erase_ite]
  by_cases hi : i = inode
  · rw [hi, if_pos rfl, if_pos rfl]
    rfl
  · rw [if_neg (fun h' => hi (uint64ToBytes_injective h')), if_neg hi]
    exact h i

end Mirrors

/-- What every database the gateway writes satisfies, whatever was renamed onto
what. -/
structure BoltDB.Sound (db : BoltDB) : Prop where
  encoded : ∀ b ∈ db.inodes, ∃ inode, b = uint64ToBytes inode
  nonempty : ∀ inode, db.inodes.lookup (uint64ToBytes inode) ≠ some []
  bounded : ∀ inode, uint64ToBytes inode ∈ db.inodes →
    inode.toNat < BoltDB.counter db.loadedCounter
  nonzero : uint64ToBytes 0 ∉ db.inodes
  root : uint64ToBytes rootInode ∈ db.inodes →
    db.inodes.lookup (uint64ToBytes rootInode) = some [0]
  counter_gt : 1 < BoltDB.counter db.loadedCounter

/-- What holds of an open store, whatever was renamed onto what: a key's inode
resolves to the key (though an inode's key may belong to another inode by now),
the database mirrors the maps, and the root is in place. -/
structure HandleStore.Sound (s : HandleStore) : Prop where
  forward : ∀ key inode, s.keyToInode.lookup key = some inode →
    s.inodeToKey.lookup inode = some key
  stored : Mirrors s.db.inodes s.inodeToKey
  encoded : ∀ b ∈ s.db.inodes, ∃ inode, b = uint64ToBytes inode
  root : s.inodeToKey.lookup rootInode = some []
  rootKey : [] ∈ s.keyToInode
  nonzero : s.inodeToKey.lookup 0 = none
  bounded : ∀ inode key, s.inodeToKey.lookup inode = some key →
    inode.toNat < BoltDB.counter s.db.loadedCounter
  counter_le : BoltDB.counter s.db.loadedCounter ≤ BoltDB.counter s.nextInode

namespace BoltDB

theorem sound_empty : BoltDB.empty.Sound where
  encoded := fun b hb => absurd hb (AList.notMem_empty b)
  nonempty := fun inode h => by simp [empty] at h
  bounded := fun inode hi => absurd hi (AList.notMem_empty _)
  nonzero := AList.notMem_empty _
  root := fun h => absurd h (AList.notMem_empty _)
  counter_gt := by decide

theorem Sound.initDB {db : BoltDB} (h : db.Sound) :
    (HandleStore.initDB db).Sound ∧ uint64ToBytes rootInode ∈ (HandleStore.initDB db).inodes := by
  by_cases hroot : uint64ToBytes rootInode ∈ db.inodes
  · rw [HandleStore.initDB, if_pos hroot]
    exact ⟨h, hroot⟩
  · rw [HandleStore.initDB, if_neg hroot]
    have hmem : ∀ inode, uint64ToBytes inode ∈ db.inodes.insert (uint64ToBytes rootInode) [0] →
        inode = rootInode ∨ uint64ToBytes inode ∈ db.inodes := by
      intro inode hi
      rcases (AList.mem_insert _).mp hi with hi | hi
      · exact Or.inl (uint64ToBytes_injective hi)
      · exact Or.inr hi
    constructor
    · constructor
      · exact HandleStore.encoded_insert h.encoded _ _
      · intro inode
        show AList.lookup _ (AList.insert _ _ _) ≠ _
        rw [GoMap.lookup_insert_ite]
        split
        · decide
        · exact h.nonempty inode
      · intro inode hi
        rcases hmem inode hi with rfl | hi
        · exact h.counter_gt
        · exact h.bounded inode hi
      · intro h0
        rcases hmem 0 h0 with h0 | h0
        · cases h0
        · exact h.nonzero h0
      · intro _
        exact AList.lookup_insert _
      · exact h.counter_gt
    · exact (AList.mem_insert _).mpr (Or.inl rfl)

end BoltDB

namespace HandleStore

/-- The database of an open store is one it can be reopened from. -/
theorem Sound.database {s : HandleStore} (h : s.Sound) : s.db.Sound where
  encoded := h.encoded
  nonempty := by
    intro inode hi
    rw [h.stored] at hi
    obtain ⟨key, -, hkey⟩ := Option.map_eq_some_iff.mp hi
    exact s3KeyToBolt_ne_nil key hkey
  bounded := by
    intro inode hi
    obtain ⟨v, hv⟩ := (GoMap.mem_iff_lookup _ _).mp hi
    rw [h.stored] at hv
    obtain ⟨key, hkey, -⟩ := Option.map_eq_some_iff.mp hv
    exact h.bounded inode key hkey
  nonzero := by
    rw [GoMap.notMem_iff_lookup, h.stored, h.nonzero]
    rfl
  root := by
    intro _
    rw [h.stored, h.root]
    rfl
  counter_gt := h.bounded _ _ h.root

/-- Opening a sound database gives a sound store. -/
theorem sound_newHandleStore {db : BoltDB} (h : db.Sound) {s : HandleStore}
    (hs : newHandleStore db true = some s) : s.Sound := by
  obtain ⟨hdb, hroot⟩ := h.initDB
  have hlook := lookup_inodeToKey_newHandleStore hdb.encoded hs
  have hsdb : s.db = initDB db := by
    cases hs
    rfl
  have hnext : s.nextInode = db.loadedCounter := by
    cases hs
    rfl
  have hperm := List.perm_insertionSort boltLE (initDB db).inodes.entries
  have hkeys : s.keyToInode = ((initDB db).inodes.entries.insertionSort boltLE).foldl
      (fun m kv => m.insert (boltToS3Key kv.2) (bytesToUint64 kv.1)) ∅ := by
    cases hs
    show (List.foldl loadMapping (∅, ∅) _).2 = _
    rw [foldl_loadMapping]
  have hstored : Mirrors s.db.inodes s.inodeToKey := by
    intro inode
    rw [hlook, hsdb, BoltDB.storedKey, Option.map_map]
    cases hv : (initDB db).inodes.lookup (uint64ToBytes inode) with
    | none => rfl
    | some v =>
      have hne : v ≠ [] := by
        rintro rfl
        exact hdb.nonempty inode hv
      show some v = some (s3KeyToBolt (boltToS3Key v))
      rw [s3KeyToBolt_boltToS3Key hne]
  constructor
  · intro key inode hk
    rw [hkeys] at hk
    rcases GoMap.of_lookup_foldl_insert _ _ _ _ hk with ⟨kv, hmem, hkey, hinode⟩ | hk
    · rw [hlook]
      exact (exists_mem_iff_storedKey hdb.encoded inode key).mp
        ⟨kv, hperm.subset hmem, hinode, hkey⟩
    · cases hk
  · exact hstored
  · exact hsdb ▸ hdb.encoded
  · rw [hlook, BoltDB.storedKey, hdb.root hroot]
    rfl
  · rw [hkeys]
    have hentry := AList.mem_lookup_iff.mp (hdb.root hroot)
    exact GoMap.mem_foldl_insert _ _ _ _ (Or.inl ⟨_, hperm.symm.subset hentry, rfl⟩)
  · have h0 := (GoMap.notMem_iff_lookup _ _).mp hdb.nonzero
    rw [hlook, BoltDB.storedKey, h0]
    rfl
  · intro inode key hi
    rw [hlook] at hi
    obtain ⟨v, hv, -⟩ := Option.map_eq_some_iff.mp hi
    rw [hsdb]
    exact hdb.bounded inode ((GoMap.mem_iff_lookup _ _).mpr ⟨v, hv⟩)
  · rw [hsdb, hnext, loadedCounter_initDB]

section Operations

variable {s s' : HandleStore} {key oldKey newKey : GoString} {commit : Bool}

/-- No inode in use is the next one. -/
theorem Sound.ne_nextInode (h : s.Sound) (hw : s.nextInode ≠ 0) {inode : UInt64}
    (hi : s.inodeToKey.lookup inode = some key) : inode ≠ s.nextInode := by
  have hlt := h.bounded _ _ hi
  have hle := h.counter_le
  have hnext : BoltDB.counter s.nextInode = s.nextInode.toNat := if_neg hw
  rintro rfl
  omega

/-- An allocation takes an unused inode. -/
theorem Sound.creates (h : s.Sound) {r : Except GoError UInt64} (hc : s.Creates key commit r s') :
    s'.Sound := by
  have hle := h.counter_le
  have hsucc := counter_succ s.nextInode
  cases hc with
  | found => exact h
  | exhausted => exact h
  | aborted hk hw =>
    have hnext : BoltDB.counter s.nextInode = s.nextInode.toNat := if_neg hw
    exact { h with
      counter_le := by
        show BoltDB.counter s.db.loadedCounter ≤ BoltDB.counter (s.nextInode + 1)
        omega }
  | committed hk hw =>
    have hnext : BoltDB.counter s.nextInode = s.nextInode.toNat := if_neg hw
    constructor
    · intro key' inode hk'
      have hk' := (GoMap.lookup_insert_ite _ _ _ _).symm.trans hk'
      refine (GoMap.lookup_insert_ite _ _ _ _).trans ?_
      split at hk'
      · next heq =>
        cases hk'
        rw [if_pos rfl, heq]
      · have hi := h.forward key' inode hk'
        rw [if_neg (h.ne_nextInode hw hi)]
        exact hi
    · exact h.stored.insert _ _
    · exact encoded_insert h.encoded _ _
    · exact (GoMap.lookup_insert_ite _ _ _ _).trans
        ((if_neg (h.ne_nextInode hw h.root)).trans h.root)
    · exact (AList.mem_insert _).mpr (Or.inr h.rootKey)
    · exact (GoMap.lookup_insert_ite _ _ _ _).trans
        ((if_neg (fun h0 => hw h0.symm)).trans h.nonzero)
    · intro inode key' hi
      rw [loadedCounter_allocated, hsucc]
      have hi := (GoMap.lookup_insert_ite _ _ _ _).symm.trans hi
      split at hi
      · next heq =>
        rw [heq]
        omega
      · have := h.bounded _ _ hi
        omega
    · rw [loadedCounter_allocated]
      exact Nat.le_refl _

/-- Only the root inode resolves to the root by its own mapping, so a key other
than the root's has another inode. -/
theorem Sound.ne_root (h : s.Sound) (hkey : key ≠ []) {inode : UInt64}
    (hi : s.keyToInode.lookup key = some inode) : rootInode ≠ inode ∧ (0 : UInt64) ≠ inode := by
  have hback := h.forward key inode hi
  constructor
  · rintro rfl
    exact hkey (Option.some.inj (hback.symm.trans h.root))
  · rintro rfl
    rw [h.nonzero] at hback
    cases hback

theorem Sound.removes (h : s.Sound) (hkey : key ≠ []) (hr : s.Removes key commit s') :
    s'.Sound := by
  cases hr with
  | unchanged => exact h
  | committed hk =>
    obtain ⟨hroot, hzero⟩ := h.ne_root hkey hk
    constructor
    · intro key' inode' hk'
      have hk' := (GoMap.lookup_erase_ite _ _ _).symm.trans hk'
      split at hk'
      · cases hk'
      · next hne =>
        have hi := h.forward key' inode' hk'
        refine (GoMap.lookup_erase_ite _ _ _).trans ((if_neg ?_).trans hi)
        rintro rfl
        exact hne (Option.some.inj (hi.symm.trans (h.forward key _ hk)))
    · exact h.stored.erase _
    · intro b hb
      exact h.encoded b (AList.mem_erase.mp hb).2
    · exact (GoMap.lookup_erase_ite _ _ _).trans ((if_neg hroot).trans h.root)
    · exact AList.mem_erase.mpr ⟨fun h0 => hkey h0.symm, h.rootKey⟩
    · exact (GoMap.lookup_erase_ite _ _ _).trans ((if_neg hzero).trans h.nonzero)
    · intro inode' key' hi
      have hi := (GoMap.lookup_erase_ite _ _ _).symm.trans hi
      split at hi
      · cases hi
      · exact h.bounded inode' key' hi
    · exact h.counter_le

/-- A rename may take the inode of another key out of `keyToInode`; that inode
still resolves. -/
theorem Sound.renames (h : s.Sound) (hold : oldKey ≠ []) (hr : s.Renames oldKey newKey commit s') :
    s'.Sound := by
  cases hr with
  | unchanged => exact h
  | @committed inode hk =>
    obtain ⟨hroot, hzero⟩ := h.ne_root hold hk
    constructor
    · intro key' inode' hk'
      have hk' := (GoMap.lookup_insert_ite _ _ _ _).symm.trans hk'
      refine (GoMap.lookup_insert_ite _ _ _ _).trans ?_
      split at hk'
      · next heq =>
        cases hk'
        rw [if_pos rfl, heq]
      · rw [GoMap.lookup_erase_ite] at hk'
        split at hk'
        · cases hk'
        · next hne =>
          have hi := h.forward key' inode' hk'
          rw [if_neg, hi]
          rintro rfl
          exact hne (Option.some.inj (hi.symm.trans (h.forward oldKey _ hk)))
    · exact h.stored.insert _ _
    · exact encoded_insert h.encoded _ _
    · exact (GoMap.lookup_insert_ite _ _ _ _).trans ((if_neg hroot).trans h.root)
    · exact (AList.mem_insert _).mpr
        (Or.inr (AList.mem_erase.mpr ⟨fun h0 => hold h0.symm, h.rootKey⟩))
    · exact (GoMap.lookup_insert_ite _ _ _ _).trans ((if_neg hzero).trans h.nonzero)
    · intro inode' key' hi
      have hi := (GoMap.lookup_insert_ite _ _ _ _).symm.trans hi
      split at hi
      · next heq =>
        rw [heq]
        exact h.bounded inode oldKey (h.forward oldKey inode hk)
      · exact h.bounded inode' key' hi
    · exact h.counter_le

end Operations

end HandleStore

/-! ## Restarts -/

namespace StoreOp

/-- The root key is neither removed nor renamed. -/
def KeepsRoot : StoreOp → Prop
  | .removeByKey key _ => key ≠ []
  | .renameKey oldKey _ _ => oldKey ≠ []
  | _ => True

/-- No key is the NUL byte, which stands for the root in the database. -/
def AvoidsNul : StoreOp → Prop
  | .getOrCreateInode key _ => key ≠ [0]
  | .removeByKey key _ => key ≠ [0]
  | .renameKey oldKey newKey _ => oldKey ≠ [0] ∧ newKey ≠ [0]
  | _ => True

/-- The operation's transaction fails, if it starts one. -/
def TxFails : StoreOp → Prop
  | .getOrCreateInode _ commit => commit = false
  | .removeByKey _ commit => commit = false
  | .renameKey _ _ commit => commit = false
  | .newHandleStore commit => commit = false
  | .close => False

end StoreOp

namespace HandleProc

/-- The maps in memory. -/
def maps : HandleProc → Option (GoMap UInt64 GoString × GoMap GoString UInt64)
  | .closed _ => none
  | .opened s => some (s.inodeToKey, s.keyToInode)

/-- A transaction that fails leaves the maps and the database as they were. -/
theorem perform_of_txFails (p : HandleProc) {op : StoreOp} (h : op.TxFails) :
    (p.perform op).maps = p.maps ∧ (p.perform op).db = p.db := by
  cases p with
  | closed db =>
    cases op with
    | newHandleStore commit =>
      cases h
      exact ⟨rfl, rfl⟩
    | _ => exact ⟨rfl, rfl⟩
  | opened s =>
    cases op with
    | getOrCreateInode key commit =>
      cases h
      obtain ⟨hmaps, hdb⟩ := (s.creates key false).of_false
      exact ⟨congrArg some hmaps, hdb⟩
    | removeByKey key commit =>
      cases h
      have hsame := (s.removes key false).of_false
      exact ⟨congrArg (fun s => maps (.opened s)) hsame, congrArg HandleStore.db hsame⟩
    | renameKey oldKey newKey commit =>
      cases h
      have hsame := (s.renames oldKey newKey false).of_false
      exact ⟨congrArg (fun s => maps (.opened s)) hsame, congrArg HandleStore.db hsame⟩
    | close => exact absurd h id
    | newHandleStore commit => exact ⟨rfl, rfl⟩

/-- The store or the database file is sound. -/
def Sound : HandleProc → Prop
  | .closed db => db.Sound
  | .opened s => s.Sound

theorem Sound.perform {p : HandleProc} (h : p.Sound) {op : StoreOp} (hop : op.KeepsRoot) :
    (p.perform op).Sound := by
  cases p with
  | closed db =>
    cases op with
    | newHandleStore commit =>
      cases commit with
      | false => exact h
      | true => exact HandleStore.sound_newHandleStore h rfl
    | _ => exact h
  | opened s =>
    cases op with
    | getOrCreateInode key commit => exact HandleStore.Sound.creates h (s.creates key commit)
    | removeByKey key commit => exact HandleStore.Sound.removes h hop (s.removes key commit)
    | renameKey oldKey newKey commit =>
      exact HandleStore.Sound.renames h hop (s.renames oldKey newKey commit)
    | close => exact HandleStore.Sound.database h
    | newHandleStore commit => exact h

/-- No inode resolves to the NUL byte. -/
def NoNul : HandleProc → Prop
  | .closed _ => True
  | .opened s => ∀ inode, s.inodeToKey.lookup inode ≠ some [0]

theorem lookup_insert_ne_nul {m : GoMap UInt64 GoString} (h : ∀ inode, m.lookup inode ≠ some [0])
    (inode : UInt64) {key : GoString} (hkey : key ≠ [0]) :
    ∀ inode', (m.insert inode key).lookup inode' ≠ some [0] := by
  intro inode'
  rw [GoMap.lookup_insert_ite]
  split
  · exact fun h0 => hkey (Option.some.inj h0)
  · exact h inode'

section NoNul

variable {s s' : HandleStore} {key oldKey newKey : GoString} {commit : Bool}

theorem NoNul.creates (h : NoNul (.opened s)) (hkey : key ≠ [0]) {r : Except GoError UInt64}
    (hc : s.Creates key commit r s') : NoNul (.opened s') := by
  cases hc with
  | found => exact h
  | exhausted => exact h
  | aborted => exact h
  | committed => exact lookup_insert_ne_nul h _ hkey

theorem NoNul.removes (h : NoNul (.opened s)) (hr : s.Removes key commit s') :
    NoNul (.opened s') := by
  cases hr with
  | unchanged => exact h
  | committed =>
    intro inode' hi
    have hi := (GoMap.lookup_erase_ite _ _ _).symm.trans hi
    split at hi
    · cases hi
    · exact h inode' hi

theorem NoNul.renames (h : NoNul (.opened s)) (hnew : newKey ≠ [0])
    (hr : s.Renames oldKey newKey commit s') : NoNul (.opened s') := by
  cases hr with
  | unchanged => exact h
  | committed => exact lookup_insert_ne_nul h _ hnew

end NoNul

theorem NoNul.perform {p : HandleProc} (h : p.NoNul) (hs : p.Sound) {op : StoreOp}
    (hop : op.AvoidsNul) : (p.perform op).NoNul := by
  cases p with
  | closed db =>
    cases op with
    | newHandleStore commit =>
      cases commit with
      | false => trivial
      | true =>
        -- a stored NUL byte is loaded as the root key
        intro inode hi
        rw [HandleStore.lookup_inodeToKey_newHandleStore (BoltDB.Sound.initDB hs).1.encoded
          rfl] at hi
        obtain ⟨v, -, hv⟩ := Option.map_eq_some_iff.mp hi
        unfold boltToS3Key at hv
        split at hv
        · cases hv
        · contradiction
    | _ => trivial
  | opened s =>
    cases op with
    | getOrCreateInode key commit => exact NoNul.creates h hop (s.creates key commit)
    | removeByKey key commit => exact NoNul.removes h (s.removes key commit)
    | renameKey oldKey newKey commit => exact NoNul.renames h hop.2 (s.renames oldKey newKey commit)
    | close => trivial
    | newHandleStore commit => exact h

/-- Closing the store and opening it again gives a store in which every inode has
the key it had. -/
def SurvivesRestart : HandleProc → Prop
  | .closed _ => True
  | .opened s => ∃ s', HandleStore.newHandleStore s.db true = some s' ∧
      ∀ inode, s'.getKey inode = s.getKey inode

theorem Sound.survivesRestart {p : HandleProc} (h : p.Sound) (hnul : p.NoNul) :
    p.SurvivesRestart := by
  cases p with
  | closed db => trivial
  | opened s =>
    have hs : s.Sound := h
    have hdb := hs.database
    have hmem : uint64ToBytes rootInode ∈ s.db.inodes := by
      rw [GoMap.mem_iff_lookup, hs.stored, hs.root]
      exact ⟨_, rfl⟩
    have hinit : HandleStore.initDB s.db = s.db := by
      rw [HandleStore.initDB, if_pos hmem]
    refine ⟨_, rfl, fun inode => ?_⟩
    have hlook := HandleStore.lookup_inodeToKey_newHandleStore hdb.initDB.1.encoded rfl inode
    show AList.lookup inode _ = AList.lookup inode _
    rw [hlook, hinit, BoltDB.storedKey, hs.stored]
    cases hi : s.inodeToKey.lookup inode with
    | none => rfl
    | some key =>
      have hkey : key ≠ [0] := by
        rintro rfl
        exact hnul inode hi
      show some (boltToS3Key (s3KeyToBolt key)) = some key
      rw [boltToS3Key_s3KeyToBolt hkey]

end HandleProc

/-- Over every history of a new database in which the root key is neither removed
nor renamed and no key is the NUL byte: in every state, closing and reopening the
store gives every inode the key it had, and every operation whose transaction
failed left the maps and the database as they were. -/
theorem restart_preserves_keys (ops : List StoreOp)
    (hops : ∀ op ∈ ops, op.KeepsRoot ∧ op.AvoidsNul) :
    Throughout HandleProc.perform HandleProc.SurvivesRestart (.closed .empty) ops ∧
      EachStep HandleProc.perform (fun p op => op.TxFails →
        (p.perform op).maps = p.maps ∧ (p.perform op).db = p.db) (.closed .empty) ops := by
  constructor
  · have hinit : HandleProc.Sound (.closed .empty) ∧ HandleProc.NoNul (.closed .empty) :=
      ⟨BoltDB.sound_empty, trivial⟩
    exact throughout_of_eachStep (I := fun p => p.Sound ∧ p.NoNul)
      (fun p op h hop => ⟨h.1.perform hop.1, h.2.perform h.1 hop.2⟩)
      (fun p h => h.1.survivesRestart h.2) hinit (EachStep.of_forall hops)
  · exact EachStep.of_invariant (I := fun _ => True) (C := fun _ _ => True)
      (fun p op _ _ => ⟨p.perform_of_txFails, trivial⟩) trivial
      (EachStep.of_forall fun _ _ => trivial)

/-- A history with a rename onto an existing key, a rename onto the root, a removal
and two failed transactions. -/
theorem restart_preserves_keys_after_renames :
    let ops : List StoreOp := [.newHandleStore true, .getOrCreateInode (gs "a") true,
      .getOrCreateInode (gs "b") false, .getOrCreateInode (gs "b") true,
      .renameKey (gs "a") (gs "b") true, .getOrCreateInode (gs "c") true,
      .removeByKey (gs "c") false, .renameKey (gs "c") [] true]
    Throughout HandleProc.perform HandleProc.SurvivesRestart (.closed .empty) ops := by
  refine (restart_preserves_keys _ ?_).1
  intro op hop
  simp only [List.mem_cons, List.not_mem_nil, or_false] at hop
  rcases hop with rfl | rfl | rfl | rfl | rfl | rfl | rfl | rfl <;>
    simp only [StoreOp.KeepsRoot, StoreOp.AvoidsNul] <;> decide

end S3Gateway
