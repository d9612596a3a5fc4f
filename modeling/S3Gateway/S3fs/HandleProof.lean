import S3Gateway.Lib.Run
import S3Gateway.S3fs.Handle

/-!
# Inode identity

The handle store is meant to be a bijection between keys and inodes, in memory
and across restarts. This file follows it through whole histories: a process
that opens the database, allocates, removes and renames, suffers failed
transactions, closes and reopens.

The invariant `HandleProc.Inv` ties the three representations together:

- in memory, `keyToInode` and `inodeToKey` are mutually inverse;
- the `inodes` bucket stores exactly `inodeToKey` (`storedKey`), so that the maps
  rebuilt by a reopen are the maps before it;
- every inode in use is below the counter, in memory and on disk, so that an
  allocation never hits an inode in use (`counter` reads the wrapped-around `0`
  as `2^64`).

What an operation can do to an open store is said once (`Creates`, `Removes`,
`Renames`). The invariant is preserved by every step except one: `RenameKey` onto
a key that already has an inode of its own. The replaced inode keeps resolving to
the key, which now belongs to the renamed inode. `inverse_throughout_iff` states that this is the
only way the bijection is ever lost.
-/

namespace S3Gateway

open Lib

/-- A key the encoding can tell from the root: anything but the NUL byte. -/
abbrev StoreKey := { key : GoString // key ≠ [0] }

/-- A key of a file or directory, not the root. -/
abbrev FileKey := { key : GoString // key ≠ [] ∧ key ≠ [0] }

/-- Operations on the handle store, each with the outcome of its transaction. -/
inductive HandleOp where
  | getOrCreateInode (key : StoreKey) (commit : Bool)
  | removeByKey (key : FileKey) (commit : Bool)
  | renameKey (oldKey newKey : FileKey) (commit : Bool)
  | close
  | newHandleStore (commit : Bool)

/-- A gateway process as far as its handle store goes: the store is open, or only
the database file exists. -/
inductive HandleProc where
  | closed (db : BoltDB)
  | opened (s : HandleStore)

namespace HandleProc

/-- One operation. Operations other than opening need an open store. -/
def step : HandleProc → HandleOp → HandleProc
  | .opened s, .getOrCreateInode key commit => .opened (s.getOrCreateInode key.1 commit).2
  | .opened s, .removeByKey key commit => .opened (s.removeByKey key.1 commit).2
  | .opened s, .renameKey oldKey newKey commit => .opened (s.renameKey oldKey.1 newKey.1 commit).2
  | .opened s, .close => .closed s.db
  | .closed db, .newHandleStore commit =>
    match HandleStore.newHandleStore db commit with
    | some s => .opened s
    | none => .closed db
  | p, _ => p

/-- `keyToInode` and `inodeToKey` are mutually inverse. -/
def Inverse : HandleProc → Prop
  | .closed _ => True
  | .opened s => GoMap.Inverse s.keyToInode s.inodeToKey

/-- A committed rename of a key that has an inode goes to the key itself or to a
key that has none. -/
def RenamesToFree : HandleProc → HandleOp → Prop
  | .opened s, .renameKey oldKey newKey true =>
    oldKey.1 ∈ s.keyToInode → newKey.1 ≠ oldKey.1 → newKey.1 ∉ s.keyToInode
  | _, _ => True

end HandleProc

/-! ## The database -/

namespace BoltDB

/-- The key the `inodes` bucket stores for an inode. -/
def storedKey (db : BoltDB) (inode : UInt64) : Option GoString :=
  (db.inodes.lookup (uint64ToBytes inode)).map boltToS3Key

/-- The counter `init` starts from. -/
def loadedCounter (db : BoltDB) : UInt64 :=
  match db.nextInode with
  | some v => bytesToUint64 v
  | none => rootInode + 1

/-- The value of the inode counter as a bound on the inodes given out: `0` is the
counter after it wrapped around. -/
def counter (next : UInt64) : Nat := if next = 0 then 2 ^ 64 else next.toNat

/-- What every database the gateway writes satisfies. -/
structure Inv (db : BoltDB) : Prop where
  /-- The `inodes` bucket is keyed by encoded inodes. -/
  encoded : ∀ b ∈ db.inodes, ∃ inode, b = uint64ToBytes inode
  /-- No key is stored for two inodes. -/
  injective : ∀ i j key, db.storedKey i = some key → db.storedKey j = some key → i = j
  /-- The stored inodes are below the stored counter. -/
  bounded : ∀ i key, db.storedKey i = some key → i.toNat < counter db.loadedCounter
  /-- The root, if stored, is the root inode. -/
  root : ∀ i, db.storedKey i = some [] ↔ i = rootInode ∧ uint64ToBytes rootInode ∈ db.inodes
  /-- The root inode is not handed out again. -/
  counter_gt : 1 < counter db.loadedCounter

theorem storedKey_insert (db : BoltDB) (i j : UInt64) {key : GoString} (hkey : key ≠ [0])
    (keys : GoMap Bytes Bytes) (next : Option Bytes) :
    storedKey ⟨db.inodes.insert (uint64ToBytes i) (s3KeyToBolt key), keys, next⟩ j
      = if j = i then some key else db.storedKey j := by
  unfold storedKey
  rw [GoMap.lookup_insert_ite]
  by_cases h : j = i
  · subst h
    simp [boltToS3Key_s3KeyToBolt hkey]
  · rw [if_neg (fun h' => h (uint64ToBytes_injective h')), if_neg h]

theorem storedKey_erase (db : BoltDB) (i j : UInt64) (keys : GoMap Bytes Bytes)
    (next : Option Bytes) :
    storedKey ⟨db.inodes.erase (uint64ToBytes i), keys, next⟩ j
      = if j = i then none else db.storedKey j := by
  unfold storedKey
  rw [GoMap.lookup_erase_ite]
  by_cases h : j = i
  · subst h
    simp
  · rw [if_neg (fun h' => h (uint64ToBytes_injective h')), if_neg h]

theorem inv_empty : BoltDB.empty.Inv where
  encoded := fun b hb => absurd hb (AList.notMem_empty b)
  injective := fun i j key h => by simp [storedKey, empty] at h
  bounded := fun i key h => by simp [storedKey, empty] at h
  root := fun i => by simp [storedKey, empty]
  counter_gt := by decide

/-- Writing the root mapping of a new database keeps the database in order. -/
theorem inv_initDB {db : BoltDB} (h : db.Inv) : (HandleStore.initDB db).Inv := by
  unfold HandleStore.initDB
  dsimp only
  split
  · exact h
  · next hroot =>
    have hins := fun j => storedKey_insert db rootInode j (show ([] : GoString) ≠ [0] by decide)
      (db.keys.insert [0] (uint64ToBytes rootInode)) db.nextInode
    have hnoroot : ∀ i, db.storedKey i ≠ some [] := fun i hi => hroot ((h.root i).mp hi).2
    refine ⟨fun b hb => ?_, fun i j key hi hj => ?_, fun i key hi => ?_, fun i => ?_, h.counter_gt⟩
    · rcases (AList.mem_insert _).mp hb with rfl | hb
      · exact ⟨_, rfl⟩
      · exact h.encoded b hb
    · erw [hins] at hi hj
      split at hi <;> split at hj
      · next h1 h2 => rw [h1, h2]
      · next h1 h2 =>
        cases hi
        exact absurd hj (hnoroot j)
      · next h1 h2 =>
        cases hj
        exact absurd hi (hnoroot i)
      · exact h.injective i j key hi hj
    · erw [hins] at hi
      split at hi
      · next h1 =>
        rw [h1]
        exact h.counter_gt
      · exact h.bounded i key hi
    · erw [hins]
      split
      · next h1 => simp [h1, AList.mem_insert]
      · next h1 => simp [h1, hnoroot i]

/-- `init` makes sure that the root mapping exists. -/
theorem storedKey_initDB_root {db : BoltDB} (h : db.Inv) :
    (HandleStore.initDB db).storedKey rootInode = some [] := by
  refine ((inv_initDB h).root rootInode).mpr ⟨rfl, ?_⟩
  unfold HandleStore.initDB
  dsimp only
  split
  · assumption
  · simp [AList.mem_insert]

end BoltDB

/-! ## Rebuilding the maps -/

namespace HandleStore

theorem foldl_loadMapping (l : List (Sigma fun _ : Bytes => Bytes))
    (maps : GoMap UInt64 GoString × GoMap GoString UInt64) :
    l.foldl loadMapping maps =
      (l.foldl (fun m kv => m.insert (bytesToUint64 kv.1) (boltToS3Key kv.2)) maps.1,
       l.foldl (fun m kv => m.insert (boltToS3Key kv.2) (bytesToUint64 kv.1)) maps.2) := by
  induction l generalizing maps with
  | nil => rfl
  | cons kv l ih =>
    rw [List.foldl_cons, ih]
    rfl

/-- The entries of the `inodes` bucket are the stored keys. -/
theorem exists_mem_iff_storedKey {db : BoltDB}
    (h : ∀ b ∈ db.inodes, ∃ inode, b = uint64ToBytes inode) (inode : UInt64) (key : GoString) :
    (∃ kv ∈ db.inodes.entries, bytesToUint64 kv.1 = inode ∧ boltToS3Key kv.2 = key) ↔
      db.storedKey inode = some key := by
  constructor
  · rintro ⟨⟨b, v⟩, hmem, hb, hv⟩
    have hlook := GoMap.lookup_eq_of_mem_entries hmem
    obtain ⟨i, rfl⟩ := h b ((GoMap.mem_iff_lookup _ _).mpr ⟨v, hlook⟩)
    rw [bytesToUint64_uint64ToBytes] at hb
    subst hb
    rw [BoltDB.storedKey, hlook, ← hv]
    rfl
  · intro hs
    obtain ⟨v, hv, hkey⟩ := Option.map_eq_some_iff.mp hs
    exact ⟨⟨_, v⟩, AList.mem_lookup_iff.mp hv, bytesToUint64_uint64ToBytes inode, hkey⟩

/-- The mappings of the `inodes` bucket, as `ForEach` visits them, repeat no inode. -/
theorem pairwise_sorted_inodes {db : BoltDB}
    (h : ∀ b ∈ db.inodes, ∃ inode, b = uint64ToBytes inode) :
    (db.inodes.entries.insertionSort boltLE).Pairwise fun a b =>
      bytesToUint64 a.1 ≠ bytesToUint64 b.1 := by
  have hperm := List.perm_insertionSort boltLE db.inodes.entries
  have hnodup : (db.inodes.entries.insertionSort boltLE).Nodup :=
    hperm.nodup_iff.mpr (List.NodupKeys.nodup db.inodes.nodupKeys)
  refine hnodup.imp_of_mem fun {a b} ha hb hne heq => ?_
  have ha := hperm.subset ha
  have hb := hperm.subset hb
  obtain ⟨i, hi⟩ := h a.1 (AList.mem_keys.mpr (List.mem_map_of_mem ha))
  obtain ⟨j, hj⟩ := h b.1 (AList.mem_keys.mpr (List.mem_map_of_mem hb))
  rw [hi, hj, bytesToUint64_uint64ToBytes, bytesToUint64_uint64ToBytes] at heq
  have h1 : a.1 = b.1 := by rw [hi, hj, heq]
  exact hne (List.NodupKeys.eq_of_fst_eq db.inodes.nodupKeys ha hb h1)

/-- Of a database in order, they repeat neither inode nor key. -/
theorem pairwise_sorted_entries {db : BoltDB} (h : db.Inv) :
    (db.inodes.entries.insertionSort boltLE).Pairwise fun a b =>
      bytesToUint64 a.1 ≠ bytesToUint64 b.1 ∧ boltToS3Key a.2 ≠ boltToS3Key b.2 := by
  have hperm := List.perm_insertionSort boltLE db.inodes.entries
  refine (pairwise_sorted_inodes h.encoded).imp_of_mem fun {a b} ha hb hne => ⟨hne, fun heq => ?_⟩
  have hsa := (exists_mem_iff_storedKey h.encoded (bytesToUint64 a.1) (boltToS3Key a.2)).mp
    ⟨a, hperm.subset ha, rfl, rfl⟩
  have hsb := (exists_mem_iff_storedKey h.encoded (bytesToUint64 b.1) (boltToS3Key b.2)).mp
    ⟨b, hperm.subset hb, rfl, rfl⟩
  exact hne (h.injective _ _ _ hsa (by rw [hsb, heq]))

/-- The keys of a freshly opened store are the stored ones. -/
theorem lookup_inodeToKey_newHandleStore {db : BoltDB}
    (h : ∀ b ∈ (initDB db).inodes, ∃ inode, b = uint64ToBytes inode) {s : HandleStore}
    (hs : newHandleStore db true = some s) (inode : UInt64) :
    s.inodeToKey.lookup inode = (initDB db).storedKey inode := by
  have hmem : ∀ kv, kv ∈ (initDB db).inodes.entries.insertionSort boltLE ↔
      kv ∈ (initDB db).inodes.entries := fun kv => List.mem_insertionSort _
  cases hs
  show AList.lookup inode (List.foldl loadMapping (∅, ∅) _).1 = _
  refine Option.ext fun key => ?_
  rw [foldl_loadMapping, GoMap.lookup_foldl_insert _ _ _ _ (pairwise_sorted_inodes h),
    ← exists_mem_iff_storedKey h]
  simp [hmem]

/-- The maps of a freshly opened store are the two directions of the stored
mapping. -/
theorem lookup_newHandleStore {db : BoltDB} (h : db.Inv) {s : HandleStore}
    (hs : newHandleStore db true = some s) (inode : UInt64) (key : GoString) :
    (s.inodeToKey.lookup inode = some key ↔ (initDB db).storedKey inode = some key) ∧
      (s.keyToInode.lookup key = some inode ↔ (initDB db).storedKey inode = some key) := by
  have hinv := BoltDB.inv_initDB h
  have hmem : ∀ kv, kv ∈ (initDB db).inodes.entries.insertionSort boltLE ↔
      kv ∈ (initDB db).inodes.entries := fun kv => List.mem_insertionSort _
  constructor
  · rw [lookup_inodeToKey_newHandleStore hinv.encoded hs]
  · cases hs
    show AList.lookup key (List.foldl loadMapping (∅, ∅) _).2 = some inode ↔ _
    rw [foldl_loadMapping, GoMap.lookup_foldl_insert _ _ _ _
      ((pairwise_sorted_entries hinv).imp fun h => h.2), ← exists_mem_iff_storedKey hinv.encoded]
    simp [hmem, and_comm]

end HandleStore

/-! ## What the operations do -/

namespace HandleStore

/-- The store after an allocation has been committed. -/
def allocated (s : HandleStore) (key : GoString) : HandleStore where
  db :=
    { inodes := s.db.inodes.insert (uint64ToBytes s.nextInode) (s3KeyToBolt key)
      keys := s.db.keys.insert (s3KeyToBolt key) (uint64ToBytes s.nextInode)
      nextInode := some (uint64ToBytes (s.nextInode + 1)) }
  nextInode := s.nextInode + 1
  inodeToKey := s.inodeToKey.insert s.nextInode key
  keyToInode := s.keyToInode.insert key s.nextInode

/-- The store after a removal has been committed. -/
def removed (s : HandleStore) (key : GoString) (inode : UInt64) : HandleStore :=
  { s with
    db := { s.db with
      inodes := s.db.inodes.erase (uint64ToBytes inode)
      keys := s.db.keys.erase (s3KeyToBolt key) }
    inodeToKey := s.inodeToKey.erase inode
    keyToInode := s.keyToInode.erase key }

/-- The store after a rename has been committed. -/
def renamed (s : HandleStore) (oldKey newKey : GoString) (inode : UInt64) : HandleStore :=
  { s with
    db := { s.db with
      keys := (s.db.keys.erase (s3KeyToBolt oldKey)).insert (s3KeyToBolt newKey)
        (uint64ToBytes inode)
      inodes := s.db.inodes.insert (uint64ToBytes inode) (s3KeyToBolt newKey) }
    keyToInode := (s.keyToInode.erase oldKey).insert newKey inode
    inodeToKey := s.inodeToKey.insert inode newKey }

/-- What `GetOrCreateInode` returns and leaves: the key has an inode, the counter has
wrapped around, the transaction fails and only the counter in memory moves on, or
the counter is given out. -/
inductive Creates (s : HandleStore) (key : GoString) :
    Bool → Except GoError UInt64 → HandleStore → Prop where
  | found {inode : UInt64} (hi : s.keyToInode.lookup key = some inode) (commit : Bool) :
      Creates s key commit (.ok inode) s
  | exhausted (hk : key ∉ s.keyToInode) (hw : s.nextInode = 0) (commit : Bool) :
      Creates s key commit
        (.error (.text (gs "inode counter overflow: maximum inodes reached"))) s
  | aborted (hk : key ∉ s.keyToInode) (hw : s.nextInode ≠ 0) :
      Creates s key false (.error (.wrap (gs "persist inode") .txFailed))
        { s with nextInode := s.nextInode + 1 }
  | committed (hk : key ∉ s.keyToInode) (hw : s.nextInode ≠ 0) :
      Creates s key true (.ok s.nextInode) (s.allocated key)

/-- What `RemoveByKey` leaves. -/
inductive Removes (s : HandleStore) (key : GoString) : Bool → HandleStore → Prop where
  | unchanged (commit : Bool) : Removes s key commit s
  | committed {inode : UInt64} (hi : s.keyToInode.lookup key = some inode) :
      Removes s key true (s.removed key inode)

/-- What `RenameKey` leaves. -/
inductive Renames (s : HandleStore) (oldKey newKey : GoString) : Bool → HandleStore → Prop where
  | unchanged (commit : Bool) : Renames s oldKey newKey commit s
  | committed {inode : UInt64} (hi : s.keyToInode.lookup oldKey = some inode) :
      Renames s oldKey newKey true (s.renamed oldKey newKey inode)

theorem creates (s : HandleStore) (key : GoString) (commit : Bool) :
    s.Creates key commit (s.getOrCreateInode key commit).1 (s.getOrCreateInode key commit).2 := by
  unfold getOrCreateInode getInode
  cases hi : s.keyToInode.lookup key with
  | some inode => exact .found hi commit
  | none =>
    have hk := (GoMap.notMem_iff_lookup _ _).mpr hi
    unfold createInode
    rw [hi]
    dsimp only
    by_cases hw : s.nextInode = 0
    · rw [if_pos hw]
      exact .exhausted hk hw commit
    · rw [if_neg hw]
      cases commit with
      | false => exact .aborted hk hw
      | true => exact .committed hk hw

theorem removes (s : HandleStore) (key : GoString) (commit : Bool) :
    s.Removes key commit (s.removeByKey key commit).2 := by
  unfold removeByKey
  cases hi : s.keyToInode.lookup key with
  | none => exact .unchanged commit
  | some inode =>
    cases commit with
    | false => exact .unchanged false
    | true => exact .committed hi

theorem renames (s : HandleStore) (oldKey newKey : GoString) (commit : Bool) :
    s.Renames oldKey newKey commit (s.renameKey oldKey newKey commit).2 := by
  unfold renameKey
  cases hi : s.keyToInode.lookup oldKey with
  | none => exact .unchanged commit
  | some inode =>
    cases commit with
    | false => exact .unchanged false
    | true => exact .committed hi

/-- Every key keeps its inode. -/
def Keeps (s s' : HandleStore) : Prop :=
  ∀ key inode, s.keyToInode.lookup key = some inode → s'.keyToInode.lookup key = some inode

theorem Keeps.refl (s : HandleStore) : s.Keeps s := fun _ _ h => h

theorem Keeps.trans {s s' s'' : HandleStore} (h : s.Keeps s') (h' : s'.Keeps s'') : s.Keeps s'' :=
  fun key inode hk => h' key inode (h key inode hk)

/-- An inode that is there is not allocated again. -/
theorem getOrCreateInode_of_some {s : HandleStore} {key : GoString} {inode : UInt64} {commit : Bool}
    (h : s.keyToInode.lookup key = some inode) : s.getOrCreateInode key commit = (.ok inode, s) := by
  rw [getOrCreateInode, getInode, h]

section Changes

variable {s s' : HandleStore} {key oldKey newKey : GoString} {commit : Bool}

theorem Creates.of_false {r : Except GoError UInt64} (h : s.Creates key false r s') :
    (s'.inodeToKey, s'.keyToInode) = (s.inodeToKey, s.keyToInode) ∧ s'.db = s.db := by
  cases h <;> exact ⟨rfl, rfl⟩

/-- An allocation keeps the inodes there are, and its answer is the key's inode. -/
theorem Creates.keeps {r : Except GoError UInt64} (h : s.Creates key commit r s') :
    s.Keeps s' ∧ ∀ inode, r = .ok inode → s'.keyToInode.lookup key = some inode := by
  cases h with
  | found hi =>
    refine ⟨.refl s, fun inode hr => ?_⟩
    cases hr
    exact hi
  | exhausted => exact ⟨.refl s, fun inode hr => by cases hr⟩
  | aborted => exact ⟨.refl s, fun inode hr => by cases hr⟩
  | committed hk hw =>
    refine ⟨fun key' inode hk' => ?_, fun inode hr => ?_⟩
    · -- the key had no inode, so `key'` is another one
      refine (GoMap.lookup_insert_ite _ _ _ _).trans ((if_neg ?_).trans hk')
      rintro rfl
      exact hk ((GoMap.mem_iff_lookup _ _).mpr ⟨inode, hk'⟩)
    · cases hr
      exact AList.lookup_insert _

theorem Creates.mem_keyToInode {r : Except GoError UInt64} (h : s.Creates key commit r s')
    {key' : GoString} (hk : key' ∈ s.keyToInode) : key' ∈ s'.keyToInode := by
  obtain ⟨inode, hi⟩ := (GoMap.mem_iff_lookup _ _).mp hk
  exact (GoMap.mem_iff_lookup _ _).mpr ⟨inode, h.keeps.1 key' inode hi⟩

theorem Removes.of_false (h : s.Removes key false s') : s' = s := by
  cases h
  rfl

theorem Renames.of_false (h : s.Renames oldKey newKey false s') : s' = s := by
  cases h
  rfl

theorem Removes.counters (h : s.Removes key commit s') :
    s'.nextInode = s.nextInode ∧ s'.db.loadedCounter = s.db.loadedCounter := by
  cases h <;> exact ⟨rfl, rfl⟩

theorem Renames.counters (h : s.Renames oldKey newKey commit s') :
    s'.nextInode = s.nextInode ∧ s'.db.loadedCounter = s.db.loadedCounter := by
  cases h <;> exact ⟨rfl, rfl⟩

end Changes

@[simp] theorem loadedCounter_allocated (s : HandleStore) (key : GoString) :
    (s.allocated key).db.loadedCounter = s.nextInode + 1 :=
  bytesToUint64_uint64ToBytes _

end HandleStore

/-! ## The invariant along a history -/

namespace HandleStore

/-- What holds of an open store: memory and disk agree on one bijection, and the
counters are above every inode in use. -/
structure Inv (s : HandleStore) : Prop where
  inverse : GoMap.Inverse s.keyToInode s.inodeToKey
  stored : ∀ inode, s.db.storedKey inode = s.inodeToKey.lookup inode
  encoded : ∀ b ∈ s.db.inodes, ∃ inode, b = uint64ToBytes inode
  root : s.inodeToKey.lookup rootInode = some []
  bounded : ∀ inode key, s.inodeToKey.lookup inode = some key →
    inode.toNat < BoltDB.counter s.db.loadedCounter
  counter_le : BoltDB.counter s.db.loadedCounter ≤ BoltDB.counter s.nextInode

/-- The database of an open store is in order, so that the store can be reopened. -/
theorem Inv.database {s : HandleStore} (h : s.Inv) : s.db.Inv where
  encoded := h.encoded
  injective := by
    intro i j key hi hj
    rw [h.stored, ← h.inverse] at hi hj
    exact Option.some.inj (hi.symm.trans hj)
  bounded := by
    intro i key hi
    exact h.bounded i key (h.stored i ▸ hi)
  root := by
    have hmem : uint64ToBytes rootInode ∈ s.db.inodes := by
      have hroot := h.root
      rw [← h.stored] at hroot
      obtain ⟨v, hv, -⟩ := Option.map_eq_some_iff.mp hroot
      exact (GoMap.mem_iff_lookup _ _).mpr ⟨v, hv⟩
    intro i
    rw [h.stored]
    refine ⟨fun hi => ⟨?_, hmem⟩, fun ⟨hi, _⟩ => hi ▸ h.root⟩
    exact Option.some.inj (((h.inverse _ _).mpr hi).symm.trans ((h.inverse _ _).mpr h.root))
  counter_gt := h.bounded _ _ h.root

/-- Opening the database gives a store in order. -/
theorem inv_newHandleStore {db : BoltDB} (h : db.Inv) {s : HandleStore}
    (hs : newHandleStore db true = some s) : s.Inv := by
  have hlook := lookup_newHandleStore h hs
  have hinv := BoltDB.inv_initDB h
  have hdb : s.db = initDB db := by
    cases hs
    rfl
  have hnext : s.nextInode = (initDB db).loadedCounter := by
    cases hs
    show db.loadedCounter = _
    unfold initDB
    dsimp only
    split <;> rfl
  have hstored : ∀ inode, s.db.storedKey inode = s.inodeToKey.lookup inode := by
    intro inode
    rw [hdb]
    exact Option.ext fun key => ((hlook inode key).1).symm
  refine ⟨fun key inode => (hlook inode key).2.trans (hlook inode key).1.symm, hstored,
    hdb ▸ hinv.encoded, (hlook _ _).1.mpr (BoltDB.storedKey_initDB_root h), fun inode key hi => ?_,
    by rw [hdb, hnext]⟩
  rw [hdb]
  exact hinv.bounded inode key ((hlook inode key).1.mp hi)

/-! ### One operation -/

/-- The counter after an allocation is one above the inode given out. -/
theorem counter_succ (next : UInt64) :
    BoltDB.counter (next + 1) = next.toNat + 1 := by
  have hlt : next.toNat < 2 ^ 64 := next.toNat_lt
  have hadd : (next + 1).toNat = (next.toNat + 1) % 2 ^ 64 := by
    rw [UInt64.toNat_add]
    rfl
  unfold BoltDB.counter
  by_cases hw : next.toNat + 1 = 2 ^ 64
  · have : next + 1 = 0 := UInt64.toNat_inj.mp (by rw [hadd, hw]; rfl)
    rw [if_pos this, hw]
  · have hsucc : (next + 1).toNat = next.toNat + 1 := by
      rw [hadd]
      exact Nat.mod_eq_of_lt (by omega)
    have : next + 1 ≠ 0 := by
      intro h0
      rw [h0] at hsucc
      exact absurd hsucc (by simp)
    rw [if_neg this, hsucc]

theorem encoded_insert {m : GoMap Bytes Bytes} (h : ∀ b ∈ m, ∃ inode, b = uint64ToBytes inode)
    (inode : UInt64) (v : Bytes) :
    ∀ b ∈ m.insert (uint64ToBytes inode) v, ∃ inode, b = uint64ToBytes inode := by
  intro b hb
  rcases (AList.mem_insert _).mp hb with rfl | hb
  · exact ⟨_, rfl⟩
  · exact h b hb

section Operations

variable {s s' : HandleStore} {key oldKey newKey : GoString} {commit : Bool}

/-- An allocation takes an unused inode for an unused key. -/
theorem Inv.creates (h : s.Inv) (hkey : key ≠ [0]) {r : Except GoError UInt64}
    (hc : s.Creates key commit r s') : s'.Inv := by
  have hle := h.counter_le
  have hsucc := counter_succ s.nextInode
  cases hc with
  | found => exact h
  | exhausted => exact h
  | aborted hk hw =>
    -- the counter in memory has moved on, the rest is as before
    have hnext : BoltDB.counter s.nextInode = s.nextInode.toNat := if_neg hw
    refine ⟨h.inverse, h.stored, h.encoded, h.root, h.bounded, ?_⟩
    show BoltDB.counter s.db.loadedCounter ≤ BoltDB.counter (s.nextInode + 1)
    omega
  | committed hk hw =>
    have hnext : BoltDB.counter s.nextInode = s.nextInode.toNat := if_neg hw
    have hfresh : s.inodeToKey.lookup s.nextInode = none := by
      rw [Option.eq_none_iff_forall_ne_some]
      intro key' hi
      have := h.bounded _ _ hi
      omega
    refine ⟨h.inverse.insert ((GoMap.notMem_iff_lookup _ _).mp hk) hfresh, fun inode => ?_,
      encoded_insert h.encoded _ _, ?_, fun inode key' hi => ?_, ?_⟩
    · refine (BoltDB.storedKey_insert _ _ _ hkey _ _).trans ?_
      rw [h.stored]
      exact (GoMap.lookup_insert_ite _ _ _ _).symm
    · refine (GoMap.lookup_insert_ite _ _ _ _).trans ?_
      rw [if_neg (fun he => by rw [← he, h.root] at hfresh; cases hfresh)]
      exact h.root
    · rw [loadedCounter_allocated, hsucc]
      have hi := (GoMap.lookup_insert_ite _ _ _ _).symm.trans hi
      split at hi
      · next he =>
        subst he
        omega
      · have := h.bounded _ _ hi
        omega
    · rw [loadedCounter_allocated]
      exact Nat.le_refl _

/-- The inode of a key other than the root is not the root's. -/
theorem Inv.ne_root (h : s.Inv) (hkey : key ≠ []) {inode : UInt64}
    (hi : s.keyToInode.lookup key = some inode) : rootInode ≠ inode := by
  rintro rfl
  exact hkey (Option.some.inj (((h.inverse _ _).mp hi).symm.trans h.root))

/-- Removing a key other than the root takes its pair out everywhere. -/
theorem Inv.removes (h : s.Inv) (hkey : key ≠ []) (hr : s.Removes key commit s') : s'.Inv := by
  cases hr with
  | unchanged => exact h
  | committed hk =>
    refine ⟨h.inverse.erase hk, fun i => ?_, fun b hb => h.encoded b ?_, ?_,
      fun i key' hi => h.bounded i key' ?_, h.counter_le⟩
    · refine (BoltDB.storedKey_erase _ _ _ _ _).trans ?_
      rw [h.stored]
      exact (GoMap.lookup_erase_ite _ _ _).symm
    · exact (AList.mem_erase.mp hb).2
    · exact ((GoMap.lookup_erase_ite _ _ _).trans (if_neg (h.ne_root hkey hk))).trans h.root
    · have hi := (GoMap.lookup_erase_ite _ _ _).symm.trans hi
      split at hi
      · cases hi
      · exact hi

/-- A rename to a free key gives the inode its new key everywhere. -/
theorem Inv.renames (h : s.Inv) (hold : oldKey ≠ []) (hnew : newKey ≠ [0])
    (hfree : commit = true → oldKey ∈ s.keyToInode → newKey ≠ oldKey → newKey ∉ s.keyToInode)
    (hr : s.Renames oldKey newKey commit s') : s'.Inv := by
  cases hr with
  | unchanged => exact h
  | committed hk =>
    have hmem : oldKey ∈ s.keyToInode := (GoMap.mem_iff_lookup _ _).mpr ⟨_, hk⟩
    have hfree' : newKey ≠ oldKey → s.keyToInode.lookup newKey = none :=
      fun hne => (GoMap.notMem_iff_lookup _ _).mp (hfree rfl hmem hne)
    refine ⟨h.inverse.rekey hk hfree', fun i => ?_, encoded_insert h.encoded _ _, ?_,
      fun i key' hi => ?_, h.counter_le⟩
    · refine (BoltDB.storedKey_insert _ _ _ hnew _ _).trans ?_
      rw [h.stored]
      exact (GoMap.lookup_insert_ite _ _ _ _).symm
    · exact ((GoMap.lookup_insert_ite _ _ _ _).trans (if_neg (h.ne_root hold hk))).trans h.root
    · have hi := (GoMap.lookup_insert_ite _ _ _ _).symm.trans hi
      split at hi
      · next he =>
        subst he
        exact h.bounded i oldKey ((h.inverse _ _).mp hk)
      · exact h.bounded i key' hi

end Operations

/-- A committed rename onto a key with an inode of its own leaves that inode
behind: it still resolves to the key, and the key to the renamed inode. -/
theorem renameKey_not_inverse {s : HandleStore} (h : s.Inv) {oldKey newKey : GoString}
    (hold : oldKey ∈ s.keyToInode) (hnew : newKey ∈ s.keyToInode) (hne : newKey ≠ oldKey) :
    ¬ GoMap.Inverse (s.renameKey oldKey newKey true).2.keyToInode
      (s.renameKey oldKey newKey true).2.inodeToKey := by
  obtain ⟨i, hi⟩ := (GoMap.mem_iff_lookup _ _).mp hold
  obtain ⟨j, hj⟩ := (GoMap.mem_iff_lookup _ _).mp hnew
  have hij : j ≠ i := by
    rintro rfl
    exact hne (Option.some.inj (((h.inverse _ _).mp hj).symm.trans ((h.inverse _ _).mp hi)))
  unfold renameKey
  rw [hi]
  intro hinv
  have hback := (hinv newKey j).mpr
    ((GoMap.lookup_insert_ite _ _ _ _).trans ((if_neg hij).trans ((h.inverse _ _).mp hj)))
  have hfwd : AList.lookup newKey ((s.keyToInode.erase oldKey).insert newKey i) = some i :=
    AList.lookup_insert _
  exact hij (Option.some.inj (hback.symm.trans hfwd))

end HandleStore

namespace HandleProc

/-- The invariant of the process. -/
def Inv : HandleProc → Prop
  | .closed db => db.Inv
  | .opened s => s.Inv

theorem Inv.step {p : HandleProc} {op : HandleOp} (h : p.Inv) (hop : p.RenamesToFree op) :
    (p.step op).Inv := by
  cases p with
  | closed db =>
    cases op with
    | newHandleStore commit =>
      show Inv (match HandleStore.newHandleStore db commit with
        | some s => .opened s
        | none => .closed db)
      cases commit with
      | false => exact h
      | true => exact HandleStore.inv_newHandleStore h rfl
    | _ => exact h
  | opened s =>
    cases op with
    | getOrCreateInode key commit => exact HandleStore.Inv.creates h key.2 (s.creates key.1 commit)
    | removeByKey key commit => exact HandleStore.Inv.removes h key.2.1 (s.removes key.1 commit)
    | renameKey oldKey newKey commit =>
      refine HandleStore.Inv.renames h oldKey.2.1 newKey.2.2 (fun hc => ?_)
        (s.renames oldKey.1 newKey.1 commit)
      subst hc
      exact hop
    | close => exact HandleStore.Inv.database h
    | newHandleStore _ => exact h

theorem Inv.inverse {p : HandleProc} (h : p.Inv) : p.Inverse := by
  cases p with
  | closed _ => trivial
  | opened s => exact HandleStore.Inv.inverse h

/-- A step that misses the condition loses the bijection. -/
theorem Inv.renamesToFree {p : HandleProc} {op : HandleOp} (h : p.Inv)
    (hinv : (p.step op).Inverse) : p.RenamesToFree op := by
  cases p with
  | closed db => cases op <;> trivial
  | opened s =>
    cases op with
    | renameKey oldKey newKey commit =>
      cases commit with
      | false => trivial
      | true =>
        intro hold hne hnew
        exact HandleStore.renameKey_not_inverse h hold hnew hne hinv
    | _ => trivial

end HandleProc

/-- From a new database, over every history of allocations, removals, renames,
failed transactions, closes and reopens: the two maps are mutually inverse in
every state exactly if every committed rename goes to a key without an inode (or
to the renamed key itself). -/
theorem inverse_throughout_iff (ops : List HandleOp) :
    Throughout HandleProc.step HandleProc.Inverse (.closed .empty) ops ↔
      EachStep HandleProc.step HandleProc.RenamesToFree (.closed .empty) ops :=
  throughout_iff_eachStep (I := HandleProc.Inv) (fun _ _ h hop => h.step hop)
    (fun _ h => h.inverse) (fun _ _ h hinv => h.renamesToFree hinv) BoltDB.inv_empty

/-- Create `a` and `b`, rename `a` to `b`: the inode of the old `b` (3) still
resolves to `b`, which now belongs to inode 2. -/
theorem rename_onto_existing_not_inverse :
    ¬ Throughout HandleProc.step HandleProc.Inverse (.closed .empty)
      [.newHandleStore true, .getOrCreateInode ⟨gs "a", by decide⟩ true,
        .getOrCreateInode ⟨gs "b", by decide⟩ true,
        .renameKey ⟨gs "a", by decide⟩ ⟨gs "b", by decide⟩ true] := by
  rintro ⟨-, -, -, -, hinv⟩
  have h3 := (hinv (gs "b") 3).mpr (by decide)
  exact absurd h3 (by decide)

end S3Gateway
