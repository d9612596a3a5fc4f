import S3Gateway.Lib.Pool
import S3Gateway.S3fs.HandleHistory

/-!
# Concurrent allocation of inodes

`GetOrCreateInode` looks the key up under the read lock, gives the lock up, and looks
again under the write lock before it allocates. Between the two sections any number of
other calls may have allocated inodes, for the same key or for others, or have lost a
number to a transaction that failed. A call is here a program over its two sections,
and any number of calls run at once, interleaved by any schedule
(`concurrent_getOrCreateInode`).

- **Rely**: no call takes an inode away from a key (`HandleStore.Keeps`). So an answer
  stays right after it has been given.
- **Invariant**: keys have different inodes, all below the counter
  (`HandleProc.Numbered`). It holds of every store the gateway can have open, whatever
  was removed or renamed before, root and NUL key included.
-/

namespace S3Gateway

open Lib

/-! ## Numbered keys -/

namespace HandleProc

/-- The inode of a key in an open store. -/
def inodeOf : HandleProc → GoString → Option UInt64
  | .closed _, _ => none
  | .opened s, key => s.keyToInode.lookup key

/-- Keys have different inodes, and every inode in memory or in the database is below
the counter on disk. -/
structure Numbered (p : HandleProc) : Prop where
  counts : p.Counts
  root : rootInode.toNat < p.diskCounter
  stored : ∀ b ∈ p.db.inodes, ∃ inode, b = uint64ToBytes inode ∧ inode.toNat < p.diskCounter
  bounded : ∀ key inode, p.inodeOf key = some inode → inode.toNat < p.diskCounter
  injective : ∀ key key' inode, p.inodeOf key = some inode → p.inodeOf key' = some inode →
    key = key'

/-- The database gets no inode but below the counter it has then. -/
theorem stored_insert {m : GoMap Bytes Bytes} {bound bound' : Nat} (hle : bound ≤ bound')
    (h : ∀ b ∈ m, ∃ inode, b = uint64ToBytes inode ∧ inode.toNat < bound) {inode : UInt64}
    (hinode : inode.toNat < bound') (v : Bytes) :
    ∀ b ∈ m.insert (uint64ToBytes inode) v,
      ∃ inode, b = uint64ToBytes inode ∧ inode.toNat < bound' := by
  intro b hb
  rcases (AList.mem_insert _).mp hb with rfl | hb
  · exact ⟨inode, rfl, hinode⟩
  · obtain ⟨i, rfl, hi⟩ := h b hb
    exact ⟨i, rfl, Nat.lt_of_lt_of_le hi hle⟩

theorem numbered_empty : Numbered (.closed .empty) where
  counts := trivial
  root := by decide
  stored := fun b hb => absurd hb (AList.notMem_empty b)
  bounded := fun _ _ h => by cases h
  injective := fun _ _ _ h => by cases h

/-- Opening a database numbers the keys as the `inodes` bucket does. -/
theorem Numbered.newHandleStore {db : BoltDB} (h : Numbered (.closed db)) {s : HandleStore}
    (hs : HandleStore.newHandleStore db true = some s) : Numbered (.opened s) := by
  have hdb : s.db = HandleStore.initDB db := by
    cases hs
    rfl
  have hdisk : (HandleProc.opened s).diskCounter = (HandleProc.closed db).diskCounter := by
    show BoltDB.counter s.db.loadedCounter = BoltDB.counter db.loadedCounter
    rw [hdb, HandleStore.loadedCounter_initDB]
  have hcounts : (HandleProc.opened s).Counts := by
    have hnext : s.nextInode = db.loadedCounter := by
      cases hs
      rfl
    show BoltDB.counter s.db.loadedCounter ≤ BoltDB.counter s.nextInode
    rw [hdb, hnext, HandleStore.loadedCounter_initDB]
  have hstored : ∀ b ∈ s.db.inodes, ∃ inode, b = uint64ToBytes inode ∧
      inode.toNat < (HandleProc.opened s).diskCounter := by
    rw [hdb, hdisk]
    unfold HandleStore.initDB
    dsimp only
    split
    · exact h.stored
    · exact stored_insert (Nat.le_refl _) h.stored h.root _
  have hencoded : ∀ b ∈ (HandleStore.initDB db).inodes, ∃ inode, b = uint64ToBytes inode := by
    intro b hb
    obtain ⟨inode, hinode, -⟩ := hstored b (hdb ▸ hb)
    exact ⟨inode, hinode⟩
  -- a key's inode is one the bucket stores for it
  have hlookup : ∀ key inode, s.keyToInode.lookup key = some inode →
      (HandleStore.initDB db).storedKey inode = some key := by
    intro key inode hk
    have hkeys : s.keyToInode
        = ((HandleStore.initDB db).inodes.entries.insertionSort HandleStore.boltLE).foldl
          (fun m kv => m.insert (boltToS3Key kv.2) (bytesToUint64 kv.1)) ∅ := by
      cases hs
      show (List.foldl HandleStore.loadMapping (∅, ∅) _).2 = _
      rw [HandleStore.foldl_loadMapping]
    rw [hkeys] at hk
    rcases GoMap.of_lookup_foldl_insert _ _ _ _ hk with ⟨kv, hmem, hkey, hinode⟩ | hk
    · have hmem := (List.perm_insertionSort HandleStore.boltLE _).subset hmem
      exact (HandleStore.exists_mem_iff_storedKey hencoded inode key).mp ⟨kv, hmem, hinode, hkey⟩
    · cases hk
  refine ⟨hcounts, hdisk ▸ h.root, hstored, fun key inode hk => ?_, fun key key' inode hk hk' => ?_⟩
  · obtain ⟨v, hv, -⟩ := Option.map_eq_some_iff.mp (hlookup key inode hk)
    obtain ⟨i, hi, hlt⟩ := hstored _ (hdb ▸ (GoMap.mem_iff_lookup _ _).mpr ⟨v, hv⟩)
    rw [uint64ToBytes_injective hi]
    exact hlt
  · exact Option.some.inj ((hlookup key inode hk).symm.trans (hlookup key' inode hk'))

section Operations

variable {s s' : HandleStore} {key oldKey newKey : GoString} {commit : Bool}

/-- An allocation takes a number no key has. -/
theorem Numbered.creates (h : Numbered (.opened s)) {r : Except GoError UInt64}
    (hc : s.Creates key commit r s') : Numbered (.opened s') := by
  have hle : BoltDB.counter s.db.loadedCounter ≤ BoltDB.counter s.nextInode := h.counts
  have hsucc := HandleStore.counter_succ s.nextInode
  cases hc with
  | found => exact h
  | exhausted => exact h
  | aborted hk hw =>
    have hnext : BoltDB.counter s.nextInode = s.nextInode.toNat := if_neg hw
    refine ⟨?_, h.root, h.stored, h.bounded, h.injective⟩
    show BoltDB.counter s.db.loadedCounter ≤ BoltDB.counter (s.nextInode + 1)
    omega
  | committed hk hw =>
    have hnext : BoltDB.counter s.nextInode = s.nextInode.toNat := if_neg hw
    have hold : BoltDB.counter s.db.loadedCounter = (HandleProc.opened s).diskCounter := rfl
    have hdisk : (HandleProc.opened (s.allocated key)).diskCounter = s.nextInode.toNat + 1 := by
      show BoltDB.counter (s.allocated key).db.loadedCounter = _
      rw [HandleStore.loadedCounter_allocated, hsucc]
    have hfresh : ∀ key', s.keyToInode.lookup key' ≠ some s.nextInode := by
      intro key' hk'
      have := h.bounded key' _ hk'
      omega
    have hlookup : ∀ key', (HandleProc.opened (s.allocated key)).inodeOf key'
        = if key' = key then some s.nextInode else s.keyToInode.lookup key' :=
      fun key' => GoMap.lookup_insert_ite _ _ _ _
    constructor
    · exact Nat.le_of_eq (hdisk.trans hsucc.symm)
    · have := h.root
      omega
    · refine stored_insert ?_ h.stored ?_ _ <;> omega
    · intro key' inode hk'
      rw [hlookup] at hk'
      split at hk'
      · cases hk'
        omega
      · have := h.bounded key' inode hk'
        omega
    · intro key₁ key₂ inode h₁ h₂
      rw [hlookup] at h₁ h₂
      split at h₁ <;> split at h₂
      · next e₁ e₂ => rw [e₁, e₂]
      · cases h₁
        exact absurd h₂ (hfresh key₂)
      · cases h₂
        exact absurd h₁ (hfresh key₁)
      · exact h.injective key₁ key₂ inode h₁ h₂

theorem Numbered.removes (h : Numbered (.opened s)) (hr : s.Removes key commit s') :
    Numbered (.opened s') := by
  cases hr with
  | unchanged => exact h
  | @committed inode hk =>
    have hlookup : ∀ key' inode', (HandleProc.opened (s.removed key inode)).inodeOf key' = some inode' →
        (HandleProc.opened s).inodeOf key' = some inode' := by
      intro key' inode' hk'
      have hk' := (GoMap.lookup_erase_ite _ _ _).symm.trans hk'
      split at hk'
      · cases hk'
      · exact hk'
    constructor
    · exact h.counts
    · exact h.root
    · exact fun b hb => h.stored b (AList.mem_erase.mp hb).2
    · exact fun key' inode' hk' => h.bounded key' inode' (hlookup key' inode' hk')
    · exact fun key₁ key₂ inode' h₁ h₂ =>
        h.injective key₁ key₂ inode' (hlookup key₁ inode' h₁) (hlookup key₂ inode' h₂)

/-- A rename gives the inode of one key to another; no other key had it. -/
theorem Numbered.renames (h : Numbered (.opened s)) (hr : s.Renames oldKey newKey commit s') :
    Numbered (.opened s') := by
  cases hr with
  | unchanged => exact h
  | @committed inode hk =>
    have hlookup : ∀ key' inode', (HandleProc.opened (s.renamed oldKey newKey inode)).inodeOf key'
          = some inode' → key' = newKey ∧ inode' = inode ∨
        key' ≠ oldKey ∧ s.keyToInode.lookup key' = some inode' := by
      intro key' inode' hk'
      have hk' := (GoMap.lookup_insert_ite _ _ _ _).symm.trans hk'
      split at hk'
      · next heq => exact Or.inl ⟨heq, (Option.some.inj hk').symm⟩
      · rw [GoMap.lookup_erase_ite] at hk'
        split at hk'
        · cases hk'
        · next hne => exact Or.inr ⟨hne, hk'⟩
    constructor
    · exact h.counts
    · exact h.root
    · exact stored_insert (Nat.le_refl _) h.stored (h.bounded oldKey inode hk) _
    · intro key' inode' hk'
      rcases hlookup key' inode' hk' with ⟨-, rfl⟩ | ⟨-, hk'⟩
      · exact h.bounded oldKey inode' hk
      · exact h.bounded key' inode' hk'
    · intro key₁ key₂ inode' h₁ h₂
      rcases hlookup key₁ inode' h₁ with ⟨he₁, hi₁⟩ | ⟨hne₁, h₁⟩ <;>
        rcases hlookup key₂ inode' h₂ with ⟨he₂, hi₂⟩ | ⟨hne₂, h₂⟩
      · rw [he₁, he₂]
      · exact absurd (h.injective key₂ oldKey inode (hi₁ ▸ h₂) hk) hne₂
      · exact absurd (h.injective key₁ oldKey inode (hi₂ ▸ h₁) hk) hne₁
      · exact h.injective key₁ key₂ inode' h₁ h₂

end Operations

theorem Numbered.perform {p : HandleProc} (h : p.Numbered) (op : StoreOp) :
    (p.perform op).Numbered := by
  cases p with
  | closed db =>
    cases op with
    | newHandleStore commit =>
      cases commit with
      | false => exact h
      | true => exact h.newHandleStore rfl
    | _ => exact h
  | opened s =>
    cases op with
    | getOrCreateInode key commit => exact h.creates (s.creates key commit)
    | removeByKey key commit => exact h.removes (s.removes key commit)
    | renameKey oldKey newKey commit => exact h.renames (s.renames oldKey newKey commit)
    | close =>
      refine ⟨trivial, h.root, h.stored, fun key inode hk => ?_, fun key key' inode hk => ?_⟩
      · cases hk
      · cases hk
    | newHandleStore _ => exact h

/-- After every history. -/
theorem numbered_foldl_perform (ops : List StoreOp) :
    (ops.foldl perform (.closed .empty)).Numbered :=
  (throughout_of_invariant (I := Numbered) (fun _ op h => h.perform op) (fun _ h => h)
    numbered_empty ops).last

end HandleProc

/-! ## The calls -/

namespace HandleStore

/-- The locked sections of `GetOrCreateInode`. -/
inductive InodeSection : Type → Type where
  /-- The lookup under the read lock. -/
  | getInode (s3Key : GoString) : InodeSection (Option UInt64)
  /-- All that is done under the write lock. -/
  | createInode (s3Key : GoString) : InodeSection (Except GoError UInt64)

/-- One section; `commit` is the outcome of its transaction, if it starts one. -/
def handle (commit : Bool) {β : Type} : InodeSection β → HandleStore → β × HandleStore
  | .getInode s3Key, s => (s.getInode s3Key, s)
  | .createInode s3Key, s => s.createInode s3Key commit

/-- `GetOrCreateInode` once the read lock is given up. -/
def afterLookup (s3Key : GoString) : Option UInt64 → Prog InodeSection (Except GoError UInt64)
  | some inode => pure (.ok inode)
  | none => Prog.call (.createInode s3Key)

/-- `GetOrCreateInode` as other calls see it. -/
def getOrCreateInodeCall (s3Key : GoString) : Prog InodeSection (Except GoError UInt64) := do
  let found ← Prog.call (.getInode s3Key)
  afterLookup s3Key found

/-- The write-locked section alone does all of `GetOrCreateInode`: it looks again. -/
theorem createInode_eq (s : HandleStore) (s3Key : GoString) (commit : Bool) :
    s.createInode s3Key commit = s.getOrCreateInode s3Key commit := by
  unfold getOrCreateInode getInode
  cases hi : s.keyToInode.lookup s3Key with
  | none => rfl
  | some inode =>
    unfold createInode
    rw [hi]

/-- Undisturbed, a call is `GetOrCreateInode`. -/
theorem run_getOrCreateInodeCall (s : HandleStore) (s3Key : GoString) (commit : Bool) :
    (getOrCreateInodeCall s3Key).run (handle commit) s = s.getOrCreateInode s3Key commit := by
  unfold getOrCreateInodeCall getOrCreateInode
  rw [Prog.run_bind]
  show (afterLookup s3Key (s.getInode s3Key)).run (handle commit) s = _
  cases s.getInode s3Key with
  | none => rfl
  | some inode => rfl

/-- The mapping a section commits to the database. -/
def committed (commit : Bool) {β : Type} :
    InodeSection β → HandleStore → Option (GoString × UInt64)
  | .getInode _, _ => none
  | .createInode s3Key, s =>
    ((HandleProc.opened s).allocates (.getOrCreateInode s3Key commit)).map fun inode =>
      (s3Key, inode)

/-- What the transaction that commits a mapping does to the `inodes` bucket. -/
def writeInode (bucket : GoMap Bytes Bytes) (mapping : GoString × UInt64) : GoMap Bytes Bytes :=
  bucket.insert (uint64ToBytes mapping.2) (s3KeyToBolt mapping.1)

/-! ## One section -/

theorem creates_createInode (s : HandleStore) (key : GoString) (commit : Bool) :
    s.Creates key commit (s.createInode key commit).1 (s.createInode key commit).2 := by
  rw [createInode_eq]
  exact s.creates key commit

/-- A call relies on no key losing its inode, and takes none away itself; what it
returns is its key's inode. -/
theorem follows_getOrCreateInodeCall (key : GoString) (s : HandleStore) :
    (getOrCreateInodeCall key).Follows handle (fun s => HandleProc.Numbered (.opened s)) Keeps
      (fun r s => ∀ inode, r = .ok inode → s.keyToInode.lookup key = some inode) s := by
  intro _ s₁ _ h₁
  refine ⟨.refl s₁, h₁, ?_⟩
  show (afterLookup key (s₁.getInode key)).Follows _ _ _ _ s₁
  cases hi : s₁.getInode key with
  | some inode =>
    intro inode' hr
    cases hr
    exact hi
  | none =>
    intro commit s₂ _ h₂
    have hc := s₂.creates_createInode key commit
    exact ⟨hc.keeps.1, h₂.creates hc, hc.keeps.2⟩

/-- A section commits at most one mapping: of a key that had no inode before and has
this one after, and it is all that changes in the `inodes` bucket. -/
theorem committed_cases (commit : Bool) {β : Type} (e : InodeSection β) (s : HandleStore) :
    (committed commit e s = none ∧ (handle commit e s).2.db.inodes = s.db.inodes ∧
        s.Keeps (handle commit e s).2) ∨
      ∃ mapping : GoString × UInt64, committed commit e s = some mapping ∧
        mapping.1 ∉ s.keyToInode ∧ s.Keeps (handle commit e s).2 ∧
        (handle commit e s).2.keyToInode.lookup mapping.1 = some mapping.2 ∧
        (handle commit e s).2.db.inodes = writeInode s.db.inodes mapping := by
  cases e with
  | getInode key => exact Or.inl ⟨rfl, rfl, .refl s⟩
  | createInode key =>
    have hc := s.creates key commit
    have hhandle : handle commit (.createInode key) s = s.getOrCreateInode key commit :=
      s.createInode_eq key commit
    have hcommitted : committed commit (.createInode key) s
        = (if key ∈ s.keyToInode then none
            else (s.getOrCreateInode key commit).1.toOption).map fun inode => (key, inode) := rfl
    rw [hhandle, hcommitted]
    generalize s.getOrCreateInode key commit = res at hc
    obtain ⟨r, s'⟩ := res
    cases hc with
    | found hi =>
      rw [if_pos ((GoMap.mem_iff_lookup _ _).mpr ⟨_, hi⟩)]
      exact Or.inl ⟨rfl, rfl, .refl _⟩
    | exhausted hk hw =>
      rw [if_neg hk]
      exact Or.inl ⟨rfl, rfl, .refl _⟩
    | aborted hk hw =>
      rw [if_neg hk]
      exact Or.inl ⟨rfl, rfl, .refl _⟩
    | committed hk hw =>
      rw [if_neg hk]
      have hkeeps := (Creates.committed hk hw).keeps
      exact Or.inr ⟨(key, s.nextInode), rfl, hk, hkeeps.1, hkeeps.2 _ rfl, rfl⟩

end HandleStore

/-! ## Any number of calls -/

/-- A handle store and calls of `GetOrCreateInode` under way. -/
abbrev InodeCalls := Pool HandleStore.InodeSection HandleStore (Except GoError UInt64)

namespace InodeCalls

/-- Calls for these keys, none of them begun. -/
def start (s : HandleStore) (keys : List GoString) : InodeCalls :=
  ⟨s, keys.map HandleStore.getOrCreateInodeCall⟩

/-- The next section of call `e.1`; `e.2` is the outcome of its transaction. -/
def step (p : InodeCalls) (e : Nat × Bool) : InodeCalls := Pool.step (HandleStore.handle e.2) p e.1

/-- The mapping this step commits. -/
def commits (p : InodeCalls) (e : Nat × Bool) : Option (GoString × UInt64) :=
  Pool.observe (HandleStore.committed e.2) p e.1

/-- The mappings committed along a schedule, in order. -/
def created (p : InodeCalls) (sched : List (Nat × Bool)) : List (GoString × UInt64) :=
  (outputs step commits p sched).reduceOption

/-- The store is numbered, and every call that has returned an inode returned the one
its key has now. -/
def Agrees (keys : List GoString) : InodeCalls → Prop :=
  Pool.Follows HandleStore.handle (fun s => HandleProc.Numbered (.opened s)) HandleStore.Keeps
    fun j r s => ∀ key inode, keys[j]? = some key → r = .ok inode →
      s.keyToInode.lookup key = some inode

theorem agrees_start {s : HandleStore} (hs : HandleProc.Numbered (.opened s))
    (keys : List GoString) : Agrees keys (start s keys) := by
  refine ⟨hs, fun j p hj => ?_⟩
  have hj : (keys.map HandleStore.getOrCreateInodeCall)[j]? = some p := hj
  rw [List.getElem?_map] at hj
  obtain ⟨key, hkey, rfl⟩ := Option.map_eq_some_iff.mp hj
  refine (HandleStore.follows_getOrCreateInodeCall key s).post fun r s' hr key' inode hk => ?_
  cases hkey.symm.trans hk
  exact hr inode

theorem Agrees.step {keys : List GoString} {p : InodeCalls} (h : Agrees keys p) (e : Nat × Bool) :
    Agrees keys (p.step e) :=
  (Pool.Follows.step HandleStore.Keeps.refl (fun _ _ _ h h' => h.trans h')
    (fun _ _ _ _ hkeeps hr key inode hj hok => hkeeps key inode (hr key inode hj hok)) h e.2 e.1).1

/-- One step commits no mapping and leaves the `inodes` bucket alone, or commits one, of
a key without an inode. -/
theorem step_cases (p : InodeCalls) (e : Nat × Bool) :
    (p.commits e = none ∧ (p.step e).shared.db.inodes = p.shared.db.inodes ∧
        p.shared.Keeps (p.step e).shared) ∨
      ∃ mapping : GoString × UInt64, p.commits e = some mapping ∧
        mapping.1 ∉ p.shared.keyToInode ∧ p.shared.Keeps (p.step e).shared ∧
        (p.step e).shared.keyToInode.lookup mapping.1 = some mapping.2 ∧
        (p.step e).shared.db.inodes = HandleStore.writeInode p.shared.db.inodes mapping := by
  unfold commits step
  rcases Pool.observe_cases (HandleStore.committed e.2) (HandleStore.handle e.2) p e.1 with
    ⟨hshared, hnone⟩ | ⟨β, sec, hshared, hsec⟩
  · rw [hshared, hnone]
    exact Or.inl ⟨rfl, rfl, .refl _⟩
  · rw [hshared, hsec]
    exact HandleStore.committed_cases e.2 sec p.shared

/-- Along a schedule: every key gets at most one mapping, and none if it had an inode
before; the `inodes` bucket gets these mappings and nothing else. -/
theorem created_spec (p : InodeCalls) (sched : List (Nat × Bool)) :
    ((p.created sched).map Prod.fst).Nodup ∧
      (∀ mapping ∈ p.created sched, mapping.1 ∉ p.shared.keyToInode) ∧
      (sched.foldl step p).shared.db.inodes
        = (p.created sched).foldl HandleStore.writeInode p.shared.db.inodes := by
  induction sched generalizing p with
  | nil =>
    refine ⟨List.nodup_nil, fun _ h => ?_, rfl⟩
    cases h
  | cons e sched ih =>
    obtain ⟨hnodup, hnew, hdb⟩ := ih (p.step e)
    have hmem : ∀ key, p.shared.Keeps (p.step e).shared → key ∉ (p.step e).shared.keyToInode →
        key ∉ p.shared.keyToInode := by
      intro key hkeeps hnot hk
      obtain ⟨inode, hi⟩ := (GoMap.mem_iff_lookup _ _).mp hk
      exact hnot ((GoMap.mem_iff_lookup _ _).mpr ⟨inode, hkeeps key inode hi⟩)
    rcases p.step_cases e with ⟨hnone, hsame, hkeeps⟩ | ⟨mapping, hsome, hfree, hkeeps, hgot, hwrite⟩
    · have hcons : p.created (e :: sched) = (p.step e).created sched := by
        rw [created, outputs, hnone]
        rfl
      rw [hcons, List.foldl_cons, hdb, hsame]
      exact ⟨hnodup, fun m hm => hmem _ hkeeps (hnew m hm), rfl⟩
    · have hcons : p.created (e :: sched) = mapping :: (p.step e).created sched := by
        rw [created, outputs, hsome]
        rfl
      rw [hcons, List.foldl_cons, hdb, hwrite]
      refine ⟨List.nodup_cons.mpr ⟨fun hin => ?_, hnodup⟩, fun m hm => ?_, rfl⟩
      · -- a second mapping would be of a key without an inode
        obtain ⟨m, hm, hkey⟩ := List.mem_map.mp hin
        refine hnew m hm ?_
        rw [hkey]
        exact (GoMap.mem_iff_lookup _ _).mpr ⟨_, hgot⟩
      · rcases List.mem_cons.mp hm with rfl | hm
        · exact hfree
        · exact hmem _ hkeeps (hnew m hm)

end InodeCalls

/-- From every store the gateway can have open, for any number of concurrent calls of
`GetOrCreateInode` on any keys, any interleaving of their sections and any outcomes of
their transactions: two calls that have returned without error have returned the same
inode exactly if their keys are the same, and the transactions have committed at most
one mapping for each key, none for a key that had an inode; these mappings are all that
was added to the `inodes` bucket. -/
theorem concurrent_getOrCreateInode (ops : List StoreOp) (s : HandleStore)
    (hs : ops.foldl HandleProc.perform (.closed .empty) = .opened s) (keys : List GoString)
    (sched : List (Nat × Bool)) :
    let p := sched.foldl InodeCalls.step (InodeCalls.start s keys)
    let created := (InodeCalls.start s keys).created sched
    (∀ (i j : Nat) (key key' : GoString) (inode inode' : UInt64), keys[i]? = some key →
        keys[j]? = some key' → p.threads[i]? = some (.ret (.ok inode)) →
        p.threads[j]? = some (.ret (.ok inode')) → (inode = inode' ↔ key = key')) ∧
      (created.map Prod.fst).Nodup ∧ (∀ mapping ∈ created, mapping.1 ∉ s.keyToInode) ∧
      p.shared.db.inodes = created.foldl HandleStore.writeInode s.db.inodes := by
  dsimp only
  have hnum : HandleProc.Numbered (.opened s) := hs ▸ HandleProc.numbered_foldl_perform ops
  obtain ⟨hstore, hcalls⟩ := (throughout_of_invariant (I := InodeCalls.Agrees keys)
    (fun _ e h => h.step e) (fun _ h => h) (InodeCalls.agrees_start hnum keys) sched).last
  refine ⟨fun i j key key' inode inode' hi hj hri hrj => ?_, InodeCalls.created_spec _ sched⟩
  have hkey := hcalls i _ hri key inode hi rfl
  have hkey' := hcalls j _ hrj key' inode' hj rfl
  constructor
  · rintro rfl
    exact hstore.injective key key' inode hkey hkey'
  · rintro rfl
    exact Option.some.inj (hkey.symm.trans hkey')

/-- Three calls, two of them for `a`, all of which look before any of them allocates; the
transaction of the call for `b` fails. Both calls for `a` return the inode after the one
lost to it. -/
theorem concurrent_getOrCreateInode_three :
    let s := (HandleStore.newHandleStore .empty true).get rfl
    let keys := [gs "a", gs "b", gs "a"]
    let sched := [(0, true), (1, true), (2, true), (1, false), (0, true), (2, true)]
    let p := sched.foldl InodeCalls.step (InodeCalls.start s keys)
    let created := (InodeCalls.start s keys).created sched
    p.threads[0]? = some (.ret (.ok 3)) ∧ p.threads[2]? = some (.ret (.ok 3)) ∧
      created = [(gs "a", 3)] ∧
      p.shared.db.inodes = created.foldl HandleStore.writeInode s.db.inodes := by
  have h := concurrent_getOrCreateInode [.newHandleStore true]
    ((HandleStore.newHandleStore .empty true).get rfl) rfl [gs "a", gs "b", gs "a"]
    [(0, true), (1, true), (2, true), (1, false), (0, true), (2, true)]
  exact ⟨rfl, rfl, by decide, h.2.2.2⟩

end S3Gateway
