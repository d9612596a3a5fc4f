import S3Gateway.Lib.Linearize
import S3Gateway.S3fs.InodeRace

/-!
# The handle store under concurrent calls

All sessions share one `HandleStore`. Its methods hold the lock for all they do, except
`GetOrCreateInode`, which looks the key up under the read lock, gives the lock up and
looks again under the write lock. Whatever other calls do in between, removals and
renames included, each call behaves as if it took place at once: the store is
linearizable (`handleStore_linearizable`). This is why the calls of the handle store are
single effects of the gateway's methods.
-/

namespace S3Gateway

open Lib

/-- A call of a method of `HandleStore`. -/
inductive StoreCall where
  | getOrCreateInode (s3Key : GoString)
  | getInode (s3Key : GoString)
  | getKey (inode : UInt64)
  | removeByKey (s3Key : GoString)
  | renameKey (oldKey newKey : GoString)

/-- What a method of `HandleStore` returns. -/
inductive StoreReply where
  | inode (r : Except GoError UInt64)
  | found (inode : UInt64)
  | key (r : Option GoString)
  | done (r : Except GoError Unit)

/-- The sections a method is made of, each under one hold of the lock. -/
inductive StoreSection : Type → Type where
  /-- `keyToInode[s3Key]` under the read lock. -/
  | lookup (s3Key : GoString) : StoreSection (Option UInt64)
  /-- The write-locked section of `GetOrCreateInode`. -/
  | createInode (s3Key : GoString) : StoreSection (Except GoError UInt64)
  | getKey (inode : UInt64) : StoreSection (Option GoString)
  | removeByKey (s3Key : GoString) : StoreSection (Except GoError Unit)
  | renameKey (oldKey newKey : GoString) : StoreSection (Except GoError Unit)

namespace StoreSection

/-- One section; `commit` is the outcome of its transaction, if it starts one. -/
def handle (commit : Bool) : Handler StoreSection HandleStore
  | _, .lookup s3Key, s => (s.getInode s3Key, s)
  | _, .createInode s3Key, s => s.createInode s3Key commit
  | _, .getKey inode, s => (s.getKey inode, s)
  | _, .removeByKey s3Key, s => s.removeByKey s3Key commit
  | _, .renameKey oldKey newKey, s => s.renameKey oldKey newKey commit

end StoreSection

namespace StoreCall

/-- `GetOrCreateInode` once the read lock is given up. -/
def afterLookup (s3Key : GoString) : Option UInt64 → Prog StoreSection StoreReply
  | some inode => pure (.inode (.ok inode))
  | none => do
    let r ← Prog.call (.createInode s3Key)
    pure (.inode r)

/-- The method as other calls see it. `GetInode` of a key without an inode is 0. -/
def program : StoreCall → Prog StoreSection StoreReply
  | .getOrCreateInode s3Key => do
    let found ← Prog.call (.lookup s3Key)
    afterLookup s3Key found
  | .getInode s3Key => do
    let found ← Prog.call (.lookup s3Key)
    pure (.found (found.getD 0))
  | .getKey inode => do
    let key ← Prog.call (.getKey inode)
    pure (.key key)
  | .removeByKey s3Key => do
    let r ← Prog.call (.removeByKey s3Key)
    pure (.done r)
  | .renameKey oldKey newKey => do
    let r ← Prog.call (.renameKey oldKey newKey)
    pure (.done r)

/-- The method at once. -/
def atOnce (commit : Bool) (s : HandleStore) : StoreCall → StoreReply × HandleStore
  | .getOrCreateInode s3Key => (s.getOrCreateInode s3Key commit).map .inode id
  | .getInode s3Key => (.found ((s.getInode s3Key).getD 0), s)
  | .getKey inode => (.key (s.getKey inode), s)
  | .removeByKey s3Key => (s.removeByKey s3Key commit).map .done id
  | .renameKey oldKey newKey => (s.renameKey oldKey newKey commit).map .done id

/-- Each method takes place at one of its sections. -/
theorem linearizes_program (call : StoreCall) :
    call.program.Linearizes StoreSection.handle fun commit s => call.atOnce commit s := by
  cases call with
  | getOrCreateInode key =>
    intro commit s
    show (s = s ∧ (afterLookup key (s.getInode key)).Linearizes _ _) ∨
      (s = _ ∧ (afterLookup key (s.getInode key)).Decided _ _)
    cases hi : s.getInode key with
    | some inode =>
      -- the lookup is all there is to do
      refine Or.inr ?_
      have hfound : s.getOrCreateInode key commit = (.ok inode, s) :=
        HandleStore.getOrCreateInode_of_some hi
      show s = (Prod.map _ _ (s.getOrCreateInode key commit)).2 ∧
        _ = (Prod.map _ _ (s.getOrCreateInode key commit)).1
      rw [hfound]
      exact ⟨rfl, rfl⟩
    | none =>
      -- the write-locked section looks again, whatever has happened since
      refine Or.inl ⟨rfl, fun commit s' => Or.inr ?_⟩
      show (s'.createInode key commit).2 = (Prod.map _ _ (s'.getOrCreateInode key commit)).2 ∧
        StoreReply.inode (s'.createInode key commit).1
          = (Prod.map _ _ (s'.getOrCreateInode key commit)).1
      rw [HandleStore.createInode_eq]
      exact ⟨rfl, rfl⟩
  | getInode key => exact fun _ _ => Or.inr ⟨rfl, rfl⟩
  | getKey inode => exact fun _ _ => Or.inr ⟨rfl, rfl⟩
  | removeByKey key => exact fun _ _ => Or.inr ⟨rfl, rfl⟩
  | renameKey oldKey newKey => exact fun _ _ => Or.inr ⟨rfl, rfl⟩

end StoreCall

/-- A handle store and calls on it, none of them begun. -/
def storeCalls (s : HandleStore) (calls : List StoreCall) :
    Pool StoreSection HandleStore StoreReply :=
  ⟨s, calls.map StoreCall.program⟩

/-- Call `j` of the list at once. A call that does not exist does nothing. -/
def callAtOnce (calls : List StoreCall) (j : Nat) (commit : Bool) (s : HandleStore) :
    StoreReply × HandleStore :=
  match calls[j]? with
  | some call => call.atOnce commit s
  | none => (.done (.ok ()), s)

/-- The handle store is linearizable: for any number of concurrent calls of its methods,
from any store, for any interleaving of their locked sections and any outcomes of their
transactions, there is an order in which the calls, performed one at a time, give the
replies that were returned and leave the store that was left. In it, at every moment of
the schedule, the calls that have returned come before those that have not begun. -/
theorem handleStore_linearizable (s : HandleStore) (calls : List StoreCall)
    (sched : List (Nat × Bool)) :
    ∃ order, (storeCalls s calls).Linearized StoreSection.handle (callAtOnce calls) sched order := by
  refine Pool.exists_linearized (fun j p hj => ?_) sched
  have hj : (calls.map StoreCall.program)[j]? = some p := hj
  rw [List.getElem?_map] at hj
  obtain ⟨call, hcall, rfl⟩ := Option.map_eq_some_iff.mp hj
  have hop : callAtOnce calls j = fun commit s => call.atOnce commit s := by
    funext commit s
    unfold callAtOnce
    rw [hcall]
  rw [hop]
  exact call.linearizes_program

end S3Gateway
