import S3Gateway.Lib.Pool
import S3Gateway.Lib.Run
import S3Gateway.Cache.Data

/-!
# The data cache under concurrent calls

`Get`, `Put`, `Invalidate` and `evict` hold the cache's lock only for parts of what
they do; file system calls are made outside it. Here each method is a program over
the steps that others can come between: a locked section, or one file system call.
`DataCache.Calls` is a cache with any number of such calls under way.

Run by itself, a program does what the method of `DataCache` of that name does
(`run_getCall`, `run_putCall`). A method that panics ends the process; its program
returns and leaves the cache as the last section found it.
-/

namespace S3Gateway

open Lib

/-- What clock and file system contribute to one step. -/
structure DiskOutcome where
  now : Time
  /-- Whether the file system call succeeds. -/
  ok : Bool
  /-- The random part of a temp file's name. -/
  random : GoString
  /-- The number of bytes `io.Copy` gets written before it fails. -/
  copied : Nat

/-- A locked section, or a file system call outside the lock. A result `none` of a
locked section means that it panics. -/
inductive DataSection : Type → Type where
  /-- `Get` up to its first `Unlock`: the element, if there is a live one. -/
  | lookup (key : GoString) : DataSection (Option (Option Nat))
  /-- `os.Open`, and what is read from the file. -/
  | openFile (path : GoString × GoString) : DataSection (Option Bytes)
  /-- `Get` after `os.Open` failed. -/
  | forget (key : GoString) (elem : Nat) : DataSection Unit
  /-- `os.MkdirAll`. -/
  | mkdirAll (dir : GoString) : DataSection Bool
  /-- `os.CreateTemp`: the path of a new file. -/
  | createTemp (dir : GoString) : DataSection (Option (GoString × GoString))
  /-- `io.Copy` into the temp file: the number of bytes written and whether all of
  `data` was. -/
  | copy (tmpPath : GoString × GoString) (data : Bytes) : DataSection (Nat × Bool)
  /-- `tmp.Close`. -/
  | close (tmpPath : GoString × GoString) : DataSection Bool
  /-- `os.Remove`. -/
  | remove (path : GoString × GoString) : DataSection Unit
  /-- `os.Rename`. -/
  | rename (tmpPath path : GoString × GoString) : DataSection Bool
  /-- The locked section of `Put`. -/
  | insert (key s3Key : GoString) (written : Nat) : DataSection Unit
  | evict : DataSection (Option Unit)
  | invalidate (s3Key : GoString) : DataSection (Option Unit)

namespace DataCache

/-- A section that panics leaves the cache alone. -/
def guard {α : Type} (dc : DataCache) : Option (α × DataCache) → Option α × DataCache
  | none => (none, dc)
  | some (a, dc') => (some a, dc')

/-- `Get` after `os.Open` failed: forget the element found before, under the key. -/
def forget (dc : DataCache) (key : GoString) (elem : Nat) : DataCache :=
  match dc.order.value elem with
  | none => dc
  | some entry => dc.dropEntry key elem entry

/-- `os.Open` and reading. -/
def openFile (dc : DataCache) (ok : Bool) (path : GoString × GoString) : Option Bytes :=
  if ok then (dc.disk.lookup path).map (·.data) else none

/-- One step. -/
def handle (o : DiskOutcome) {β : Type} : DataSection β → DataCache → β × DataCache
  | .lookup key, dc => dc.guard (dc.getIndex o.now key)
  | .openFile path, dc => (dc.openFile o.ok path, dc)
  | .forget key elem, dc => ((), dc.forget key elem)
  | .mkdirAll _, dc => (o.ok, dc)
  | .createTemp dir, dc =>
    let tmpPath := (dir, gs ".tmp-" ++ o.random)
    if o.ok && (dc.disk.lookup tmpPath).isNone then
      (some tmpPath, { dc with disk := dc.disk.insert tmpPath ⟨[], o.now⟩ })
    else (none, dc)
  | .copy tmpPath data, dc =>
    let written := if o.ok then data.length else min o.copied data.length
    ((written, o.ok), { dc with disk := dc.disk.insert tmpPath ⟨data.take written, o.now⟩ })
  | .close _, dc => (o.ok, dc)
  | .remove path, dc => ((), { dc with disk := dc.disk.erase path })
  | .rename tmpPath path, dc =>
    match o.ok, dc.disk.lookup tmpPath with
    | true, some file => (true, { dc with disk := (dc.disk.erase tmpPath).insert path file })
    | _, _ => (false, dc)
  | .insert key s3Key written, dc => ((), dc.putIndex o.now key s3Key written)
  | .evict, dc => dc.guard ((dc.evict o.now).map fun dc' => ((), dc'))
  | .invalidate s3Key, dc => dc.guard ((dc.invalidate s3Key).map fun dc' => ((), dc'))

theorem handle_rename_ok {o : DiskOutcome} (dc : DataCache) {tmpPath : GoString × GoString}
    {file : DiskFile} (hok : o.ok = true) (hfile : dc.disk.lookup tmpPath = some file)
    (path : GoString × GoString) :
    handle o (.rename tmpPath path) dc
      = (true, { dc with disk := (dc.disk.erase tmpPath).insert path file }) := by
  simp only [handle, hok, hfile]

theorem handle_rename_failed {o : DiskOutcome} (hok : o.ok = false) (dc : DataCache)
    (tmpPath path : GoString × GoString) : handle o (.rename tmpPath path) dc = (false, dc) := by
  simp only [handle, hok]

/-! ## The methods as programs -/

/-- `Get`: the contents of the file it opens, or a miss. -/
def getCall (key : GoString) : Prog DataSection (Option (Option Bytes)) :=
  match cachePath key with
  | none => pure none
  | some path => do
    match ← Prog.call (.lookup key) with
    | none => pure none
    | some none => pure (some none)
    | some (some elem) =>
      match ← Prog.call (.openFile path) with
      | some data => pure (some (some data))
      | none => do
        Prog.call (.forget key elem)
        pure (some none)

/-- `Put`. -/
def putCall (key s3Key : GoString) (data : Bytes) :
    Prog DataSection (Option (Except GoError Unit)) :=
  match cachePath key with
  | none => pure none
  | some path => do
    let dir := path.1
    if ← Prog.call (.mkdirAll dir) then
      match ← Prog.call (.createTemp dir) with
      | none => pure (some (.error PutFailure.createTemp.error))
      | some tmpPath => do
        let (written, copied) ← Prog.call (.copy tmpPath data)
        let closed ← Prog.call (.close tmpPath)
        if copied && closed then
          if ← Prog.call (.rename tmpPath path) then
            Prog.call (.insert key s3Key written)
            match ← Prog.call .evict with
            | none => pure none
            | some _ => pure (some (.ok ()))
          else
            Prog.call (.remove tmpPath)
            pure (some (.error PutFailure.rename.error))
        else
          Prog.call (.remove tmpPath)
          pure (some (.error PutFailure.write.error))
    else pure (some (.error PutFailure.mkdirAll.error))

theorem getOpen_eq (dc : DataCache) (ok : Bool) (key : GoString) (path : GoString × GoString)
    (elem : Nat) :
    dc.getOpen ok key path elem
      = match dc.openFile ok path with
        | some data => (some data, dc)
        | none => (none, dc.forget key elem) := by
  unfold getOpen openFile forget
  cases ok with
  | false => cases dc.order.value elem <;> rfl
  | true =>
    cases dc.disk.lookup path with
    | none => cases dc.order.value elem <;> rfl
    | some file => rfl

/-- Run by itself, `getCall` is `Get`. -/
theorem run_getCall (dc : DataCache) (o : DiskOutcome) (s3Key etag : GoString) :
    (getCall (dc.cacheKey s3Key etag)).run (handle o) dc
      = dc.guard (dc.get o.now o.ok s3Key etag) := by
  unfold getCall get
  dsimp only
  cases hpath : cachePath (dc.cacheKey s3Key etag) with
  | none => rfl
  | some path =>
    simp only [Prog.run_bind, Prog.run_call, handle, Option.bind_some]
    rcases dc.getIndex o.now (dc.cacheKey s3Key etag) with _ | ⟨_ | elem, dc₁⟩
    · rfl
    · rfl
    · simp only [guard, Prog.run_bind, Prog.run_call, handle, Option.map_some, getOpen_eq]
      cases dc₁.openFile o.ok path <;> rfl

/-- Run by itself and without failures, `putCall` does what `Put` does, if it returns. -/
theorem run_putCall {dc dc' : DataCache} {o : DiskOutcome} {s3Key etag : GoString} {data : Bytes}
    {res : Except GoError Unit} (hok : o.ok = true)
    (hfresh : ∀ dir, dc.disk.lookup (dir, gs ".tmp-" ++ o.random) = none)
    (hput : dc.put o.now none s3Key etag data = some (res, dc')) :
    (putCall (dc.cacheKey s3Key etag) s3Key data).run (handle o) dc = (some res, dc') := by
  obtain ⟨path, hpath, hput⟩ := Option.bind_eq_some_iff.mp hput
  obtain ⟨dc₁, hev, heq⟩ := Option.map_eq_some_iff.mp hput
  cases heq
  have htmp : (path.1, gs ".tmp-" ++ o.random) ∉ dc.disk := AList.lookup_eq_none.mp (hfresh path.1)
  unfold putCall
  rw [hpath]
  simp only [Prog.run_bind, Prog.run_call, handle, hok, hfresh, Option.isNone_none, Bool.and_self,
    if_true, AList.lookup_insert, AList.insert_insert, GoMap.erase_insert htmp, List.take_length,
    hev]
  rfl

end DataCache

/-! ## Calls under way -/

/-- A call of a method. -/
inductive DataCall where
  | get (s3Key etag : GoString)
  | put (s3Key etag : GoString) (data : Bytes)
  | invalidate (s3Key : GoString)
  | evict

/-- The program of a call on `dc`; its result is dropped. -/
def DataCall.program (dc : DataCache) : DataCall → Prog DataSection Unit
  | .get s3Key etag => do let _ ← DataCache.getCall (dc.cacheKey s3Key etag); pure ()
  | .put s3Key etag data => do
    let _ ← DataCache.putCall (dc.cacheKey s3Key etag) s3Key data
    pure ()
  | .invalidate s3Key => do let _ ← Prog.call (.invalidate s3Key); pure ()
  | .evict => do let _ ← Prog.call .evict; pure ()

/-- A cache and the calls under way on it. -/
abbrev DataCache.Calls := Pool DataSection DataCache Unit

/-- What happens to a cache: a call begins, or call `i` takes its next step. -/
inductive DataEvent where
  | begin (call : DataCall)
  | next (i : Nat) (o : DiskOutcome)

/-- One event. -/
def DataCache.Calls.step (s : DataCache.Calls) : DataEvent → DataCache.Calls
  | .begin call => s.spawn (call.program s.shared)
  | .next i o => Pool.step (DataCache.handle o) s i

end S3Gateway
