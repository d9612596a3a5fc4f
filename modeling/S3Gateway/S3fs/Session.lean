import S3Gateway.Lib.Run
import S3Gateway.S3fs.Rules

/-!
# Runs of the gateway

A sequential run of the gateway is a list of operations: methods of `S3FS`,
methods of the files that are open, and the background eviction of the metadata
cache. `Session.step` performs one of them on the services and the table of open
files; what the operation returns is dropped, except for the file of a
successful `OpenFile`, which gets the next descriptor.
-/

namespace S3Gateway

open Lib

/-- A call on an open file. -/
inductive FileOp where
  /-- `Read` into a slice of `n` bytes, followed for at most `fuel` iterations of
  its loop. -/
  | read (fuel n : Nat)
  | write (p : Bytes)
  | seek (offset : Int64) (whence : Int)
  | truncate
  | readdir (count : Int)
  | stat
  | sync
  | close
deriving DecidableEq

/-- An operation of the gateway. -/
inductive Op where
  | openFile (path : GoString) (flags : Nat)
  | file (fd : Nat) (op : FileOp)
  | stat (path : GoString)
  | chmod (path : GoString) (mode : FileMode)
  | chown (path : GoString) (uid gid : Int)
  | setXattr (path name value : GoString) (option : UInt32)
  | listXattrs (path : GoString)
  | removeXattr (path name : GoString)
  | symlink (target linkPath : GoString)
  | readlink (path : GoString)
  | rename (oldpath newpath : GoString)
  | remove (path : GoString)
  | mkdirAll (path : GoString)
  | copy (srcPath dstPath : GoString)
  /-- One round of `evictionLoop`. -/
  | evictExpired

/-- The services and the open files. -/
structure Session where
  world : World
  files : GoMap Nat File
  nextFd : Nat

/-- The file after a call on it. `Stat` and `Sync` touch nothing. -/
def S3File.perform (f : S3File) : FileOp → Gw S3File
  | .read fuel n => do
    match ← f.read fuel n with
    | none => pure f
    | some (_, f) => pure f
  | .write p => pure (f.write p).2
  | .seek offset whence => pure (f.seek offset whence).2
  | .truncate => do
    let (_, f) ← f.truncate
    pure f
  | .readdir count => do
    let _ ← f.readdir count
    pure f
  | .stat | .sync => pure f
  | .close => pure f.close

/-- What a call on a writable file returns. -/
inductive Reply where
  | bytes (r : Except GoError Bytes)
  | count (r : Except GoError Nat)
  | unit (r : Except GoError Unit)
  | info (fi : FileInfo)

/-- A call on a writable file: what it returns and the file after it. -/
def S3WritableFile.call (f : S3WritableFile) : FileOp → Gw (Reply × S3WritableFile)
  | .read _ n => do
    let (r, f) ← f.read n
    pure (.bytes r, f)
  | .write p => do
    let (r, f) ← f.write p
    pure (.count r, f)
  | .seek offset whence => do
    let (r, f) ← f.seek offset whence
    pure (.count r, f)
  | .truncate => pure (.unit f.truncate.1, f.truncate.2)
  | .readdir _ => pure (.unit (.error (.text (gs "not a directory"))), f)
  | .stat => pure (.info f.info, f)
  | .sync => pure (.unit (.ok ()), f)
  | .close => do
    let (r, f) ← f.close
    pure (.unit r, f)

def File.perform (f : File) (op : FileOp) : Gw File :=
  match f with
  | .s3File f => do
    let f ← f.perform op
    pure (.s3File f)
  | .s3WritableFile f => do
    let (_, f) ← f.call op
    pure (.s3WritableFile f)

namespace Session

/-- A session of a gateway that has just been started. -/
def start (b : Bucket) : Session := { world := .start b, files := ∅, nextFd := 0 }

/-- Run a method whose result the run does not use. -/
def discard {α : Type} (s : Session) (p : Gw α) : Session :=
  { s with world := (p.run World.handle s.world).2 }

/-- One operation. -/
def step (s : Session) : Op → Session
  | .openFile path flags =>
    match (openFile path flags).run World.handle s.world with
    | (.ok f, w) => { world := w, files := s.files.insert s.nextFd f, nextFd := s.nextFd + 1 }
    | (.error _, w) => { s with world := w }
  | .file fd op =>
    match s.files.lookup fd with
    | none => s
    | some f =>
      let (f, w) := (f.perform op).run World.handle s.world
      { s with world := w, files := s.files.insert fd f }
  | .stat path => s.discard (stat path)
  | .chmod path mode => s.discard (chmod path mode)
  | .chown path uid gid => s.discard (chown path uid gid)
  | .setXattr path name value option => s.discard (setXattr path name value option)
  | .listXattrs path => s.discard (listXattrs path)
  | .removeXattr path name => s.discard (removeXattr path name)
  | .symlink target linkPath => s.discard (symlink target linkPath)
  | .readlink path => s.discard (readlink path)
  | .rename oldpath newpath => s.discard (rename oldpath newpath)
  | .remove path => s.discard (remove path)
  | .mkdirAll path => s.discard (mkdirAll path)
  | .copy srcPath dstPath => s.discard (copy srcPath dstPath)
  | .evictExpired =>
    { s with world := { s.world.begin with
        cache := s.world.cache.map (·.evictExpired s.world.begin.clock) } }

/-- The services after `OpenFile`, whatever becomes of the file. -/
theorem world_step_openFile (s : Session) (path : GoString) (flags : Nat) :
    (s.step (.openFile path flags)).world = ((openFile path flags).run World.handle s.world).2 := by
  simp only [step]
  split
  · next heq => rw [heq]
  · next heq => rw [heq]

end Session

end S3Gateway
