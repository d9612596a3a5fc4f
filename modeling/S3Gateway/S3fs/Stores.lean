import S3Gateway.S3fs.Steps
import S3Gateway.S3fs.Directories

/-!
# What one step stores

`Effect` says which cache entries a step invalidates; here is what it does to the
objects. On a reliable S3 an operation stores at most one object (`Puts`), or moves
one, or removes one (`Stores`). Where an operation has to store something, there is a
lemma for that as well: the first `Close` of a writable file and `MkdirAll` always do
(`stores_close`, `stores_mkdirAll`), and `Rename` and `Copy` do exactly if they return
nil (`stores_rename`, `stores_copy`).
-/

namespace S3Gateway

open Lib

/-- The path whose object an operation gives new metadata. -/
def Op.rewrites : Op → Option GoString
  | .chmod path _ | .chown path _ _ | .setXattr path _ _ _ | .removeXattr path _ => some path
  | _ => none

/-- The operation stores `o` under `key`. -/
inductive Puts (s : Session) : Op → GoString → Object → Prop where
  /-- `createPlaceholder`: the file is opened for writing and does not exist. -/
  | placeholder {path : GoString} {flags : Nat} {o : Object} (hflags : writableFlags flags = true)
      (hnone : s.world.bucket.get (s3KeyFromPath path) = none) :
      Puts s (.openFile path flags) (s3KeyFromPath path) o
  /-- The first `Close` of a writable file. -/
  | upload {fd : Nat} {f : S3WritableFile} {o : Object}
      (hfd : s.files.lookup fd = some (.s3WritableFile f)) (hopen : f.closed = false)
      (hdata : o.data = f.tmp.data) (hmeta : o.userMetadata = defaultMetadata) :
      Puts s (.file fd .close) f.s3Key o
  | metadata {op : Op} {path : GoString} {o o' : Object} (hop : op.rewrites = some path)
      (ho : s.world.bucket.get (objectKey s.world.bucket path) = some o)
      (hdata : o'.data = o.data) : Puts s op (objectKey s.world.bucket path) o'
  | link {target linkPath : GoString} {o : Object} (htarget : target ≠ [])
      (hlen : target.length ≤ 4080) (hnone : s.world.bucket.get (s3KeyFromPath linkPath) = none) :
      Puts s (.symlink target linkPath) (s3KeyFromPath linkPath) o
  | marker {path : GoString} {o : Object} (hmeta : o.userMetadata = ∅) :
      Puts s (.mkdirAll path) (s3DirKey (s3KeyFromPath path)) o
  | copy {srcPath dstPath : GoString} {o o' : Object}
      (ho : s.world.bucket.get (s3KeyFromPath srcPath) = some o)
      (hsame : o'.contents = o.contents) : Puts s (.copy srcPath dstPath) (s3KeyFromPath dstPath) o'

/-- The bucket after an operation on a session. -/
inductive Stores (s : Session) : Op → Bucket → Prop where
  | unchanged (op : Op) : Stores s op s.world.bucket
  | put {op : Op} {key : GoString} {o : Object} (hk : key ≠ []) (h : Puts s op key o) :
      Stores s op (s.world.bucket.put key o hk)
  | move {oldpath newpath : GoString} {o o' : Object}
      (ho : s.world.bucket.get (objectKey s.world.bucket oldpath) = some o)
      (hsame : o'.contents = o.contents) (hk : renameTarget s.world.bucket oldpath newpath ≠ []) :
      Stores s (.rename oldpath newpath)
        ((s.world.bucket.put (renameTarget s.world.bucket oldpath newpath) o' hk).remove
          (objectKey s.world.bucket oldpath))
  | remove {path : GoString} :
      Stores s (.remove path) (s.world.bucket.remove (objectKey s.world.bucket path))

theorem Object.contents_eq {o o' : Object} (hdata : o'.data = o.data)
    (hmeta : o'.userMetadata = o.userMetadata) : o'.contents = o.contents :=
  Prod.ext hdata hmeta

section Stores

variable {s : Session}

theorem Stores.of_eq {op : Op} {b : Bucket} (h : b = s.world.bucket) : Stores s op b :=
  h ▸ .unchanged op

/-- A method whose result the run does not use changes the bucket as its summary says. -/
theorem stores_discard (hs : s.Ok) {op : Op} {α : Type} {p : Gw α} {Q : α → World → Prop}
    (htriple : Prog.Triple World.handle (At s.world.clock s.world.bucket s.world.cache) p Q)
    (h : ∀ r w, Q r w → Stores s op w.bucket) : Stores s op (s.discard p).world.bucket :=
  h _ _ (htriple s.world hs.at)

theorem stores_rewritten {op : Op} {path : GoString} {w : World} (hop : op.rewrites = some path)
    (h : Rewritten s.world.clock s.world.cache s.world.bucket path w) : Stores s op w.bucket := by
  rcases h with h | ⟨o, o', ho, hdata, h⟩
  · exact .of_eq h.bucket_eq
  · rw [h.bucket_eq]
    exact .put _ (.metadata hop ho hdata)

theorem stores_openFile (hs : s.Ok) (path : GoString) (flags : Nat) :
    Stores s (.openFile path flags) (s.step (.openFile path flags)).world.bucket := by
  rw [s.world_step_openFile]
  rcases triple_openFile path flags s.world hs.at with ⟨h, -⟩ | ⟨hk, o, hflags, hnone, -, -, h, -⟩
  · exact .of_eq h.bucket_eq
  · rw [h.bucket_eq]
    exact .put hk (.placeholder hflags hnone)

/-- The first `Close` of a writable file uploads the temp file, with default metadata. -/
theorem stores_close (hs : s.Ok) {fd : Nat} {f : S3WritableFile}
    (hfd : s.files.lookup fd = some (.s3WritableFile f)) (hopen : f.closed = false) :
    ∃ hk o, o.data = f.tmp.data ∧ o.userMetadata = defaultMetadata ∧
      (s.step (.file fd .close)).world.bucket = s.world.bucket.put f.s3Key o hk := by
  have hf : (File.s3WritableFile f).Ok := hs.files fd _ hfd
  obtain ⟨-, hupd⟩ := triple_s3WritableFile_call hf .close s.world hs.at
  simp only [Session.step, hfd, File.perform, Prog.run_bind, Prog.run_pure]
  rcases hupd with ⟨hclosed, -⟩ | ⟨-, -, o, hdata, hmeta, hupd⟩
  · rw [hclosed rfl] at hopen
    cases hopen
  · exact ⟨hf.1, o, hdata, hmeta, hupd.bucket_eq⟩

theorem stores_file (hs : s.Ok) (fd : Nat) (op : FileOp) :
    Stores s (.file fd op) (s.step (.file fd op)).world.bucket := by
  simp only [Session.step]
  cases hfd : s.files.lookup fd with
  | none => exact .unchanged _
  | some f =>
    have hf := hs.files fd f hfd
    cases f with
    | s3File f =>
      obtain ⟨-, hupd⟩ := triple_s3File_perform hf op s.world hs.at
      simp only [File.perform, Prog.run_bind, Prog.run_pure]
      exact .of_eq hupd.bucket_eq
    | s3WritableFile f =>
      obtain ⟨-, hupd⟩ := triple_s3WritableFile_call hf op s.world hs.at
      simp only [File.perform, Prog.run_bind, Prog.run_pure]
      rcases hupd with ⟨-, hupd⟩ | ⟨rfl, hopen, o, hdata, hmeta, hupd⟩
      · exact .of_eq hupd.bucket_eq
      · rw [hupd.bucket_eq]
        exact .put hf.1 (.upload hfd hopen hdata hmeta)

/-- `MkdirAll` stores an empty marker without metadata, whatever was there. -/
theorem stores_mkdirAll (hs : s.Ok) {path : GoString} (hk : s3DirKey (s3KeyFromPath path) ≠ []) :
    ∃ o, o.data = [] ∧ o.userMetadata = ∅ ∧ (s.step (.mkdirAll path)).world.bucket
      = s.world.bucket.put (s3DirKey (s3KeyFromPath path)) o hk := by
  rcases triple_mkdirAll path s.world hs.at with ⟨hnil, -⟩ | ⟨_, o, hdata, hmeta, h⟩
  · exact absurd hnil hk
  · exact ⟨o, hdata, hmeta, h.bucket_eq⟩

/-- `Rename` moves the object if it returns nil, and it does if there is an object and
the new key is not the root's. -/
theorem stores_rename (hs : s.Ok) (oldpath newpath : GoString) :
    ((rename oldpath newpath).run World.handle s.world).1 ≠ .ok () ∧
        (s.world.bucket.get (objectKey s.world.bucket oldpath) = none ∨
          renameTarget s.world.bucket oldpath newpath = []) ∧
        (s.step (.rename oldpath newpath)).world.bucket = s.world.bucket ∨
      ((rename oldpath newpath).run World.handle s.world).1 = .ok () ∧
        ∃ hk o o', s.world.bucket.get (objectKey s.world.bucket oldpath) = some o ∧
          o'.contents = o.contents ∧ (s.step (.rename oldpath newpath)).world.bucket
            = (s.world.bucket.put (renameTarget s.world.bucket oldpath newpath) o' hk).remove
              (objectKey s.world.bucket oldpath) := by
  rcases triple_rename oldpath newpath s.world hs.at with
    ⟨herr, hwhy, h⟩ | ⟨hok, hk, o, o', ho, hdata, hmeta, h⟩
  · exact Or.inl ⟨herr, hwhy, h.bucket_eq⟩
  · exact Or.inr ⟨hok, hk, o, o', ho, Object.contents_eq hdata hmeta, h.bucket_eq⟩

/-- `Copy` stores what the source has if it returns nil. -/
theorem stores_copy (hs : s.Ok) (srcPath dstPath : GoString) :
    ((copy srcPath dstPath).run World.handle s.world).1 ≠ .ok () ∧
        (s.step (.copy srcPath dstPath)).world.bucket = s.world.bucket ∨
      ((copy srcPath dstPath).run World.handle s.world).1 = .ok () ∧
        ∃ hk o o', s.world.bucket.get (s3KeyFromPath srcPath) = some o ∧
          o'.contents = o.contents ∧ (s.step (.copy srcPath dstPath)).world.bucket
            = s.world.bucket.put (s3KeyFromPath dstPath) o' hk := by
  rcases triple_copy srcPath dstPath s.world hs.at with
    ⟨herr, h⟩ | ⟨hok, hk, o, o', ho, hdata, hmeta, h⟩
  · exact Or.inl ⟨herr, h.bucket_eq⟩
  · exact Or.inr ⟨hok, hk, o, o', ho, Object.contents_eq hdata hmeta, h.bucket_eq⟩

theorem step_stores (hs : s.Ok) (op : Op) : Stores s op (s.step op).world.bucket := by
  cases op with
  | openFile path flags => exact stores_openFile hs path flags
  | file fd op => exact stores_file hs fd op
  | stat path =>
    exact stores_discard hs ((upd_stat path).pre fun _ h => At.upd h)
      fun _ _ h => .of_eq h.bucket_eq
  | chmod path mode =>
    exact stores_discard hs (rewritten_chmod path mode) fun _ _ h => stores_rewritten rfl h
  | chown path uid gid =>
    exact stores_discard hs (rewritten_chown path uid gid) fun _ _ h => stores_rewritten rfl h
  | setXattr path name value option =>
    exact stores_discard hs (rewritten_setXattr path name value option)
      fun _ _ h => stores_rewritten rfl h
  | listXattrs path =>
    exact stores_discard hs (triple_listXattrs path) fun _ _ h => .of_eq h.bucket_eq
  | removeXattr path name =>
    exact stores_discard hs (rewritten_removeXattr path name) fun _ _ h => stores_rewritten rfl h
  | symlink target linkPath =>
    refine stores_discard hs (triple_symlink target linkPath) ?_
    rintro _ w (h | ⟨hk, o, htarget, hlen, hnone, -, -, h⟩)
    · exact .of_eq h.bucket_eq
    · rw [h.bucket_eq]
      exact .put hk (.link htarget hlen hnone)
  | readlink path => exact stores_discard hs (triple_readlink path) fun _ _ h => .of_eq h.bucket_eq
  | rename oldpath newpath =>
    rcases stores_rename hs oldpath newpath with ⟨-, -, h⟩ | ⟨-, hk, o, o', ho, hsame, h⟩
    · exact .of_eq h
    · rw [h]
      exact .move ho hsame hk
  | remove path =>
    refine stores_discard hs (triple_remove path) ?_
    rintro _ w (h | h)
    · exact .of_eq h.bucket_eq
    · rw [h.bucket_eq]
      exact .remove
  | mkdirAll path =>
    by_cases hk : s3DirKey (s3KeyFromPath path) = []
    · refine stores_discard hs (triple_mkdirAll path) ?_
      rintro _ w (⟨-, h⟩ | ⟨hne, -⟩)
      · exact .of_eq h.bucket_eq
      · exact absurd hk hne
    · obtain ⟨o, -, hmeta, h⟩ := stores_mkdirAll hs hk
      rw [h]
      exact .put hk (.marker hmeta)
  | copy srcPath dstPath =>
    rcases stores_copy hs srcPath dstPath with ⟨-, h⟩ | ⟨-, hk, o, o', ho, hsame, h⟩
    · exact .of_eq h
    · rw [h]
      exact .put hk (.copy ho hsame)
  | evictExpired => exact .unchanged _

/-- A session stays in order. -/
theorem Session.Ok.step (hs : s.Ok) (op : Op) : (s.step op).Ok := by
  obtain ⟨ks, -, heff⟩ := Session.step_effect hs op
  exact heff.ok

theorem Session.Ok.run (hs : s.Ok) (ops : List Op) : (ops.foldl Session.step s).Ok := by
  induction ops generalizing s with
  | nil => exact hs
  | cons op ops ih => exact ih (hs.step op)

theorem Session.ok_start (b : Bucket) : (Session.start b).Ok :=
  ⟨fun _ => rfl, fun _ _ h => nomatch h⟩

end Stores

end S3Gateway
