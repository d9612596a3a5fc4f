import S3Gateway.S3fs.Summary

/-!
# What one step of a run does

The summaries of the methods, put together: whatever operation a run performs
next, it either leaves the bucket alone and at most learns facts about it, or it
changes objects and then invalidates the keys `Op.invalidates`. `Effect` is that
statement; it is all the statements about runs need to know of an operation.
-/

namespace S3Gateway

open Lib

/-- The key an object is renamed to: the new path's key, or its directory key
when the old path is a directory marker. -/
def renameTarget (b : Bucket) (oldpath newpath : GoString) : GoString :=
  if (b.get (s3KeyFromPath oldpath)).isSome then s3KeyFromPath newpath
  else s3DirKey (s3KeyFromPath newpath)

/-- The keys whose cache entries the operation invalidates if it changes
objects, in order. Invalidating a key drops the key's entry and the listing of
the key's parent. -/
def Op.invalidates (s : Session) : Op → List GoString
  | .openFile path _ => [parentPrefix (s3KeyFromPath path)]
  | .symlink _ linkPath => [parentPrefix (s3KeyFromPath linkPath)]
  | .file fd .close =>
    match s.files.lookup fd with
    | some (.s3WritableFile f) => [f.s3Key, parentPrefix f.s3Key]
    | _ => []
  | .chmod path _ | .chown path _ _ | .setXattr path _ _ _ | .removeXattr path _ =>
    [objectKey s.world.bucket path]
  | .rename oldpath newpath =>
    let oldKey := objectKey s.world.bucket oldpath
    let newKey := renameTarget s.world.bucket oldpath newpath
    [oldKey, newKey, parentPrefix oldKey, parentPrefix newKey]
  | .remove path =>
    let key := objectKey s.world.bucket path
    [key, parentPrefix key]
  | .mkdirAll path =>
    match ((S3Gateway.mkdirAll path).run World.handle s.world).1 with
    | .ok _ => [s3DirKey (s3KeyFromPath path), s3KeyFromPath path,
        parentPrefix (s3DirKey (s3KeyFromPath path))]
    | .error _ => [] -- the inode could not be allocated
  | .copy _ dstPath => [s3KeyFromPath dstPath, parentPrefix (s3KeyFromPath dstPath)]
  | _ => []

/-- What is true of every file `OpenFile` returns: no `s3File` is writable, and
a writable file is on a proper file key. -/
def File.Ok : File → Prop
  | .s3File f => f.writable = false
  | .s3WritableFile f => f.s3Key ≠ [] ∧ hasSuffixSlash f.s3Key = false ∧ Tidy f.s3Key

/-- S3 is reliable and the open files are in order. -/
structure Session.Ok (s : Session) : Prop where
  noFaults : s.world.NoFaults
  files : ∀ fd f, s.files.lookup fd = some f → f.Ok

/-- From bucket `b` to `b'`: objects outside `ks` whose key is no directory key
are untouched, and a key is only added if it has no empty component. -/
structure Framed (b b' : Bucket) (ks : List GoString) : Prop where
  objects : ∀ key o, hasSuffixSlash key = false → key ∉ ks → b.get key = some o →
    b'.get key = some o
  keys : ∀ key ∈ b'.keys, key ∈ b.keys ∨ Tidy key

theorem Framed.refl (b : Bucket) : Framed b b [] :=
  ⟨fun _ _ _ _ h => h, fun _ h => Or.inl h⟩

/-- Storing an object. -/
theorem Framed.put {b : Bucket} {key : GoString} {ks : List GoString} (o : Object) (hk : key ≠ [])
    (ht : Tidy key) (hmem : key ∈ ks ∨ b.get key = none ∨ hasSuffixSlash key = true) :
    Framed b (b.put key o hk) ks := by
  refine ⟨fun key' o' hs hnot ho' => ?_, fun key' hmem' => ?_⟩
  · rw [Bucket.get_put, if_neg, ho']
    rintro rfl
    rcases hmem with h | h | h
    · exact hnot h
    · rw [h] at ho'
      cases ho'
    · rw [h] at hs
      cases hs
  · obtain ⟨o', ho'⟩ := Bucket.mem_keys.mp hmem'
    rw [Bucket.get_put] at ho'
    split at ho'
    · next heq => exact Or.inr (heq ▸ ht)
    · exact Or.inl (Bucket.mem_keys.mpr ⟨o', ho'⟩)

/-- Dropping an object. -/
theorem Framed.remove {b b' : Bucket} {key : GoString} {ks : List GoString} (h : Framed b b' ks)
    (hmem : key ∈ ks) : Framed b (b'.remove key) ks := by
  refine ⟨fun key' o' hs hnot ho' => ?_, fun key' hmem' => ?_⟩
  · rw [Bucket.get_remove, if_neg, h.objects key' o' hs hnot ho']
    rintro rfl
    exact hnot hmem
  · obtain ⟨o', ho'⟩ := Bucket.mem_keys.mp hmem'
    rw [Bucket.get_remove] at ho'
    split at ho'
    · cases ho'
    · exact h.keys key' (Bucket.mem_keys.mpr ⟨o', ho'⟩)

/-! ## Calls on open files -/

section Files

variable {t : Time} {c : Option MetadataCache} {b : Bucket} {ks : List GoString}

theorem triple_fetchFromS3 (r : ChunkReader) (off length : Int) :
    Prog.Triple World.handle (At t b c) (r.fetchFromS3 off length) fun _ => At t b c := by
  refine Prog.triple_bind (triple_getObjectRange _ _ _) fun res => ?_
  cases res with
  | error err => exact Prog.triple_pure fun _ h => h
  | ok body =>
    dsimp only
    split
    all_goals first
      | exact Prog.triple_pure fun _ h => h
      | split
        · exact Prog.triple_bind (triple_dataPut _ _ _) fun _ => Prog.triple_pure fun _ h => h
        · exact Prog.triple_pure fun _ h => h

theorem triple_fetchWith (r : ChunkReader) (off length : Int) (cached : Option Bytes) :
    Prog.Triple World.handle (At t b c) (r.fetchWith off length cached) fun _ => At t b c := by
  cases cached with
  | none => exact triple_fetchFromS3 r off length
  | some content =>
    simp only [ChunkReader.fetchWith]
    split
    · exact Prog.triple_pure fun _ h => h
    · exact triple_fetchFromS3 r off length

theorem triple_fetchChunk (r : ChunkReader) (off : Int) :
    Prog.Triple World.handle (At t b c) (r.fetchChunk off) fun _ => At t b c := by
  unfold ChunkReader.fetchChunk
  dsimp only
  split
  · exact Prog.triple_pure fun _ h => h
  · split
    · exact Prog.triple_bind (triple_dataGet _ _) fun _ => triple_fetchWith r off _ _
    · exact triple_fetchWith r off _ _

theorem triple_readLoop (n fuel : Nat) (r : ChunkReader) (off : Int) (data : Bytes) :
    Prog.Triple World.handle (At t b c) (ChunkReader.readLoop n fuel r off data)
      fun _ => At t b c := by
  induction fuel generalizing r off data with
  | zero => exact Prog.triple_pure fun _ h => h
  | succ fuel ih =>
    unfold ChunkReader.readLoop
    split
    · dsimp only
      split
      · exact ih _ _ _
      · refine Prog.triple_bind (triple_fetchChunk r off) fun res => ?_
        obtain ⟨res, r'⟩ := res
        cases res with
        | error err => exact Prog.triple_pure fun _ h => h
        | ok _ => exact ih _ _ _
    · exact Prog.triple_pure fun _ h => h

theorem triple_s3File_read (fuel : Nat) (f : S3File) (n : Nat) :
    Prog.Triple World.handle (At t b c) (f.read fuel n)
      fun res w => (∀ x f', res = some (x, f') → f'.writable = f.writable) ∧ At t b c w := by
  unfold S3File.read
  split
  · refine Prog.triple_pure fun _ h => ⟨fun x f' hx => ?_, h⟩
    cases hx
    rfl
  · split
    · refine Prog.triple_pure fun _ h => ⟨fun x f' hx => ?_, h⟩
      cases hx
      rfl
    · have hread : Prog.Triple World.handle (At t b c) (f.reader.readAt fuel n f.offset)
          fun _ => At t b c := by
        unfold ChunkReader.readAt
        split
        · exact Prog.triple_pure fun _ h => h
        · exact Prog.triple_bind (triple_readLoop _ _ _ _ _) fun _ => Prog.triple_pure fun _ h => h
      refine Prog.triple_bind hread fun res => ?_
      rcases res with _ | ⟨res, r⟩
      · refine Prog.triple_pure fun _ h => ⟨fun x f' hx => ?_, h⟩
        cases hx
      · refine Prog.triple_pure fun _ h => ⟨fun x f' hx => ?_, h⟩
        cases hx
        rfl

theorem s3File_seek_writable (f : S3File) (offset : Int64) (whence : Int) :
    (f.seek offset whence).2.writable = f.writable := by
  unfold S3File.seek
  split
  · rfl
  · split
    · rfl
    · split
      · split
        · split <;> rfl
        · rfl
      · rfl

/-- Calls on an `s3File` leave the bucket alone. -/
theorem triple_s3File_perform {f : S3File} (hf : f.writable = false) (op : FileOp) :
    Prog.Triple World.handle (At t b c) (f.perform op)
      fun f' w => f'.writable = false ∧ Upd t c b [] w := by
  cases op with
  | read fuel n =>
    refine (triple_s3File_read fuel f n).step fun res hres => ?_
    rcases res with _ | ⟨x, f'⟩
    · exact Prog.triple_pure fun _ h => ⟨hf, h.upd⟩
    · exact Prog.triple_pure fun _ h => ⟨(hres x f' rfl).trans hf, h.upd⟩
  | write p => exact Prog.triple_pure fun _ h => ⟨hf, h.upd⟩
  | seek offset whence =>
    exact Prog.triple_pure fun _ h => ⟨(s3File_seek_writable f offset whence).trans hf, h.upd⟩
  | truncate =>
    -- no file `OpenFile` returns is writable
    have htr : ∃ err, f.truncate = pure (.error err, f) := by
      unfold S3File.truncate
      cases f.closed with
      | true => exact ⟨_, rfl⟩
      | false =>
        rw [hf]
        exact ⟨_, rfl⟩
    obtain ⟨err, htr⟩ := htr
    unfold S3File.perform
    rw [htr]
    exact Prog.triple_pure fun _ h => ⟨hf, h.upd⟩
  | readdir count =>
    refine Prog.triple_bind (Prog.Triple.pre (upd_readdir f count) fun _ h => At.upd h) fun _ => ?_
    exact Prog.triple_pure fun _ h => ⟨hf, h⟩
  | stat => exact Prog.triple_pure fun _ h => ⟨hf, h.upd⟩
  | sync => exact Prog.triple_pure fun _ h => ⟨hf, h.upd⟩
  | close =>
    refine Prog.triple_pure fun _ h => ⟨?_, h.upd⟩
    unfold S3File.close
    split <;> exact hf

/-- A method that works on the temp file stays on its key, and what a download keeps it
keeps. -/
theorem triple_onTmp {A : World → Prop}
    (hA : ∀ key, Prog.Triple World.handle A (Prog.call (.getObject key)) fun _ => A) {α : Type}
    (f : S3WritableFile) (act : ByteFile UInt8 → Except GoError α × ByteFile UInt8) :
    Prog.Triple World.handle A (f.onTmp act) fun r w => r.2.s3Key = f.s3Key ∧ A w := by
  have hdown : Prog.Triple World.handle A f.ensureDownloaded
      fun r w => r.2.s3Key = f.s3Key ∧ A w := by
    unfold S3WritableFile.ensureDownloaded
    split
    · exact Prog.triple_pure fun _ h => ⟨rfl, h⟩
    · refine Prog.triple_bind (hA _) fun r => ?_
      cases r with
      | error err => exact Prog.triple_pure fun _ h => ⟨rfl, h⟩
      | ok body =>
        dsimp only
        split <;> exact Prog.triple_pure fun _ h => ⟨rfl, h⟩
  unfold S3WritableFile.onTmp
  split
  · exact Prog.triple_pure fun _ h => ⟨rfl, h⟩
  · refine hdown.step fun r hr => ?_
    obtain ⟨r, f'⟩ := r
    cases r <;> exact Prog.triple_pure fun _ h => ⟨hr, h⟩

/-- Calls on a writable file leave the bucket alone, except that the first `Close`
uploads the temp file. -/
theorem triple_s3WritableFile_call {f : S3WritableFile} (hf : (File.s3WritableFile f).Ok)
    (op : FileOp) :
    Prog.Triple World.handle (At t b c) (f.call op) fun r w => r.2.s3Key = f.s3Key ∧
      ((op = .close → f.closed = true) ∧ Upd t c b [] w ∨ op = .close ∧ f.closed = false ∧
        ∃ o, o.data = f.tmp.data ∧ o.userMetadata = defaultMetadata ∧
          Upd t c (b.put f.s3Key o hf.1) [f.s3Key, parentPrefix f.s3Key] w) := by
  have htmp : ∀ {α : Type} (act : ByteFile UInt8 → Except GoError α × ByteFile UInt8)
      (reply : Except GoError α → Reply), op ≠ .close →
      Prog.Triple World.handle (At t b c) (do let (r, f) ← f.onTmp act; pure (reply r, f))
        fun r w => r.2.s3Key = f.s3Key ∧
          ((op = .close → f.closed = true) ∧ Upd t c b [] w ∨ op = .close ∧ f.closed = false ∧
            ∃ o, o.data = f.tmp.data ∧ o.userMetadata = defaultMetadata ∧
              Upd t c (b.put f.s3Key o hf.1) [f.s3Key, parentPrefix f.s3Key] w) := by
    intro α act reply hop
    refine (triple_onTmp triple_getObject f act).step fun r hr => ?_
    exact Prog.triple_pure fun _ h => ⟨hr, Or.inl ⟨fun h => absurd h hop, h.upd⟩⟩
  cases op with
  | read fuel n => exact htmp _ _ nofun
  | write p => exact htmp _ _ nofun
  | seek offset whence => exact htmp _ _ nofun
  | truncate =>
    refine Prog.triple_pure fun _ h => ⟨?_, Or.inl ⟨nofun, h.upd⟩⟩
    unfold S3WritableFile.truncate
    split <;> rfl
  | readdir count => exact Prog.triple_pure fun _ h => ⟨rfl, Or.inl ⟨nofun, h.upd⟩⟩
  | stat => exact Prog.triple_pure fun _ h => ⟨rfl, Or.inl ⟨nofun, h.upd⟩⟩
  | sync => exact Prog.triple_pure fun _ h => ⟨rfl, Or.inl ⟨nofun, h.upd⟩⟩
  | close =>
    by_cases hc : f.closed = true
    · have hclose : f.close = pure (.ok (), f) := by
        rw [S3WritableFile.close, if_pos hc]
      unfold S3WritableFile.call
      rw [hclose]
      exact Prog.triple_pure fun _ h => ⟨rfl, Or.inl ⟨fun _ => hc, h.upd⟩⟩
    · have hc : f.closed = false := by simpa using hc
      refine (triple_close hf.1 hf.2.1 hc).step fun r hr => ?_
      subst hr
      exact Prog.triple_pure fun _ h => ⟨rfl, Or.inr ⟨rfl, hc, h⟩⟩

end Files

/-! ## Operations -/

theorem tidy_objectKey (b : Bucket) (path : GoString) : Tidy (objectKey b path) := by
  unfold objectKey
  split
  · exact tidy_s3KeyFromPath path
  · exact tidy_s3DirKey path

/-- What a step does to services and files: the keys `ks` were invalidated. -/
structure Effect (s s' : Session) (ks : List GoString) : Prop where
  ok : s'.Ok
  clock : s.world.clock ≤ s'.world.clock
  cache : Option.Rel (Update s'.world.bucket ks) s.world.cache s'.world.cache
  framed : Framed s.world.bucket s'.world.bucket ks

/-- After a method: the bucket is as before, or objects have changed and `ks` were
invalidated. -/
def Done (t : Time) (c : Option MetadataCache) (b : Bucket) (ks : List GoString) (w : World) :
    Prop :=
  Upd t c b [] w ∨ ∃ b', Framed b b' ks ∧ Upd t c b' ks w

section Methods

variable {t : Time} {c : Option MetadataCache} {b : Bucket}

/-- After `Chmod`, `Chown` and the xattr methods: the bucket is as before, or the
object the path names has new metadata and was invalidated. -/
def Rewritten (t : Time) (c : Option MetadataCache) (b : Bucket) (path : GoString) (w : World) :
    Prop :=
  Upd t c b [] w ∨ ∃ o o', ∃ ho : b.get (objectKey b path) = some o, o'.data = o.data ∧
    Upd t c (b.put (objectKey b path) o' (Bucket.ne_nil_of_get ho)) [objectKey b path] w

theorem Rewritten.done {path : GoString} {w : World} (h : Rewritten t c b path w) :
    Done t c b [objectKey b path] w := by
  rcases h with h | ⟨o, o', ho, -, h⟩
  · exact Or.inl h
  · exact Or.inr ⟨_, Framed.put o' _ (tidy_objectKey b path) (Or.inl List.mem_cons_self), h⟩

/-- Look the object up, then replace its metadata or fail. -/
theorem Rewritten.headPath {path : GoString}
    {k : Option (GoString × ObjectInfo) → Gw (Except GoError Unit)}
    (hnone : ∃ err, k none = pure (.error err))
    (hsome : ∀ key info, (∃ err, k (some (key, info)) = pure (.error err)) ∨
      ∃ what userMeta, k (some (key, info)) = replaceMetadata what key userMeta) :
    Prog.Triple World.handle (At t b c) (headPath path >>= k) fun _ => Rewritten t c b path := by
  refine (triple_headPath path).step fun r hr => ?_
  cases hhead : b.headObject (objectKey b path) with
  | error _ =>
    rw [hhead] at hr
    subst hr
    obtain ⟨err, herr⟩ := hnone
    exact herr ▸ Prog.triple_pure fun _ h => Or.inl h.upd
  | ok info =>
    rw [hhead] at hr
    subst hr
    obtain ⟨o, ho, -⟩ := Bucket.headObject_ok hhead
    rcases hsome (objectKey b path) info with ⟨err, herr⟩ | ⟨what, userMeta, hrep⟩
    · exact herr ▸ Prog.triple_pure fun _ h => Or.inl h.upd
    · refine hrep ▸ (triple_replaceMetadata what _ userMeta ho).post ?_
      rintro _ w ⟨-, o', hdata, -, hw⟩
      exact Or.inr ⟨o, o', ho, hdata, hw⟩

theorem rewritten_chmod (path : GoString) (mode : FileMode) :
    Prog.Triple World.handle (At t b c) (chmod path mode) fun _ => Rewritten t c b path :=
  Rewritten.headPath ⟨_, rfl⟩ fun _ _ => Or.inr ⟨_, _, rfl⟩

theorem rewritten_chown (path : GoString) (uid gid : Int) :
    Prog.Triple World.handle (At t b c) (chown path uid gid) fun _ => Rewritten t c b path :=
  Rewritten.headPath ⟨_, rfl⟩ fun _ _ => Or.inr ⟨_, _, rfl⟩

theorem rewritten_setXattr (path name value : GoString) (option : UInt32) :
    Prog.Triple World.handle (At t b c) (setXattr path name value option)
      fun _ => Rewritten t c b path := by
  unfold setXattr
  split
  · exact Prog.triple_pure fun _ h => Or.inl h.upd
  · split
    · exact Prog.triple_pure fun _ h => Or.inl h.upd
    · refine Rewritten.headPath ⟨_, rfl⟩ fun key info => ?_
      dsimp only
      split
      · exact Or.inl ⟨_, rfl⟩
      · split
        · exact Or.inl ⟨_, rfl⟩
        · exact Or.inr ⟨_, _, rfl⟩

theorem rewritten_removeXattr (path name : GoString) :
    Prog.Triple World.handle (At t b c) (removeXattr path name) fun _ => Rewritten t c b path := by
  unfold removeXattr
  split
  · exact Prog.triple_pure fun _ h => Or.inl h.upd
  · refine Rewritten.headPath ⟨_, rfl⟩ fun key info => ?_
    dsimp only
    split
    · exact Or.inl ⟨_, rfl⟩
    · exact Or.inr ⟨_, _, rfl⟩

theorem triple_listXattrs (path : GoString) :
    Prog.Triple World.handle (At t b c) (listXattrs path) fun _ => Upd t c b [] := by
  refine Prog.triple_bind ((triple_headPath path).post fun _ _ h => h.2) fun r => ?_
  rcases r with _ | ⟨key, info⟩ <;> exact Prog.triple_pure fun _ h => h.upd

theorem triple_readlink (path : GoString) :
    Prog.Triple World.handle (At t b c) (readlink path) fun _ => Upd t c b [] := by
  refine Prog.triple_bind ((triple_headObject _).post fun _ _ h => h.2) fun r => ?_
  cases r with
  | error _ => exact Prog.triple_pure fun _ h => h.upd
  | ok info =>
    dsimp only
    split <;> exact Prog.triple_pure fun _ h => h.upd

theorem done_symlink (target linkPath : GoString) :
    Prog.Triple World.handle (At t b c) (symlink target linkPath)
      fun _ => Done t c b [parentPrefix (s3KeyFromPath linkPath)] := by
  refine (triple_symlink target linkPath).post ?_
  rintro _ w (h | ⟨hk, o, -, -, hnone, -, -, h⟩)
  · exact Or.inl h
  · exact Or.inr ⟨_, Framed.put o hk (tidy_s3KeyFromPath linkPath) (Or.inr (Or.inl hnone)), h⟩

theorem done_copy (srcPath dstPath : GoString) :
    Prog.Triple World.handle (At t b c) (copy srcPath dstPath)
      fun _ => Done t c b [s3KeyFromPath dstPath, parentPrefix (s3KeyFromPath dstPath)] := by
  refine (triple_copy srcPath dstPath).post ?_
  rintro _ w (⟨-, h⟩ | ⟨-, hk, o, o', -, -, -, h⟩)
  · exact Or.inl h
  · exact Or.inr ⟨_, Framed.put o' hk (tidy_s3KeyFromPath dstPath) (Or.inl List.mem_cons_self), h⟩

theorem done_mkdirAll (path : GoString) :
    Prog.Triple World.handle (At t b c) (mkdirAll path) fun r => Done t c b
      (match r with
      | .ok _ => [s3DirKey (s3KeyFromPath path), s3KeyFromPath path,
          parentPrefix (s3DirKey (s3KeyFromPath path))]
      | .error _ => []) := by
  refine (triple_mkdirAll path).post ?_
  rintro r w (⟨-, h⟩ | ⟨hk, o, -, -, h⟩)
  · exact Or.inl h
  · have hne : s3KeyFromPath path ≠ [] := by
      intro h0
      rw [h0] at hk
      exact hk rfl
    exact Or.inr ⟨_, Framed.put o hk (tidy_s3DirKey path)
      (Or.inr (Or.inr (hasSuffixSlash_s3DirKey hne))), h⟩

/-- `Remove`: nothing, or the object the path names is gone. -/
theorem triple_remove (path : GoString) :
    Prog.Triple World.handle (At t b c) (remove path) fun _ w => Upd t c b [] w ∨
      Upd t c (b.remove (objectKey b path)) [objectKey b path, parentPrefix (objectKey b path)]
        w := by
  refine (triple_headObject _).step fun r hr => ?_
  cases r with
  | ok info =>
    obtain ⟨o, ho, -⟩ := Bucket.headObject_ok hr.symm
    rw [objectKey_of_ok hr.symm]
    exact (triple_removeObject _ (Bucket.ne_nil_of_get ho)).post fun _ _ h => Or.inr h.2
  | error _ =>
    rw [objectKey_of_error hr.symm]
    refine (triple_headObject _).step fun r hr' => ?_
    cases r with
    | ok info =>
      obtain ⟨o, ho, -⟩ := Bucket.headObject_ok hr'.symm
      exact (triple_removeObject _ (Bucket.ne_nil_of_get ho)).post fun _ _ h => Or.inr h.2
    | error _ => exact Prog.triple_pure fun _ h => Or.inl h.upd

theorem done_remove (path : GoString) :
    Prog.Triple World.handle (At t b c) (remove path)
      fun _ => Done t c b [objectKey b path, parentPrefix (objectKey b path)] := by
  refine (triple_remove path).post ?_
  rintro _ w (h | h)
  · exact Or.inl h
  · exact Or.inr ⟨_, Framed.remove ⟨fun _ _ _ _ h => h, fun _ h => Or.inl h⟩ List.mem_cons_self, h⟩

/-- The bucket is as before, or the object at `src` moved to `dst`. -/
def Moved (t : Time) (c : Option MetadataCache) (b : Bucket) (src dst : GoString) (w : World) :
    Prop :=
  Upd t c b [] w ∨ ∃ hk o o', b.get src = some o ∧ o'.data = o.data ∧
    Upd t c ((b.put dst o' hk).remove src) [src, dst, parentPrefix src, parentPrefix dst] w

/-- `Rename` moves the object the old path names, unless there is none or the new key
is the root's. -/
theorem triple_rename (oldpath newpath : GoString) :
    Prog.Triple World.handle (At t b c) (rename oldpath newpath) fun r w =>
      r ≠ .ok () ∧
        (b.get (objectKey b oldpath) = none ∨ renameTarget b oldpath newpath = []) ∧
        Upd t c b [] w ∨
      r = .ok () ∧ ∃ hk o o', b.get (objectKey b oldpath) = some o ∧ o'.data = o.data ∧
        o'.userMetadata = o.userMetadata ∧
        Upd t c ((b.put (renameTarget b oldpath newpath) o' hk).remove (objectKey b oldpath))
          [objectKey b oldpath, renameTarget b oldpath newpath,
            parentPrefix (objectKey b oldpath),
            parentPrefix (renameTarget b oldpath newpath)] w := by
  refine (triple_headObject _).step fun r hr => ?_
  cases r with
  | ok info =>
    obtain ⟨o, ho, -⟩ := Bucket.headObject_ok hr.symm
    have hnew : renameTarget b oldpath newpath = s3KeyFromPath newpath := by
      rw [renameTarget, ho]
      rfl
    rw [objectKey_of_ok hr.symm, hnew]
    refine (triple_renameObject _ _ _ ho).post ?_
    rintro r w (⟨herr, hnil, h⟩ | ⟨hok, hk, o', hdata, hmeta, h⟩)
    · exact Or.inl ⟨herr, Or.inr hnil, h⟩
    · exact Or.inr ⟨hok, hk, o, o', ho, hdata, hmeta, h⟩
  | error _ =>
    have hnew : renameTarget b oldpath newpath = s3DirKey (s3KeyFromPath newpath) := by
      rw [renameTarget, Bucket.headObject_error hr.symm]
      rfl
    rw [objectKey_of_error hr.symm, hnew]
    refine (triple_headObject _).step fun r hr' => ?_
    cases r with
    | ok info =>
      obtain ⟨o, ho, -⟩ := Bucket.headObject_ok hr'.symm
      refine (triple_renameObject _ _ _ ho).post ?_
      rintro r w (⟨herr, hnil, h⟩ | ⟨hok, hk, o', hdata, hmeta, h⟩)
      · exact Or.inl ⟨herr, Or.inr hnil, h⟩
      · exact Or.inr ⟨hok, hk, o, o', ho, hdata, hmeta, h⟩
    | error _ =>
      exact Prog.triple_pure fun _ h =>
        Or.inl ⟨nofun, Or.inl (Bucket.headObject_error hr'.symm), h.upd⟩

theorem moved_rename (oldpath newpath : GoString) :
    Prog.Triple World.handle (At t b c) (rename oldpath newpath)
      fun _ => Moved t c b (objectKey b oldpath) (renameTarget b oldpath newpath) := by
  refine (triple_rename oldpath newpath).post ?_
  rintro r w (⟨-, -, h⟩ | ⟨-, hk, o, o', ho, hdata, -, h⟩)
  · exact Or.inl h
  · exact Or.inr ⟨hk, o, o', ho, hdata, h⟩

theorem tidy_renameTarget (b : Bucket) (oldpath newpath : GoString) :
    Tidy (renameTarget b oldpath newpath) := by
  unfold renameTarget
  split
  · exact tidy_s3KeyFromPath newpath
  · exact tidy_s3DirKey newpath

theorem done_rename (oldpath newpath : GoString) :
    Prog.Triple World.handle (At t b c) (rename oldpath newpath) fun _ => Done t c b
      [objectKey b oldpath, renameTarget b oldpath newpath, parentPrefix (objectKey b oldpath),
        parentPrefix (renameTarget b oldpath newpath)] := by
  refine (moved_rename oldpath newpath).post ?_
  rintro _ w (h | ⟨hk, o, o', -, -, h⟩)
  · exact Or.inl h
  · exact Or.inr ⟨_, (Framed.put o' hk (tidy_renameTarget b oldpath newpath)
      (Or.inl (by simp))).remove (by simp), h⟩

end Methods

/-! ## Steps -/

theorem Opened.ok {b b' : Bucket} {path : GoString} {f : File} (h : Opened b path b' f) : f.Ok := by
  cases h with
  | root info => rfl
  | readOnly ho hsize => rfl
  | writable info ho =>
    exact ⟨Bucket.ne_nil_of_get ho, hasSuffixSlash_s3KeyFromPath path, tidy_s3KeyFromPath path⟩
  | created info hk hnone ho =>
    exact ⟨hk, hasSuffixSlash_s3KeyFromPath path, tidy_s3KeyFromPath path⟩
  | directory info hk => rfl

namespace Session

/-- The assertion a step starts from. -/
theorem Ok.at {s : Session} (hs : s.Ok) :
    At s.world.clock s.world.bucket s.world.cache s.world :=
  ⟨hs.noFaults, rfl, rfl, Int.le_refl _⟩

/-- A step has an effect in which the keys `ks` were invalidated, unless the
bucket is unchanged and none were. -/
def HasEffect (s s' : Session) (ks : List GoString) : Prop :=
  ∃ ks', (ks' = [] ∧ s'.world.bucket = s.world.bucket ∨ ks' = ks) ∧ Effect s s' ks'

theorem hasEffect_of_done {s : Session} {w : World} {files : GoMap Nat File} {nextFd : Nat}
    {ks : List GoString} (hfiles : ∀ fd f, files.lookup fd = some f → f.Ok)
    (h : Done s.world.clock s.world.cache s.world.bucket ks w) :
    HasEffect s ⟨w, files, nextFd⟩ ks := by
  rcases h with ⟨c', hc, hw⟩ | ⟨b', hb, c', hc, hw⟩
  · refine ⟨[], Or.inl ⟨rfl, hw.bucket⟩, ⟨hw.noFaults, hfiles⟩, hw.clock, ?_, ?_⟩
    · show Option.Rel (Update w.bucket []) _ w.cache
      rw [hw.bucket, hw.cache]
      exact hc
    · show Framed _ w.bucket []
      rw [hw.bucket]
      exact Framed.refl _
  · refine ⟨ks, Or.inr rfl, ⟨hw.noFaults, hfiles⟩, hw.clock, ?_, ?_⟩
    · show Option.Rel (Update w.bucket ks) _ w.cache
      rw [hw.bucket, hw.cache]
      exact hc
    · show Framed _ w.bucket ks
      rw [hw.bucket]
      exact hb

theorem hasEffect_discard {s : Session} (hs : s.Ok) {α : Type} {p : Gw α} {ks : α → List GoString}
    (h : Prog.Triple World.handle (At s.world.clock s.world.bucket s.world.cache) p
      fun r => Done s.world.clock s.world.cache s.world.bucket (ks r)) :
    HasEffect s (s.discard p) (ks (p.run World.handle s.world).1) :=
  hasEffect_of_done hs.files (h s.world hs.at)

/-- A method that leaves the bucket alone. -/
theorem hasEffect_unchanged {s : Session} (hs : s.Ok) {α : Type} {p : Gw α}
    (h : Prog.Triple World.handle (At s.world.clock s.world.bucket s.world.cache) p
      fun _ => Upd s.world.clock s.world.cache s.world.bucket []) : HasEffect s (s.discard p) [] :=
  hasEffect_of_done hs.files (Or.inl (h s.world hs.at))

/-- The table of open files after `fd` was set. -/
theorem ok_of_lookup_insert {files : GoMap Nat File} (h : ∀ fd f, files.lookup fd = some f → f.Ok)
    {fd : Nat} {f : File} (hf : f.Ok) :
    ∀ fd' f', (files.insert fd f).lookup fd' = some f' → f'.Ok := by
  intro fd' f' hl
  rw [GoMap.lookup_insert_ite] at hl
  split at hl
  · cases hl
    exact hf
  · exact h fd' f' hl

theorem hasEffect_openFile {s : Session} (hs : s.Ok) (path : GoString) (flags : Nat) :
    HasEffect s (s.step (.openFile path flags)) [parentPrefix (s3KeyFromPath path)] := by
  obtain ⟨hdone, hopened⟩ : Done s.world.clock s.world.cache s.world.bucket
      [parentPrefix (s3KeyFromPath path)] ((openFile path flags).run World.handle s.world).2 ∧
      ∀ f, ((openFile path flags).run World.handle s.world).1 = .ok f → f.Ok := by
    rcases triple_openFile path flags s.world hs.at with ⟨h, hf⟩ | ⟨hk, o, -, hnone, -, -, h, hf⟩
    · exact ⟨Or.inl h, fun f hr => (hf f hr).ok⟩
    · exact ⟨Or.inr ⟨_, Framed.put o hk (tidy_s3KeyFromPath path) (Or.inr (Or.inl hnone)), h⟩,
        fun f hr => (hf f hr).ok⟩
  simp only [step]
  split
  · next f w hrun =>
    rw [hrun] at hdone hopened
    exact hasEffect_of_done (ok_of_lookup_insert hs.files (hopened f rfl)) hdone
  · next err w hrun =>
    rw [hrun] at hdone
    exact hasEffect_of_done hs.files hdone

theorem hasEffect_file {s : Session} (hs : s.Ok) (fd : Nat) (op : FileOp) :
    HasEffect s (s.step (.file fd op)) ((Op.file fd op).invalidates s) := by
  simp only [step]
  cases hfd : s.files.lookup fd with
  | none =>
    exact hasEffect_of_done hs.files (Or.inl hs.at.upd)
  | some f =>
    have hf := hs.files fd f hfd
    cases f with
    | s3File f =>
      obtain ⟨hf', hupd⟩ := triple_s3File_perform hf op s.world hs.at
      simp only [File.perform, Prog.run_bind, Prog.run_pure]
      exact hasEffect_of_done (ok_of_lookup_insert hs.files hf') (Or.inl hupd)
    | s3WritableFile f =>
      obtain ⟨hkey, hupd⟩ := triple_s3WritableFile_call hf op s.world hs.at
      have hf' : (File.s3WritableFile ((f.call op).run World.handle s.world).1.2).Ok := by
        show _ ≠ [] ∧ hasSuffixSlash _ = false ∧ Tidy _
        rw [hkey]
        exact hf
      simp only [File.perform, Prog.run_bind, Prog.run_pure]
      refine hasEffect_of_done (ok_of_lookup_insert hs.files hf') ?_
      rcases hupd with ⟨-, hupd⟩ | ⟨rfl, -, o, -, -, hupd⟩
      · exact Or.inl hupd
      · simp only [Op.invalidates, hfd]
        exact Or.inr ⟨_, Framed.put o hf.1 hf.2.2 (Or.inl List.mem_cons_self), hupd⟩

/-- Every step of a run has the effect `Op.invalidates` announces. -/
theorem step_effect {s : Session} (hs : s.Ok) (op : Op) :
    HasEffect s (s.step op) (op.invalidates s) := by
  cases op with
  | openFile path flags => exact hasEffect_openFile hs path flags
  | file fd op => exact hasEffect_file hs fd op
  | stat path => exact hasEffect_unchanged hs ((upd_stat path).pre fun _ h => At.upd h)
  | chmod path mode =>
    exact hasEffect_discard hs ((rewritten_chmod path mode).post fun _ _ h => h.done)
  | chown path uid gid =>
    exact hasEffect_discard hs ((rewritten_chown path uid gid).post fun _ _ h => h.done)
  | setXattr path name value option =>
    exact hasEffect_discard hs
      ((rewritten_setXattr path name value option).post fun _ _ h => h.done)
  | listXattrs path => exact hasEffect_unchanged hs (triple_listXattrs path)
  | removeXattr path name =>
    exact hasEffect_discard hs ((rewritten_removeXattr path name).post fun _ _ h => h.done)
  | symlink target linkPath => exact hasEffect_discard hs (done_symlink target linkPath)
  | readlink path => exact hasEffect_unchanged hs (triple_readlink path)
  | rename oldpath newpath => exact hasEffect_discard hs (done_rename oldpath newpath)
  | remove path => exact hasEffect_discard hs (done_remove path)
  | mkdirAll path => exact hasEffect_discard hs (done_mkdirAll path)
  | copy srcPath dstPath => exact hasEffect_discard hs (done_copy srcPath dstPath)
  | evictExpired =>
    refine hasEffect_of_done hs.files (Or.inl ⟨_, ?_, hs.noFaults, rfl, rfl, hs.at.begin.clock⟩)
    cases s.world.cache with
    | none => exact .none
    | some mc => exact .some (Update.evictExpired _)

end Session

end S3Gateway
