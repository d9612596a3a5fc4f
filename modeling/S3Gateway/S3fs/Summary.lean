import S3Gateway.S3fs.Learning

/-!
# What each operation does

One statement per method, on a reliable S3: which bucket it leaves and which
update of the metadata cache it amounts to. The methods that change nothing come
first; the changing ones follow, each with the keys it invalidates behind the
change.
-/

namespace S3Gateway

open Lib

section Methods

variable {t : Time} {c : Option MetadataCache} {b : Bucket} {ks : List GoString}

/-! ## Methods that change nothing -/

theorem upd_entryMeta (isDir : Bool) (key : GoString) :
    Prog.Triple World.handle (Upd t c b ks) (S3File.entryMeta isDir key)
      fun r w => (∀ info, isDir = false → b.headObject key = .ok info → r = info.userMetadata) ∧
        Upd t c b ks w := by
  unfold S3File.entryMeta
  cases isDir with
  | true =>
    refine Prog.triple_pure fun _ h => ⟨fun info hd => ?_, h⟩
    cases hd
  | false =>
    refine (Upd.headObject key).step fun r hr => ?_
    cases r with
    | error _ =>
      refine Prog.triple_pure fun _ h => ⟨fun info _ hok => ?_, h⟩
      rw [← hr] at hok
      cases hok
    | ok info =>
      refine Prog.triple_pure fun _ h => ⟨fun info' _ hok => ?_, h⟩
      rw [← hr] at hok
      cases hok
      rfl

/-- What `Readdir` caches for a listing entry is true of the bucket. -/
theorem justified_listEntry {pfx child : GoString} (hchild : child ∈ b.listKeys pfx)
    {userMeta : Metadata}
    (hmeta : ∀ info, ((b.listEntry pfx child).isDir || hasSuffixSlash child) = false →
      b.headObject child = .ok info → userMeta = info.userMetadata)
    {name : GoString} {modTime : Time} {inode : UInt64} :
    Justified b child (cacheEntryOf child (newFileInfoFromS3 name (b.listEntry pfx child).size
      modTime ((b.listEntry pfx child).isDir || hasSuffixSlash child) inode userMeta)) := by
  cases hs : hasSuffixSlash child with
  | true =>
    obtain ⟨k, hk, hpre, hchild⟩ := Bucket.mem_listKeys.mp hchild
    have hpre' := Bucket.childOf_prefix hpre
    rw [hchild] at hpre'
    exact justified_dir hs hk hpre' (Bool.or_true _)
  | false =>
    obtain ⟨o, ho, hsize, hdir⟩ := Bucket.listEntry_file hchild hs
    have hhead : ∃ info, b.headObject child = .ok info ∧ info.userMetadata = o.userMetadata := by
      unfold Bucket.headObject
      rw [ho]
      exact ⟨_, rfl, rfl⟩
    obtain ⟨info, hinfo, hum⟩ := hhead
    have hm : userMeta = o.userMetadata := by
      rw [hmeta info (by rw [hdir, hs]; rfl) hinfo, hum]
    rw [Justified, hs, if_neg (by decide), hdir, hm]
    exact ⟨rfl, o, ho, hsize, rfl⟩

/-- What the methods that look things up need. -/
theorem upd_learns : Learns b (Justified b) (fun _ _ => True) (Upd t c b ks) where
  justified _ _ h := h
  known _ _ _ := trivial
  getOrCreateInode := Upd.getOrCreateInode
  now := Upd.now
  createTemp := Upd.keep fun _ => triple_createTemp
  headObject key := (Upd.headObject key).post fun _ _ h => ⟨fun _ hr => h.1.symm.trans hr, h.2⟩
  listObjects pfx := (Upd.listObjects pfx).post fun _ _ h =>
    ⟨fun _ hr => Except.ok.inj (hr.symm.trans h.1), h.2⟩
  getEntry key := (Upd.learn (fun _ => triple_getEntry key) fun now _ =>
    Update.getEntry now key).post fun _ _ h => ⟨fun _ _ _ => trivial, h⟩
  cachePut _ _ h := Upd.cachePut h
  cachePutNegative := Upd.cachePutNegative
  getDirListing _ := Upd.keep fun _ => triple_getDirListing _
  putDirListing _ _ h := Upd.putDirListing h
  entryMeta _ child hchild := (upd_entryMeta _ child).post fun _ _ h =>
    ⟨fun _ _ _ => justified_listEntry hchild h.1, h.2⟩

theorem upd_stat (path : GoString) :
    Prog.Triple World.handle (Upd t c b ks) (stat path) fun _ => Upd t c b ks :=
  (upd_learns.stat path).post fun _ _ h => h.2

theorem upd_readdir (f : S3File) (count : Int) :
    Prog.Triple World.handle (Upd t c b ks) (f.readdir count) fun _ => Upd t c b ks :=
  upd_learns.readdir f count

theorem objectKey_of_ok {path : GoString} {info : ObjectInfo}
    (h : b.headObject (s3KeyFromPath path) = .ok info) : objectKey b path = s3KeyFromPath path := by
  obtain ⟨o, ho, -⟩ := Bucket.headObject_ok h
  rw [objectKey, ho]
  rfl

theorem objectKey_of_error {path : GoString} {err : GoError}
    (h : b.headObject (s3KeyFromPath path) = .error err) :
    objectKey b path = s3DirKey (s3KeyFromPath path) := by
  rw [objectKey, Bucket.headObject_error h]
  rfl

theorem triple_headPath (path : GoString) :
    Prog.Triple World.handle (At t b c) (headPath path) fun r w =>
      r = (b.headObject (objectKey b path)).toOption.map (Prod.mk (objectKey b path)) ∧
        At t b c w := by
  refine (triple_headObject _).step fun r hr => ?_
  cases r with
  | ok info =>
    rw [objectKey_of_ok hr.symm, ← hr]
    exact Prog.triple_pure fun _ h => ⟨rfl, h⟩
  | error _ =>
    rw [objectKey_of_error hr.symm]
    refine (triple_headObject _).step fun r hr' => ?_
    rw [← hr']
    cases r with
    | ok info => exact Prog.triple_pure fun _ h => ⟨rfl, h⟩
    | error _ => exact Prog.triple_pure fun _ h => ⟨rfl, h⟩

/-! ## `OpenFile` -/

/-- What `OpenFile` returns and what it makes of the bucket: the root, a
read-only file, a writable file on an existing object or on a placeholder it has
just created, or a directory. -/
inductive Opened (b : Bucket) (path : GoString) : Bucket → File → Prop where
  | root (info : FileInfo) : Opened b path b (openDir [slash] [] info)
  | readOnly {info : FileInfo} {o : Object} (ho : b.get (s3KeyFromPath path) = some o)
      (hsize : info.size = o.data.length) :
      Opened b path b (.s3File { path, s3Key := s3KeyFromPath path, info, isDir := false
                                 writable := false, offset := 0, chunked := none, closed := false
                                 etag := o.etag })
  | writable (info : FileInfo) {o : Object} (ho : b.get (s3KeyFromPath path) = some o) :
      Opened b path b (.s3WritableFile { path, s3Key := s3KeyFromPath path, info, tmp := .empty
                                         downloaded := false, closed := false })
  | created (info : FileInfo) {o : Object} (hk : s3KeyFromPath path ≠ [])
      (hnone : b.get (s3KeyFromPath path) = none) (ho : o.data = []) :
      Opened b path (b.put (s3KeyFromPath path) o hk)
        (.s3WritableFile { path, s3Key := s3KeyFromPath path, info, tmp := .empty
                           downloaded := true, closed := false })
  | directory (info : FileInfo) (hk : s3KeyFromPath path ≠ []) :
      Opened b path b (openDir path (s3DirKey (s3KeyFromPath path)) info)

/-- The placeholder of a new file: the object, then the cache entry, then the
parent is invalidated. -/
theorem triple_createPlaceholder {path : GoString} (hk : s3KeyFromPath path ≠ [])
    (hnone : b.get (s3KeyFromPath path) = none) :
    Prog.Triple World.handle (At t b c) (createPlaceholder path (s3KeyFromPath path))
      fun r w => (∃ err, r = .error err) ∧ At t b c w ∨
        ∃ o, o.data = [] ∧ o.userMetadata = defaultMetadata ∧
          Upd t c (b.put (s3KeyFromPath path) o hk) [parentPrefix (s3KeyFromPath path)] w ∧
          ∀ f, r = .ok f → Opened b path (b.put (s3KeyFromPath path) o hk) f := by
  refine Prog.triple_bind (triple_getOrCreateInode _) fun r => ?_
  cases r with
  | error err => exact Prog.triple_pure fun _ h => Or.inl ⟨⟨_, rfl⟩, h⟩
  | ok inode =>
    refine Prog.triple_bind (triple_putObject _ _ _) fun r => ?_
    refine Prog.triple_exists fun now => Prog.triple_exists fun etag => Prog.triple_and fun hr => ?_
    rw [Bucket.putObject_of_ne _ hk] at hr ⊢
    subst hr
    refine Prog.Triple.pre ?_ fun w h => At.upd h
    refine Prog.triple_bind Upd.now fun now' => ?_
    refine Prog.triple_bind (Upd.cachePut ?_) fun _ => ?_
    · rw [Justified, hasSuffixSlash_s3KeyFromPath, if_neg (by decide)]
      exact ⟨rfl, _, Bucket.get_put_self _ _ _ hk, rfl, parseMode_defaultMetadata.symm⟩
    · refine Prog.triple_bind (Upd.cacheInvalidateParent _) fun _ => ?_
      refine (upd_learns.newEmptyWritableFile _ _ _).step fun r hr => ?_
      refine Prog.triple_pure fun w h => Or.inr ⟨_, rfl, rfl, h, fun f hf => ?_⟩
      cases r with
      | error err => cases hf
      | ok f' =>
        rw [← Except.ok.inj hf, hr f' rfl]
        exact .created _ hk hnone rfl

/-- `OpenFile` changes nothing but the cache, or creates a placeholder. -/
theorem triple_openFile (path : GoString) (flags : Nat) :
    Prog.Triple World.handle (At t b c) (openFile path flags) fun r w =>
      Upd t c b [] w ∧ (∀ f, r = .ok f → Opened b path b f) ∨
        ∃ hk o, writableFlags flags = true ∧ b.get (s3KeyFromPath path) = none ∧ o.data = [] ∧
          o.userMetadata = defaultMetadata ∧
          Upd t c (b.put (s3KeyFromPath path) o hk) [parentPrefix (s3KeyFromPath path)] w ∧
          ∀ f, r = .ok f → Opened b path (b.put (s3KeyFromPath path) o hk) f := by
  unfold openFile
  dsimp only
  split
  · refine Prog.triple_bind (triple_getOrCreateInode _) fun _ => ?_
    refine Prog.triple_bind triple_now fun _ => ?_
    refine Prog.triple_pure fun w h => Or.inl ⟨h.upd, fun f hf => ?_⟩
    rw [← Except.ok.inj hf]
    exact .root _
  · next hk =>
    refine (triple_headObject _).step fun r hr => ?_
    cases r with
    | ok objInfo =>
      obtain ⟨o, ho, hsize, -, hetag, -, -⟩ := Bucket.headObject_ok hr.symm
      refine Prog.Triple.pre ?_ fun w h => At.upd h
      refine Prog.triple_bind (Upd.getOrCreateInode _) fun r => ?_
      cases r with
      | error err =>
        refine Prog.triple_pure fun w h => Or.inl ⟨h, fun f hf => ?_⟩
        cases hf
      | ok inode =>
        have hj : Justified b (s3KeyFromPath path) (cacheEntryOf (s3KeyFromPath path)
            (newFileInfoFromS3WithETag (nameFromPath path) objInfo.size objInfo.lastModified false
              inode objInfo.userMetadata objInfo.etag)) :=
          justified_file (hasSuffixSlash_s3KeyFromPath path) hr.symm (nameFromPath path) inode
        refine Prog.triple_bind (Upd.cachePut hj) fun _ => ?_
        split
        · refine (upd_learns.newWritableFile _ _ _).step fun r hr => ?_
          refine Prog.triple_pure fun w h => Or.inl ⟨h, fun f hf => ?_⟩
          cases r with
          | error err => cases hf
          | ok f' =>
            rw [← Except.ok.inj hf, hr f' rfl]
            exact .writable _ ho
        · refine Prog.triple_pure fun w h => Or.inl ⟨h, fun f hf => ?_⟩
          rw [← Except.ok.inj hf, hetag]
          exact .readOnly ho hsize
    | error _ =>
      dsimp only
      split
      · next hflags =>
        refine (triple_createPlaceholder hk (Bucket.headObject_error hr.symm)).post ?_
        rintro r w (⟨⟨err, rfl⟩, h⟩ | ⟨o, hdata, hmeta, h, hf⟩)
        · refine Or.inl ⟨h.upd, fun f hf => ?_⟩
          cases hf
        · exact Or.inr ⟨hk, o, hflags, Bucket.headObject_error hr.symm, hdata, hmeta, h, hf⟩
      · refine (Prog.Triple.pre (upd_learns.openDirectory (hasSuffixSlash_s3DirKey hk))
          fun w h => At.upd h).post fun r w ⟨hr, hw⟩ => Or.inl ⟨hw, fun f hf => ?_⟩
        obtain ⟨info, rfl⟩ := hr f hf
        exact .directory info hk

/-! ## Methods that change an object -/

/-- Replacing metadata keeps the data and invalidates the key. -/
theorem triple_replaceMetadata (what key : GoString) (metadata : Metadata) {o : Object}
    (ho : b.get key = some o) :
    Prog.Triple World.handle (At t b c) (replaceMetadata what key metadata) fun r w =>
      r = .ok () ∧ ∃ o', o'.data = o.data ∧ o'.userMetadata = metadata ∧
        Upd t c (b.put key o' (Bucket.ne_nil_of_get ho)) [key] w := by
  refine Prog.triple_bind (triple_copyObjectWithMetadata key metadata) fun r => ?_
  refine Prog.triple_exists fun now => Prog.triple_exists fun etag => Prog.triple_and fun hr => ?_
  unfold Bucket.copyObjectWithMetadata at hr ⊢
  rw [ho] at hr ⊢
  dsimp only at hr ⊢
  rw [Bucket.putObject_of_ne _ (Bucket.ne_nil_of_get ho)] at hr ⊢
  subst hr
  refine Prog.Triple.pre ?_ fun w h => At.upd h
  exact Prog.triple_bind (Upd.cacheInvalidate key) fun _ =>
    Prog.triple_pure fun w h => ⟨rfl, ⟨o.data, metadata, now, etag⟩, rfl, rfl, h⟩

/-- `Remove` on an object: it is gone, key and parent are invalidated. -/
theorem triple_removeObject (what : GoString) {key : GoString} (hk : key ≠ []) :
    Prog.Triple World.handle (At t b c) (removeObject what key) fun r w =>
      r = .ok () ∧ Upd t c (b.remove key) [key, parentPrefix key] w := by
  refine (triple_deleteObject key).step fun r hr => ?_
  rw [Bucket.deleteObject_of_ne hk] at hr ⊢
  subst hr
  refine Prog.Triple.pre ?_ fun w h => At.upd h
  refine Prog.triple_bind (Upd.keep fun _ => triple_removeByKey key) fun _ => ?_
  refine Prog.triple_bind (Upd.cacheInvalidate key) fun _ => ?_
  refine Prog.triple_bind (Upd.cacheInvalidateParent key) fun _ => ?_
  refine Prog.triple_bind (Upd.keep fun _ => triple_dataCacheInvalidate key) fun _ => ?_
  exact Prog.triple_pure fun _ h => ⟨rfl, h⟩

/-- `Rename` on an object: copied and deleted; both keys and both parents are
invalidated. A rename to the empty key fails without effect. -/
theorem triple_renameObject (what which newKey : GoString) {oldKey : GoString} {o : Object}
    (ho : b.get oldKey = some o) :
    Prog.Triple World.handle (At t b c) (renameObject what which oldKey newKey) fun r w =>
      r ≠ .ok () ∧ newKey = [] ∧ Upd t c b [] w ∨
        r = .ok () ∧ ∃ hk o', o'.data = o.data ∧ o'.userMetadata = o.userMetadata ∧
          Upd t c ((b.put newKey o' hk).remove oldKey)
            [oldKey, newKey, parentPrefix oldKey, parentPrefix newKey] w := by
  refine Prog.triple_bind (triple_copyObject oldKey newKey) fun r => ?_
  refine Prog.triple_exists fun now => Prog.triple_exists fun etag => Prog.triple_and fun hr => ?_
  unfold Bucket.copyObject at hr ⊢
  rw [ho] at hr ⊢
  dsimp only at hr ⊢
  by_cases hk : newKey = []
  · subst hk
    rw [Bucket.putObject_nil] at hr ⊢
    subst hr
    exact Prog.triple_pure fun w h => Or.inl ⟨nofun, rfl, h.upd⟩
  · rw [Bucket.putObject_of_ne _ hk] at hr ⊢
    subst hr
    refine (triple_deleteObject oldKey).step fun r hr => ?_
    rw [Bucket.deleteObject_of_ne (Bucket.ne_nil_of_get ho)] at hr ⊢
    subst hr
    refine Prog.Triple.pre ?_ fun w h => At.upd h
    refine Prog.triple_bind (Upd.keep fun _ => triple_renameKey oldKey newKey) fun _ => ?_
    refine Prog.triple_bind (Upd.cacheInvalidate oldKey) fun _ => ?_
    refine Prog.triple_bind (Upd.cacheInvalidate newKey) fun _ => ?_
    refine Prog.triple_bind (Upd.cacheInvalidateParent oldKey) fun _ => ?_
    refine Prog.triple_bind (Upd.cacheInvalidateParent newKey) fun _ => ?_
    refine Prog.triple_bind (Upd.keep fun _ => triple_dataCacheInvalidate oldKey) fun _ => ?_
    refine Prog.triple_bind (Upd.keep fun _ => triple_dataCacheInvalidate newKey) fun _ => ?_
    exact Prog.triple_pure fun w h =>
      Or.inr ⟨rfl, hk, ⟨o.data, o.userMetadata, now, etag⟩, rfl, rfl, h⟩

/-- `Symlink` refuses an existing key, else creates an empty object; only the
parent is invalidated. -/
theorem triple_symlink (target linkPath : GoString) :
    Prog.Triple World.handle (At t b c) (symlink target linkPath) fun _ w =>
      Upd t c b [] w ∨ ∃ hk o, target ≠ [] ∧ target.length ≤ 4080 ∧
        b.get (s3KeyFromPath linkPath) = none ∧ o.data = [] ∧
        o.userMetadata = symlinkMetadata target ∧
        Upd t c (b.put (s3KeyFromPath linkPath) o hk) [parentPrefix (s3KeyFromPath linkPath)] w := by
  unfold symlink
  split
  · exact Prog.triple_pure fun w h => Or.inl h.upd
  · next htarget =>
    split
    · exact Prog.triple_pure fun w h => Or.inl h.upd
    · next hlen =>
      refine (triple_headObject _).step fun r hr => ?_
      cases r with
      | ok _ => exact Prog.triple_pure fun w h => Or.inl h.upd
      | error _ =>
        have hnone := Bucket.headObject_error hr.symm
        refine Prog.triple_bind (triple_putObject _ _ _) fun r => ?_
        refine Prog.triple_exists fun now => Prog.triple_exists fun etag =>
          Prog.triple_and fun hr => ?_
        by_cases hk : s3KeyFromPath linkPath = []
        · rw [hk, Bucket.putObject_nil] at hr ⊢
          subst hr
          exact Prog.triple_pure fun w h => Or.inl h.upd
        · rw [Bucket.putObject_of_ne _ hk] at hr ⊢
          subst hr
          refine Prog.Triple.pre ?_ fun w h => At.upd h
          exact Prog.triple_bind (Upd.cacheInvalidateParent _) fun _ =>
            Prog.triple_pure fun w h =>
              Or.inr ⟨hk, _, htarget, Nat.le_of_not_lt hlen, hnone, rfl, rfl, h⟩

/-- `MkdirAll` writes the marker; if the inode cannot be allocated, it stops
before the invalidations. -/
theorem triple_mkdirAll (path : GoString) :
    Prog.Triple World.handle (At t b c) (mkdirAll path) fun r w =>
      s3DirKey (s3KeyFromPath path) = [] ∧ Upd t c b [] w ∨
        ∃ hk o, o.data = [] ∧ o.userMetadata = ∅ ∧
        Upd t c (b.put (s3DirKey (s3KeyFromPath path)) o hk)
          (match r with
          | .ok _ => [s3DirKey (s3KeyFromPath path), s3KeyFromPath path,
              parentPrefix (s3DirKey (s3KeyFromPath path))]
          | .error _ => []) w := by
  refine Prog.triple_bind (triple_createDirMarker _) fun r => ?_
  refine Prog.triple_exists fun now => Prog.triple_exists fun etag => Prog.triple_and fun hr => ?_
  by_cases hk : s3DirKey (s3KeyFromPath path) = []
  · rw [hk, Bucket.putObject_nil] at hr ⊢
    subst hr
    exact Prog.triple_pure fun w h => Or.inl ⟨rfl, h.upd⟩
  · rw [Bucket.putObject_of_ne _ hk] at hr ⊢
    subst hr
    refine Prog.Triple.pre ?_ fun w h => At.upd h
    refine Prog.triple_bind (Upd.getOrCreateInode _) fun r => ?_
    cases r with
    | error err => exact Prog.triple_pure fun w h => Or.inr ⟨hk, _, rfl, rfl, h⟩
    | ok _ =>
      refine Prog.triple_bind (Upd.cacheInvalidate _) fun _ => ?_
      refine Prog.triple_bind (Upd.cacheInvalidate _) fun _ => ?_
      refine Prog.triple_bind (Upd.cacheInvalidateParent _) fun _ => ?_
      exact Prog.triple_pure fun w h => Or.inr ⟨hk, _, rfl, rfl, h⟩

/-- `Copy` makes the destination equal to the source; destination and its parent
are invalidated. -/
theorem triple_copy (srcPath dstPath : GoString) :
    Prog.Triple World.handle (At t b c) (copy srcPath dstPath) fun r w =>
      r ≠ .ok () ∧ Upd t c b [] w ∨ r = .ok () ∧
        ∃ hk o o', b.get (s3KeyFromPath srcPath) = some o ∧ o'.data = o.data ∧
        o'.userMetadata = o.userMetadata ∧
        Upd t c (b.put (s3KeyFromPath dstPath) o' hk)
          [s3KeyFromPath dstPath, parentPrefix (s3KeyFromPath dstPath)] w := by
  refine Prog.triple_bind (triple_copyObject _ _) fun r => ?_
  refine Prog.triple_exists fun now => Prog.triple_exists fun etag => Prog.triple_and fun hr => ?_
  unfold Bucket.copyObject at hr ⊢
  cases ho : b.get (s3KeyFromPath srcPath) with
  | none =>
    rw [ho] at hr
    subst hr
    exact Prog.triple_pure fun w h => Or.inl ⟨nofun, h.upd⟩
  | some o =>
    rw [ho] at hr
    dsimp only at hr ⊢
    by_cases hk : s3KeyFromPath dstPath = []
    · rw [hk, Bucket.putObject_nil] at hr ⊢
      subst hr
      exact Prog.triple_pure fun w h => Or.inl ⟨nofun, h.upd⟩
    · rw [Bucket.putObject_of_ne _ hk] at hr ⊢
      subst hr
      refine Prog.Triple.pre ?_ fun w h => At.upd h
      refine Prog.triple_bind (Upd.cacheInvalidate _) fun _ => ?_
      refine Prog.triple_bind (Upd.cacheInvalidateParent _) fun _ => ?_
      exact Prog.triple_pure fun w h =>
        Or.inr ⟨rfl, hk, o, ⟨o.data, o.userMetadata, now, etag⟩, rfl, rfl, rfl, h⟩

/-- The first `Close` of a writable file uploads the temp file; key and parent
are invalidated and the new attributes cached. -/
theorem triple_close {f : S3WritableFile} (hk : f.s3Key ≠ [])
    (hs : hasSuffixSlash f.s3Key = false) (hc : f.closed = false) :
    Prog.Triple World.handle (At t b c) f.close fun r w =>
      r = (.ok (), { f with closed := true }) ∧ ∃ o, o.data = f.tmp.data ∧
        o.userMetadata = defaultMetadata ∧
        Upd t c (b.put f.s3Key o hk) [f.s3Key, parentPrefix f.s3Key] w := by
  unfold S3WritableFile.close
  rw [hc, if_neg (by decide)]
  refine Prog.triple_bind (triple_putObject _ _ _) fun r => ?_
  refine Prog.triple_exists fun now => Prog.triple_exists fun etag => Prog.triple_and fun hr => ?_
  rw [Bucket.putObject_of_ne _ hk] at hr ⊢
  subst hr
  refine Prog.Triple.pre ?_ fun w h => At.upd h
  refine Prog.triple_bind (Upd.cacheInvalidate _) fun _ => ?_
  refine Prog.triple_bind (Upd.cacheInvalidateParent _) fun _ => ?_
  refine Prog.triple_bind (Upd.keep fun _ => triple_dataCacheInvalidate _) fun _ => ?_
  refine Prog.triple_bind Upd.now fun now' => ?_
  refine Prog.triple_bind (Upd.cachePut ?_) fun _ => ?_
  · rw [Justified, hs, if_neg (by decide)]
    exact ⟨rfl, _, Bucket.get_put_self _ _ _ hk, rfl, parseMode_defaultMetadata.symm⟩
  · exact Prog.triple_pure fun w h => ⟨rfl, _, rfl, rfl, h⟩

end Methods

end S3Gateway
