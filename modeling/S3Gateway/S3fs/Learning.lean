import S3Gateway.S3fs.Updates

/-!
# Methods that look things up

`Stat`, `OpenFile` of a directory and `Readdir` ask the cache and S3, and store what S3
answers in the cache. What they do is proved once, for any assertion `A` about the
services that keeps up with their calls (`Learns`): while S3 holds `b`, answers that are
no errors are true of `b`, entries that satisfy `J` may be cached, and what the cache
returns satisfies `K`. Faults are allowed for: nothing is said of a call that fails.
-/

namespace S3Gateway

open Lib

/-! ## Facts about a bucket -/

section Facts

variable {b : Bucket}

theorem justified_file {key : GoString} (hk : hasSuffixSlash key = false) {info : ObjectInfo}
    (h : b.headObject key = .ok info) (name : GoString) (inode : UInt64) :
    Justified b key (cacheEntryOf key (newFileInfoFromS3 name info.size info.lastModified false
      inode info.userMetadata)) := by
  obtain ⟨o, ho, hsize, -, -, -, hmeta⟩ := Bucket.headObject_ok h
  rw [Justified, hk, if_neg (by decide)]
  refine ⟨rfl, o, ho, hsize, ?_⟩
  show parseMode info.userMetadata false = _
  rw [hmeta]

theorem justified_dir {key : GoString} (hk : hasSuffixSlash key = true) {k : GoString}
    (hmem : k ∈ b.keys) (hpre : key <+: k) {e : CacheEntry} (he : e.isDir = true) :
    Justified b key e := by
  rw [Justified, hk, if_pos rfl]
  exact ⟨he, k, hmem, hpre⟩

theorem mem_keys_of_headObject {key : GoString} {info : ObjectInfo}
    (h : b.headObject key = .ok info) : key ∈ b.keys := by
  obtain ⟨o, ho, -⟩ := Bucket.headObject_ok h
  exact Bucket.mem_keys.mpr ⟨o, ho⟩

/-- A listing with entries comes from a key below its prefix. -/
theorem exists_mem_of_listObjects_ne_nil {pfx : GoString} (h : b.listObjects pfx ≠ []) :
    ∃ k ∈ b.keys, pfx <+: k := by
  obtain ⟨e, he⟩ := List.exists_mem_of_ne_nil _ h
  obtain ⟨child, hchild, -⟩ := List.mem_map.mp he
  obtain ⟨k, hk, hpre, -⟩ := Bucket.mem_listKeys.mp hchild
  exact ⟨k, hk, hpre⟩

theorem hasSuffixSlash_s3DirKey {path : GoString} (h : s3KeyFromPath path ≠ []) :
    hasSuffixSlash (s3DirKey (s3KeyFromPath path)) = true := by
  rw [s3DirKey_s3KeyFromPath h, hasSuffixSlash_concat]

theorem S3File.isDirPrefix_listPrefix (f : S3File) : IsDirPrefix f.listPrefix := by
  unfold S3File.listPrefix IsDirPrefix
  split
  · exact Or.inr (hasSuffixSlash_concat _)
  · next h =>
    by_cases hk : f.s3Key = []
    · exact Or.inl hk
    · exact Or.inr (by simpa [hk] using h)

end Facts

/-- What `Readdir` caches for a listing entry, given the metadata it found. -/
def listedEntry (b : Bucket) (pfx child name : GoString) (modTime : Time) (inode : UInt64)
    (userMeta : Metadata) : CacheEntry :=
  cacheEntryOf child (newFileInfoFromS3 name (b.listEntry pfx child).size modTime
    ((b.listEntry pfx child).isDir || hasSuffixSlash child) inode userMeta)

/-- The assertion `A` keeps up with the calls of the methods that ask for one object. -/
structure Asks (b : Bucket) (J K : GoString → CacheEntry → Prop) (A : World → Prop) : Prop where
  justified : ∀ key e, Justified b key e → J key e
  known : ∀ key e, J key e → K key e
  getOrCreateInode : ∀ key,
    Prog.Triple World.handle A (Prog.call (.getOrCreateInode key)) fun _ => A
  now : Prog.Triple World.handle A (Prog.call .now) fun _ => A
  createTemp : Prog.Triple World.handle A (Prog.call .createTemp) fun _ => A
  headObject : ∀ key, Prog.Triple World.handle A (Prog.call (.headObject key)) fun r w =>
    (∀ info, r = .ok info → b.headObject key = .ok info) ∧ A w
  listObjects : ∀ pfx, Prog.Triple World.handle A (Prog.call (.listObjects pfx)) fun r w =>
    (∀ entries, r = .ok entries → entries = b.listObjects pfx) ∧ A w
  getEntry : ∀ key, Prog.Triple World.handle A (Prog.call (.getEntry key)) fun r w =>
    (∀ e, r = some e → e.negative = false → K key e) ∧ A w
  cachePut : ∀ key info, J key (cacheEntryOf key info) →
    Prog.Triple World.handle A (cachePut key info) fun _ => A
  cachePutNegative : ∀ key, Prog.Triple World.handle A (cachePutNegative key) fun _ => A

/-- The assertion `A` keeps up with the calls of the methods that look things up, the
listing of a directory included. -/
structure Learns (b : Bucket) (J K : GoString → CacheEntry → Prop) (A : World → Prop) : Prop
    extends Asks b J K A where
  getDirListing : ∀ pfx, Prog.Triple World.handle A (Prog.call (.getDirListing pfx)) fun _ => A
  putDirListing : ∀ pfx entries, Lists b pfx entries →
    Prog.Triple World.handle A (Prog.call (.putDirListing pfx entries)) fun _ => A
  entryMeta : ∀ pfx, ∀ child ∈ b.listKeys pfx, Prog.Triple World.handle A
    (S3File.entryMeta ((b.listEntry pfx child).isDir || hasSuffixSlash child) child)
    fun userMeta w =>
      (∀ name modTime inode, J child (listedEntry b pfx child name modTime inode userMeta)) ∧ A w

section Methods

variable {b : Bucket} {J K : GoString → CacheEntry → Prop} {A : World → Prop}

/-- What is returned is what is known of the key. -/
def Learns.Shows (K : GoString → CacheEntry → Prop) (key : GoString) (fi : FileInfo) : Prop :=
  ∃ e, K key e ∧ fi.size = e.size ∧ fi.isDir = e.isDir

namespace Asks

open Learns (Shows)

/-! ## `Stat` -/

theorem cacheGet (h : Asks b J K A) (key : GoString) :
    Prog.Triple World.handle A (cacheGet key) fun r w =>
      (∀ fi, r = some (some fi) → Shows K key fi) ∧ A w := by
  refine (h.getEntry key).step fun r hr => ?_
  cases r with
  | none => exact Prog.triple_pure fun _ hw => ⟨nofun, hw⟩
  | some entry =>
    by_cases hneg : entry.negative = true
    · simp only [hneg, if_true]
      exact Prog.triple_pure fun _ hw => ⟨nofun, hw⟩
    · simp only [hneg]
      refine Prog.triple_bind (h.getOrCreateInode key) fun r => ?_
      cases r with
      | error err => exact Prog.triple_pure fun _ hw => ⟨nofun, hw⟩
      | ok inode =>
        refine Prog.triple_pure fun _ hw => ⟨fun fi hfi => ?_, hw⟩
        cases hfi
        exact ⟨entry, hr entry rfl (Bool.eq_false_iff.mpr hneg), rfl, rfl⟩

theorem statFound (h : Asks b J K A) {path key : GoString} {isDir : Bool} {info : ObjectInfo}
    (hJ : ∀ inode, J key (cacheEntryOf key (newFileInfoFromS3 (nameFromPath path)
      info.size info.lastModified isDir inode info.userMetadata))) :
    Prog.Triple World.handle A (statFound path key isDir info) fun r w =>
      (∀ fi, r = .ok fi → Shows K key fi) ∧ A w := by
  refine Prog.triple_bind (h.getOrCreateInode key) fun r => ?_
  cases r with
  | error err => exact Prog.triple_pure fun _ hw => ⟨nofun, hw⟩
  | ok inode =>
    refine Prog.triple_bind (h.cachePut _ _ (hJ inode)) fun _ => ?_
    refine Prog.triple_pure fun _ hw => ⟨fun fi hfi => ?_, hw⟩
    cases hfi
    exact ⟨_, h.known _ _ (hJ inode), rfl, rfl⟩

theorem implicitDirInfo (h : Asks b J K A) {path dirKey : GoString}
    (hd : hasSuffixSlash dirKey = true) (hne : b.listObjects dirKey ≠ []) :
    Prog.Triple World.handle A (implicitDirInfo path dirKey) fun r w =>
      (∀ fi, r = .ok fi → Shows K dirKey fi) ∧ A w := by
  obtain ⟨k, hk, hpre⟩ := exists_mem_of_listObjects_ne_nil hne
  refine Prog.triple_bind (h.getOrCreateInode dirKey) fun r => ?_
  cases r with
  | error err => exact Prog.triple_pure fun _ hw => ⟨nofun, hw⟩
  | ok inode =>
    refine Prog.triple_bind h.now fun now => ?_
    have hJ : J dirKey (cacheEntryOf dirKey (newDirInfo (nameFromPath path) inode now)) :=
      h.justified _ _ (justified_dir hd hk hpre rfl)
    refine Prog.triple_bind (h.cachePut _ _ hJ) fun _ => ?_
    refine Prog.triple_pure fun _ hw => ⟨fun fi hfi => ?_, hw⟩
    cases hfi
    exact ⟨_, h.known _ _ hJ, rfl, rfl⟩

theorem statMissing (h : Asks b J K A) (s3Key dirKey : GoString) :
    Prog.Triple World.handle A (statMissing s3Key dirKey) fun r w => (∀ fi, r ≠ .ok fi) ∧ A w :=
  Prog.triple_bind (h.cachePutNegative s3Key) fun _ =>
    Prog.triple_bind (h.cachePutNegative dirKey) fun _ => Prog.triple_pure fun _ hw => ⟨nofun, hw⟩

theorem statS3 (h : Asks b J K A) {path s3Key dirKey : GoString}
    (hk : hasSuffixSlash s3Key = false) (hd : hasSuffixSlash dirKey = true) :
    Prog.Triple World.handle A (statS3 path s3Key dirKey) fun r w =>
      (∀ fi, r = .ok fi → Shows K s3Key fi ∨ Shows K dirKey fi) ∧ A w := by
  have hmissing : Prog.Triple World.handle A (S3Gateway.statMissing s3Key dirKey) fun r w =>
      (∀ fi, r = .ok fi → Shows K s3Key fi ∨ Shows K dirKey fi) ∧ A w :=
    (h.statMissing s3Key dirKey).post fun r w hr => ⟨fun fi hfi => absurd hfi (hr.1 fi), hr.2⟩
  refine (h.headObject s3Key).step fun r hr => ?_
  cases r with
  | ok info =>
    have hhead := hr info rfl
    have hisDir : (info.isDir || hasSuffixSlash s3Key) = false := by
      obtain ⟨o, -, -, -, -, hdir, -⟩ := Bucket.headObject_ok hhead
      rw [hdir, hk]
      rfl
    dsimp only
    rw [hisDir]
    refine (h.statFound fun inode => h.justified _ _ (justified_file hk hhead _ inode)).post ?_
    exact fun r w hr => ⟨fun fi hfi => Or.inl (hr.1 fi hfi), hr.2⟩
  | error _ =>
    refine (h.headObject dirKey).step fun r hr => ?_
    cases r with
    | ok info =>
      have hmem := mem_keys_of_headObject (hr info rfl)
      refine (h.statFound fun inode =>
        h.justified _ _ (justified_dir hd hmem (List.prefix_refl _) rfl)).post ?_
      exact fun r w hr => ⟨fun fi hfi => Or.inr (hr.1 fi hfi), hr.2⟩
    | error _ =>
      refine (h.listObjects dirKey).step fun r hr => ?_
      cases r with
      | error err => exact hmissing
      | ok entries =>
        have hentries := hr entries rfl
        dsimp only
        split
        · exact hmissing
        · next hne =>
          refine (h.implicitDirInfo hd (hentries ▸ hne)).post ?_
          exact fun r w hr => ⟨fun fi hfi => Or.inr (hr.1 fi hfi), hr.2⟩

theorem statDir (h : Asks b J K A) {path s3Key dirKey : GoString}
    (hk : hasSuffixSlash s3Key = false) (hd : hasSuffixSlash dirKey = true) :
    Prog.Triple World.handle A (statDir path s3Key dirKey) fun r w =>
      (∀ fi, r = .ok fi → Shows K s3Key fi ∨ Shows K dirKey fi) ∧ A w := by
  refine (h.cacheGet dirKey).step fun r hr => ?_
  rcases r with _ | _ | fi
  · exact h.statS3 hk hd
  · exact h.statS3 hk hd
  · refine Prog.triple_pure fun _ hw => ⟨fun fi' hfi' => ?_, hw⟩
    cases hfi'
    exact Or.inr (hr fi rfl)

/-- `Stat` of a path below the root returns what is known of its file key or of its
directory key. -/
theorem stat (h : Asks b J K A) (path : GoString) :
    Prog.Triple World.handle A (stat path) fun r w =>
      (∀ fi, s3KeyFromPath path ≠ [] → r = .ok fi →
        Shows K (s3KeyFromPath path) fi ∨ Shows K (s3DirKey (s3KeyFromPath path)) fi) ∧ A w := by
  unfold S3Gateway.stat
  dsimp only
  split
  · next hroot =>
    refine Prog.triple_bind (h.getOrCreateInode []) fun _ => Prog.triple_bind h.now fun _ => ?_
    exact Prog.triple_pure fun _ hw => ⟨fun fi hne => absurd hroot hne, hw⟩
  · next hne =>
    have hk := hasSuffixSlash_s3KeyFromPath path
    have hd := hasSuffixSlash_s3DirKey hne
    have hrest : Prog.Triple World.handle A
        (S3Gateway.statDir path (s3KeyFromPath path) (s3DirKey (s3KeyFromPath path))) fun r w =>
          (∀ fi, s3KeyFromPath path ≠ [] → r = .ok fi → Shows K (s3KeyFromPath path) fi ∨
            Shows K (s3DirKey (s3KeyFromPath path)) fi) ∧ A w :=
      (h.statDir hk hd).post fun r w hr => ⟨fun fi _ => hr.1 fi, hr.2⟩
    refine (h.cacheGet (s3KeyFromPath path)).step fun r hr => ?_
    rcases r with _ | _ | fi
    · exact hrest
    · exact hrest
    · refine Prog.triple_pure fun _ hw => ⟨fun fi' _ hfi' => ?_, hw⟩
      cases hfi'
      exact Or.inl (hr fi rfl)

/-! ## `OpenFile` -/

theorem newWritableFile (h : Asks b J K A) (path s3Key : GoString) (info : FileInfo) :
    Prog.Triple World.handle A (newWritableFile path s3Key info)
      fun r w => (∀ f, r = .ok f → f = { path, s3Key, info, tmp := .empty, downloaded := false
                                         closed := false }) ∧ A w := by
  refine Prog.triple_bind h.createTemp fun r => ?_
  cases r with
  | error err =>
    refine Prog.triple_pure fun _ hw => ⟨fun f hf => ?_, hw⟩
    cases hf
  | ok _ => exact Prog.triple_pure fun _ hw => ⟨fun f hf => (Except.ok.inj hf).symm, hw⟩

theorem newEmptyWritableFile (h : Asks b J K A) (path s3Key : GoString) (info : FileInfo) :
    Prog.Triple World.handle A (newEmptyWritableFile path s3Key info)
      fun r w => (∀ f, r = .ok f → f = { path, s3Key, info, tmp := .empty, downloaded := true
                                         closed := false }) ∧ A w := by
  refine (h.newWritableFile path s3Key info).step fun r hr => ?_
  cases r with
  | error err =>
    refine Prog.triple_pure fun _ hw => ⟨fun f hf => ?_, hw⟩
    cases hf
  | ok f =>
    refine Prog.triple_pure fun _ hw => ⟨fun f' hf => ?_, hw⟩
    rw [← Except.ok.inj hf, hr f rfl]

theorem openMarker (h : Asks b J K A) {path dirKey : GoString}
    (hd : hasSuffixSlash dirKey = true) :
    Prog.Triple World.handle A (openMarker path dirKey) fun r w =>
      (∀ f, r = .ok f → ∃ info, f = openDir path dirKey info) ∧ A w := by
  refine (h.headObject dirKey).step fun r hr => ?_
  cases r with
  | error _ =>
    refine Prog.triple_pure fun _ hw => ⟨fun f hf => ?_, hw⟩
    cases hf
  | ok info =>
    refine Prog.triple_bind (h.getOrCreateInode dirKey) fun r => ?_
    cases r with
    | error err =>
      refine Prog.triple_pure fun _ hw => ⟨fun f hf => ?_, hw⟩
      cases hf
    | ok inode =>
      have hmem := mem_keys_of_headObject (hr info rfl)
      refine Prog.triple_bind (h.cachePut dirKey _ ?_) fun _ => ?_
      · exact h.justified _ _ (justified_dir hd hmem (List.prefix_refl _) rfl)
      · exact Prog.triple_pure fun _ hw => ⟨fun f hf => ⟨_, (Except.ok.inj hf).symm⟩, hw⟩

theorem openDirectory (h : Asks b J K A) {path dirKey : GoString}
    (hd : hasSuffixSlash dirKey = true) :
    Prog.Triple World.handle A (openDirectory path dirKey) fun r w =>
      (∀ f, r = .ok f → ∃ info, f = openDir path dirKey info) ∧ A w := by
  refine (h.listObjects dirKey).step fun r hr => ?_
  cases r with
  | error err => exact h.openMarker hd
  | ok entries =>
    have hentries := hr entries rfl
    dsimp only
    split
    · exact h.openMarker hd
    · next hne =>
      refine Prog.triple_bind (h.implicitDirInfo hd (hentries ▸ hne)) fun r => ?_
      refine Prog.triple_pure fun _ hw => ⟨fun f hf => ?_, hw.2⟩
      cases r with
      | error err => cases hf
      | ok info => exact ⟨info, (Except.ok.inj hf).symm⟩

/-! ## `Readdir` -/

theorem readdirCached (h : Asks b J K A) (entries : List CacheEntry) (infos : List FileInfo) :
    Prog.Triple World.handle A (S3File.readdirCached entries infos) fun _ => A := by
  induction entries generalizing infos with
  | nil => exact Prog.triple_pure fun _ hw => hw
  | cons ce entries ih =>
    unfold S3File.readdirCached
    dsimp only
    split
    · exact ih infos
    · refine Prog.triple_bind (h.getOrCreateInode _) fun r => ?_
      cases r with
      | error err => exact Prog.triple_pure fun _ hw => hw
      | ok inode => exact ih _

end Asks

namespace Learns

/-- The loop of `Readdir` over part of a listing: the cache entries it collects are those
of the entries with a name. -/
theorem readdirList (h : Learns b J K A) (pfx : GoString) (children : List GoString)
    (hchildren : ∀ child ∈ children, child ∈ b.listKeys pfx) (infos : List FileInfo)
    (cached : List CacheEntry) :
    Prog.Triple World.handle A
      (S3File.readdirList pfx (children.map (b.listEntry pfx)) infos cached)
      fun r w => (∀ infos' cached', r = .ok (infos', cached') →
        cached'.map CacheEntry.s3Key =
          cached.map CacheEntry.s3Key ++ children.filter (entryName pfx · ≠ [])) ∧ A w := by
  induction children generalizing infos cached with
  | nil =>
    refine Prog.triple_pure fun _ hw => ⟨fun infos' cached' hr => ?_, hw⟩
    cases hr
    simp
  | cons child children ih =>
    have hchild := hchildren child List.mem_cons_self
    have ih := ih fun k hk => hchildren k (List.mem_cons_of_mem _ hk)
    rw [List.map_cons]
    unfold S3File.readdirList
    dsimp only
    rw [Bucket.listEntry_key]
    split
    · next hname =>
      have : (child :: children).filter (entryName pfx · ≠ []) =
          children.filter (entryName pfx · ≠ []) :=
        List.filter_cons_of_neg (by simp [entryName, hname])
      rw [this]
      exact ih infos cached
    · next hname =>
      refine Prog.triple_bind (h.getOrCreateInode child) fun r => ?_
      cases r with
      | error err => exact Prog.triple_pure fun _ hw => ⟨nofun, hw⟩
      | ok inode =>
        refine (h.entryMeta pfx child hchild).step fun userMeta hJ => ?_
        refine Prog.triple_bind (h.cachePut _ _ (hJ _ _ _)) fun _ => ?_
        have : (child :: children).filter (entryName pfx · ≠ []) =
            child :: children.filter (entryName pfx · ≠ []) :=
          List.filter_cons_of_pos (by simp [entryName, hname])
        refine (ih _ _).post fun r w hr => ⟨fun infos' cached' hok => ?_, hr.2⟩
        rw [hr.1 infos' cached' hok, this]
        simp [cacheEntryOf]

theorem readdir (h : Learns b J K A) (f : S3File) (count : Int) :
    Prog.Triple World.handle A (f.readdir count) fun _ => A := by
  unfold S3File.readdir
  split
  · exact Prog.triple_pure fun _ hw => hw
  · refine Prog.triple_bind (h.getDirListing _) fun r => ?_
    cases r with
    | some entries =>
      exact Prog.triple_bind (h.readdirCached entries []) fun _ => Prog.triple_pure fun _ hw => hw
    | none =>
      refine (h.listObjects f.listPrefix).step fun r hr => ?_
      cases r with
      | error err => exact Prog.triple_pure fun _ hw => hw
      | ok entries =>
        rw [hr entries rfl]
        refine (h.readdirList f.listPrefix (b.listKeys f.listPrefix) (fun _ hk => hk) [] []).step
          fun r hr => ?_
        cases r with
        | error err => exact Prog.triple_pure fun _ hw => hw
        | ok res =>
          obtain ⟨infos, cached⟩ := res
          have hlists : Lists b f.listPrefix cached := by
            refine ⟨f.isDirPrefix_listPrefix, fun key => ?_⟩
            rw [hr infos cached rfl]
            simp
          exact Prog.triple_bind (h.putDirListing _ _ hlists) fun _ =>
            Prog.triple_pure fun _ hw => hw

end Learns

end Methods

end S3Gateway
