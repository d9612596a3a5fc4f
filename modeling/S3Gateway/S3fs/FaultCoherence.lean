import S3Gateway.Cache.MetadataHistory
import S3Gateway.S3fs.Concurrent
import S3Gateway.S3fs.FileCoherence

/-!
# Cached file attributes when calls fail

`FileCoherence` is about a reliable S3. Here any call of an operation may fail, and the
question is whether the cache entries for files are still true of the bucket when the
operation returns.

An operation that replaces an object makes the key's entry stale until it invalidates the
key or stores a new entry. `Truthful` keeps the set of stale keys, and each method is
followed call by call: a failed call has no effect, a successful one on S3 adds the keys
it `Replaced`, an invalidation takes its key out. Almost every method returns with no
stale key wherever it is cut off. Three do not (`AtRisk`):

- `Rename` returns before its invalidations when the copy succeeds and the deletion fails;
- `Symlink` takes a failed request for the link's key as leave to write there, and
  invalidates the parent only;
- `Readdir` caches default attributes for a file whose `HeadObject` fails.

`fileCoherent_step_iff`: the entries of those keys are all there is to check.
-/

namespace S3Gateway

open Lib

/-- The keys whose object is gone or is not what it was. -/
def Replaced (b b' : Bucket) : Set GoString :=
  {key | ∃ o, b.get key = some o ∧ b'.get key ≠ some o}

/-- The call asks for `key`, if it does, with success. -/
def Eff.Answers (key : GoString) {β : Type} (e : Eff β) (w : World) : Prop :=
  match e with
  | .headObject key' => key' = key → ∃ info, (World.handle (.headObject key') w).1 = .ok info
  | _ => True

/-- The operation may leave a stale entry for the key: a `Rename` that fails has replaced
the object, a `Symlink` has, or a `Readdir` could not read the object's metadata. -/
def AtRisk (s : Session) (op : Op) (key : GoString) : Prop :=
  match op with
  | .rename oldpath newpath =>
    ((rename oldpath newpath).run World.handle s.world).1 ≠ .ok () ∧
      key ∈ Replaced s.world.bucket (s.step op).world.bucket
  | .symlink _ _ => key ∈ Replaced s.world.bucket (s.step op).world.bucket
  | .file fd (.readdir count) =>
    ∃ f, s.files.lookup fd = some (.s3File f) ∧
      ¬ Prog.Performs World.handle (fun _ e => e.Answers key) (f.readdir count) s.world
  | _ => False

/-! ## Calls that change the bucket -/

/-- The call stores or removes the object at the key. -/
inductive Mutation : Eff (Except GoError Unit) → GoString → Prop where
  | putObject (key : GoString) (data : Bytes) (metadata : Metadata) :
      Mutation (.putObject key data metadata) key
  | deleteObject (key : GoString) : Mutation (.deleteObject key) key
  | copyObject (srcKey dstKey : GoString) : Mutation (.copyObject srcKey dstKey) dstKey
  | copyObjectWithMetadata (key : GoString) (metadata : Metadata) :
      Mutation (.copyObjectWithMetadata key metadata) key
  | createDirMarker (key : GoString) : Mutation (.createDirMarker key) key

/-- What S3 answers and leaves behind: an error and the bucket as it was, or another
object at the key at most. -/
def Bucket.MutatedAt (b : Bucket) (key : GoString) (r : Except GoError Unit × Bucket) : Prop :=
  (∃ err, r.1 = .error err) ∧ r.2 = b ∨ r.1 = .ok () ∧ ∀ k ≠ key, r.2.get k = b.get k

namespace Bucket

theorem mutatedAt_putObject (b : Bucket) (key : GoString) (o : Object) :
    b.MutatedAt key (b.putObject key o) := by
  by_cases hk : key = []
  · subst hk
    rw [putObject_nil]
    exact Or.inl ⟨⟨_, rfl⟩, rfl⟩
  · rw [putObject_of_ne o hk]
    exact Or.inr ⟨rfl, fun k hne => (get_put b key k o hk).trans (if_neg hne)⟩

theorem mutatedAt_deleteObject (b : Bucket) (key : GoString) :
    b.MutatedAt key (b.deleteObject key) := by
  by_cases hk : key = []
  · subst hk
    exact Or.inl ⟨⟨_, rfl⟩, rfl⟩
  · rw [deleteObject_of_ne hk]
    exact Or.inr ⟨rfl, fun k hne => (get_remove b key k).trans (if_neg hne)⟩

theorem mutatedAt_copyObject (b : Bucket) (src dst : GoString) (now : Time) (etag : GoString) :
    b.MutatedAt dst (b.copyObject src dst now etag) := by
  unfold copyObject
  cases b.get src with
  | none => exact Or.inl ⟨⟨_, rfl⟩, rfl⟩
  | some o => exact mutatedAt_putObject _ _ _

theorem mutatedAt_copyObjectWithMetadata (b : Bucket) (key : GoString) (metadata : Metadata)
    (now : Time) (etag : GoString) :
    b.MutatedAt key (b.copyObjectWithMetadata key metadata now etag) := by
  unfold copyObjectWithMetadata
  cases b.get key with
  | none => exact Or.inl ⟨⟨_, rfl⟩, rfl⟩
  | some o => exact mutatedAt_putObject _ _ _

end Bucket

theorem World.mutatedAt_mutate {w : World} {key : GoString} {o : Outcome}
    {r : Except GoError Unit × Bucket} (h : w.bucket.MutatedAt key r) :
    w.bucket.MutatedAt key ((w.mutate o r).1, (w.mutate o r).2.bucket) := by
  unfold mutate
  split
  · exact Or.inl ⟨⟨_, rfl⟩, rfl⟩
  · exact h

/-- Unless it fails, the call does what it does to the bucket. -/
theorem Mutation.exists_mutate {e : Eff (Except GoError Unit)} {key : GoString}
    (he : Mutation e key) (w : World) :
    ∃ r, World.handle e w = w.begin.mutate w.outcome r ∧ w.bucket.MutatedAt key r := by
  cases he with
  | putObject data metadata => exact ⟨_, rfl, Bucket.mutatedAt_putObject _ _ _⟩
  | deleteObject => exact ⟨_, rfl, Bucket.mutatedAt_deleteObject _ _⟩
  | copyObject srcKey => exact ⟨_, rfl, Bucket.mutatedAt_copyObject _ _ _ _ _⟩
  | copyObjectWithMetadata metadata =>
    exact ⟨_, rfl, Bucket.mutatedAt_copyObjectWithMetadata _ _ _ _ _⟩
  | createDirMarker => exact ⟨_, rfl, Bucket.mutatedAt_putObject _ _ _⟩

theorem Mutation.handle {e : Eff (Except GoError Unit)} {key : GoString} (he : Mutation e key)
    (w : World) :
    w.bucket.MutatedAt key ((World.handle e w).1, (World.handle e w).2.bucket) := by
  obtain ⟨r, hr, hmut⟩ := he.exists_mutate w
  rw [hr]
  exact w.begin.mutatedAt_mutate hmut

theorem Mutation.caches {e : Eff (Except GoError Unit)} {key : GoString} (he : Mutation e key)
    (now : Time) {J : GoString → CacheEntry → Prop} {L : GoString → DirListingEntry → Prop} :
    e.Caches now J L := by
  cases he <;> trivial

/-! ## Stale keys -/

/-- What the entry says is true of the bucket if the entry is positive and alive at `t`,
unless the key is stale. -/
def Told (config : CacheConfig) (t : Time) (stale : Set GoString) (b : Bucket) (key : GoString)
    (e : CacheEntry) : Prop :=
  t - e.cachedAt ≤ config.ttl e → e.negative = false → hasSuffixSlash key = false →
    key ∉ stale → FileAttrsOf b key e

/-- S3 holds `b`, it is `t` or later, and what was alive in the cache at `t` is true of
`b`, stale keys apart. -/
structure Truthful (config : CacheConfig) (t : Time) (stale : Set GoString) (b : Bucket)
    (w : World) : Prop where
  bucket : w.bucket = b
  clock : t ≤ w.clock
  cache : ∀ mc, w.cache = some mc → mc.Holds config (Told config t stale b) fun _ _ => True

/-- Whatever calls of the program fail, there are no more stale keys than before. -/
abbrev KeepsTruth (config : CacheConfig) (t : Time) (stale : Set GoString) (b : Bucket) {α : Type}
    (p : Gw α) : Prop :=
  Prog.Triple World.handle (Truthful config t stale b) p fun _ w =>
    Truthful config t stale w.bucket w

/-- The program asks: it changes neither the bucket nor what the cache says. -/
abbrev OnlyAsks {α : Type} (p : Gw α) : Prop :=
  Prog.Only (fun _ e => e.writesBucket = false ∧ e.learns = false) p

section Truthful

variable {config : CacheConfig} {t : Time} {stale stale' : Set GoString} {b b' : Bucket}
  {w : World} {key : GoString}

theorem Told.replaced {e : CacheEntry} (h : Told config t stale b key e) (b' : Bucket) :
    Told config t (stale ∪ Replaced b b') b' key e := by
  intro hlive hpos hfile hkey
  obtain ⟨hdir, o, ho, hattrs⟩ := h hlive hpos hfile fun hk => hkey (Or.inl hk)
  have ho' : b'.get key = some o := by
    by_contra hne
    exact hkey (Or.inr ⟨o, ho, hne⟩)
  exact ⟨hdir, o, ho', hattrs⟩

theorem told_insert {k : GoString} {e : CacheEntry} (h : Told config t (insert key stale) b k e)
    (hk : k ≠ key) : Told config t stale b k e :=
  fun hlive hpos hfile hstale => h hlive hpos hfile fun hmem => hstale (hmem.resolve_left hk)

theorem replaced_subset (h : ∀ k ≠ key, b'.get k = b.get k) : Replaced b b' ⊆ {key} := by
  rintro k ⟨o, ho, hne⟩
  by_contra hk
  exact hne ((h k hk).trans ho)

/-- Only stale keys of files count. -/
theorem Truthful.mono (h : Truthful config t stale b w)
    (hsub : ∀ k ∈ stale, hasSuffixSlash k = false → k ∈ stale') :
    Truthful config t stale' b w :=
  ⟨h.bucket, h.clock, fun mc hmc => (h.cache mc hmc).mono
    (fun k _ hT hlive hpos hfile hk => hT hlive hpos hfile fun hmem => hk (hsub k hmem hfile))
    fun _ _ _ => trivial⟩

/-- The bucket is the one at hand. -/
theorem Truthful.here (h : Truthful config t stale b w) : Truthful config t stale w.bucket w :=
  h.bucket.symm ▸ h

theorem le_begin_clock (h : t ≤ w.clock) : t ≤ w.begin.clock :=
  Int.le_trans h (Int.le_add_of_nonneg_right (Int.natCast_nonneg _))

theorem Truthful.handle (h : Truthful config t stale b w) {β : Type} {e : Eff β}
    (hw : e.writesBucket = false)
    (he : e.Caches w.begin.clock (Told config t stale b) fun _ _ => True) :
    Truthful config t stale b (World.handle e w).2 where
  bucket := (World.handle_bucket hw w).trans h.bucket
  clock := World.handle_clock e w ▸ le_begin_clock h.clock
  cache := World.handle_holds h.cache he

theorem Truthful.call {β : Type} {e : Eff β} (hw : e.writesBucket = false)
    (he : ∀ now, e.Caches now (Told config t stale b) fun _ _ => True) :
    Prog.Triple World.handle (Truthful config t stale b) (Prog.call e) fun _ =>
      Truthful config t stale b :=
  fun _ h => h.handle hw (he _)

theorem OnlyAsks.truthful {α : Type} {p : Gw α} (hp : OnlyAsks p) :
    Prog.Triple World.handle (Truthful config t stale b) p fun _ => Truthful config t stale b := by
  refine Prog.Only.triple hp fun {_} e _ he h => h.handle he.1 ?_
  cases e
  case putEntry => cases he.2
  case putDirListing => trivial
  case putNegative => exact fun _ hneg => by cases hneg
  all_goals trivial

/-- An invalidated key is no longer stale. -/
theorem truthful_cacheInvalidate :
    Prog.Triple World.handle (Truthful config t (insert key stale) b) (cacheInvalidate key)
      fun _ => Truthful config t stale b := by
  intro w h
  refine ⟨(World.handle_bucket rfl w).trans h.bucket,
    World.handle_clock _ w ▸ le_begin_clock h.clock, fun mc' hmc' => ?_⟩
  have hmc' := (World.handle_cache (.invalidate key) w).symm.trans hmc'
  obtain ⟨mc, hmc, rfl⟩ := Option.map_eq_some_iff.mp hmc'
  exact MetadataCache.Holds.invalidate
    ((h.cache mc hmc).mono (fun _ _ hT hk => told_insert hT hk) fun _ _ hL => hL)

/-- Nor is a key whose entry is replaced by one that is true. -/
theorem truthful_cachePut {info : FileInfo} (hinfo : FileAttrsOf b key (cacheEntryOf key info)) :
    Prog.Triple World.handle (Truthful config t (insert key stale) b) (cachePut key info)
      fun _ => Truthful config t stale b := by
  intro w h
  refine ⟨(World.handle_bucket rfl w).trans h.bucket,
    World.handle_clock _ w ▸ le_begin_clock h.clock, fun mc' hmc' => ?_⟩
  have hmc' := (World.handle_cache (.putEntry key _) w).symm.trans hmc'
  obtain ⟨mc, hmc, rfl⟩ := Option.map_eq_some_iff.mp hmc'
  exact MetadataCache.Holds.overwrite
    ((h.cache mc hmc).mono (fun _ _ hT hk => told_insert hT hk) fun _ _ hL => hL)
    fun _ _ _ _ => hinfo

/-- A call that changes the bucket fails without effect, or makes stale what it
replaces. -/
theorem truthful_mutation {e : Eff (Except GoError Unit)} (he : Mutation e key) {α : Type}
    {k : Except GoError Unit → Gw α} {Q : α → World → Prop}
    (herr : ∀ err, Prog.Triple World.handle (Truthful config t stale b) (k (.error err)) Q)
    (hok : ∀ w b', (World.handle e w).1 = .ok () → (World.handle e w).2.bucket = b' →
      (∀ k ≠ key, b'.get k = b.get k) →
      Prog.Triple World.handle (Truthful config t (stale ∪ Replaced b b') b') (k (.ok ())) Q) :
    Prog.Triple World.handle (Truthful config t stale b) (Prog.call e >>= k) Q := by
  intro w h
  rw [Prog.run_bind, Prog.run_call]
  have hclock : t ≤ (World.handle e w).2.clock :=
    World.handle_clock e w ▸ le_begin_clock h.clock
  have hcache := World.handle_holds h.cache (he.caches w.begin.clock)
  rcases he.handle w with ⟨⟨err, hr⟩, hb⟩ | ⟨hr, hb⟩
  · have hr : (World.handle e w).1 = .error err := hr
    rw [hr]
    exact herr err _ ⟨Eq.trans hb h.bucket, hclock, hcache⟩
  · have hr' : (World.handle e w).1 = .ok () := hr
    rw [hr']
    refine hok w _ hr rfl (h.bucket ▸ hb) _ ⟨rfl, hclock, fun mc hmc => ?_⟩
    exact (hcache mc hmc).mono (fun _ _ hT => hT.replaced _) fun _ _ hL => hL

/-- The usual case: the key is stale afterwards. -/
theorem truthful_write {e : Eff (Except GoError Unit)} (he : Mutation e key) {α : Type}
    {k : Except GoError Unit → Gw α} {Q : α → World → Prop}
    (herr : ∀ err, Prog.Triple World.handle (Truthful config t stale b) (k (.error err)) Q)
    (hok : ∀ w b', (World.handle e w).1 = .ok () → (World.handle e w).2.bucket = b' →
      Prog.Triple World.handle (Truthful config t (insert key stale) b') (k (.ok ())) Q) :
    Prog.Triple World.handle (Truthful config t stale b) (Prog.call e >>= k) Q := by
  refine truthful_mutation he herr fun w b' hr hb hget => ?_
  refine (hok w b' hr hb).pre fun _ h => h.mono fun k hk _ => ?_
  exact hk.elim (Set.mem_insert_of_mem key) fun hk => Or.inl (replaced_subset hget hk)

/-! ## Methods that look things up -/

theorem Justified.fileAttrs {e : CacheEntry} (h : Justified b key e)
    (hfile : hasSuffixSlash key = false) : FileAttrsOf b key e := by
  rwa [Justified, hfile, if_neg (by decide)] at h

/-- What the methods that ask for one object need. -/
theorem truthful_asks :
    Asks b (fun key e => hasSuffixSlash key = false → key ∉ stale → FileAttrsOf b key e)
      (fun _ _ => True) (Truthful config t stale b) where
  justified _ _ h hfile _ := h.fileAttrs hfile
  known _ _ _ := trivial
  getOrCreateInode _ := Truthful.call rfl fun _ => trivial
  now := Truthful.call rfl fun _ => trivial
  createTemp := Truthful.call rfl fun _ => trivial
  headObject key w h := by
    refine ⟨fun info hr => ?_, h.handle rfl trivial⟩
    rw [← h.bucket]
    exact World.headObject_ok hr
  listObjects pfx w h := by
    refine ⟨fun entries hr => ?_, h.handle rfl trivial⟩
    rw [← h.bucket]
    exact World.listObjects_ok hr
  getEntry key w h := ⟨fun _ _ _ => trivial, h.handle rfl trivial⟩
  cachePut _ _ hJ := Truthful.call rfl fun _ _ _ hfile hkey => hJ hfile hkey
  cachePutNegative _ := Truthful.call rfl fun _ _ hneg => by cases hneg

theorem onlyAsks_headPath (path : GoString) : OnlyAsks (headPath path) := by
  refine Prog.only_bind (Prog.only_call ⟨rfl, rfl⟩) fun r => ?_
  cases r with
  | ok info => exact Prog.only_pure _
  | error err =>
    refine Prog.only_bind (Prog.only_call ⟨rfl, rfl⟩) fun r => ?_
    cases r <;> exact Prog.only_pure _

theorem onlyAsks_listXattrs (path : GoString) : OnlyAsks (listXattrs path) := by
  refine Prog.only_bind (onlyAsks_headPath path) fun r => ?_
  rcases r with _ | ⟨key, info⟩ <;> exact Prog.only_pure _

theorem onlyAsks_readlink (path : GoString) : OnlyAsks (readlink path) := by
  refine Prog.only_bind (Prog.only_call ⟨rfl, rfl⟩) fun r => ?_
  cases r with
  | error err => exact Prog.only_pure _
  | ok info =>
    dsimp only
    split <;> exact Prog.only_pure _

theorem onlyAsks_of_fetches {α : Type} {p : Gw α} (hp : Fetches p) : OnlyAsks p := by
  refine hp.mono fun e he => ?_
  cases e
  case getObjectRange => exact ⟨rfl, rfl⟩
  case dataGet => exact ⟨rfl, rfl⟩
  case dataPut => exact ⟨rfl, rfl⟩
  all_goals cases he

/-- The metadata `Readdir` uses is that of the object, if the object could be asked for. -/
theorem truthful_entryMeta (isDir : Bool) (child : GoString) :
    Prog.Triple World.handle
      (fun w => Prog.Performs World.handle (fun _ e w => ∀ k ∉ stale, e.Answers k w)
        (S3File.entryMeta isDir child) w ∧ Truthful config t stale b w)
      (S3File.entryMeta isDir child) fun userMeta w =>
        (child ∉ stale → ∀ info, isDir = false → b.headObject child = .ok info →
          userMeta = info.userMetadata) ∧ Truthful config t stale b w := by
  unfold S3File.entryMeta
  cases isDir with
  | true =>
    refine Prog.triple_pure fun _ h => ⟨fun _ info hd => ?_, h.2⟩
    cases hd
  | false =>
    rintro w ⟨hperf, h⟩
    have hanswers := (Prog.performs_bind.mp hperf).1.1
    have hhead := truthful_asks.headObject child w h
    simp only [Bool.false_eq_true, if_false, Prog.run_bind]
    cases hr : ((Prog.call (.headObject child) : Gw _).run World.handle w).1 with
    | error err =>
      refine ⟨fun hchild => ?_, hhead.2⟩
      obtain ⟨info, hinfo⟩ := hanswers child hchild rfl
      cases hinfo.symm.trans hr
    | ok info =>
      refine ⟨fun _ info' _ hok => ?_, hhead.2⟩
      cases (hhead.1 info hr).symm.trans hok
      rfl

/-- The loop of `Readdir`: the entries of keys that could be asked for are true. -/
theorem truthful_readdirList (pfx : GoString) (children : List GoString)
    (hchildren : ∀ child ∈ children, child ∈ b.listKeys pfx) (infos : List FileInfo)
    (cached : List CacheEntry) :
    Prog.Triple World.handle
      (fun w => Prog.Performs World.handle (fun _ e w => ∀ k ∉ stale, e.Answers k w)
        (S3File.readdirList pfx (children.map (b.listEntry pfx)) infos cached) w ∧
          Truthful config t stale b w)
      (S3File.readdirList pfx (children.map (b.listEntry pfx)) infos cached)
      fun _ => Truthful config t stale b := by
  induction children generalizing infos cached with
  | nil => exact Prog.triple_pure fun _ h => h.2
  | cons child children ih =>
    have hchild := hchildren child List.mem_cons_self
    have ih := ih fun k hk => hchildren k (List.mem_cons_of_mem _ hk)
    rw [List.map_cons]
    unfold S3File.readdirList
    dsimp only
    rw [Bucket.listEntry_key]
    split
    · exact ih infos cached
    · refine Prog.triple_performs_bind
        ((truthful_asks.getOrCreateInode child).pre fun _ h => h.2) fun r => ?_
      cases r with
      | error err => exact Prog.triple_pure fun _ h => h.2
      | ok inode =>
        refine Prog.triple_performs_bind (truthful_entryMeta _ child) fun userMeta => ?_
        refine Prog.triple_performs_bind (Q := fun _ => Truthful config t stale b) ?_ fun _ =>
          ih _ _
        rintro w ⟨-, hmeta, h⟩
        refine truthful_asks.cachePut _ _ (fun hfile hstale => ?_) w h
        exact (justified_listEntry hchild (hmeta hstale)).fileAttrs hfile

theorem truthful_readdir (f : S3File) (count : Int) :
    Prog.Triple World.handle
      (fun w => Prog.Performs World.handle (fun _ e w => ∀ k ∉ stale, e.Answers k w)
        (f.readdir count) w ∧ Truthful config t stale b w)
      (f.readdir count) fun _ => Truthful config t stale b := by
  unfold S3File.readdir
  split
  · exact Prog.triple_pure fun _ h => h.2
  · refine Prog.triple_performs_bind
      ((Truthful.call (e := .getDirListing f.listPrefix) rfl fun _ => trivial).pre fun _ h => h.2)
      fun r => ?_
    cases r with
    | some entries =>
      refine Prog.Triple.pre ?_ fun _ h => h.2
      exact Prog.triple_bind (truthful_asks.readdirCached entries []) fun _ =>
        Prog.triple_pure fun _ h => h
    | none =>
      refine Prog.triple_performs_bind
        ((truthful_asks.listObjects f.listPrefix).pre fun _ h => h.2) fun r => ?_
      rintro w ⟨hperf, hr, h⟩
      cases r with
      | error err => exact h
      | ok entries =>
        obtain rfl := hr entries rfl
        refine Prog.triple_performs_bind (R := fun _ => Truthful config t stale b)
          (truthful_readdirList f.listPrefix (b.listKeys f.listPrefix) (fun _ hk => hk) [] [])
          (fun r => ?_) w ⟨hperf, h⟩
        refine Prog.Triple.pre ?_ fun _ h => h.2
        cases r with
        | error err => exact Prog.triple_pure fun _ h => h
        | ok res =>
          exact Prog.triple_bind (Truthful.call rfl fun _ => trivial) fun _ =>
            Prog.triple_pure fun _ h => h

/-! ## Methods that write -/

theorem keepsTruth_pure {α : Type} (a : α) : KeepsTruth config t stale b (pure a) :=
  Prog.triple_pure fun _ h => h.here

theorem keepsTruth_replaceMetadata (what : GoString) (metadata : Metadata) :
    KeepsTruth config t stale b (replaceMetadata what key metadata) := by
  refine truthful_write (.copyObjectWithMetadata key metadata)
    (fun err => keepsTruth_pure _) fun w b' _ _ => ?_
  exact Prog.triple_bind truthful_cacheInvalidate fun _ => keepsTruth_pure _

/-- The methods that look a path up and may replace its metadata. -/
theorem keepsTruth_headPath_bind {path : GoString}
    {k : Option (GoString × ObjectInfo) → Gw (Except GoError Unit)}
    (hk : ∀ r, KeepsTruth config t stale b (k r)) :
    KeepsTruth config t stale b (headPath path >>= k) :=
  Prog.triple_bind (onlyAsks_headPath path).truthful hk

theorem keepsTruth_chmod (path : GoString) (mode : FileMode) :
    KeepsTruth config t stale b (chmod path mode) := by
  refine keepsTruth_headPath_bind fun r => ?_
  rcases r with _ | ⟨key, info⟩
  · exact keepsTruth_pure _
  · exact keepsTruth_replaceMetadata _ _

theorem keepsTruth_chown (path : GoString) (uid gid : Int) :
    KeepsTruth config t stale b (chown path uid gid) := by
  refine keepsTruth_headPath_bind fun r => ?_
  rcases r with _ | ⟨key, info⟩
  · exact keepsTruth_pure _
  · exact keepsTruth_replaceMetadata _ _

theorem keepsTruth_setXattr (path name value : GoString) (option : UInt32) :
    KeepsTruth config t stale b (setXattr path name value option) := by
  unfold setXattr
  split
  · exact keepsTruth_pure _
  · split
    · exact keepsTruth_pure _
    · refine keepsTruth_headPath_bind fun r => ?_
      rcases r with _ | ⟨key, info⟩
      · exact keepsTruth_pure _
      · dsimp only
        split
        · exact keepsTruth_pure _
        · split
          · exact keepsTruth_pure _
          · exact keepsTruth_replaceMetadata _ _

theorem keepsTruth_removeXattr (path name : GoString) :
    KeepsTruth config t stale b (removeXattr path name) := by
  unfold removeXattr
  split
  · exact keepsTruth_pure _
  · refine keepsTruth_headPath_bind fun r => ?_
    rcases r with _ | ⟨key, info⟩
    · exact keepsTruth_pure _
    · dsimp only
      split
      · exact keepsTruth_pure _
      · exact keepsTruth_replaceMetadata _ _

/-- `Symlink` never invalidates the key it writes to. -/
theorem truthful_symlink (target linkPath : GoString) :
    Prog.Triple World.handle (Truthful config t ∅ b) (symlink target linkPath) fun _ w =>
      Truthful config t (Replaced b w.bucket) w.bucket w := by
  have hnone : ∀ w, Truthful config t ∅ b w →
      Truthful config t (Replaced b w.bucket) w.bucket w :=
    fun _ h => h.here.mono fun _ hk => hk.elim
  unfold symlink
  split
  · exact Prog.triple_pure hnone
  · split
    · exact Prog.triple_pure hnone
    · refine Prog.triple_bind (Truthful.call rfl fun _ => trivial) fun r => ?_
      cases r with
      | ok info => exact Prog.triple_pure hnone
      | error err =>
        refine truthful_mutation (.putObject _ _ _) (fun err => Prog.triple_pure hnone)
          fun w b' _ _ _ => ?_
        refine Prog.triple_bind (Truthful.call rfl fun _ => trivial) fun _ => ?_
        refine Prog.triple_pure fun w h => ?_
        rw [h.bucket]
        exact h.mono fun _ hk _ => hk.resolve_left id

/-- `Rename` invalidates both keys if it gets there. -/
theorem truthful_renameObject (what which oldKey newKey : GoString) :
    Prog.Triple World.handle (Truthful config t ∅ b) (renameObject what which oldKey newKey)
      fun r w =>
        Truthful config t {key | r ≠ .ok () ∧ key ∈ Replaced b w.bucket} w.bucket w := by
  refine truthful_mutation (.copyObject oldKey newKey) (fun err => ?_) fun w b₁ _ _ hcopy => ?_
  · exact Prog.triple_pure fun _ h => h.here.mono fun _ hk => hk.elim
  refine truthful_mutation (.deleteObject oldKey) (fun err => ?_) fun w b₂ _ _ hdelete => ?_
  · refine Prog.triple_pure fun w h => ?_
    rw [h.bucket]
    refine h.mono fun k hk _ => ⟨fun hr => ?_, hk.resolve_left id⟩
    cases hr
  · have hstale : ∀ k ∈ ∅ ∪ Replaced b b₁ ∪ Replaced b₁ b₂, hasSuffixSlash k = false →
        k ∈ insert oldKey (insert newKey (∅ : Set GoString)) := by
      rintro k ((hk | hk) | hk) -
      · exact hk.elim
      · exact Or.inr (Or.inl (replaced_subset hcopy hk))
      · exact Or.inl (replaced_subset hdelete hk)
    refine Prog.Triple.pre ?_ fun _ h => h.mono hstale
    refine Prog.triple_bind (Truthful.call rfl fun _ => trivial) fun _ => ?_
    refine Prog.triple_bind truthful_cacheInvalidate fun _ => ?_
    refine Prog.triple_bind truthful_cacheInvalidate fun _ => ?_
    refine Prog.triple_bind (Truthful.call rfl fun _ => trivial) fun _ => ?_
    refine Prog.triple_bind (Truthful.call rfl fun _ => trivial) fun _ => ?_
    refine Prog.triple_bind (Truthful.call rfl fun _ => trivial) fun _ => ?_
    refine Prog.triple_bind (Truthful.call rfl fun _ => trivial) fun _ => ?_
    exact Prog.triple_pure fun _ h => h.here.mono fun _ hk => hk.elim

theorem truthful_rename (oldpath newpath : GoString) :
    Prog.Triple World.handle (Truthful config t ∅ b) (rename oldpath newpath) fun r w =>
      Truthful config t {key | r ≠ .ok () ∧ key ∈ Replaced b w.bucket} w.bucket w := by
  refine Prog.triple_bind (Truthful.call rfl fun _ => trivial) fun r => ?_
  cases r with
  | ok info => exact truthful_renameObject _ _ _ _
  | error err =>
    refine Prog.triple_bind (Truthful.call rfl fun _ => trivial) fun r => ?_
    cases r with
    | ok info => exact truthful_renameObject _ _ _ _
    | error err => exact Prog.triple_pure fun _ h => h.here.mono fun _ hk => hk.elim

theorem keepsTruth_removeObject (what : GoString) :
    KeepsTruth config t stale b (removeObject what key) := by
  refine truthful_write (.deleteObject key) (fun err => keepsTruth_pure _)
    fun w b' _ _ => ?_
  refine Prog.triple_bind (Truthful.call rfl fun _ => trivial) fun _ => ?_
  refine Prog.triple_bind truthful_cacheInvalidate fun _ => ?_
  refine Prog.triple_bind (Truthful.call rfl fun _ => trivial) fun _ => ?_
  refine Prog.triple_bind (Truthful.call rfl fun _ => trivial) fun _ => ?_
  exact keepsTruth_pure _

theorem keepsTruth_remove (path : GoString) : KeepsTruth config t stale b (remove path) := by
  refine Prog.triple_bind (Truthful.call rfl fun _ => trivial) fun r => ?_
  cases r with
  | ok info => exact keepsTruth_removeObject _
  | error err =>
    refine Prog.triple_bind (Truthful.call rfl fun _ => trivial) fun r => ?_
    cases r with
    | ok info => exact keepsTruth_removeObject _
    | error err => exact keepsTruth_pure _

/-- `MkdirAll` may return before its invalidations, but it writes to no key of a file. -/
theorem keepsTruth_mkdirAll (path : GoString) : KeepsTruth config t stale b (mkdirAll path) := by
  refine truthful_mutation (.createDirMarker _) (fun err => keepsTruth_pure _)
    fun w b' _ _ hget => ?_
  have hstale : ∀ k ∈ stale ∪ Replaced b b', hasSuffixSlash k = false → k ∈ stale := by
    rintro k (hk | hk) hfile
    · exact hk
    · obtain ⟨o, ho, -⟩ := id hk
      have hne : s3DirKey (s3KeyFromPath path) ≠ [] :=
        replaced_subset hget hk ▸ Bucket.ne_nil_of_get ho
      have hdir : hasSuffixSlash (s3DirKey (s3KeyFromPath path)) = true :=
        hasSuffixSlash_s3DirKey fun h => hne (by rw [h]; rfl)
      rw [replaced_subset hget hk, hdir] at hfile
      cases hfile
  refine Prog.Triple.pre ?_ fun _ h => h.mono hstale
  refine Prog.triple_bind (Truthful.call rfl fun _ => trivial) fun r => ?_
  cases r with
  | error err => exact keepsTruth_pure _
  | ok inode =>
    refine Prog.triple_bind (Truthful.call rfl fun _ => trivial) fun _ => ?_
    refine Prog.triple_bind (Truthful.call rfl fun _ => trivial) fun _ => ?_
    refine Prog.triple_bind (Truthful.call rfl fun _ => trivial) fun _ => ?_
    exact keepsTruth_pure _

theorem keepsTruth_copy (srcPath dstPath : GoString) :
    KeepsTruth config t stale b (copy srcPath dstPath) := by
  refine truthful_write (.copyObject _ _) (fun err => keepsTruth_pure _)
    fun w b' _ _ => ?_
  refine Prog.triple_bind truthful_cacheInvalidate fun _ => ?_
  refine Prog.triple_bind (Truthful.call rfl fun _ => trivial) fun _ => ?_
  exact keepsTruth_pure _

/-! ## Open files -/

/-- What `Close` and `OpenFile` cache for an object they have just written. -/
theorem fileAttrs_written {data : Bytes} {w : World}
    (hr : (World.handle (.putObject key data defaultMetadata) w).1 = .ok ()) {info : FileInfo}
    (hdir : info.isDir = false) (hsize : info.size = data.length)
    (hmode : info.mode = defaultFileMode) :
    FileAttrsOf (World.handle (.putObject key data defaultMetadata) w).2.bucket key
      (cacheEntryOf key info) := by
  obtain ⟨o, ho, hdata, hmeta⟩ := World.putObject_ok hr
  refine ⟨hdir, o, ho, ?_, ?_⟩
  · rw [hdata]
    exact hsize
  · rw [hmeta, parseMode_defaultMetadata]
    exact hmode

theorem keepsTruth_createPlaceholder (path : GoString) :
    KeepsTruth config t stale b (createPlaceholder path key) := by
  refine Prog.triple_bind (Truthful.call rfl fun _ => trivial) fun r => ?_
  cases r with
  | error err => exact keepsTruth_pure _
  | ok inode =>
    refine truthful_write (.putObject key [] defaultMetadata)
      (fun err => keepsTruth_pure _) fun w b' hr hb => ?_
    subst hb
    refine Prog.triple_bind (Truthful.call rfl fun _ => trivial) fun now => ?_
    refine Prog.triple_bind (truthful_cachePut (fileAttrs_written hr rfl rfl rfl)) fun _ => ?_
    refine Prog.triple_bind (Truthful.call rfl fun _ => trivial) fun _ => ?_
    refine Prog.triple_bind (truthful_asks.newEmptyWritableFile _ _ _) fun r => ?_
    exact Prog.triple_pure fun _ h => h.2.here

theorem keepsTruth_openFile (path : GoString) (flags : Nat) :
    KeepsTruth config t stale b (openFile path flags) := by
  unfold openFile
  dsimp only
  split
  · refine Prog.triple_bind (truthful_asks.getOrCreateInode _) fun _ => ?_
    refine Prog.triple_bind truthful_asks.now fun _ => ?_
    exact keepsTruth_pure _
  · next hne =>
    refine (truthful_asks.headObject _).step fun r hr => ?_
    cases r with
    | error err =>
      dsimp only
      split
      · exact keepsTruth_createPlaceholder path
      · exact (truthful_asks.openDirectory (hasSuffixSlash_s3DirKey hne)).post fun _ _ h => h.2.here
    | ok info =>
      refine Prog.triple_bind (truthful_asks.getOrCreateInode _) fun r => ?_
      cases r with
      | error err => exact keepsTruth_pure _
      | ok inode =>
        refine Prog.triple_bind (truthful_asks.cachePut _ _ fun hfile _ => ?_) fun _ => ?_
        · exact (justified_file hfile (hr info rfl) (nameFromPath path) inode).fileAttrs hfile
        · split
          · refine Prog.triple_bind (truthful_asks.newWritableFile _ _ _) fun r => ?_
            exact Prog.triple_pure fun _ h => h.2.here
          · exact keepsTruth_pure _

theorem keepsTruth_close (f : S3WritableFile) : KeepsTruth config t stale b f.close := by
  unfold S3WritableFile.close
  split
  · exact keepsTruth_pure _
  · refine truthful_write (.putObject f.s3Key f.tmp.data defaultMetadata)
      (fun err => keepsTruth_pure _) fun w b' hr hb => ?_
    subst hb
    refine Prog.triple_bind truthful_cacheInvalidate fun _ => ?_
    refine Prog.triple_bind (Truthful.call rfl fun _ => trivial) fun _ => ?_
    refine Prog.triple_bind (Truthful.call rfl fun _ => trivial) fun _ => ?_
    refine Prog.triple_bind (Truthful.call rfl fun _ => trivial) fun now => ?_
    refine Prog.triple_bind (truthful_asks.cachePut _ _ fun _ _ => ?_) fun _ => ?_
    · exact fileAttrs_written hr rfl rfl rfl
    · exact keepsTruth_pure _

theorem keepsTruth_s3WritableFile_call (f : S3WritableFile) (op : FileOp) :
    KeepsTruth config t stale b (f.call op) := by
  have htmp : ∀ {α : Type} (act : ByteFile UInt8 → Except GoError α × ByteFile UInt8)
      (reply : Except GoError α → Reply),
      KeepsTruth config t stale b (do let (r, f) ← f.onTmp act; pure (reply r, f)) := by
    intro α act reply
    refine Prog.triple_bind (triple_onTmp (fun _ => Truthful.call rfl fun _ => trivial) f act)
      fun r => ?_
    exact Prog.triple_pure fun _ h => h.2.here
  cases op with
  | read fuel n => exact htmp _ _
  | write p => exact htmp _ _
  | seek offset whence => exact htmp _ _
  | truncate => exact keepsTruth_pure _
  | readdir count => exact keepsTruth_pure _
  | stat => exact keepsTruth_pure _
  | sync => exact keepsTruth_pure _
  | close => exact Prog.triple_bind (keepsTruth_close f) fun r => Prog.triple_pure fun _ h => h

theorem keepsTruth_s3File_truncate (f : S3File) : KeepsTruth config t stale b f.truncate := by
  unfold S3File.truncate
  split
  · exact keepsTruth_pure _
  · split
    · exact keepsTruth_pure _
    · refine truthful_write (.putObject f.s3Key [] defaultMetadata)
        (fun err => keepsTruth_pure _) fun w b' _ _ => ?_
      refine Prog.triple_bind truthful_cacheInvalidate fun _ => ?_
      refine Prog.triple_bind (Truthful.call rfl fun _ => trivial) fun _ => ?_
      exact keepsTruth_pure _

/-- Every call on an `s3File` but `Readdir`. -/
theorem keepsTruth_s3File_perform (f : S3File) {op : FileOp} (hop : ∀ count, op ≠ .readdir count) :
    KeepsTruth config t stale b (f.perform op) := by
  cases op with
  | read fuel n =>
    refine Prog.triple_bind (onlyAsks_of_fetches (fetches_s3File_read fuel f n)).truthful
      fun res => ?_
    rcases res with _ | ⟨res, f'⟩ <;> exact keepsTruth_pure _
  | truncate =>
    exact Prog.triple_bind (keepsTruth_s3File_truncate f) fun r => Prog.triple_pure fun _ h => h
  | readdir count => exact absurd rfl (hop count)
  | write p => exact keepsTruth_pure _
  | seek offset whence => exact keepsTruth_pure _
  | stat => exact keepsTruth_pure _
  | sync => exact keepsTruth_pure _
  | close => exact keepsTruth_pure _

end Truthful

/-! ## One operation -/

section Step

variable {config : CacheConfig} {t : Time} {s : Session}

theorem Truthful.readdir_step (h : Truthful config t ∅ s.world.bucket s.world) {fd : Nat}
    {f : S3File} (hfd : s.files.lookup fd = some (.s3File f)) (count : Int) :
    Truthful config t {key | AtRisk s (.file fd (.readdir count)) key}
      (s.step (.file fd (.readdir count))).world.bucket
      (s.step (.file fd (.readdir count))).world := by
  have hw : (s.step (.file fd (.readdir count))).world
      = ((f.readdir count).run World.handle s.world).2 := by
    simp only [Session.step, hfd, File.perform, S3File.perform, Prog.run_bind, Prog.run_pure]
  rw [hw]
  refine Truthful.here (truthful_readdir f count s.world ⟨?_, h.mono fun _ hk => hk.elim⟩)
  refine Prog.performs_forall fun key => Prog.performs_forall fun hkey => ?_
  by_contra hperf
  exact hkey ⟨f, hfd, hperf⟩

/-- An operation leaves no stale keys but those at risk. -/
theorem Truthful.step (h : Truthful config t ∅ s.world.bucket s.world) (op : Op) :
    Truthful config t {key | AtRisk s op key} (s.step op).world.bucket (s.step op).world := by
  have hnone : ∀ {w : World} {stale : Set GoString}, Truthful config t ∅ w.bucket w →
      Truthful config t stale w.bucket w := fun h => h.mono fun _ hk => hk.elim
  cases op with
  | openFile path flags =>
    rw [s.world_step_openFile]
    exact hnone (keepsTruth_openFile path flags s.world h)
  | file fd op =>
    cases hfd : s.files.lookup fd with
    | none =>
      have hs : s.step (.file fd op) = s := by simp only [Session.step, hfd]
      rw [hs]
      exact hnone h
    | some f =>
      cases f with
      | s3File f =>
        by_cases hop : ∃ count, op = .readdir count
        · obtain ⟨count, rfl⟩ := hop
          exact h.readdir_step hfd count
        · have hperform := keepsTruth_s3File_perform f (fun count h => hop ⟨count, h⟩) s.world h
          simp only [Session.step, hfd, File.perform, Prog.run_bind, Prog.run_pure]
          exact hnone hperform
      | s3WritableFile f =>
        simp only [Session.step, hfd, File.perform, Prog.run_bind, Prog.run_pure]
        exact hnone (keepsTruth_s3WritableFile_call f op s.world h)
  | stat path => exact hnone (truthful_asks.stat path s.world h).2.here
  | chmod path mode => exact hnone (keepsTruth_chmod path mode s.world h)
  | chown path uid gid => exact hnone (keepsTruth_chown path uid gid s.world h)
  | setXattr path name value option =>
    exact hnone (keepsTruth_setXattr path name value option s.world h)
  | listXattrs path => exact hnone ((onlyAsks_listXattrs path).truthful s.world h).here
  | removeXattr path name => exact hnone (keepsTruth_removeXattr path name s.world h)
  | symlink target linkPath => exact truthful_symlink target linkPath s.world h
  | readlink path => exact hnone ((onlyAsks_readlink path).truthful s.world h).here
  | rename oldpath newpath => exact truthful_rename oldpath newpath s.world h
  | remove path => exact hnone (keepsTruth_remove path s.world h)
  | mkdirAll path => exact hnone (keepsTruth_mkdirAll path s.world h)
  | copy srcPath dstPath => exact hnone (keepsTruth_copy srcPath dstPath s.world h)
  | evictExpired =>
    refine hnone ⟨rfl, le_begin_clock h.clock, fun mc hmc => ?_⟩
    obtain ⟨mc₀, hmc₀, rfl⟩ := Option.map_eq_some_iff.mp hmc
    have hholds := h.cache mc₀ hmc₀
    exact hholds.of_sub (MetadataCache.evictExpired_spec hholds.wf _)

theorem MetadataCache.isExpired_eq_false_iff {mc : MetadataCache} {now : Time} {e : CacheEntry} :
    mc.isExpired now e = false ↔ now - e.cachedAt ≤ mc.config.ttl e := by
  unfold isExpired CacheConfig.ttl
  grind

theorem FileCoherent.truthful (h : FileCoherent s) (hwf : ∀ mc, s.world.cache = some mc → mc.WF) :
    ∃ config, Truthful config s.world.clock ∅ s.world.bucket s.world := by
  have hholds : ∀ mc, s.world.cache = some mc →
      mc.Holds mc.config (Told mc.config s.world.clock ∅ s.world.bucket) fun _ _ => True := by
    refine fun mc hmc => ⟨hwf mc hmc, rfl, fun key e he hlive hpos hfile _ => ?_,
      fun _ _ _ => trivial⟩
    exact h mc hmc key e he hpos (MetadataCache.isExpired_eq_false_iff.mpr hlive) hfile
  cases hc : s.world.cache with
  | none =>
    refine ⟨defaultCacheConfig, rfl, Int.le_refl _, fun mc hmc => ?_⟩
    cases hc.symm.trans hmc
  | some mc =>
    refine ⟨mc.config, rfl, Int.le_refl _, fun mc' hmc' => ?_⟩
    cases hc.symm.trans hmc'
    exact hholds mc hc

end Step

end S3Gateway
