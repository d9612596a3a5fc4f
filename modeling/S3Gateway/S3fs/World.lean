import S3Gateway.Lib.Prog
import S3Gateway.Cache.Data
import S3Gateway.S3fs.Handle

/-!
# The services behind `S3FS`

`S3FS` (`internal/s3fs/filesystem.go`) holds no state of its own: its methods
talk to S3, to the handle store, to the two caches, to the local temp directory
and to the clock. Each such call is an effect `Eff`, and a method is a program
over `Eff`. A cache that is `nil` answers every call like an empty one that
stores nothing, which is what the `nil` checks of `cache_integration.go` and
`reader.go` amount to.

`World` is the state of the services. What is not the gateway's choice is the
`Outcome` of each call, read off the schedule `env` at the call's number: how the
transport treats it, the ETag of an upload, whether a bbolt transaction commits
or a temp file can be created, and how much time passes. Statements quantify over
`env`.
-/

namespace S3Gateway

open Lib

/-- The environment's part in one call. -/
structure Outcome where
  fault : Fault
  /-- The ETag S3 gives to an object this call writes. -/
  etag : GoString
  /-- Whether the bbolt transaction of this call commits. -/
  commit : Bool
  /-- Whether `os.CreateTemp` succeeds. -/
  tmpOk : Bool
  /-- Whether opening a cached file succeeds, if it is there. -/
  openOk : Bool
  putFailure : Option PutFailure
  /-- The time that passes before the call. -/
  elapsed : Nat

/-- A call on which nothing goes wrong. -/
def Outcome.fine : Outcome :=
  { fault := .none, etag := [], commit := true, tmpOk := true, openOk := true
    putFailure := none, elapsed := 0 }

/-- A ranged download, as it was requested and answered. -/
structure RangeCall where
  key : GoString
  offset : Int
  length : Int
  reply : Except GoError Body

/-- The services the gateway talks to. -/
structure World where
  bucket : Bucket
  handles : HandleStore
  /-- `S3FS.cache`, which may be `nil`. -/
  cache : Option MetadataCache
  /-- `S3FS.dataCache`, which may be `nil`. -/
  dataCache : Option DataCache
  clock : Time
  env : Nat → Outcome
  /-- The number of calls so far. -/
  calls : Nat
  /-- The ranged downloads so far, newest first. -/
  ranges : List RangeCall
  /-- Whether a call has panicked. -/
  crashed : Bool

/-- The services of a gateway that has just been started on a bucket, with an
empty database and an empty metadata cache, when nothing is going to fail. -/
def World.start (b : Bucket) : World :=
  { bucket := b, handles := (HandleStore.newHandleStore .empty true).get rfl
    cache := some (newMetadataCache defaultCacheConfig), dataCache := none, clock := 0
    env := fun _ => .fine, calls := 0, ranges := [], crashed := false }

/-- The calls the methods of `S3FS` and of its files make. -/
inductive Eff : Type → Type where
  | headObject (key : GoString) : Eff (Except GoError ObjectInfo)
  | getObject (key : GoString) : Eff (Except GoError Body)
  | getObjectRange (key : GoString) (offset length : Int) : Eff (Except GoError Body)
  | listObjects (pfx : GoString) : Eff (Except GoError (List ListEntry))
  | putObject (key : GoString) (data : Bytes) (metadata : Metadata) : Eff (Except GoError Unit)
  | deleteObject (key : GoString) : Eff (Except GoError Unit)
  | copyObject (srcKey dstKey : GoString) : Eff (Except GoError Unit)
  | copyObjectWithMetadata (key : GoString) (metadata : Metadata) : Eff (Except GoError Unit)
  | createDirMarker (key : GoString) : Eff (Except GoError Unit)
  | getOrCreateInode (s3Key : GoString) : Eff (Except GoError UInt64)
  | removeByKey (s3Key : GoString) : Eff (Except GoError Unit)
  | renameKey (oldKey newKey : GoString) : Eff (Except GoError Unit)
  | getEntry (s3Key : GoString) : Eff (Option CacheEntry)
  | putEntry (s3Key : GoString) (entry : CacheEntry) : Eff Unit
  | putNegative (s3Key : GoString) : Eff Unit
  | invalidate (s3Key : GoString) : Eff Unit
  | getDirListing (pfx : GoString) : Eff (Option (List CacheEntry))
  | putDirListing (pfx : GoString) (entries : List CacheEntry) : Eff Unit
  | dataGet (s3Key etag : GoString) : Eff (Option Bytes)
  | dataPut (s3Key etag : GoString) (data : Bytes) : Eff (Except GoError Unit)
  | dataInvalidate (s3Key : GoString) : Eff Unit
  | createTemp : Eff (Except GoError Unit)
  | now : Eff Time

/-- Whether the call may change the bucket. -/
def Eff.writesBucket {β : Type} : Eff β → Bool
  | .putObject .. | .deleteObject .. | .copyObject .. | .copyObjectWithMetadata ..
  | .createDirMarker .. => true
  | _ => false

/-- What the call does to the handle store. -/
def Eff.onHandles {β : Type} (commit : Bool) : Eff β → HandleStore → HandleStore
  | .getOrCreateInode s3Key, s => (s.getOrCreateInode s3Key commit).2
  | .removeByKey s3Key, s => (s.removeByKey s3Key commit).2
  | .renameKey oldKey newKey, s => (s.renameKey oldKey newKey commit).2
  | _, s => s

/-- What the call does to the metadata cache. -/
def Eff.onCache {β : Type} (now : Time) : Eff β → MetadataCache → MetadataCache
  | .getEntry s3Key, mc => (mc.getEntry now s3Key).2
  | .putEntry s3Key entry, mc => mc.putEntry now s3Key entry
  | .putNegative s3Key, mc => mc.putNegative now s3Key
  | .invalidate s3Key, mc => mc.invalidate s3Key
  | .putDirListing pfx entries, mc => mc.putDirListing now pfx entries
  | _, mc => mc

/-- Whether the call stores attributes or a listing in the metadata cache. -/
def Eff.learns {β : Type} : Eff β → Bool
  | .putEntry .. | .putDirListing .. => true
  | _ => false

/-- What the call stores in the metadata cache satisfies `J` and `L`. -/
def Eff.Caches {β : Type} (now : Time) (J : GoString → CacheEntry → Prop)
    (L : GoString → DirListingEntry → Prop) : Eff β → Prop
  | .putEntry s3Key entry => J s3Key { entry with cachedAt := now, negative := false }
  | .putNegative s3Key =>
    J s3Key { CacheEntry.zero with s3Key := s3Key, cachedAt := now, negative := true }
  | .putDirListing pfx entries => L pfx ⟨entries, now⟩
  | _ => True

theorem MetadataCache.Holds.onCache {config : CacheConfig} {J : GoString → CacheEntry → Prop}
    {L : GoString → DirListingEntry → Prop} {mc : MetadataCache} (h : mc.Holds config J L)
    {now : Time} {β : Type} {e : Eff β} (he : e.Caches now J L) :
    (e.onCache now mc).Holds config J L := by
  cases e
  case getEntry key => exact h.of_sub (getEntry_spec h.wf now key)
  case putEntry => exact h.store he
  case putNegative => exact h.store he
  case invalidate key =>
    obtain ⟨hwf, hsub, -, -⟩ := invalidate_spec h.wf key
    exact h.of_sub ⟨hwf, hsub⟩
  case putDirListing => exact h.putDirListing he
  all_goals exact h

namespace World

/-- The outcome of the next call. -/
def outcome (w : World) : Outcome := w.env w.calls

/-- The world once the next call has begun. -/
def begin (w : World) : World :=
  { w with calls := w.calls + 1, clock := w.clock + w.outcome.elapsed }

/-- What a call that S3 would answer with `r` returns. -/
def answer {α : Type} (o : Outcome) (r : Except GoError α) : Except GoError α :=
  match o.fault.callError with
  | some err => .error err
  | none => r

/-- A call that changes the bucket. A failing one has no effect. -/
def mutate (w : World) (o : Outcome) (r : Except GoError Unit × Bucket) :
    Except GoError Unit × World :=
  match o.fault.callError with
  | some err => (.error err, w)
  | none => (r.1, { w with bucket := r.2 })

/-- A call on the handle store. -/
def onHandles {α : Type} (w : World) (r : α × HandleStore) : α × World :=
  (r.1, { w with handles := r.2 })

/-- A call on the metadata cache; `dflt` is what a `nil` cache answers. -/
def onCache {α : Type} (w : World) (dflt : α) (f : MetadataCache → α × MetadataCache) :
    α × World :=
  match w.cache with
  | none => (dflt, w)
  | some mc => ((f mc).1, { w with cache := some (f mc).2 })

/-- A call on the data cache; `dflt` is what a `nil` cache answers. -/
def onDataCache {α : Type} (w : World) (dflt : α) (f : DataCache → Option (α × DataCache)) :
    α × World :=
  match w.dataCache with
  | none => (dflt, w)
  | some dc =>
    match f dc with
    | some (a, dc) => (a, { w with dataCache := some dc })
    | none => (dflt, { w with crashed := true })

/-- The services answer a call. -/
def handle : Handler Eff World := fun e w =>
  let o := w.outcome
  let w := w.begin
  match e with
  | .headObject key => (answer o (w.bucket.headObject key), w)
  | .getObject key => (answer o ((w.bucket.getObject key).map o.fault.deliver), w)
  | .getObjectRange key offset length =>
    let reply := answer o ((w.bucket.getObjectRange key offset length).map o.fault.deliver)
    (reply, { w with ranges := ⟨key, offset, length, reply⟩ :: w.ranges })
  | .listObjects pfx => (answer o (.ok (w.bucket.listObjects pfx)), w)
  | .putObject key data metadata =>
    w.mutate o (w.bucket.putObject key
      { data, userMetadata := metadata, lastModified := w.clock, etag := o.etag })
  | .deleteObject key => w.mutate o (w.bucket.deleteObject key)
  | .copyObject srcKey dstKey => w.mutate o (w.bucket.copyObject srcKey dstKey w.clock o.etag)
  | .copyObjectWithMetadata key metadata =>
    w.mutate o (w.bucket.copyObjectWithMetadata key metadata w.clock o.etag)
  | .createDirMarker key =>
    w.mutate o (w.bucket.putObject key
      { data := [], userMetadata := ∅, lastModified := w.clock, etag := o.etag })
  | .getOrCreateInode s3Key => w.onHandles (w.handles.getOrCreateInode s3Key o.commit)
  | .removeByKey s3Key => w.onHandles (w.handles.removeByKey s3Key o.commit)
  | .renameKey oldKey newKey => w.onHandles (w.handles.renameKey oldKey newKey o.commit)
  | .getEntry s3Key => w.onCache none fun mc => mc.getEntry w.clock s3Key
  | .putEntry s3Key entry => w.onCache () fun mc => ((), mc.putEntry w.clock s3Key entry)
  | .putNegative s3Key => w.onCache () fun mc => ((), mc.putNegative w.clock s3Key)
  | .invalidate s3Key => w.onCache () fun mc => ((), mc.invalidate s3Key)
  | .getDirListing pfx => w.onCache none fun mc => (mc.getDirListing w.clock pfx, mc)
  | .putDirListing pfx entries => w.onCache () fun mc => ((), mc.putDirListing w.clock pfx entries)
  | .dataGet s3Key etag => w.onDataCache none fun dc => dc.get w.clock o.openOk s3Key etag
  | .dataPut s3Key etag data =>
    w.onDataCache (.ok ()) fun dc => dc.put w.clock o.putFailure s3Key etag data
  | .dataInvalidate s3Key =>
    w.onDataCache () fun dc => (dc.invalidate s3Key).map fun dc => ((), dc)
  | .createTemp => (if o.tmpOk then .ok () else .error (.errno (gs "open")), w)
  | .now => (w.clock, w)

/-! ## What a call leaves alone -/

@[simp] theorem begin_bucket (w : World) : w.begin.bucket = w.bucket := rfl

/-- What a call leaves alone, and what it does to the handle store and the metadata
cache. -/
structure Frame (w : World) {β : Type} (e : Eff β) (w' : World) : Prop where
  env : w'.env = w.env
  bucket : e.writesBucket = false → w'.bucket = w.bucket
  handles : w'.handles = e.onHandles w.outcome.commit w.handles
  cache : w'.cache = w.cache.map (e.onCache w.begin.clock)
  dataCache : w.dataCache = none → w'.dataCache = none

section Frame

variable {w : World} {α β : Type} {e : Eff β}

theorem frame_mutate (hwrites : e.writesBucket = true)
    (hhandles : e.onHandles w.outcome.commit w.handles = w.handles)
    (hcache : e.onCache w.begin.clock = id) (o : Outcome) (r : Except GoError Unit × Bucket) :
    w.Frame e (w.begin.mutate o r).2 := by
  have hmap : w.cache = w.cache.map (e.onCache w.begin.clock) := by rw [hcache, Option.map_id, id]
  have hbucket : ∀ b, w.Frame e { w.begin with bucket := b } := by
    intro b
    refine ⟨rfl, fun h => ?_, hhandles.symm, hmap, id⟩
    rw [hwrites] at h
    cases h
  unfold mutate
  split
  · exact hbucket w.bucket
  · exact hbucket r.2

theorem frame_onCache (hhandles : e.onHandles w.outcome.commit w.handles = w.handles) (dflt : α)
    {f : MetadataCache → α × MetadataCache}
    (hcache : e.onCache w.begin.clock = fun mc => (f mc).2) :
    w.Frame e (w.begin.onCache dflt f).2 := by
  have hmap : (w.begin.onCache dflt f).2
      = { w.begin with cache := w.cache.map (e.onCache w.begin.clock) } := by
    rw [hcache]
    unfold onCache
    split
    · next h =>
      have hnone : w.cache = none := h
      rw [hnone, Option.map_none, ← h]
    · next h =>
      have hsome : w.cache = some _ := h
      rw [hsome, Option.map_some]
  rw [hmap]
  exact ⟨rfl, fun _ => rfl, hhandles.symm, rfl, id⟩

theorem frame_onDataCache (hhandles : e.onHandles w.outcome.commit w.handles = w.handles)
    (hcache : e.onCache w.begin.clock = id) (dflt : α) (f : DataCache → Option (α × DataCache)) :
    w.Frame e (w.begin.onDataCache dflt f).2 := by
  have hmap : w.cache = w.cache.map (e.onCache w.begin.clock) := by rw [hcache, Option.map_id, id]
  unfold onDataCache
  split
  · exact ⟨rfl, fun _ => rfl, hhandles.symm, hmap, id⟩
  · next dc hdc =>
    have hsome : w.dataCache = some dc := hdc
    have hnil : w.dataCache ≠ none := by simp [hsome]
    split
    · exact ⟨rfl, fun _ => rfl, hhandles.symm, hmap, fun h => absurd h hnil⟩
    · exact ⟨rfl, fun _ => rfl, hhandles.symm, hmap, id⟩

end Frame

theorem handle_frame {β : Type} (e : Eff β) (w : World) : w.Frame e (handle e w).2 := by
  cases e
  case putObject => exact frame_mutate rfl rfl rfl _ _
  case deleteObject => exact frame_mutate rfl rfl rfl _ _
  case copyObject => exact frame_mutate rfl rfl rfl _ _
  case copyObjectWithMetadata => exact frame_mutate rfl rfl rfl _ _
  case createDirMarker => exact frame_mutate rfl rfl rfl _ _
  case getEntry => exact frame_onCache rfl _ rfl
  case putEntry => exact frame_onCache rfl _ rfl
  case putNegative => exact frame_onCache rfl _ rfl
  case invalidate => exact frame_onCache rfl _ rfl
  case getDirListing => exact frame_onCache rfl _ rfl
  case putDirListing => exact frame_onCache rfl _ rfl
  case dataGet => exact frame_onDataCache rfl rfl _ _
  case dataPut => exact frame_onDataCache rfl rfl _ _
  case dataInvalidate => exact frame_onDataCache rfl rfl _ _
  -- the rest touches the handle store at most
  all_goals exact ⟨rfl, fun _ => rfl, rfl, Option.map_id'.symm, id⟩

/-- The schedule is never changed. -/
@[simp] theorem handle_env {β : Type} (e : Eff β) (w : World) : (handle e w).2.env = w.env :=
  (handle_frame e w).env

/-- Only five calls change the bucket. -/
theorem handle_bucket {β : Type} {e : Eff β} (h : e.writesBucket = false) (w : World) :
    (handle e w).2.bucket = w.bucket :=
  (handle_frame e w).bucket h

/-- The handle store after a call. -/
theorem handle_handles {β : Type} (e : Eff β) (w : World) :
    (handle e w).2.handles = e.onHandles w.outcome.commit w.handles :=
  (handle_frame e w).handles

/-- The metadata cache after a call. -/
theorem handle_cache {β : Type} (e : Eff β) (w : World) :
    (handle e w).2.cache = w.cache.map (e.onCache w.begin.clock) :=
  (handle_frame e w).cache

/-- The metadata cache may hold what the calls store. -/
theorem handle_holds {config : CacheConfig} {J : GoString → CacheEntry → Prop}
    {L : GoString → DirListingEntry → Prop} {w : World}
    (h : ∀ mc, w.cache = some mc → mc.Holds config J L) {β : Type} {e : Eff β}
    (he : e.Caches w.begin.clock J L) :
    ∀ mc, (handle e w).2.cache = some mc → mc.Holds config J L := by
  intro mc' hmc'
  rw [handle_cache] at hmc'
  obtain ⟨mc, hmc, rfl⟩ := Option.map_eq_some_iff.mp hmc'
  exact (h mc hmc).onCache he

/-- Apart from its effect, a call takes a number and time. -/
theorem handle_begin {β : Type} (e : Eff β) (w : World) :
    ∃ bucket handles cache dataCache ranges crashed, (handle e w).2
      = { w.begin with bucket, handles, cache, dataCache, ranges, crashed } := by
  have hmutate : ∀ r, ∃ bucket handles cache dataCache ranges crashed,
      (w.begin.mutate w.outcome r).2
        = { w.begin with bucket, handles, cache, dataCache, ranges, crashed } := by
    intro r
    unfold mutate
    split <;> exact ⟨_, _, _, _, _, _, rfl⟩
  have hcache : ∀ {α : Type} (dflt : α) f, ∃ bucket handles cache dataCache ranges crashed,
      (w.begin.onCache dflt f).2
        = { w.begin with bucket, handles, cache, dataCache, ranges, crashed } := by
    intro α dflt f
    unfold onCache
    split <;> exact ⟨_, _, _, _, _, _, rfl⟩
  have hdata : ∀ {α : Type} (dflt : α) f, ∃ bucket handles cache dataCache ranges crashed,
      (w.begin.onDataCache dflt f).2
        = { w.begin with bucket, handles, cache, dataCache, ranges, crashed } := by
    intro α dflt f
    unfold onDataCache
    split
    · exact ⟨_, _, _, _, _, _, rfl⟩
    · split <;> exact ⟨_, _, _, _, _, _, rfl⟩
  cases e
  case putObject => exact hmutate _
  case deleteObject => exact hmutate _
  case copyObject => exact hmutate _
  case copyObjectWithMetadata => exact hmutate _
  case createDirMarker => exact hmutate _
  case getEntry => exact hcache _ _
  case putEntry => exact hcache _ _
  case putNegative => exact hcache _ _
  case invalidate => exact hcache _ _
  case getDirListing => exact hcache _ _
  case putDirListing => exact hcache _ _
  case dataGet => exact hdata _ _
  case dataPut => exact hdata _ _
  case dataInvalidate => exact hdata _ _
  all_goals exact ⟨_, _, _, _, _, _, rfl⟩

/-- Time passes only before a call. -/
theorem handle_clock {β : Type} (e : Eff β) (w : World) :
    (handle e w).2.clock = w.begin.clock := by
  obtain ⟨_, _, _, _, _, _, h⟩ := handle_begin e w
  rw [h]

theorem handle_calls {β : Type} (e : Eff β) (w : World) :
    (handle e w).2.calls = w.calls + 1 := by
  obtain ⟨_, _, _, _, _, _, h⟩ := handle_begin e w
  rw [h]
  rfl

/-- What a call returns that is not an error is what S3 would answer. -/
theorem answer_ok {α : Type} {o : Outcome} {r : Except GoError α} {a : α}
    (h : answer o r = .ok a) : r = .ok a := by
  unfold answer at h
  split at h
  · cases h
  · exact h

theorem headObject_ok {w : World} {key : GoString} {info : ObjectInfo}
    (h : (handle (.headObject key) w).1 = .ok info) : w.bucket.headObject key = .ok info :=
  answer_ok h

theorem listObjects_ok {w : World} {pfx : GoString} {entries : List ListEntry}
    (h : (handle (.listObjects pfx) w).1 = .ok entries) : entries = w.bucket.listObjects pfx :=
  (Except.ok.inj (answer_ok h)).symm

theorem putObject_ok {w : World} {key : GoString} {data : Bytes} {metadata : Metadata}
    (h : (handle (.putObject key data metadata) w).1 = .ok ()) :
    ∃ o, (handle (.putObject key data metadata) w).2.bucket.get key = some o ∧ o.data = data ∧
      o.userMetadata = metadata := by
  have hput : ∀ r : Except GoError Unit × Bucket, (w.begin.mutate w.outcome r).1 = .ok () →
      r.1 = .ok () ∧ (w.begin.mutate w.outcome r).2.bucket = r.2 := by
    intro r hr
    unfold mutate at hr ⊢
    split at hr
    · cases hr
    · exact ⟨hr, rfl⟩
  obtain ⟨hok, hbucket⟩ := hput _ h
  by_cases hk : key = []
  · subst hk
    rw [Bucket.putObject_nil] at hok
    cases hok
  · rw [Bucket.putObject_of_ne _ hk] at hbucket
    refine ⟨⟨data, metadata, w.begin.clock, w.outcome.etag⟩, ?_, rfl, rfl⟩
    show (mutate _ _ _).2.bucket.get key = _
    rw [Bucket.putObject_of_ne _ hk, hbucket]
    exact Bucket.get_put_self _ _ _ hk

/-- What the metadata cache answers. -/
theorem onCache_fst {α : Type} (w : World) (f : MetadataCache → Option α × MetadataCache) :
    (w.onCache none f).1 = w.cache.bind fun mc => (f mc).1 := by
  unfold onCache
  cases w.cache <;> rfl

theorem getEntry_some {w : World} {key : GoString} {e : CacheEntry}
    (h : (handle (.getEntry key) w).1 = some e) :
    ∃ mc, w.cache = some mc ∧ (mc.getEntry w.begin.clock key).1 = some e :=
  Option.bind_eq_some_iff.mp ((onCache_fst w.begin _).symm.trans h)

theorem getDirListing_some {w : World} {pfx : GoString} {entries : List CacheEntry}
    (h : (handle (.getDirListing pfx) w).1 = some entries) :
    ∃ mc, w.cache = some mc ∧ mc.getDirListing w.begin.clock pfx = some entries :=
  Option.bind_eq_some_iff.mp ((onCache_fst w.begin _).symm.trans h)

/-- A data cache that is `nil` stays so. -/
theorem handle_dataCache_eq_none {β : Type} (e : Eff β) {w : World} (h : w.dataCache = none) :
    (handle e w).2.dataCache = none :=
  (handle_frame e w).dataCache h

theorem onDataCache_eq_none {α : Type} {w : World} (h : w.dataCache = none) (dflt : α)
    (f : DataCache → Option (α × DataCache)) : w.onDataCache dflt f = (dflt, w) := by
  unfold onDataCache
  rw [h]

/-- What a call on the data cache returns and leaves there, if it is one that keeps
`I` and returns `φ`. -/
theorem onDataCache_spec {α : Type} {w : World} {I : DataCache → Prop} {φ : α → Prop} {dflt : α}
    {f : DataCache → Option (α × DataCache)} (hI : ∀ dc, w.dataCache = some dc → I dc)
    (hdflt : φ dflt)
    (hf : ∀ dc a dc', I dc → f dc = some (a, dc') → I dc' ∧ φ a) :
    φ (w.onDataCache dflt f).1 ∧
      ∃ dataCache crashed, (w.onDataCache dflt f).2 = { w with dataCache, crashed } ∧
        ∀ dc, dataCache = some dc → I dc := by
  unfold onDataCache
  cases hdc : w.dataCache with
  | none => exact ⟨hdflt, _, _, rfl, hI⟩
  | some dc =>
    dsimp only
    cases hres : f dc with
    | none => exact ⟨hdflt, _, _, rfl, fun dc' hdc' => hI dc' (hdc.trans hdc')⟩
    | some res =>
      obtain ⟨hkeep, ha⟩ := hf dc res.1 res.2 (hI dc hdc) hres
      refine ⟨ha, _, _, rfl, fun dc' hdc' => ?_⟩
      cases hdc'
      exact hkeep

end World

/-- A program over the services. -/
abbrev Gw (α : Type) := Prog Eff α

end S3Gateway
