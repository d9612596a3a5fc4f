import S3Gateway.S3fs.Xattr

/-!
# Calls on a reliable S3

Most statements about the gateway assume that S3 answers: a call fails only
because its key is absent or empty. `At t b c` is the assertion for reasoning
under that assumption: no call is failed by the transport, the bucket is exactly
`b`, the metadata cache exactly `c`, and the time is at least `t`. Each call has
one rule that says what it returns and what becomes of `b` and `c`; whatever the
call does to handles, data cache and clock is left open.
-/

namespace S3Gateway

open Lib

/-- The transport fails no call. -/
def World.NoFaults (w : World) : Prop := ∀ n, (w.env n).fault = .none

theorem World.NoFaults.outcome {w : World} (h : w.NoFaults) : w.outcome.fault = .none := h w.calls

/-- S3 is reliable and holds `b`, the metadata cache is `c`, the time is at
least `t`. -/
structure At (t : Time) (b : Bucket) (c : Option MetadataCache) (w : World) : Prop where
  noFaults : w.NoFaults
  bucket : w.bucket = b
  cache : w.cache = c
  clock : t ≤ w.clock

namespace At

variable {t : Time} {b : Bucket} {c : Option MetadataCache} {w : World}

theorem begin (h : At t b c w) : At t b c w.begin :=
  ⟨h.noFaults, h.bucket, h.cache,
    Int.le_trans h.clock (Int.le_add_of_nonneg_right (Int.natCast_nonneg _))⟩

theorem fault (h : At t b c w) : w.outcome.fault = .none := h.noFaults.outcome

theorem answer (h : At t b c w) {α : Type} (r : Except GoError α) :
    World.answer w.outcome r = r := by
  rw [World.answer, h.fault]
  rfl

theorem mutate (h : At t b c w) (r : Except GoError Unit × Bucket) :
    (w.begin.mutate w.outcome r).1 = r.1 ∧ At t r.2 c (w.begin.mutate w.outcome r).2 := by
  rw [World.mutate, h.fault]
  exact ⟨rfl, h.begin.noFaults, rfl, h.begin.cache, h.begin.clock⟩

theorem onHandles (h : At t b c w) {α : Type} (r : α × HandleStore) :
    At t b c (w.begin.onHandles r).2 :=
  ⟨h.noFaults, h.bucket, h.cache, h.begin.clock⟩

theorem onCache (h : At t b c w) {α : Type} (dflt : α)
    (f : MetadataCache → α × MetadataCache) :
    (w.begin.onCache dflt f).1 = (c.map fun mc => (f mc).1).getD dflt ∧
      At t b (c.map fun mc => (f mc).2) (w.begin.onCache dflt f).2 := by
  have hc := h.begin.cache
  unfold World.onCache
  cases c with
  | none =>
    rw [hc]
    exact ⟨rfl, h.begin⟩
  | some mc =>
    rw [hc]
    exact ⟨rfl, h.noFaults, h.bucket, rfl, h.begin.clock⟩

theorem onDataCache (h : At t b c w) {α : Type} (dflt : α)
    (f : DataCache → Option (α × DataCache)) : At t b c (w.begin.onDataCache dflt f).2 := by
  unfold World.onDataCache
  split
  · exact h.begin
  · split <;> exact ⟨h.noFaults, h.bucket, h.cache, h.begin.clock⟩

end At

section Rules

variable {t : Time} {b : Bucket} {c : Option MetadataCache}

/-! ## S3 -/

theorem triple_headObject (key : GoString) :
    Prog.Triple World.handle (At t b c) (Prog.call (.headObject key))
      fun r w => r = b.headObject key ∧ At t b c w := by
  intro w h
  exact ⟨(h.answer _).trans (by rw [World.begin_bucket, h.bucket]), h.begin⟩

theorem triple_listObjects (pfx : GoString) :
    Prog.Triple World.handle (At t b c) (Prog.call (.listObjects pfx))
      fun r w => r = .ok (b.listObjects pfx) ∧ At t b c w := by
  intro w h
  exact ⟨(h.answer _).trans (by rw [World.begin_bucket, h.bucket]), h.begin⟩

theorem triple_getObject (key : GoString) :
    Prog.Triple World.handle (At t b c) (Prog.call (.getObject key)) fun _ => At t b c :=
  fun _ h => h.begin

theorem triple_getObjectRange (key : GoString) (offset length : Int) :
    Prog.Triple World.handle (At t b c) (Prog.call (.getObjectRange key offset length))
      fun _ => At t b c :=
  fun _ h => ⟨h.noFaults, h.bucket, h.cache, h.begin.clock⟩

theorem triple_putObject (key : GoString) (data : Bytes) (metadata : Metadata) :
    Prog.Triple World.handle (At t b c) (Prog.call (.putObject key data metadata))
      fun r w => ∃ now etag, r = (b.putObject key ⟨data, metadata, now, etag⟩).1 ∧
        At t (b.putObject key ⟨data, metadata, now, etag⟩).2 c w := by
  intro w h
  refine ⟨w.begin.clock, w.outcome.etag, ?_⟩
  rw [← h.bucket]
  exact h.mutate _

theorem triple_createDirMarker (key : GoString) :
    Prog.Triple World.handle (At t b c) (Prog.call (.createDirMarker key))
      fun r w => ∃ now etag, r = (b.putObject key ⟨[], ∅, now, etag⟩).1 ∧
        At t (b.putObject key ⟨[], ∅, now, etag⟩).2 c w := by
  intro w h
  refine ⟨w.begin.clock, w.outcome.etag, ?_⟩
  rw [← h.bucket]
  exact h.mutate _

theorem triple_deleteObject (key : GoString) :
    Prog.Triple World.handle (At t b c) (Prog.call (.deleteObject key))
      fun r w => r = (b.deleteObject key).1 ∧ At t (b.deleteObject key).2 c w := by
  intro w h
  rw [← h.bucket]
  exact h.mutate _

theorem triple_copyObject (srcKey dstKey : GoString) :
    Prog.Triple World.handle (At t b c) (Prog.call (.copyObject srcKey dstKey))
      fun r w => ∃ now etag, r = (b.copyObject srcKey dstKey now etag).1 ∧
        At t (b.copyObject srcKey dstKey now etag).2 c w := by
  intro w h
  refine ⟨w.begin.clock, w.outcome.etag, ?_⟩
  rw [← h.bucket]
  exact h.mutate _

theorem triple_copyObjectWithMetadata (key : GoString) (metadata : Metadata) :
    Prog.Triple World.handle (At t b c) (Prog.call (.copyObjectWithMetadata key metadata))
      fun r w => ∃ now etag, r = (b.copyObjectWithMetadata key metadata now etag).1 ∧
        At t (b.copyObjectWithMetadata key metadata now etag).2 c w := by
  intro w h
  refine ⟨w.begin.clock, w.outcome.etag, ?_⟩
  rw [← h.bucket]
  exact h.mutate _

/-! ## Handles, temp files, clock, data cache -/

theorem triple_getOrCreateInode (key : GoString) :
    Prog.Triple World.handle (At t b c) (Prog.call (.getOrCreateInode key)) fun _ => At t b c :=
  fun _ h => h.onHandles _

theorem triple_removeByKey (key : GoString) :
    Prog.Triple World.handle (At t b c) (Prog.call (.removeByKey key)) fun _ => At t b c :=
  fun _ h => h.onHandles _

theorem triple_renameKey (oldKey newKey : GoString) :
    Prog.Triple World.handle (At t b c) (Prog.call (.renameKey oldKey newKey)) fun _ => At t b c :=
  fun _ h => h.onHandles _

theorem triple_createTemp :
    Prog.Triple World.handle (At t b c) (Prog.call .createTemp) fun _ => At t b c :=
  fun _ h => h.begin

theorem triple_now : Prog.Triple World.handle (At t b c) (Prog.call .now) fun _ => At t b c :=
  fun _ h => h.begin

theorem triple_dataCacheInvalidate (key : GoString) :
    Prog.Triple World.handle (At t b c) (dataCacheInvalidate key) fun _ => At t b c :=
  fun _ h => h.onDataCache _ _

theorem triple_dataGet (key etag : GoString) :
    Prog.Triple World.handle (At t b c) (Prog.call (.dataGet key etag)) fun _ => At t b c :=
  fun _ h => h.onDataCache _ _

theorem triple_dataPut (key etag : GoString) (data : Bytes) :
    Prog.Triple World.handle (At t b c) (Prog.call (.dataPut key etag data)) fun _ => At t b c :=
  fun _ h => h.onDataCache _ _

/-! ## The metadata cache -/

theorem triple_getEntry (key : GoString) :
    Prog.Triple World.handle (At t b c) (Prog.call (.getEntry key))
      fun _ w => ∃ now, At t b (c.map fun mc => (mc.getEntry now key).2) w :=
  fun w h => ⟨w.begin.clock, (h.onCache none fun mc => mc.getEntry w.begin.clock key).2⟩

theorem triple_cachePut (key : GoString) (info : FileInfo) :
    Prog.Triple World.handle (At t b c) (cachePut key info)
      fun _ w => ∃ now, At t b (c.map (·.putEntry now key (cacheEntryOf key info))) w :=
  fun w h => ⟨w.begin.clock, (h.onCache () fun mc =>
    ((), mc.putEntry w.begin.clock key (cacheEntryOf key info))).2⟩

theorem triple_cachePutNegative (key : GoString) :
    Prog.Triple World.handle (At t b c) (cachePutNegative key)
      fun _ w => ∃ now, At t b (c.map (·.putNegative now key)) w :=
  fun w h => ⟨w.begin.clock, (h.onCache () fun mc => ((), mc.putNegative w.begin.clock key)).2⟩

theorem triple_cacheInvalidate (key : GoString) :
    Prog.Triple World.handle (At t b c) (cacheInvalidate key)
      fun _ => At t b (c.map (·.invalidate key)) :=
  fun _ h => (h.onCache () fun mc => ((), mc.invalidate key)).2

theorem triple_getDirListing (pfx : GoString) :
    Prog.Triple World.handle (At t b c) (Prog.call (.getDirListing pfx)) fun _ => At t b c := by
  intro w h
  have := (h.onCache none fun mc => (mc.getDirListing w.begin.clock pfx, mc)).2
  rwa [Option.map_id'] at this

theorem triple_putDirListing (pfx : GoString) (entries : List CacheEntry) :
    Prog.Triple World.handle (At t b c) (Prog.call (.putDirListing pfx entries))
      fun _ w => ∃ now, At t b (c.map (·.putDirListing now pfx entries)) w :=
  fun w h => ⟨w.begin.clock, (h.onCache () fun mc =>
    ((), mc.putDirListing w.begin.clock pfx entries)).2⟩

end Rules

end S3Gateway
