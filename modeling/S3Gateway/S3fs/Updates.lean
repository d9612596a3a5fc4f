import S3Gateway.S3fs.Session

/-!
# What an operation does to the metadata cache

Between two states of the cache, an operation on a bucket `b` forgets some keys
and learns facts about `b`. `Update b ks mc mc'` says just that: whatever `mc'`
holds is negative, or is true of `b` (`Justified`, `Lists`), or was already held
by `mc` under a key outside the invalidated keys `ks`. The relation composes, so
that an operation's effect on the cache is read off its calls (`Upd`), and every
statement about the cache over whole runs follows from it, without looking at the
operations again.
-/

namespace S3Gateway

open Lib

/-- What a cache entry for `key` says is true of the bucket: a key ending in a
slash is a directory with something at or below it, any other key a file with
these attributes. -/
def Justified (b : Bucket) (key : GoString) (e : CacheEntry) : Prop :=
  if hasSuffixSlash key then e.isDir = true ∧ ∃ k ∈ b.keys, key <+: k
  else e.isDir = false ∧ ∃ o, b.get key = some o ∧ e.size = o.data.length ∧
    e.mode = parseMode o.userMetadata false

/-- What `Readdir` takes for the name of a listing entry. -/
def entryName (pfx key : GoString) : GoString := trimSuffixSlash (trimPrefix key pfx)

/-- A prefix `Readdir` lists: the root's, or one that ends in a slash. -/
def IsDirPrefix (pfx : GoString) : Prop := pfx = [] ∨ hasSuffixSlash pfx = true

/-- A cached listing shows what the bucket has below `pfx`. -/
structure Lists (b : Bucket) (pfx : GoString) (entries : List CacheEntry) : Prop where
  dir : IsDirPrefix pfx
  keys : ∀ key, key ∈ entries.map CacheEntry.s3Key ↔ key ∈ b.listKeys pfx ∧ entryName pfx key ≠ []

/-- From `mc` to `mc'`, the keys `ks` were invalidated and facts about `b` were
learned. -/
structure UpdateFacts (b : Bucket) (ks : List GoString) (mc mc' : MetadataCache) : Prop where
  wf : mc'.WF
  config : mc'.config = mc.config
  entry : ∀ key e, mc'.entryOf key = some e →
    key ∉ ks ∧ mc.entryOf key = some e ∨ e.negative = true ∨ Justified b key e
  listing : ∀ pfx dl, mc'.dirListings.lookup pfx = some dl →
    pfx ∉ ks.map parentPrefix ∧ mc.dirListings.lookup pfx = some dl ∨ Lists b pfx dl.entries

/-- `UpdateFacts`, for a cache in order. -/
def Update (b : Bucket) (ks : List GoString) (mc mc' : MetadataCache) : Prop :=
  mc.WF → UpdateFacts b ks mc mc'

namespace Update

variable {b : Bucket} {ks ks' : List GoString} {mc mc' mc'' : MetadataCache}

/-- A cache that only forgets. -/
theorem of_sub (h : mc.WF → mc'.WF ∧ MetadataCache.Sub mc' mc) : Update b [] mc mc' := by
  intro hwf
  obtain ⟨hwf', hsub⟩ := h hwf
  exact ⟨hwf', hsub.config, fun key e he => Or.inl ⟨List.not_mem_nil, hsub.entry key e he⟩,
    fun pfx dl hl => Or.inl ⟨List.not_mem_nil, hsub.listing pfx dl hl⟩⟩

theorem refl (mc : MetadataCache) : Update b [] mc mc :=
  of_sub fun hwf => ⟨hwf, MetadataCache.Sub.refl mc⟩

theorem trans (h₁ : Update b ks mc mc') (h₂ : Update b ks' mc' mc'') :
    Update b (ks ++ ks') mc mc'' := by
  intro hwf
  have f₁ := h₁ hwf
  have f₂ := h₂ f₁.wf
  refine ⟨f₂.wf, f₂.config.trans f₁.config, fun key e he => ?_, fun pfx dl hl => ?_⟩
  · rcases f₂.entry key e he with ⟨hk, he⟩ | he
    · rcases f₁.entry key e he with ⟨hk', he⟩ | he
      · exact Or.inl ⟨by simp [hk, hk'], he⟩
      · exact Or.inr he
    · exact Or.inr he
  · rcases f₂.listing pfx dl hl with ⟨hp, hl⟩ | hl
    · rcases f₁.listing pfx dl hl with ⟨hp', hl⟩ | hl
      · exact Or.inl ⟨by simp only [List.map_append, List.mem_append, not_or]; exact ⟨hp', hp⟩, hl⟩
      · exact Or.inr hl
    · exact Or.inr hl

theorem getEntry (now : Time) (key : GoString) : Update b [] mc (mc.getEntry now key).2 :=
  of_sub fun hwf => MetadataCache.getEntry_spec hwf now key

theorem store {key : GoString} {entry : CacheEntry}
    (h : entry.negative = true ∨ Justified b key entry) : Update b [] mc (mc.store key entry) := by
  intro hwf
  obtain ⟨hwf', hconf, hlist, hnew, hold⟩ := MetadataCache.store_spec hwf key entry
  refine ⟨hwf', hconf, fun key' e he => ?_, fun pfx dl hl => ?_⟩
  · by_cases hk : key' = key
    · subst hk
      rw [hnew] at he
      cases he
      exact Or.inr h
    · exact Or.inl ⟨List.not_mem_nil, hold key' e hk he⟩
  · rw [hlist] at hl
    exact Or.inl ⟨List.not_mem_nil, hl⟩

theorem putEntry (now : Time) {key : GoString} {entry : CacheEntry} (h : Justified b key entry) :
    Update b [] mc (mc.putEntry now key entry) :=
  store (Or.inr h)

theorem putNegative (now : Time) (key : GoString) : Update b [] mc (mc.putNegative now key) :=
  store (Or.inl rfl)

theorem putDirListing (now : Time) {pfx : GoString} {entries : List CacheEntry}
    (h : Lists b pfx entries) : Update b [] mc (mc.putDirListing now pfx entries) := by
  intro hwf
  refine ⟨⟨hwf.keyed, hwf.indexed⟩, rfl, fun key e he => Or.inl ⟨List.not_mem_nil, he⟩,
    fun pfx' dl hl => ?_⟩
  have hl := (GoMap.lookup_insert_ite _ _ _ _).symm.trans hl
  split at hl
  · next hp =>
    cases hl
    exact Or.inr (hp ▸ h)
  · exact Or.inl ⟨List.not_mem_nil, hl⟩

theorem invalidate (key : GoString) : Update b [key] mc (mc.invalidate key) := by
  intro hwf
  obtain ⟨hwf', hsub, hnone, hlist⟩ := MetadataCache.invalidate_spec hwf key
  refine ⟨hwf', hsub.config, fun key' e he => Or.inl ⟨?_, hsub.entry key' e he⟩,
    fun pfx dl hl => Or.inl ⟨?_, hsub.listing pfx dl hl⟩⟩
  · rw [List.mem_singleton]
    rintro rfl
    rw [hnone] at he
    cases he
  · rw [List.map_singleton, List.mem_singleton]
    rintro rfl
    rw [hlist, AList.lookup_erase] at hl
    cases hl

theorem evictExpired (now : Time) : Update b [] mc (mc.evictExpired now) :=
  of_sub fun hwf => MetadataCache.evictExpired_spec hwf now

end Update

/-! ## Operations as updates -/

/-- S3 is reliable and holds `b`; the cache, `c` at the start, has been updated. -/
def Upd (t : Time) (c : Option MetadataCache) (b : Bucket) (ks : List GoString) (w : World) :
    Prop :=
  ∃ c', Option.Rel (Update b ks) c c' ∧ At t b c' w

section Upd

variable {t : Time} {c : Option MetadataCache} {b : Bucket} {ks : List GoString} {α : Type}

theorem At.upd {w : World} (h : At t b c w) : Upd t c b [] w := by
  refine ⟨c, ?_, h⟩
  cases c with
  | none => exact .none
  | some mc => exact .some (Update.refl mc)

/-- A call that leaves bucket and cache alone. -/
theorem Upd.bucket_eq {w : World} (h : Upd t c b ks w) : w.bucket = b := by
  obtain ⟨c', -, hat⟩ := h
  exact hat.bucket

theorem Upd.keep {p : Gw α} (h : ∀ c', Prog.Triple World.handle (At t b c') p fun _ => At t b c') :
    Prog.Triple World.handle (Upd t c b ks) p fun _ => Upd t c b ks :=
  fun w ⟨c', hc, hw⟩ => ⟨c', hc, h c' w hw⟩

/-- A call that leaves bucket and cache alone and returns something known. -/
theorem Upd.keepResult {p : Gw α} {φ : α → Prop}
    (h : ∀ c', Prog.Triple World.handle (At t b c') p fun r w => φ r ∧ At t b c' w) :
    Prog.Triple World.handle (Upd t c b ks) p fun r w => φ r ∧ Upd t c b ks w :=
  fun w ⟨c', hc, hw⟩ => ⟨(h c' w hw).1, c', hc, (h c' w hw).2⟩

/-- A call on the cache. -/
theorem Upd.update {p : Gw α} {ks' : List GoString} {f : Time → MetadataCache → MetadataCache}
    (h : ∀ c', Prog.Triple World.handle (At t b c') p fun _ w => ∃ now, At t b (c'.map (f now)) w)
    (hf : ∀ now mc, Update b ks' mc (f now mc)) :
    Prog.Triple World.handle (Upd t c b ks) p fun _ => Upd t c b (ks ++ ks') := by
  rintro w ⟨c', hc, hw⟩
  obtain ⟨now, hw'⟩ := h c' w hw
  refine ⟨_, ?_, hw'⟩
  cases hc with
  | none => exact .none
  | some h => exact .some (h.trans (hf now _))

/-- A call on the cache that invalidates nothing. -/
theorem Upd.learn {p : Gw α} {f : Time → MetadataCache → MetadataCache}
    (h : ∀ c', Prog.Triple World.handle (At t b c') p fun _ w => ∃ now, At t b (c'.map (f now)) w)
    (hf : ∀ now mc, Update b [] mc (f now mc)) :
    Prog.Triple World.handle (Upd t c b ks) p fun _ => Upd t c b ks := by
  simpa only [List.append_nil] using @Upd.update t c b ks α p [] f h hf

theorem Upd.headObject (key : GoString) :
    Prog.Triple World.handle (Upd t c b ks) (Prog.call (.headObject key))
      fun r w => r = b.headObject key ∧ Upd t c b ks w :=
  Upd.keepResult fun _ => triple_headObject key

theorem Upd.listObjects (pfx : GoString) :
    Prog.Triple World.handle (Upd t c b ks) (Prog.call (.listObjects pfx))
      fun r w => r = .ok (b.listObjects pfx) ∧ Upd t c b ks w :=
  Upd.keepResult fun _ => triple_listObjects pfx

theorem Upd.getOrCreateInode (key : GoString) :
    Prog.Triple World.handle (Upd t c b ks) (Prog.call (.getOrCreateInode key))
      fun _ => Upd t c b ks :=
  Upd.keep fun _ => triple_getOrCreateInode key

theorem Upd.now :
    Prog.Triple World.handle (Upd t c b ks) (Prog.call .now) fun _ => Upd t c b ks :=
  Upd.keep fun _ => triple_now

theorem Upd.cachePut {key : GoString} {info : FileInfo}
    (h : Justified b key (cacheEntryOf key info)) :
    Prog.Triple World.handle (Upd t c b ks) (cachePut key info) fun _ => Upd t c b ks :=
  Upd.learn (fun _ => triple_cachePut key info) (fun now _ => Update.putEntry now h)

theorem Upd.cachePutNegative (key : GoString) :
    Prog.Triple World.handle (Upd t c b ks) (cachePutNegative key) fun _ => Upd t c b ks :=
  Upd.learn (fun _ => triple_cachePutNegative key) (fun now _ => Update.putNegative now key)

theorem Upd.cacheInvalidate (key : GoString) :
    Prog.Triple World.handle (Upd t c b ks) (cacheInvalidate key)
      fun _ => Upd t c b (ks ++ [key]) :=
  Upd.update (f := fun _ mc => mc.invalidate key)
    (fun _ w hw => ⟨0, triple_cacheInvalidate key w hw⟩) (fun _ _ => Update.invalidate key)

theorem Upd.cacheInvalidateParent (key : GoString) :
    Prog.Triple World.handle (Upd t c b ks) (cacheInvalidateParent key)
      fun _ => Upd t c b (ks ++ [parentPrefix key]) :=
  Upd.cacheInvalidate (parentPrefix key)

theorem Upd.putDirListing {pfx : GoString} {entries : List CacheEntry} (h : Lists b pfx entries) :
    Prog.Triple World.handle (Upd t c b ks) (Prog.call (.putDirListing pfx entries))
      fun _ => Upd t c b ks :=
  Upd.learn (fun _ => triple_putDirListing pfx entries) (fun now _ => Update.putDirListing now h)

end Upd

end S3Gateway
