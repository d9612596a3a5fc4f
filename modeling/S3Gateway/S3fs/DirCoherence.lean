import S3Gateway.S3fs.FileCoherence

/-!
# Cached directory knowledge over whole runs

A cached listing of a directory shows what S3 would list as long as no step
changes what is below the directory without invalidating the listing. The
operations do not all take care of that: creating a file invalidates the entry of
its parent and, with it, the listing of the *grand*parent, but not the listing
the new file should appear in (`cacheInvalidateParent` passes the parent's key to
`Invalidate`, which drops the listing of that key's parent). Likewise an object
deep in the tree makes directories appear and disappear at every level above.

`Op.Covers` is the condition on a step: whatever live listing or directory entry
the step makes wrong, it invalidates. Under it the cache is right in every state
of a run; `create_leaves_listing_stale` is a run that misses it.
-/

namespace S3Gateway

open Lib

/-- The cached listing of `pfx` shows what `ListObjects` would return, apart from
`pfx` itself. -/
def ListsNow (b : Bucket) (pfx : GoString) (entries : List CacheEntry) : Prop :=
  ∀ key, key ∈ entries.map CacheEntry.s3Key ↔ key ∈ b.listKeys pfx ∧ key ≠ pfx

/-- There is an object at or below the directory key `dir`. -/
def HasObject (b : Bucket) (dir : GoString) : Prop := ∃ key ∈ b.keys, dir <+: key

/-- Each unexpired listing shows what is below its prefix, and each positive
unexpired entry of a directory has an object at or below it. -/
def DirCoherent (s : Session) : Prop :=
  ∀ mc, s.world.cache = some mc →
    (∀ pfx dl, mc.dirListings.lookup pfx = some dl →
      mc.listingExpired s.world.clock dl = false → ListsNow s.world.bucket pfx dl.entries) ∧
    (∀ dir e, mc.entryOf dir = some e → e.negative = false →
      mc.isExpired s.world.clock e = false → hasSuffixSlash dir = true →
      HasObject s.world.bucket dir)

/-- The step invalidates every listing and every directory entry that it makes
wrong and that does not expire during the step: a listing when the keys below its
prefix change, a directory entry when the last object at or below it goes. -/
def Op.Covers (s : Session) (op : Op) : Prop :=
  ∀ mc, s.world.cache = some mc →
    (∀ pfx dl, mc.dirListings.lookup pfx = some dl →
      mc.listingExpired (s.step op).world.clock dl = false →
      pfx ∈ (op.invalidates s).map parentPrefix ∨
      ∀ key, key ≠ pfx →
        (key ∈ (s.step op).world.bucket.listKeys pfx ↔ key ∈ s.world.bucket.listKeys pfx)) ∧
    (∀ dir e, mc.entryOf dir = some e → e.negative = false →
      mc.isExpired (s.step op).world.clock e = false → hasSuffixSlash dir = true →
      dir ∈ op.invalidates s ∨
      (HasObject s.world.bucket dir → HasObject (s.step op).world.bucket dir))

/-! ## Names of listing entries -/

/-- Behind a directory prefix, a tidy key shows a name unless it is the prefix. -/
theorem entryName_childOf {pfx rest : GoString} (h : tidyFrom true rest = true) :
    entryName pfx (Bucket.childOf pfx (pfx ++ rest)) ≠ [] ↔
      Bucket.childOf pfx (pfx ++ rest) ≠ pfx := by
  have htrim : ∀ tail, trimPrefix (pfx ++ tail) pfx = tail := by
    intro tail
    simp [trimPrefix, hasPrefix]
  unfold Bucket.childOf entryName
  dsimp only
  rw [List.drop_left]
  split
  · next hslash =>
    -- a directory: its name is the part before the first slash, which is not empty
    rw [List.append_assoc, htrim, trimSuffixSlash, hasSuffixSlash_concat, if_pos rfl,
      List.dropLast_concat]
    cases rest with
    | nil => exact absurd hslash List.not_mem_nil
    | cons x xs =>
      have hx : x ≠ slash := by
        rintro rfl
        simp [tidyFrom] at h
      simp [hx]
  · next hslash =>
    have hlast : hasSuffixSlash rest = false := by
      rw [hasSuffixSlash, beq_eq_false_iff_ne]
      exact fun hl => hslash (List.mem_of_getLast? hl)
    rw [htrim, trimSuffixSlash, hlast]
    simp

theorem entryName_ne_nil_iff {b : Bucket} (hb : ∀ key ∈ b.keys, Tidy key) {pfx child : GoString}
    (hp : IsDirPrefix pfx) (h : child ∈ b.listKeys pfx) : entryName pfx child ≠ [] ↔ child ≠ pfx := by
  obtain ⟨key, hkey, ⟨rest, rfl⟩, rfl⟩ := Bucket.mem_listKeys.mp h
  exact entryName_childOf (tidyFrom_of_append hp (hb _ hkey))

theorem Lists.now {b : Bucket} (hb : ∀ key ∈ b.keys, Tidy key) {pfx : GoString}
    {entries : List CacheEntry} (h : Lists b pfx entries) : ListsNow b pfx entries := by
  intro key
  rw [h.keys]
  exact and_congr_right fun hkey => entryName_ne_nil_iff hb h.dir hkey

/-! ## Runs -/

/-- The invariant behind `DirCoherent`. -/
structure DirInv (s : Session) : Prop where
  ok : s.Ok
  wf : ∀ mc, s.world.cache = some mc → mc.WF
  tidy : ∀ key ∈ s.world.bucket.keys, Tidy key
  coherent : DirCoherent s

theorem ListsNow.congr {b b' : Bucket} {pfx : GoString} {entries : List CacheEntry}
    (h : ListsNow b pfx entries)
    (hb : ∀ key, key ≠ pfx → (key ∈ b'.listKeys pfx ↔ key ∈ b.listKeys pfx)) :
    ListsNow b' pfx entries := by
  intro key
  rw [h key]
  exact and_congr_left fun hne => (hb key hne).symm

theorem DirInv.step {s : Session} (h : DirInv s) {op : Op} (hop : op.Covers s) :
    DirInv (s.step op) := by
  obtain ⟨ks, hks, heff⟩ := Session.step_effect h.ok op
  have htidy : ∀ key ∈ (s.step op).world.bucket.keys, Tidy key :=
    fun key hkey => (heff.framed.keys key hkey).elim (h.tidy key) id
  refine ⟨heff.ok, fun mc' hmc' => ?_, htidy, fun mc' hmc' => ?_⟩
  · obtain ⟨mc, hmc, hu⟩ := heff.update hmc'
    exact (hu (h.wf mc hmc)).wf
  obtain ⟨mc, hmc, hu⟩ := heff.update hmc'
  have hu := hu (h.wf mc hmc)
  obtain ⟨hlistings, hdirs⟩ := h.coherent mc hmc
  obtain ⟨hcovL, hcovD⟩ := hop mc hmc
  refine ⟨fun pfx dl hl hlive => ?_, fun dir e he hpos hlive hdir => ?_⟩
  · rcases hu.listing pfx dl hl with ⟨hp, hl⟩ | hl
    · -- the listing is older than the step
      have hold := hlistings pfx dl hl
        (MetadataCache.listingExpired_of_le hu.config heff.clock hlive)
      rcases hks with ⟨rfl, hb⟩ | rfl
      · rwa [hb]
      · have hlive' := MetadataCache.listingExpired_of_le hu.config (Int.le_refl _) hlive
        exact hold.congr ((hcovL pfx dl hl hlive').resolve_left hp)
    · exact hl.now htidy
  · rcases hu.entry dir e he with ⟨hk, he⟩ | hneg | hjust
    · have hold := hdirs dir e he hpos
        (MetadataCache.isExpired_of_le hu.config heff.clock hlive) hdir
      rcases hks with ⟨rfl, hb⟩ | rfl
      · rwa [hb]
      · have hlive' := MetadataCache.isExpired_of_le hu.config (Int.le_refl _) hlive
        exact (hcovD dir e he hpos hlive' hdir).resolve_left hk hold
    · rw [hneg] at hpos
      cases hpos
    · rw [Justified, hdir] at hjust
      exact hjust.2

end S3Gateway
