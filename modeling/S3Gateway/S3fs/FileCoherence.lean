import S3Gateway.S3fs.Steps

/-!
# Cached file attributes over whole runs

On a reliable S3 that only the gateway writes to, a cached entry for a file is
true of the object as it is now, in every state of every run. Each operation that
replaces or drops a file object invalidates that object's key, so an entry that
survives a step is about an object the step left alone (`Framed.objects`), and an
entry that a step adds is about the bucket the step ends with (`Update.entry`).
-/

namespace S3Gateway

open Lib

/-- A gateway that has just started: no file is open and the metadata cache, if
there is one, is empty. Bucket, inodes, data cache and clock are arbitrary, and
no call to S3 is going to fail. -/
structure Session.Fresh (s : Session) : Prop where
  noFaults : s.world.NoFaults
  files : s.files = ∅
  cache : ∀ mc, s.world.cache = some mc → ∃ config, mc = newMetadataCache config

theorem Session.Fresh.ok {s : Session} (h : s.Fresh) : s.Ok := by
  refine ⟨h.noFaults, fun fd f hf => ?_⟩
  rw [h.files] at hf
  cases hf

theorem Session.Fresh.wf {s : Session} (h : s.Fresh) {mc : MetadataCache}
    (hmc : s.world.cache = some mc) : mc.WF := by
  obtain ⟨config, rfl⟩ := h.cache mc hmc
  exact MetadataCache.wf_newMetadataCache config

/-- What a cached entry for a file says is true of the object: it is no
directory, and size and mode are the object's. -/
def FileAttrsOf (b : Bucket) (key : GoString) (e : CacheEntry) : Prop :=
  e.isDir = false ∧ ∃ o, b.get key = some o ∧ e.size = o.data.length ∧
    e.mode = parseMode o.userMetadata false

/-- Each positive unexpired entry for a key that does not end in a slash is true
of the bucket. -/
def FileCoherent (s : Session) : Prop :=
  ∀ mc, s.world.cache = some mc → ∀ key e, mc.entryOf key = some e → e.negative = false →
    mc.isExpired s.world.clock e = false → hasSuffixSlash key = false →
    FileAttrsOf s.world.bucket key e

/-- The invariant behind `FileCoherent`: expiry plays no part in it. -/
structure FileInv (s : Session) : Prop where
  ok : s.Ok
  wf : ∀ mc, s.world.cache = some mc → mc.WF
  entries : ∀ mc, s.world.cache = some mc → ∀ key e, mc.entryOf key = some e →
    e.negative = false → hasSuffixSlash key = false → FileAttrsOf s.world.bucket key e

theorem Session.Fresh.fileInv {s : Session} (h : s.Fresh) : FileInv s := by
  refine ⟨h.ok, fun mc hmc => h.wf hmc, fun mc hmc key e he => ?_⟩
  obtain ⟨config, rfl⟩ := h.cache mc hmc
  cases he

/-- The cache after a step is an update of the cache before. -/
theorem Effect.update {s s' : Session} {ks : List GoString} (h : Effect s s' ks)
    {mc' : MetadataCache} (hmc' : s'.world.cache = some mc') :
    ∃ mc, s.world.cache = some mc ∧ Update s'.world.bucket ks mc mc' := by
  have hrel := h.cache
  rw [hmc'] at hrel
  generalize s.world.cache = c at hrel
  cases hrel with
  | some hu => exact ⟨_, rfl, hu⟩

theorem FileInv.step {s : Session} (h : FileInv s) (op : Op) : FileInv (s.step op) := by
  obtain ⟨ks, -, heff⟩ := Session.step_effect h.ok op
  refine ⟨heff.ok, fun mc' hmc' => ?_, fun mc' hmc' key e he hpos hfile => ?_⟩
  · obtain ⟨mc, hmc, hu⟩ := heff.update hmc'
    exact (hu (h.wf mc hmc)).wf
  · obtain ⟨mc, hmc, hu⟩ := heff.update hmc'
    rcases (hu (h.wf mc hmc)).entry key e he with ⟨hk, he'⟩ | hneg | hjust
    · -- the entry is older than the step, which therefore left its object alone
      obtain ⟨hdir, o, ho, hattrs⟩ := h.entries mc hmc key e he' hpos hfile
      exact ⟨hdir, o, heff.framed.objects key o hfile hk ho, hattrs⟩
    · rw [hneg] at hpos
      cases hpos
    · rwa [Justified, hfile] at hjust

/-- A cached `Stat` of a file never lies: in every state of every run of a
gateway that starts with an empty cache, each positive unexpired entry for a file
has the size and the mode of the object. -/
theorem fileCoherent_throughout {s : Session} (hs : s.Fresh) (ops : List Op) :
    Throughout Session.step FileCoherent s ops :=
  throughout_of_invariant (fun _ op h => h.step op)
    (fun _ h mc hmc key e he hpos _ hfile => h.entries mc hmc key e he hpos hfile) hs.fileInv ops

theorem Session.fresh_start (b : Bucket) : (Session.start b).Fresh :=
  ⟨fun _ => rfl, rfl, fun _ h => ⟨defaultCacheConfig, (Option.some.inj h).symm⟩⟩

/-- A file is created, written, closed and looked at, which leaves a cache entry
of its size. -/
theorem fileCoherent_create_write_stat :
    Throughout Session.step FileCoherent (.start .empty)
      [.openFile (gs "/f") oCREATE, .file 0 (.write [1, 2, 3]), .file 0 .close,
        .stat (gs "/f")] ∧
    (([.openFile (gs "/f") oCREATE, .file 0 (.write [1, 2, 3]), .file 0 .close,
        .stat (gs "/f")].foldl Session.step (.start .empty)).world.cache.bind
          (·.entryOf (gs "f"))).map (·.size) = some 3 :=
  ⟨fileCoherent_throughout (Session.fresh_start .empty) _, by decide⟩

end S3Gateway
