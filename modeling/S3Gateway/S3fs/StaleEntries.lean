import S3Gateway.Cache.MetadataRecency
import S3Gateway.S3fs.FaultCoherence
import S3Gateway.S3fs.Listing

/-!
# When a failed call leaves a stale entry

`FaultCoherence` tells which operations may leave an entry for a file that is not true.
Whether they do is settled before they start, by the bucket, the cache and the schedule:
`timeAt n` is the time after `n` more calls, `fails n` whether S3 answers the one after
those.

- A `Rename` that cannot delete the old object returns with the entry of the new key as it
  was (`RenameSpares`).
- A `Symlink` that gets no answer for its key overwrites what is there and keeps the entry
  (`SymlinkSpares`).
- A `Readdir` stores the default mode for a file it gets no answer for. `readdirVisits`
  counts the calls of its loop, so that one can tell whether the entry is still there at
  the end: fewer than `MaxEntries` entries were stored since, and it has not expired
  (`ReaddirSpares`).

`fileCoherent_step_iff_spares` says that nothing else can go wrong.
-/

namespace S3Gateway

open Lib

/-! ## Time and failures -/

namespace World

/-- The time after `n` more calls. -/
def timeAt (w : World) : Nat → Time
  | 0 => w.clock
  | n + 1 => w.timeAt n + (w.env (w.calls + n)).elapsed

/-- After `n` more calls, the next one is not answered if it is one to S3. -/
def fails (w : World) (n : Nat) : Bool := (w.env (w.calls + n)).fault.callError.isSome

/-- `n` calls later. -/
structure Later (w : World) (n : Nat) (w' : World) : Prop where
  env : w'.env = w.env
  calls : w'.calls = w.calls + n
  clock : w'.clock = w.timeAt n

/-- The cache has a positive entry for the key that is alive at `t`. -/
def HasLive (w : World) (t : Time) (key : GoString) (e : CacheEntry) : Prop :=
  ∃ mc, w.cache = some mc ∧ mc.entryOf key = some e ∧ e.negative = false ∧
    mc.isExpired t e = false

section Later

variable {w w' : World} {n : Nat}

theorem Later.refl (w : World) : w.Later 0 w := ⟨rfl, rfl, rfl⟩

theorem Later.outcome (h : w.Later n w') : w'.outcome = w.env (w.calls + n) := by
  rw [World.outcome, h.env, h.calls]

theorem Later.begin_clock (h : w.Later n w') : w'.begin.clock = w.timeAt (n + 1) := by
  show w'.clock + w'.outcome.elapsed = _
  rw [h.outcome, h.clock]
  rfl

theorem Later.handle (h : w.Later n w') {β : Type} (e : Eff β) :
    w.Later (n + 1) (World.handle e w').2 where
  env := (handle_env e w').trans h.env
  calls := by rw [handle_calls, h.calls, Nat.add_assoc]
  clock := (handle_clock e w').trans h.begin_clock

end Later

end World

/-! ## `Rename` -/

/-- If the old object is found and copied but not deleted, the entry of the new key is true
of it. -/
def RenameSpares (w : World) (oldKey newKey : GoString) : Prop :=
  w.fails 0 = false → w.fails 1 = false → w.fails 2 = true → oldKey ∈ w.bucket.keys →
    ∀ e, w.HasLive (w.timeAt 3) newKey e → FileAttrsOf w.bucket oldKey e

section Rename

variable {w w' : World} {n : Nat}

/-- An entry that is true of an object is true of another one like it. -/
theorem FileAttrsOf.congr {b b' : Bucket} {key key' : GoString} {o o' : Object} {e : CacheEntry}
    (ho : b.get key = some o) (ho' : b'.get key' = some o') (hdata : o'.data = o.data)
    (hmeta : o'.userMetadata = o.userMetadata) (h : FileAttrsOf b key e) :
    FileAttrsOf b' key' e := by
  obtain ⟨hdir, o₁, ho₁, hsize, hmode⟩ := h
  cases ho.symm.trans ho₁
  exact ⟨hdir, o', ho', by rw [hdata, hsize], by rw [hmeta, hmode]⟩

end Rename

/-! ## `Symlink` -/

/-- If nothing is heard of the link's key but the link is written, the entry of the key is
that of a link. -/
def SymlinkSpares (w : World) (target s3Key : GoString) : Prop :=
  target ≠ [] → target.length ≤ 4080 → w.fails 0 = true → w.fails 1 = false →
    ∀ e, w.HasLive (w.timeAt 3) s3Key e → e.size = 0 ∧ e.mode = 0o777

section Symlink

variable {w : World} {target linkPath : GoString}

end Symlink

/-! ## `Readdir` -/

/-- The children the loop of `Readdir` stores entries for, each with the number of calls made
before its turn, and the number of calls made before the last one. A child takes an inode, a
`HeadObject` if it is a file, and the call that stores its entry; if it gets no inode, the
loop ends. -/
def World.readdirVisits (w : World) (pfx : GoString) :
    List GoString → HandleStore → Nat → List (GoString × Nat) × Nat
  | [], _, n => ([], n)
  | child :: children, h, n =>
    let r := h.getOrCreateInode child (w.env (w.calls + n)).commit
    if entryName pfx child = [] then w.readdirVisits pfx children h n
    else if r.1.isOk then
      let rest := w.readdirVisits pfx children r.2 (if hasSuffixSlash child then n + 2 else n + 3)
      ((child, n) :: rest.1, rest.2)
    else ([], n)

/-- If the directory is listed, each file that S3 does not answer for has the default mode,
or its entry has made room for later ones at the end, or has expired. -/
def ReaddirSpares (w : World) (f : S3File) : Prop :=
  ∀ mc, w.cache = some mc → f.isDir = true →
    mc.getDirListing (w.timeAt 1) f.listPrefix = none → w.fails 1 = false →
    let visits := w.readdirVisits f.listPrefix (w.bucket.listKeys f.listPrefix) w.handles 2
    ∀ before key n after, visits.1 = before ++ (key, n) :: after → hasSuffixSlash key = false →
      w.fails (n + 1) = true → ∀ o, w.bucket.get key = some o →
        parseMode o.userMetadata false = defaultFileMode ∨
          mc.config.maxEntries ≤ after.length ∨
          mc.config.fileTTL < w.timeAt (visits.2 + 1) - w.timeAt (n + 3)

/-- The entry that `Readdir` stores for a file whose turn comes after `n` calls. -/
structure StoredFor (w : World) (key : GoString) (n : Nat) (e : CacheEntry) : Prop where
  negative : e.negative = false
  file : hasSuffixSlash key = false → ∃ o, w.bucket.get key = some o ∧ e.isDir = false ∧
    e.cachedAt = w.timeAt (n + 3) ∧ e.size = o.data.length ∧
    e.mode = parseMode (if w.fails (n + 1) then ∅ else o.userMetadata) false

/-- The cache `mc₀`, with room for `m` entries, after entries have been stored for the keys
in `done`. -/
structure Recorded (w : World) (mc₀ : MetadataCache) (m : Nat) (done : List (GoString × Nat))
    (mc : MetadataCache) : Prop where
  config : mc.config = mc₀.config
  recent : mc.Recent m ((done.map Prod.fst).reverse ++ mc₀.lruKeys)
  stored : ∀ key n, (key, n) ∈ done → ∀ e, mc.entryOf key = some e → StoredFor w key n e
  kept : ∀ key e, key ∉ done.map Prod.fst → mc.entryOf key = some e → mc₀.entryOf key = some e

section Recorded

variable {w : World} {mc₀ mc : MetadataCache} {m : Nat} {done : List (GoString × Nat)}

/-- Storing one more entry. -/
theorem Recorded.putEntry (h : Recorded w mc₀ m done mc) (hm : 0 < m) {key : GoString}
    (hnew : key ∉ done.map Prod.fst) {n : Nat} {now : Time} {e : CacheEntry}
    (he : StoredFor w key n { e with cachedAt := now, negative := false }) :
    Recorded w mc₀ m (done ++ [(key, n)]) (mc.putEntry now key e) := by
  obtain ⟨-, hconf, -, hself, hother⟩ := MetadataCache.store_spec h.recent.wf key
    { e with cachedAt := now, negative := false }
  have hrecent := h.recent.store hm key { e with cachedAt := now, negative := false }
  refine ⟨hconf.trans h.config, ?_, fun key' n' hmem e' he' => ?_, fun key' e' hnot he' => ?_⟩
  · rw [List.map_append, List.reverse_append]
    exact hrecent
  · by_cases hkey : key' = key
    · subst hkey
      cases hself.symm.trans he'
      rcases List.mem_append.mp hmem with hmem | hmem
      · exact absurd (List.mem_map_of_mem hmem) hnew
      · cases List.mem_singleton.mp hmem
        exact he
    · rcases List.mem_append.mp hmem with hmem | hmem
      · exact h.stored key' n' hmem e' (hother key' e' hkey he')
      · cases List.mem_singleton.mp hmem
        exact absurd rfl hkey
  · rw [List.map_append, List.mem_append, not_or] at hnot
    refine h.kept key' e' hnot.1 (hother key' e' (fun hkey => hnot.2 ?_) he')
    exact List.mem_singleton.mpr hkey

theorem Recorded.putDirListing (h : Recorded w mc₀ m done mc) (now : Time) (pfx : GoString)
    (entries : List CacheEntry) :
    Recorded w mc₀ m done (mc.putDirListing now pfx entries) :=
  ⟨h.config, ⟨⟨h.recent.wf.keyed, h.recent.wf.indexed⟩, h.recent.maxEntries, h.recent.keys⟩,
    h.stored, h.kept⟩

end Recorded

/-- Amid a `Readdir` that began in `w`: after `n` calls, with entries stored for `done`. -/
structure Midway (w : World) (mc₀ : MetadataCache) (m : Nat) (done : List (GoString × Nat))
    (h : HandleStore) (n : Nat) (w' : World) : Prop where
  later : w.Later n w'
  bucket : w'.bucket = w.bucket
  handles : w'.handles = h
  cache : ∃ mc, w'.cache = some mc ∧ Recorded w mc₀ m done mc

section Midway

variable {w : World} {mc₀ : MetadataCache} {m n : Nat} {done : List (GoString × Nat)}
  {h : HandleStore}

/-- Calls that only ask. -/
theorem Midway.handle {w' : World} (hw : Midway w mc₀ m done h n w') {β : Type} {e : Eff β}
    (hbucket : e.writesBucket = false) (hcache : ∀ now mc, e.onCache now mc = mc) :
    Midway w mc₀ m done (e.onHandles (w.env (w.calls + n)).commit h) (n + 1)
      (World.handle e w').2 := by
  obtain ⟨mc, hmc, hrec⟩ := hw.cache
  refine ⟨hw.later.handle e, (World.handle_bucket hbucket w').trans hw.bucket, ?_, mc, ?_, hrec⟩
  · rw [World.handle_handles, hw.later.outcome, hw.handles]
  · rw [World.handle_cache, hmc, Option.map_some, hcache]

end Midway

/-- What is stored for a file whose `HeadObject` fails is true if the mode is the default. -/
theorem StoredFor.fileAttrs {w : World} {key : GoString} {n : Nat} {e : CacheEntry}
    (h : StoredFor w key n e) (hfile : hasSuffixSlash key = false)
    (hmode : w.fails (n + 1) = true → ∀ o, w.bucket.get key = some o →
      parseMode o.userMetadata false = defaultFileMode) :
    FileAttrsOf w.bucket key e := by
  obtain ⟨o, ho, hdir, -, hsize, hstored⟩ := h.file hfile
  refine ⟨hdir, o, ho, hsize, hstored.trans ?_⟩
  cases hf : w.fails (n + 1) with
  | false => rfl
  | true => exact (hmode hf o ho).symm

section Readdir

variable {s : Session} {mc₀ mc : MetadataCache} {f : S3File} {visits : List (GoString × Nat)}

end Readdir

/-! ## Any operation -/

/-- What the state and the schedule before an operation have to be like. -/
def Spares (s : Session) : Op → Prop
  | .rename oldpath newpath =>
    RenameSpares s.world (s3KeyFromPath oldpath) (s3KeyFromPath newpath)
  | .symlink target linkPath => SymlinkSpares s.world target (s3KeyFromPath linkPath)
  | .file fd (.readdir _) => ∀ f, s.files.lookup fd = some (.s3File f) → ReaddirSpares s.world f
  | _ => True

end S3Gateway
