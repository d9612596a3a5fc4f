import S3Gateway.S3fs.Directories

/-!
# What exists, with a metadata cache and with creation

Two methods decide whether a path other than the root exists. `Stat` may answer from
the metadata cache: it believes a positive entry for the file or for the directory and
nothing else, so a negative entry never hides what S3 has (`stat_absent_iff`).

`OpenFile` asks S3 for the file only, and creates it if it is missing and any of the
three write flags is set. It therefore creates files that were not asked for and files
next to a directory of the same name, and it leaves the new object behind when the temp
file cannot be created afterwards (`createsAsAsked_iff`).
-/

namespace S3Gateway

open Lib

/-! ## `Stat` with a metadata cache -/

/-- At `now`, the metadata cache has a positive entry for the key that has not expired. -/
def World.Cached (w : World) (now : Time) (key : GoString) : Prop :=
  ∃ mc, w.cache = some mc ∧ ∃ e, mc.entryOf key = some e ∧ e.negative = false ∧
    mc.isExpired now e = false

/-- The handle store has an inode for the key, or would allocate one. -/
def World.Allocates (w : World) (key : GoString) : Prop :=
  ∀ n, ∃ inode, (w.handles.getOrCreateInode key (w.env n).commit).1 = .ok inode

/-- What the lookup in the cache answers. -/
theorem getEntry_reply (w : World) (key : GoString) :
    (World.handle (.getEntry key) w).1 = w.cache.bind fun mc =>
      (mc.entryOf key).filter fun e => !mc.isExpired w.begin.clock e := by
  refine (w.begin.onCache_fst _).trans (congrArg _ (funext fun mc => ?_))
  exact mc.getEntry_fst w.begin.clock key

theorem positive_reply_iff {w : World} {key : GoString} :
    (∃ e, (World.handle (.getEntry key) w).1 = some e ∧ e.negative = false) ↔
      w.Cached w.begin.clock key := by
  rw [getEntry_reply]
  constructor
  · rintro ⟨e, he, hpos⟩
    obtain ⟨mc, hmc, he⟩ := Option.bind_eq_some_iff.mp he
    obtain ⟨he, hexp⟩ := Option.filter_eq_some_iff.mp he
    exact ⟨mc, hmc, e, he, hpos, by simpa using hexp⟩
  · rintro ⟨mc, hmc, e, he, hpos, hexp⟩
    refine ⟨e, Option.bind_eq_some_iff.mpr ⟨mc, hmc, ?_⟩, hpos⟩
    exact Option.filter_eq_some_iff.mpr ⟨he, by simpa using hexp⟩

/-- A positive entry is believed. -/
theorem cacheGet_of_cached {w : World} {key : GoString} (h : w.Cached w.begin.clock key)
    (halloc : w.Allocates key) :
    ∃ fi, ((cacheGet key).run World.handle w).1 = some (some fi) := by
  obtain ⟨e, he, hpos⟩ := positive_reply_iff.mpr h
  have hhandles : (World.handle (.getEntry key) w).2.handles = w.handles := World.handle_handles _ w
  obtain ⟨inode, hinode⟩ := halloc (World.handle (.getEntry key) w).2.calls
  have hreply : (World.handle (.getOrCreateInode key) (World.handle (.getEntry key) w).2).1
      = .ok inode := by
    rw [← hinode, ← hhandles, ← World.handle_env (.getEntry key) w]
    rfl
  unfold cacheGet
  rw [Prog.run_bind, Prog.run_call, he]
  dsimp only
  rw [hpos, if_neg Bool.false_ne_true, Prog.run_bind, Prog.run_call, hreply]
  exact ⟨_, rfl⟩

/-- Otherwise the answer is left to S3, and only the entry looked at may have been
dropped. -/
theorem cacheGet_of_not_cached {w : World} {key : GoString} (h : ¬ w.Cached w.begin.clock key) :
    (∀ fi, ((cacheGet key).run World.handle w).1 ≠ some (some fi)) ∧
      ((cacheGet key).run World.handle w).2 = (World.handle (.getEntry key) w).2 := by
  unfold cacheGet
  rw [Prog.run_bind, Prog.run_call]
  cases hreply : (World.handle (.getEntry key) w).1 with
  | none => exact ⟨nofun, rfl⟩
  | some e =>
    cases hneg : e.negative with
    | false => exact absurd (positive_reply_iff.mp ⟨e, hreply, hneg⟩) h
    | true =>
      dsimp only
      rw [hneg, if_pos rfl]
      exact ⟨nofun, rfl⟩

/-- Looking at one key does not change what is cached for another. -/
theorem cached_getEntry_iff {w : World} {key key' : GoString} (hne : key' ≠ key) {now : Time} :
    (World.handle (.getEntry key) w).2.Cached now key' ↔ w.Cached now key' := by
  unfold World.Cached
  rw [World.handle_cache]
  cases w.cache with
  | none => rfl
  | some mc =>
    have hentry : (mc.getEntry w.begin.clock key).2.entryOf key' = mc.entryOf key' :=
      mc.entryOf_getEntry_of_ne w.begin.clock hne
    have hconf : (mc.getEntry w.begin.clock key).2.config = mc.config := by
      unfold MetadataCache.getEntry
      split
      · rfl
      · split
        · rfl
        · split <;> rfl
    simp only [Option.map_some, Option.some.injEq, exists_eq_left', Eff.onCache, hentry,
      MetadataCache.isExpired, hconf]

theorem s3DirKey_ne_s3KeyFromPath {path : GoString} (hk : s3KeyFromPath path ≠ []) :
    s3DirKey (s3KeyFromPath path) ≠ s3KeyFromPath path := by
  intro heq
  have hdir := hasSuffixSlash_s3DirKey hk
  rw [heq, hasSuffixSlash_s3KeyFromPath] at hdir
  cases hdir

/-- `Stat` once the file has no positive entry. -/
theorem statDir_absent_iff {w : World} (hf : w.NoFaults) {path : GoString}
    (hdir : w.Allocates (s3DirKey (s3KeyFromPath path))) :
    ((statDir path (s3KeyFromPath path) (s3DirKey (s3KeyFromPath path))).run World.handle w).1
        = .error .errNotExist ↔
      ¬ w.Cached w.begin.clock (s3DirKey (s3KeyFromPath path)) ∧ Absent w.bucket path := by
  unfold statDir
  rw [Prog.run_bind]
  by_cases hcached : w.Cached w.begin.clock (s3DirKey (s3KeyFromPath path))
  · obtain ⟨fi, hfi⟩ := cacheGet_of_cached hcached hdir
    rw [hfi]
    exact iff_of_false nofun fun h => h.1 hcached
  · obtain ⟨hmiss, hw⟩ := cacheGet_of_not_cached hcached
    rw [hw]
    generalize ((cacheGet (s3DirKey (s3KeyFromPath path))).run World.handle w).1 = r at hmiss
    -- what S3 is asked does not depend on the cache
    have hat : At w.clock w.bucket w.cache w := ⟨hf, rfl, rfl, le_refl _⟩
    obtain ⟨now, hat⟩ := triple_getEntry (s3DirKey (s3KeyFromPath path)) w hat
    have hs3 := statS3_errNotExist_iff path _ hat
    rcases r with _ | _ | fi
    · exact hs3.trans (and_iff_right hcached).symm
    · exact hs3.trans (and_iff_right hcached).symm
    · exact absurd rfl (hmiss fi)

/-- `Stat` says that a path does not exist exactly if the cache has no positive entry for
the file or the directory when it looks, and S3 has nothing there. -/
theorem stat_absent_iff {w : World} (hf : w.NoFaults) {path : GoString}
    (hk : s3KeyFromPath path ≠ []) (hfile : w.Allocates (s3KeyFromPath path))
    (hdir : w.Allocates (s3DirKey (s3KeyFromPath path))) :
    ((stat path).run World.handle w).1 = .error .errNotExist ↔
      ¬ w.Cached w.begin.clock (s3KeyFromPath path) ∧
      ¬ w.Cached w.begin.begin.clock (s3DirKey (s3KeyFromPath path)) ∧ Absent w.bucket path := by
  unfold stat
  dsimp only
  rw [if_neg hk, Prog.run_bind]
  by_cases hcached : w.Cached w.begin.clock (s3KeyFromPath path)
  · obtain ⟨fi, hfi⟩ := cacheGet_of_cached hcached hfile
    rw [hfi]
    exact iff_of_false nofun fun h => h.1 hcached
  · obtain ⟨hmiss, hw⟩ := cacheGet_of_not_cached hcached
    rw [hw]
    generalize ((cacheGet (s3KeyFromPath path)).run World.handle w).1 = r at hmiss
    -- the world in which the directory is looked up
    obtain ⟨w₁, hw₁⟩ : ∃ w₁, (World.handle (.getEntry (s3KeyFromPath path)) w).2 = w₁ := ⟨_, rfl⟩
    have hclock : w₁.begin.clock = w.begin.begin.clock := by
      subst hw₁
      show World.clock _ + ((World.env _ (World.calls _)).elapsed : Int) = _
      rw [World.handle_clock, World.handle_env, World.handle_calls]
      rfl
    have hf₁ : w₁.NoFaults := by
      intro n
      rw [← hw₁, World.handle_env]
      exact hf n
    have hdir₁ : w₁.Allocates (s3DirKey (s3KeyFromPath path)) := by
      unfold World.Allocates
      rw [← hw₁, World.handle_handles, World.handle_env]
      exact hdir
    have hbucket : w₁.bucket = w.bucket := hw₁ ▸ World.handle_bucket rfl w
    have hcached₁ : w₁.Cached w₁.begin.clock (s3DirKey (s3KeyFromPath path)) ↔
        w.Cached w.begin.begin.clock (s3DirKey (s3KeyFromPath path)) := by
      rw [hclock, ← hw₁]
      exact cached_getEntry_iff (s3DirKey_ne_s3KeyFromPath hk)
    have hrest := statDir_absent_iff hf₁ hdir₁
    rw [hcached₁, hbucket] at hrest
    rw [hw₁]
    rcases r with _ | _ | fi
    · exact hrest.trans (and_iff_right hcached).symm
    · exact hrest.trans (and_iff_right hcached).symm
    · exact absurd rfl (hmiss fi)

/-- The services with a negative entry for `/f`, though S3 has it by now. -/
def World.negativeF : World :=
  { World.start (.onlyF [1] []) with
    cache := some ((newMetadataCache defaultCacheConfig).putNegative 0 (gs "f")) }

/-- `/f` is found in spite of its negative entry, and `/g` is not. -/
theorem stat_absent_negativeF :
    ((stat (gs "/f")).run World.handle .negativeF).1 ≠ .error .errNotExist ∧
      ((stat (gs "/g")).run World.handle .negativeF).1 = .error .errNotExist := by
  have hf : World.negativeF.NoFaults := fun _ => rfl
  constructor
  · intro h
    have habs := (stat_absent_iff hf (by decide) (fun _ => ⟨_, rfl⟩) (fun _ => ⟨_, rfl⟩)).mp h
    exact nomatch habs.2.2.1
  · refine (stat_absent_iff hf (by decide) (fun _ => ⟨_, rfl⟩) (fun _ => ⟨_, rfl⟩)).mpr ⟨?_, ?_, ?_⟩
    · rintro ⟨mc, hmc, e, he, -⟩
      cases hmc
      exact nomatch he
    · rintro ⟨mc, hmc, e, he, -⟩
      cases hmc
      exact nomatch he
    · exact ⟨rfl, by decide⟩

/-! ## `OpenFile` -/

section OpenFile

variable {t : Time} {b : Bucket} {c : Option MetadataCache} {path : GoString}

theorem openMarker_errNotExist_iff (hfile : b.get (s3KeyFromPath path) = none)
    (hlist : b.listObjects (s3DirKey (s3KeyFromPath path)) = []) :
    Prog.Triple World.handle (At t b c) (openMarker path (s3DirKey (s3KeyFromPath path)))
      fun r _ => (r = .error .errNotExist ↔ Absent b path) := by
  have habs : Absent b path := ⟨hfile, listObjects_eq_nil_iff.mp hlist⟩
  refine (triple_headObject _).step fun r hr => ?_
  cases r with
  | error _ => exact Prog.triple_pure fun _ _ => iff_of_true rfl habs
  | ok info =>
    -- a marker would have been listed
    obtain ⟨o, ho, -⟩ := Bucket.headObject_ok hr.symm
    exact absurd (List.prefix_refl _) (habs.2 _ (Bucket.mem_keys.mpr ⟨o, ho⟩))

theorem openDirectory_errNotExist_iff (hfile : b.get (s3KeyFromPath path) = none) :
    Prog.Triple World.handle (At t b c) (openDirectory path (s3DirKey (s3KeyFromPath path)))
      fun r _ => (r = .error .errNotExist ↔ Absent b path) := by
  refine (triple_listObjects _).step fun r hr => ?_
  subst hr
  dsimp only
  split
  · next hlist => exact openMarker_errNotExist_iff hfile hlist
  · next hlist =>
    refine Prog.triple_bind (implicitDirInfo_found path _) fun r => ?_
    refine Prog.triple_pure fun _ hr => iff_of_false ?_ fun habs => ?_
    · cases r with
      | error err => exact fun heq => hr (congrArg Except.error (Except.error.inj heq))
      | ok info => nofun
    · exact hlist (listObjects_eq_nil_iff.mpr habs.2)

theorem newWritableFile_found (s3Key : GoString) (info : FileInfo) {P : World → Prop} :
    Prog.Triple World.handle P (newWritableFile path s3Key info)
      fun r _ => r ≠ .error .errNotExist := by
  refine Prog.triple_bind (Prog.triple_true _) fun r => ?_
  cases r with
  | error err => exact Prog.triple_pure fun _ _ => by simp
  | ok _ => exact Prog.triple_pure fun _ _ => by simp

/-- `OpenFile`, unless it creates something, says that a path does not exist exactly if
there is nothing. -/
theorem openFile_errNotExist_iff (hk : s3KeyFromPath path ≠ []) {flags : Nat}
    (hflags : (b.get (s3KeyFromPath path)).isSome ∨ writableFlags flags = false) :
    Prog.Triple World.handle (At t b c) (openFile path flags)
      fun r _ => (r = .error .errNotExist ↔ Absent b path) := by
  unfold openFile
  dsimp only
  rw [if_neg hk]
  refine (triple_headObject _).step fun r hr => ?_
  cases r with
  | ok info =>
    obtain ⟨o, ho, -⟩ := Bucket.headObject_ok hr.symm
    have habs : ¬ Absent b path := by
      rintro ⟨hnone, -⟩
      rw [hnone] at ho
      cases ho
    refine Prog.Triple.post ?_ fun r w hr => iff_of_false hr habs
    refine (getOrCreateInode_found _).step fun r hr => ?_
    cases r with
    | error err => exact Prog.triple_pure fun _ _ => by simpa using hr
    | ok inode =>
      refine Prog.triple_bind (Prog.triple_true _) fun _ => ?_
      split
      · refine Prog.triple_bind (newWritableFile_found _ _) fun r => Prog.triple_pure fun _ hr => ?_
        cases r with
        | error err => exact fun heq => hr (congrArg Except.error (Except.error.inj heq))
        | ok f => nofun
      · exact Prog.triple_pure fun _ _ => by simp
  | error _ =>
    have hfile := Bucket.headObject_error hr.symm
    have hread : writableFlags flags = false := hflags.resolve_left (by simp [hfile])
    dsimp only
    rw [hread]
    exact openDirectory_errNotExist_iff hfile

end OpenFile

/-- S3 is reliable and holds `b`, and `n` calls have been made under the schedule
`env`. -/
structure Counted (env : Nat → Outcome) (n : Nat) (b : Bucket) (w : World) : Prop where
  noFaults : w.NoFaults
  env : w.env = env
  calls : w.calls = n
  bucket : w.bucket = b

section Counted

variable {env : Nat → Outcome} {n : Nat} {b : Bucket} {w : World}

theorem Counted.handle (h : Counted env n b w) {β : Type} (e : Eff β) {b' : Bucket}
    (hb : (World.handle e w).2.bucket = b') : Counted env (n + 1) b' (World.handle e w).2 := by
  refine ⟨fun i => ?_, ?_, ?_, hb⟩
  · rw [World.handle_env]
    exact h.noFaults i
  · rw [World.handle_env, h.env]
  · rw [World.handle_calls, h.calls]

/-- Calls that leave the bucket alone. -/
theorem counted_call {β : Type} {e : Eff β} (he : e.writesBucket = false) :
    Prog.Triple World.handle (Counted env n b) (Prog.call e) fun _ => Counted env (n + 1) b :=
  fun _ h => h.handle e ((World.handle_bucket he _).trans h.bucket)

theorem counted_putObject {key : GoString} (hk : key ≠ []) (data : Bytes) (metadata : Metadata) :
    Prog.Triple World.handle (Counted env n b) (Prog.call (.putObject key data metadata))
      fun r w => r = .ok () ∧ ∃ o, Counted env (n + 1) (b.put key o hk) w := by
  intro w h
  obtain ⟨now, etag, hr, hw⟩ := triple_putObject key data metadata w
    ⟨h.noFaults, h.bucket, rfl, le_refl _⟩
  rw [Bucket.putObject_of_ne _ hk] at hr hw
  exact ⟨hr, _, h.handle _ hw.bucket⟩

theorem counted_newEmptyWritableFile (path s3Key : GoString) (info : FileInfo) :
    Prog.Triple World.handle (Counted env n b) (newEmptyWritableFile path s3Key info)
      fun r w => ((∃ f, r = .ok f) ↔ (env n).tmpOk = true) ∧ r ≠ .error .errNotExist ∧
        w.bucket = b := by
  intro w h
  have hbucket := (counted_call (e := .createTemp) rfl w h).bucket
  have hreply : (World.handle .createTemp w).1
      = if (env n).tmpOk then .ok () else .error (.errno (gs "open")) := by
    rw [← h.env, ← h.calls]
    rfl
  unfold newEmptyWritableFile newWritableFile
  simp only [Prog.run_bind, Prog.run_call, hreply]
  cases (env n).tmpOk with
  | true => exact ⟨by simp, by simp, hbucket⟩
  | false => exact ⟨by simp, by simp, hbucket⟩

/-- The creating branch of `OpenFile`: if an inode can be allocated the object is stored,
and what is returned then depends on the temp file, which is created five calls later. -/
theorem counted_createPlaceholder {path key : GoString} (hk : key ≠ []) {h : HandleStore} :
    Prog.Triple World.handle (fun w => Counted env n b w ∧ w.handles = h)
      (createPlaceholder path key) fun r w =>
        (∃ err, (h.getOrCreateInode key (env n).commit).1 = .error err ∧ r = .error err ∧
          w.bucket = b) ∨
        (∃ inode, (h.getOrCreateInode key (env n).commit).1 = .ok inode) ∧
          (∃ o, w.bucket = b.put key o hk) ∧ ((∃ f, r = .ok f) ↔ (env (n + 5)).tmpOk = true) ∧
          r ≠ .error .errNotExist := by
  have halloc : Prog.Triple World.handle (fun w => Counted env n b w ∧ w.handles = h)
      (Prog.call (.getOrCreateInode key)) fun r w =>
        r = (h.getOrCreateInode key (env n).commit).1 ∧ Counted env (n + 1) b w := by
    rintro w ⟨hw, rfl⟩
    refine ⟨?_, counted_call rfl w hw⟩
    rw [← hw.env, ← hw.calls]
    rfl
  refine halloc.step fun r hr => ?_
  cases r with
  | error err => exact Prog.triple_pure fun w hw => Or.inl ⟨err, hr.symm, rfl, hw.bucket⟩
  | ok inode =>
    refine Prog.Triple.post ?_ fun _ _ hrest => Or.inr ⟨⟨inode, hr.symm⟩, hrest⟩
    refine (counted_putObject hk _ _).step fun r hr => ?_
    subst hr
    refine Prog.triple_exists fun o => ?_
    refine Prog.triple_bind (counted_call rfl) fun now => ?_
    refine Prog.triple_bind (counted_call rfl) fun _ => ?_
    refine Prog.triple_bind (counted_call rfl) fun _ => ?_
    refine Prog.triple_bind (counted_newEmptyWritableFile _ _ _) fun r => ?_
    refine Prog.triple_pure fun w hw => ?_
    obtain ⟨hok, hne, hb⟩ := hw
    refine ⟨⟨o, hb⟩, ?_, ?_⟩
    · rw [← hok]
      cases r <;> simp [Except.map]
    · cases r with
      | error err => exact fun heq => hne (congrArg Except.error (Except.error.inj heq))
      | ok f => nofun

end Counted

/-- The flags ask for the file to be created. -/
def createFlag (flags : Nat) : Bool := flags &&& oCREATE != 0

theorem writableFlags_of_createFlag {flags : Nat} (h : createFlag flags = true) :
    writableFlags flags = true := by
  have hmask : flags &&& oCREATE = (flags &&& (oWRONLY ||| oRDWR ||| oCREATE)) &&& oCREATE := by
    rw [Nat.land_assoc]
    rfl
  unfold createFlag at h
  unfold writableFlags
  rw [hmask] at h
  simp only [bne_iff_ne, ne_eq] at h ⊢
  intro hzero
  rw [hzero, Nat.zero_and] at h
  exact h rfl

/-- `OpenFile` creates only when asked and only where nothing exists. -/
structure CreatesAsAsked (w : World) (path : GoString) (flags : Nat) : Prop where
  /-- A file that is opened has been created exactly if the flags ask for it and there was
  nothing. -/
  added : ∀ f, ((openFile path flags).run World.handle w).1 = .ok f →
    ((∃ key, w.bucket.get key = none ∧
        (((openFile path flags).run World.handle w).2.bucket.get key).isSome) ↔
      createFlag flags = true ∧ Absent w.bucket path)
  /-- No other object is added, and none is changed. -/
  others : ∀ key, key ≠ s3KeyFromPath path ∨ (w.bucket.get key).isSome →
    ((openFile path flags).run World.handle w).2.bucket.get key = w.bucket.get key
  notExist : ((openFile path flags).run World.handle w).1 = .error .errNotExist ↔
    Absent w.bucket path ∧ createFlag flags = false
  failed : ∀ err, ((openFile path flags).run World.handle w).1 = .error err →
    ((openFile path flags).run World.handle w).2.bucket = w.bucket

/-- The inode that `OpenFile` allocates for a file it creates. -/
def World.newInode (w : World) (path : GoString) : Except GoError UInt64 :=
  (w.handles.getOrCreateInode (s3KeyFromPath path) (w.env (w.calls + 1)).commit).1

/-- What `OpenFile` does: it looks for the path, or the file is missing, a write flag is
set, and it stops at the inode or stores the object. -/
theorem openFile_cases {w : World} (hf : w.NoFaults) {path : GoString}
    (hk : s3KeyFromPath path ≠ []) (flags : Nat) :
    let run := (openFile path flags).run World.handle w
    (((w.bucket.get (s3KeyFromPath path)).isSome ∨ writableFlags flags = false) ∧
        (run.1 = .error .errNotExist ↔ Absent w.bucket path) ∧ run.2.bucket = w.bucket) ∨
      w.bucket.get (s3KeyFromPath path) = none ∧ writableFlags flags = true ∧
        ((∃ err, w.newInode path = .error err ∧ run.1 = .error err ∧ run.2.bucket = w.bucket) ∨
          (∃ inode, w.newInode path = .ok inode) ∧
            (∃ o, run.2.bucket = w.bucket.put (s3KeyFromPath path) o hk) ∧
            ((∃ f, run.1 = .ok f) ↔ (w.env (w.calls + 6)).tmpOk = true) ∧
            run.1 ≠ .error .errNotExist) := by
  intro run
  have hat : At w.clock w.bucket w.cache w := ⟨hf, rfl, rfl, le_refl _⟩
  by_cases hcond : (w.bucket.get (s3KeyFromPath path)).isSome ∨ writableFlags flags = false
  · refine Or.inl ⟨hcond, openFile_errNotExist_iff hk hcond w hat, ?_⟩
    rcases triple_openFile path flags w hat with ⟨hupd, -⟩ | ⟨_, _, hwrite, hnone, -⟩
    · exact hupd.bucket_eq
    · simp [hwrite, hnone] at hcond
  · obtain ⟨hfile, hwrite⟩ := not_or.mp hcond
    have hfile : w.bucket.get (s3KeyFromPath path) = none := by simpa using hfile
    have hwrite : writableFlags flags = true := by simpa using hwrite
    refine Or.inr ⟨hfile, hwrite, ?_⟩
    have hhead : (World.handle (.headObject (s3KeyFromPath path)) w).1 = .error .noSuchKey := by
      have hreply := (triple_headObject (s3KeyFromPath path) w hat).1
      rwa [Prog.run_call, Bucket.headObject, hfile] at hreply
    have hrun : run = (createPlaceholder path (s3KeyFromPath path)).run World.handle w.begin := by
      show (openFile path flags).run World.handle w = _
      unfold openFile
      dsimp only
      rw [if_neg hk, Prog.run_bind, Prog.run_call, hhead]
      dsimp only
      rw [hwrite, if_pos rfl]
      rfl
    rw [hrun]
    exact counted_createPlaceholder hk w.begin ⟨⟨hf, rfl, rfl, rfl⟩, rfl⟩

section CreatesAsAsked

variable {w : World} {path : GoString} {flags : Nat}

/-- `OpenFile` found the file, or was not to create it. -/
theorem createsAsAsked_of_looks
    (hcond : (w.bucket.get (s3KeyFromPath path)).isSome ∨ writableFlags flags = false)
    (hr : ((openFile path flags).run World.handle w).1 = .error .errNotExist ↔
      Absent w.bucket path)
    (hb : ((openFile path flags).run World.handle w).2.bucket = w.bucket) :
    CreatesAsAsked w path flags := by
  have hnot : Absent w.bucket path → createFlag flags = false := by
    intro habs
    rcases hcond with hsome | hread
    · rw [habs.1] at hsome
      cases hsome
    · by_contra hcreate
      rw [writableFlags_of_createFlag (by simpa using hcreate)] at hread
      cases hread
  refine ⟨fun f _ => iff_of_false ?_ ?_, fun key _ => by rw [hb], ?_, fun _ _ => hb⟩
  · rintro ⟨key, hnone, hsome⟩
    rw [hb, hnone] at hsome
    cases hsome
  · rintro ⟨hcreate, habs⟩
    rw [hnot habs] at hcreate
    cases hcreate
  · exact hr.trans ⟨fun habs => ⟨habs, hnot habs⟩, And.left⟩

/-- `OpenFile` stopped for want of an inode. -/
theorem createsAsAsked_iff_of_error {err : GoError} (hinode : w.newInode path = .error err)
    (hr : ((openFile path flags).run World.handle w).1 = .error err)
    (hb : ((openFile path flags).run World.handle w).2.bucket = w.bucket) :
    CreatesAsAsked w path flags ↔ createFlag flags = true ∨ ¬ Absent w.bucket path := by
  have hne : err ≠ .errNotExist := by
    rintro rfl
    exact HandleStore.getOrCreateInode_ne_errNotExist _ _ _ hinode
  have hnotExist : ¬ ((openFile path flags).run World.handle w).1 = .error .errNotExist := by
    rw [hr]
    exact fun heq => hne (Except.error.inj heq)
  constructor
  · intro h
    by_contra hcon
    obtain ⟨hcreate, habs⟩ := not_or.mp hcon
    exact hnotExist (h.notExist.mpr ⟨not_not.mp habs, by simpa using hcreate⟩)
  · intro hcond
    refine ⟨fun f hf => ?_, fun key _ => by rw [hb], iff_of_false hnotExist ?_, fun _ _ => hb⟩
    · rw [hr] at hf
      cases hf
    · rintro ⟨habs, hcreate⟩
      rcases hcond with hcond | hcond
      · rw [hcreate] at hcond
        cases hcond
      · exact hcond habs

/-- `OpenFile` stored a new object. -/
theorem createsAsAsked_iff_of_put (hk : s3KeyFromPath path ≠ [])
    (hfile : w.bucket.get (s3KeyFromPath path) = none) {o : Object}
    (hb : ((openFile path flags).run World.handle w).2.bucket
      = w.bucket.put (s3KeyFromPath path) o hk)
    (hok : (∃ f, ((openFile path flags).run World.handle w).1 = .ok f) ↔
      (w.env (w.calls + 6)).tmpOk = true)
    (hne : ((openFile path flags).run World.handle w).1 ≠ .error .errNotExist) :
    CreatesAsAsked w path flags ↔
      createFlag flags = true ∧ Absent w.bucket path ∧ (w.env (w.calls + 6)).tmpOk = true := by
  have hadded : ∃ key, w.bucket.get key = none ∧
      (((openFile path flags).run World.handle w).2.bucket.get key).isSome := by
    refine ⟨s3KeyFromPath path, hfile, ?_⟩
    rw [hb, Bucket.get_put_self]
    rfl
  constructor
  · intro h
    cases hres : ((openFile path flags).run World.handle w).1 with
    | error err =>
      obtain ⟨key, hnone, hsome⟩ := hadded
      rw [h.failed err hres, hnone] at hsome
      cases hsome
    | ok f =>
      obtain ⟨hcreate, habs⟩ := (h.added f hres).mp hadded
      exact ⟨hcreate, habs, hok.mp ⟨f, hres⟩⟩
  · rintro ⟨hcreate, habs, htmp⟩
    refine ⟨fun f _ => iff_of_true hadded ⟨hcreate, habs⟩, fun key hkey => ?_, ?_, fun err herr => ?_⟩
    · rw [hb, Bucket.get_put, if_neg]
      rintro rfl
      simp [hfile] at hkey
    · refine iff_of_false hne ?_
      rintro ⟨-, hnot⟩
      rw [hnot] at hcreate
      cases hcreate
    · obtain ⟨f, hf⟩ := hok.mpr htmp
      rw [hf] at herr
      cases herr

end CreatesAsAsked

/-- `OpenFile` does as asked exactly if the file exists, or no write flag is set, or it
creates the file where there is nothing because that is what was asked, or it stops for
want of an inode. -/
theorem createsAsAsked_iff {w : World} (hf : w.NoFaults) {path : GoString}
    (hk : s3KeyFromPath path ≠ []) (flags : Nat) :
    CreatesAsAsked w path flags ↔
      (w.bucket.get (s3KeyFromPath path)).isSome ∨ writableFlags flags = false ∨
      (createFlag flags = true ∧ Absent w.bucket path ∧ (w.env (w.calls + 6)).tmpOk = true) ∨
      (∃ err, w.newInode path = .error err) ∧
        (createFlag flags = true ∨ ¬ Absent w.bucket path) := by
  rcases openFile_cases hf hk flags with
    ⟨hcond, hr, hb⟩ | ⟨hfile, hwrite, ⟨err, hinode, hr, hb⟩ | ⟨⟨inode, hinode⟩, ⟨o, hb⟩, hok, hne⟩⟩
  · refine iff_of_true (createsAsAsked_of_looks hcond hr hb) ?_
    exact hcond.imp_right Or.inl
  · rw [createsAsAsked_iff_of_error hinode hr hb, hinode, hfile, hwrite]
    simp only [Option.isSome_none, Bool.false_eq_true, Bool.true_eq_false, false_or,
      Except.error.injEq, exists_eq', true_and]
    exact ⟨Or.inr, fun h => h.elim (fun h => Or.inl h.1) id⟩
  · rw [createsAsAsked_iff_of_put hk hfile hb hok hne, hinode, hfile, hwrite]
    simp

/-- `O_CREATE` on an empty bucket. -/
theorem createsAsAsked_new_file : CreatesAsAsked (World.start .empty) (gs "/f") oCREATE :=
  (createsAsAsked_iff (fun _ => rfl) (by decide) oCREATE).mpr
    (Or.inr (Or.inr (Or.inl ⟨rfl, ⟨rfl, by decide⟩, rfl⟩)))

/-- `O_WRONLY` creates a file in an empty bucket, `O_CREATE` creates one next to the
directory `/d`, and a temp file that cannot be created leaves the new object behind. -/
theorem creates_unasked :
    let written := (openFile (gs "/f") oWRONLY).run World.handle (World.start .empty)
    let beside := (openFile (gs "/d") oCREATE).run World.handle (World.start .onlyD)
    let failed := (openFile (gs "/f") oCREATE).run World.handle
      { World.start .empty with env := fun _ => { Outcome.fine with tmpOk := false } }
    ¬ CreatesAsAsked (World.start .empty) (gs "/f") oWRONLY ∧
      written.1.toOption.isSome ∧ written.2.bucket.dataAt (gs "f") = some [] ∧
      beside.1.toOption.isSome ∧ beside.2.bucket.dataAt (gs "d") = some [] ∧
      failed.1.toOption.isNone ∧ failed.2.bucket.dataAt (gs "f") = some [] := by
  refine ⟨fun h => ?_, by decide⟩
  have hnot := h.notExist.mpr ⟨⟨rfl, by decide⟩, rfl⟩
  have hopened : ((openFile (gs "/f") oWRONLY).run World.handle
      (World.start .empty)).1.toOption.isSome := by decide
  rw [hnot] at hopened
  cases hopened

end S3Gateway
