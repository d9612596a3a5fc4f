import S3Gateway.Cache.Entries
import S3Gateway.Cache.Sync
import S3Gateway.Lib.Crash

/-!
# The data cache across restarts

The cache directory is all that survives the process, and `NewDataCache` rebuilds the
index from it. This works because directory and index agree between two calls, and
because `Put` fills a temporary file and renames it: a process that is stopped anywhere
in a `Put` leaves no file that holds anything but what some `Put` wrote completely.

`restart_and_crash` puts this together, over all runs of calls one after the other.
-/

namespace S3Gateway

open Lib

namespace DataCache

variable {dc dc' : DataCache}

/-! ## Steps -/

/-- The directories an eviction loop goes through, one for each file it removes. -/
def evictWhileDisks (cond : DataCache → DataEntry → Bool) : List Nat → DataCache → List Disk
  | [], _ => []
  | elem :: elems, dc =>
    match dc.order.value elem with
    | none => []
    | some entry =>
      if cond dc entry then
        match dc.removeEntry entry.key elem entry with
        | none => []
        | some dc => dc.disk :: evictWhileDisks cond elems dc
      else []

/-- The directories `evict` goes through. -/
def evictDisks (dc : DataCache) (now : Time) : List Disk :=
  evictWhileDisks (fun dc entry => dc.ttlExpired now entry) dc.order.order.reverse dc ++
    match evictWhile (fun dc entry => dc.ttlExpired now entry) dc.order.order.reverse dc with
    | none => []
    | some dc =>
      evictWhileDisks (fun dc _ => dc.currentSize > dc.config.maxSize) dc.order.order.reverse dc

/-- What a stop within a step of `Put` can leave: a part of the data in the temporary
file, or only some of the files evicted. -/
def disksWithin (o : DiskOutcome) {β : Type} : DataSection β → DataCache → List Disk
  | .copy tmpPath data, dc =>
    (List.range data.length).map fun n => dc.disk.insert tmpPath ⟨data.take n, o.now⟩
  | .evict, dc => dc.evictDisks o.now
  | _, _ => []

/-- The file system calls that do not fail: all but copying into a temporary file,
closing and renaming it. A new temporary file gets an unused name. -/
def Succeeds (o : DiskOutcome) {β : Type} : DataSection β → DataCache → Prop
  | .openFile _, _ => o.ok = true
  | .mkdirAll _, _ => o.ok = true
  | .createTemp dir, dc => o.ok = true ∧ dc.disk.lookup (dir, gs ".tmp-" ++ o.random) = none
  | _, _ => True

/-- The steps of the cache's methods, as far as a stop of the process is concerned: only
the directory remains. -/
def crashable : Crashable DataSection DiskOutcome DataCache Disk where
  handle o := DataCache.handle o
  admits o _ e dc := Succeeds o e dc
  remains := DataCache.disk
  within o _ e dc := disksWithin o e dc

theorem sub_of_mem_evictWhileDisks {cond : DataCache → DataEntry → Bool} {elems : List Nat}
    {disk : Disk} (h : disk ∈ evictWhileDisks cond elems dc) :
    ∀ path file, disk.lookup path = some file → dc.disk.lookup path = some file := by
  induction elems generalizing dc with
  | nil => cases h
  | cons elem elems ih =>
    unfold evictWhileDisks at h
    split at h
    · cases h
    · split at h
      · split at h
        · cases h
        · next dc₁ hrem =>
          intro path file hfile
          refine (diskSub_removeEntry hrem).files path file ?_
          rcases List.mem_cons.mp h with rfl | h
          · exact hfile
          · exact ih h path file hfile
      · cases h

theorem Whole.evictDisks {P : GoString → Bytes → Prop} (h : Whole P dc.disk) {now : Time} :
    ∀ disk ∈ dc.evictDisks now, Whole P disk := by
  intro disk hdisk
  rcases List.mem_append.mp hdisk with hdisk | hdisk
  · exact h.mono (sub_of_mem_evictWhileDisks hdisk)
  · split at hdisk
    · cases hdisk
    · next dc₁ hev =>
      have hdrops := drops_evictWhile (List.nodup_reverse.mpr dc.order.nodup)
        (fun e he => List.mem_reverse.mp he) hev
      exact h.mono fun path file hfile =>
        hdrops.diskSub.files path file (sub_of_mem_evictWhileDisks hdisk path file hfile)

theorem isTemp_append (r : GoString) : isTemp (gs ".tmp-" ++ r) = true := by
  simp [isTemp, hasPrefix]

/-- Nothing but a temporary file changes. -/
theorem lookup_insert_temp {disk : Disk} {tmpPath : GoString × GoString}
    (htmp : isTemp tmpPath.2 = true) (file : DiskFile) (path : GoString × GoString)
    (hpath : isTemp path.2 = false) :
    (disk.insert tmpPath file).lookup path = disk.lookup path := by
  rw [GoMap.lookup_insert_ite, if_neg]
  rintro rfl
  rw [htmp] at hpath
  cases hpath

theorem lookup_erase_temp {disk : Disk} {tmpPath : GoString × GoString}
    (htmp : isTemp tmpPath.2 = true) (path : GoString × GoString) (hpath : isTemp path.2 = false) :
    (disk.erase tmpPath).lookup path = disk.lookup path := by
  rw [GoMap.lookup_erase_ite, if_neg]
  rintro rfl
  rw [htmp] at hpath
  cases hpath

theorem isTemp_cacheKey (dc : DataCache) (s3Key etag : GoString) :
    isTemp (dc.cacheKey s3Key etag) = false := by
  rw [Bool.eq_false_iff]
  intro h
  obtain ⟨rest, hrest⟩ := List.isPrefixOf_iff_prefix.mp h
  -- a dot is no hexadecimal digit
  have hdot : (46 : UInt8) ∈ dc.cacheKey s3Key etag := by
    rw [← hrest]
    exact List.mem_append_left _ (by decide)
  rcases mem_hexEncodeToString hdot with ⟨h, -⟩ | ⟨h, -⟩
  · exact absurd h (by decide)
  · exact absurd h (by decide)

section Along

variable {sha256 : Sha256} {config : DataCacheConfig} {P : GoString → Bytes → Prop}

/-- What holds between two calls. -/
def Between (sha256 : Sha256) (config : DataCacheConfig) (P : GoString → Bytes → Prop)
    (dc : DataCache) : Prop :=
  Kept sha256 config P dc ∧ dc.currentSize ≤ config.maxSize

theorem Between.drops (h : Between sha256 config P dc) (hd : Drops dc dc') :
    Between sha256 config P dc' :=
  ⟨(h.1.drops hd).1, Int.le_trans (h.1.drops hd).2 h.2⟩

/-- `Evict` brings the size back within its limit. -/
theorem Kept.evict (h : Kept sha256 config P dc) (hpos : 0 ≤ config.maxSize) (now : Time) :
    ∃ dc', dc.evict now = some dc' ∧ Between sha256 config P dc' := by
  obtain ⟨dc', hev, -⟩ := h.synced.long.evict now
  have hkept := (h.drops (drops_evict hev)).1
  refine ⟨dc', hev, hkept, ?_⟩
  have hle := h.synced.accounted.evict_bounded (h.config_eq ▸ hpos) hev
    (hkept.config_eq.trans h.config_eq.symm)
  rwa [hkept.config_eq] at hle

/-- The last steps of `Put`, once the file is in its place. -/
theorem along_putCall_end (hpos : 0 ≤ config.maxSize) (h : Kept sha256 config P dc)
    {key : GoString} {data : Bytes} (hkey : 2 ≤ key.length) (htemp : isTemp key = false)
    (hP : P key data) (modTime : Time) (s3Key : GoString) {α : Type}
    {k : Option Unit → Prog DataSection α} {a : α} (hk : k (some ()) = pure a) :
    Prog.Along crashable (Whole P) (fun _ => Between sha256 config P)
      (do
        Prog.call (.insert key s3Key data.length)
        let r ← Prog.call DataSection.evict
        k r)
      { dc with disk := dc.disk.insert (key.take 2, key) ⟨data, modTime⟩ } := by
  have hstored := fun now => h.stored hkey htemp hP now modTime s3Key
  have hwhole : Whole P (dc.disk.insert (key.take 2, key) ⟨data, modTime⟩) := by
    have := (hstored 0).whole
    rwa [disk_putIndex] at this
  refine Prog.along_call_bind hwhole fun o _ => ⟨nofun, ?_⟩
  refine Prog.along_call_bind (hstored o.now).whole fun o' _ => ⟨(hstored o.now).whole.evictDisks, ?_⟩
  obtain ⟨dc', hev, hbetween⟩ := (hstored o.now).evict hpos o'.now
  have hstep : crashable.handle o' DataSection.evict
      (crashable.handle o (.insert key s3Key data.length)
        { dc with disk := dc.disk.insert (key.take 2, key) ⟨data, modTime⟩ }).2 = (some (), dc') := by
    show DataCache.guard _ (Option.map _ (DataCache.evict _ _)) = _
    rw [show (crashable.handle o (.insert key s3Key data.length)
      { dc with disk := dc.disk.insert (key.take 2, key) ⟨data, modTime⟩ }).2 = putIndex _ o.now key
        s3Key data.length from rfl, hev]
    rfl
  rw [hstep, hk]
  exact Prog.along_pure hbetween.1.whole hbetween

/-- `Put` from the rename of a complete temporary file on. -/
theorem along_putCall_rename (hpos : 0 ≤ config.maxSize) (h : Between sha256 config P dc)
    {key : GoString} {data : Bytes} (hkey : 2 ≤ key.length) (htemp : isTemp key = false)
    (hP : P key data) {tmpPath : GoString × GoString} (htmp : isTemp tmpPath.2 = true)
    (modTime : Time) (s3Key : GoString) {α : Type} {k : Bool → Prog DataSection α}
    {k' : Option Unit → Prog DataSection α} {a a' : α}
    (hk : k true = do
      Prog.call (.insert key s3Key data.length)
      let r ← Prog.call DataSection.evict
      k' r)
    (hk' : k' (some ()) = pure a)
    (hfail : k false = do
      Prog.call (.remove tmpPath)
      pure a') :
    Prog.Along crashable (Whole P) (fun _ => Between sha256 config P)
      (Prog.call (.rename tmpPath (key.take 2, key)) >>= k)
      { dc with disk := dc.disk.insert tmpPath ⟨data, modTime⟩ } := by
  have hins : Kept sha256 config P { dc with disk := dc.disk.insert tmpPath ⟨data, modTime⟩ } :=
    h.1.temp (lookup_insert_temp htmp _)
  have hera : Kept sha256 config P
      { dc with disk := (dc.disk.insert tmpPath ⟨data, modTime⟩).erase tmpPath } :=
    hins.temp (lookup_erase_temp htmp)
  refine Prog.along_call_bind hins.whole fun o _ => ⟨nofun, ?_⟩
  cases hok : o.ok with
  | true =>
    have hren : crashable.handle o (.rename tmpPath (key.take 2, key))
        { dc with disk := dc.disk.insert tmpPath ⟨data, modTime⟩ } = (true,
          { dc with
            disk := AList.insert (key.take 2, key) ⟨data, modTime⟩
              ((dc.disk.insert tmpPath ⟨data, modTime⟩).erase tmpPath) }) := by
      have hfile : (dc.disk.insert tmpPath ⟨data, modTime⟩).lookup tmpPath = some ⟨data, modTime⟩ :=
        AList.lookup_insert _
      simp only [crashable]
      exact handle_rename_ok { dc with disk := dc.disk.insert tmpPath ⟨data, modTime⟩ } hok hfile _
    rw [hren, hk]
    exact along_putCall_end hpos hera hkey htemp hP modTime s3Key hk'
  | false =>
    have hren : crashable.handle o (.rename tmpPath (key.take 2, key))
        { dc with disk := dc.disk.insert tmpPath ⟨data, modTime⟩ } = (false,
          { dc with disk := dc.disk.insert tmpPath ⟨data, modTime⟩ }) := by
      simp only [crashable, handle_rename_failed hok]
    rw [hren, hfail]
    exact Prog.along_call_bind hins.whole fun _ _ =>
      ⟨nofun, Prog.along_pure hera.whole ⟨hera, h.2⟩⟩

/-- `Put`, stopped anywhere, leaves only whole files; when it returns, directory and index
agree. -/
theorem along_putCall (hpos : 0 ≤ config.maxSize) (h : Between sha256 config P dc)
    {key : GoString} {data : Bytes} (hkey : 2 ≤ key.length) (htemp : isTemp key = false)
    (hP : P key data) (s3Key : GoString) :
    Prog.Along crashable (Whole P) (fun _ => Between sha256 config P) (putCall key s3Key data)
      dc := by
  unfold putCall
  rw [cachePath_of_two_le hkey]
  refine Prog.along_call_bind h.1.whole fun o ho => ⟨nofun, ?_⟩
  have hmk : crashable.handle o (.mkdirAll (key.take 2)) dc = (true, dc) := by
    show (o.ok, dc) = _
    rw [show o.ok = true from ho]
  rw [hmk, if_pos rfl]
  refine Prog.along_call_bind h.1.whole fun o₁ ho₁ => ⟨nofun, ?_⟩
  obtain ⟨hok₁, hfresh⟩ : o₁.ok = true ∧ dc.disk.lookup (key.take 2, gs ".tmp-" ++ o₁.random) = none :=
    ho₁
  have htmp : isTemp (key.take 2, gs ".tmp-" ++ o₁.random).2 = true := isTemp_append o₁.random
  have hct : crashable.handle o₁ (.createTemp (key.take 2)) dc
      = (some (key.take 2, gs ".tmp-" ++ o₁.random),
        { dc with disk := dc.disk.insert (key.take 2, gs ".tmp-" ++ o₁.random) ⟨[], o₁.now⟩ }) := by
    show (if o₁.ok && (dc.disk.lookup _).isNone then _ else _) = _
    rw [hok₁, hfresh]
    rfl
  rw [hct]
  generalize (key.take 2, gs ".tmp-" ++ o₁.random) = tmpPath at htmp
  -- until the rename, only the temporary file changes
  have hins : ∀ file, Between sha256 config P { dc with disk := dc.disk.insert tmpPath file } :=
    fun file => ⟨h.1.temp (lookup_insert_temp htmp file), h.2⟩
  have hera : ∀ file, Between sha256 config P
      { dc with disk := (dc.disk.insert tmpPath file).erase tmpPath } :=
    fun file => ⟨(hins file).1.temp (lookup_erase_temp htmp), h.2⟩
  refine Prog.along_call_bind (hins _).1.whole fun o₂ _ => ⟨fun disk hdisk => ?_, ?_⟩
  · obtain ⟨n, -, rfl⟩ := List.mem_map.mp hdisk
    exact (hins _).1.whole.temp (lookup_insert_temp htmp _)
  generalize hwritten : (if o₂.ok then data.length else min o₂.copied data.length) = written
  have hcopy : crashable.handle o₂ (.copy tmpPath data)
      { dc with disk := dc.disk.insert tmpPath ⟨[], o₁.now⟩ } = ((written, o₂.ok),
        { dc with disk := dc.disk.insert tmpPath ⟨data.take written, o₂.now⟩ }) := by
    show ((if o₂.ok then data.length else min o₂.copied data.length, o₂.ok), _) = _
    rw [hwritten, AList.insert_insert]
  rw [hcopy]
  refine Prog.along_call_bind (hins _).1.whole fun o₃ _ => ⟨nofun, ?_⟩
  have hclose : crashable.handle o₃ (.close tmpPath)
      { dc with disk := dc.disk.insert tmpPath ⟨data.take written, o₂.now⟩ } = (o₃.ok,
        { dc with disk := dc.disk.insert tmpPath ⟨data.take written, o₂.now⟩ }) := rfl
  rw [hclose]
  dsimp only
  by_cases hcc : (o₂.ok && o₃.ok) = true
  · rw [if_pos hcc]
    obtain ⟨hok₂, -⟩ := Bool.and_eq_true_iff.mp hcc
    have hdata : data.take written = data := by
      rw [← hwritten, if_pos hok₂, List.take_length]
    have hlen : written = data.length := by rw [← hwritten, if_pos hok₂]
    rw [hdata, hlen]
    exact along_putCall_rename hpos h hkey htemp hP htmp o₂.now s3Key rfl rfl rfl
  · rw [if_neg hcc]
    exact Prog.along_call_bind (hins _).1.whole fun o₄ _ =>
      ⟨nofun, Prog.along_pure (hera _).1.whole (hera _)⟩

/-- `Get`: an entry of the index has a file to open. -/
theorem along_getCall (h : Between sha256 config P dc) {key : GoString} (hkey : 2 ≤ key.length) :
    Prog.Along crashable (Whole P) (fun _ => Between sha256 config P) (getCall key) dc := by
  unfold getCall
  rw [cachePath_of_two_le hkey]
  refine Prog.along_call_bind h.1.whole fun o _ => ⟨nofun, ?_⟩
  obtain ⟨found, dc', hget, -⟩ := h.1.synced.long.getIndex o.now key
  have hlook : crashable.handle o (.lookup key) dc = (some found, dc') := by
    show DataCache.guard dc (dc.getIndex o.now key) = _
    rw [hget]
    rfl
  rw [hlook]
  rcases getIndex_cases hget with ⟨rfl, hd⟩ | ⟨elem, entry, rfl, hitem, hval, rfl⟩
  · exact Prog.along_pure (h.drops hd).1.whole (h.drops hd)
  · have hkept := h.1.touch hitem hval o.now
    refine Prog.along_call_bind hkept.whole fun o' ho' => ⟨nofun, ?_⟩
    -- the file is there, so it is opened
    obtain ⟨-, hfile⟩ := (h.1.synced.mirrored (key.take 2) key entry.size).mpr
      ⟨cachePath_of_two_le hkey, sizeOf_eq hitem hval⟩
    obtain ⟨file, hfile, -⟩ := Option.map_eq_some_iff.mp hfile
    have hopen : crashable.handle o' (.openFile (key.take 2, key)) { dc with order :=
        (dc.order.update elem fun entry => { entry with accessTime := o.now }).moveToFront elem }
        = (some file.data, { dc with order :=
        (dc.order.update elem fun entry => { entry with accessTime := o.now }).moveToFront elem }) := by
      simp only [crashable, DataCache.handle, DataCache.openFile, show o'.ok = true from ho', hfile,
        if_true, Option.map_some]
    rw [hopen]
    exact Prog.along_pure hkept.whole ⟨hkept, h.2⟩

/-- The program of a call, under the names its `Put` may write to. -/
theorem along_program (hpos : 0 ≤ config.maxSize) (h : Between sha256 config P dc) (call : DataCall)
    (hput : ∀ s3Key etag data, call = .put s3Key etag data → P (dc.cacheKey s3Key etag) data) :
    Prog.Along crashable (Whole P) (fun _ => Between sha256 config P) (call.program dc) dc := by
  have hpure : ∀ {α : Type} (_ : α) (dc : DataCache), Whole P dc.disk →
      Between sha256 config P dc →
      Prog.Along crashable (Whole P) (fun _ => Between sha256 config P)
        (pure () : Prog DataSection Unit) dc :=
    fun _ _ hw hb => Prog.along_pure hw hb
  cases call with
  | get s3Key etag =>
    exact Prog.along_bind ((along_getCall h (two_le_length_cacheKey dc s3Key etag)).mono hpure)
  | put s3Key etag data =>
    exact Prog.along_bind ((along_putCall hpos h (two_le_length_cacheKey dc s3Key etag)
      (isTemp_cacheKey dc s3Key etag) (hput s3Key etag data rfl) s3Key).mono hpure)
  | invalidate s3Key =>
    refine Prog.along_call_bind h.1.whole fun o _ => ⟨nofun, ?_⟩
    obtain ⟨dc', hinv, -⟩ := h.1.synced.long.invalidate s3Key
    have hstep : crashable.handle o (.invalidate s3Key) dc = (some (), dc') := by
      show DataCache.guard _ (Option.map _ (dc.invalidate s3Key)) = _
      rw [hinv]
      rfl
    have hb := h.drops (drops_invalidate hinv)
    rw [hstep]
    exact Prog.along_pure hb.1.whole hb
  | evict =>
    refine Prog.along_call_bind h.1.whole fun o _ => ⟨h.1.whole.evictDisks, ?_⟩
    obtain ⟨dc', hev, hb⟩ := h.1.evict hpos o.now
    have hstep : crashable.handle o DataSection.evict dc = (some (), dc') := by
      show DataCache.guard _ (Option.map _ (dc.evict o.now)) = _
      rw [hev]
      rfl
    rw [hstep]
    exact Prog.along_pure hb.1.whole hb

end Along

/-! ## Scanning the directory -/

/-- The files `scanDir` takes up, in the order in which it does. -/
def visible (disk : Disk) : List (GoString × DiskFile) :=
  ((Disk.shards disk).filter fun shard => shard.length = 2).flatMap fun shard =>
    (Disk.filesOf disk shard).filter fun f => isTemp f.1 = false

theorem mem_visible {disk : Disk} {f : GoString × DiskFile} :
    f ∈ visible disk ↔
      ∃ shard, shard.length = 2 ∧ isTemp f.1 = false ∧ disk.lookup (shard, f.1) = some f.2 := by
  unfold visible
  rw [List.mem_flatMap]
  constructor
  · rintro ⟨shard, hshard, hf⟩
    obtain ⟨-, hlen⟩ := List.mem_filter.mp hshard
    obtain ⟨hf, htemp⟩ := List.mem_filter.mp hf
    exact ⟨shard, of_decide_eq_true hlen, of_decide_eq_true htemp, mem_filesOf.mp hf⟩
  · rintro ⟨shard, hlen, htemp, hf⟩
    refine ⟨shard, List.mem_filter.mpr ⟨?_, decide_eq_true hlen⟩,
      List.mem_filter.mpr ⟨mem_filesOf.mpr hf, decide_eq_true htemp⟩⟩
    rw [Disk.shards, List.mem_insertionSort, List.mem_dedup, List.mem_map]
    exact ⟨(shard, f.1), AList.mem_keys.mp ((GoMap.mem_iff_lookup _ _).mpr ⟨f.2, hf⟩), rfl⟩

end DataCache

/-- Every call on the file system succeeds. -/
structure ScanOutcome.Succeeds (o : ScanOutcome) : Prop where
  mkdirAll : o.mkdirAll = true
  readDir : o.readDir = true
  readShard : ∀ shard, o.readShard shard = true
  info : ∀ path, o.info path = true

namespace DataCache

variable {dc dc' : DataCache} {o : ScanOutcome}

/-- Where nothing fails, the scan takes up all visible files. -/
theorem scanned_eq_visible (ho : o.Succeeds) (disk : Disk) :
    (scanned disk o).map Prod.snd = visible disk := by
  unfold scanned visible
  rw [ho.readDir, if_neg (by decide)]
  induction Disk.shards disk with
  | nil => rfl
  | cons shard shards ih =>
    have hfiles : indexedOf disk o shard = if shard.length = 2 then
        (Disk.filesOf disk shard).filter fun f => isTemp f.1 = false else [] := by
      unfold indexedOf
      rw [ho.readShard]
      by_cases hlen : shard.length = 2
      · rw [if_neg (not_not.mpr hlen), if_neg (by decide), if_pos hlen]
        refine List.filter_congr fun f _ => ?_
        rw [ho.info, Bool.and_true]
        show (!isTemp f.1) = _
        cases isTemp f.1 <;> rfl
      · rw [if_pos hlen, if_neg hlen]
    rw [List.flatMap_cons, List.map_append, ih, List.map_map, hfiles, List.filter_cons]
    by_cases hlen : shard.length = 2 <;> simp [hlen, Function.comp_def]

theorem nodup_filesOf (disk : Disk) (shard : GoString) :
    ((Disk.filesOf disk shard).map Prod.fst).Nodup := by
  unfold Disk.filesOf
  rw [((List.perm_insertionSort _ _).map Prod.fst).nodup_iff, List.map_map]
  refine (disk.nodupKeys.nodup.filter _).map_on fun kv hkv kv' hkv' heq => ?_
  obtain ⟨hmem, hshard⟩ := List.mem_filter.mp hkv
  obtain ⟨hmem', hshard'⟩ := List.mem_filter.mp hkv'
  have hpath : kv.1 = kv'.1 :=
    Prod.ext ((of_decide_eq_true hshard).trans (of_decide_eq_true hshard').symm) heq
  exact List.NodupKeys.eq_of_fst_eq disk.nodupKeys hmem hmem' hpath

/-- Where every file is in the shard of its name, no name comes twice. -/
theorem nodup_visible {disk : Disk} (h : ∀ path file, disk.lookup path = some file →
    isTemp path.2 = false → path.1 = path.2.take 2) : ((visible disk).map Prod.fst).Nodup := by
  unfold visible
  rw [List.map_flatMap, List.nodup_flatMap]
  refine ⟨fun shard _ => ?_, ?_⟩
  · exact (nodup_filesOf disk shard).sublist (List.filter_sublist.map _)
  · have hnd : ((Disk.shards disk).filter fun shard => shard.length = 2).Nodup :=
      ((List.perm_insertionSort _ _).nodup_iff.mpr (List.nodup_dedup _)).filter _
    refine hnd.imp fun {shard shard'} hne name hname hname' => ?_
    -- a name tells its shard
    have hin : ∀ {shard}, name ∈ ((Disk.filesOf disk shard).filter fun f =>
        isTemp f.1 = false).map Prod.fst → shard = name.take 2 := by
      intro shard hmem
      obtain ⟨f, hf, rfl⟩ := List.mem_map.mp hmem
      obtain ⟨hf, htemp⟩ := List.mem_filter.mp hf
      exact h (shard, f.1) f.2 (mem_filesOf.mp hf) (of_decide_eq_true htemp)
    exact hne ((hin hname).trans (hin hname').symm)

/-- The index after taking up files with new names. -/
theorem foldl_addFile_spec {l : List (GoString × DiskFile)} (hnodup : (l.map Prod.fst).Nodup)
    (hacc : dc.Accounted) (hnew : ∀ f ∈ l, dc.items.lookup f.1 = none) :
    (l.foldl addFile dc).Accounted ∧ ∀ key size, (l.foldl addFile dc).sizeOf key = some size ↔
      (∃ f ∈ l, f.1 = key ∧ (f.2.data.length : Int) = size) ∨ dc.sizeOf key = some size := by
  induction l generalizing dc with
  | nil => exact ⟨hacc, fun key size => by simp⟩
  | cons f l ih =>
    obtain ⟨hf, hnodup⟩ := List.nodup_cons.mp hnodup
    obtain ⟨hfnew, hlnew⟩ := List.forall_mem_cons.mp hnew
    have hacc' : (dc.addFile f).Accounted :=
      (hacc.insertFront hfnew { key := f.1, s3Key := [], size := f.2.data.length
                                accessTime := f.2.modTime } rfl (Int.natCast_nonneg _)).reorder
        (LinkedList.order_pushBack_perm _ _) (LinkedList.value_pushBack _ _)
    have hsize : ∀ key, (dc.addFile f).sizeOf key
        = if key = f.1 then some (f.2.data.length : Int) else dc.sizeOf key :=
      hacc.sizeOf_insert f.1 _ _ (LinkedList.value_pushBack _ _) _
    have hnew' : ∀ f' ∈ l, (dc.addFile f).items.lookup f'.1 = none := by
      intro f' hf'
      refine (GoMap.lookup_insert_ite _ _ _ _).trans ?_
      rw [if_neg, hlnew f' hf']
      intro heq
      exact hf (List.mem_map.mpr ⟨f', hf', heq⟩)
    obtain ⟨hacc'', hspec⟩ := ih hnodup hacc' hnew'
    refine ⟨hacc'', fun key size => ?_⟩
    rw [List.foldl_cons, hspec, hsize]
    simp only [List.mem_cons, exists_eq_or_imp]
    by_cases hkey : key = f.1
    · -- the name is new, and comes only once
      subst hkey
      have hl : ¬ ∃ f' ∈ l, f'.1 = f.1 ∧ (f'.2.data.length : Int) = size := by
        rintro ⟨f', hf', heq, -⟩
        exact hf (List.mem_map.mpr ⟨f', hf', heq⟩)
      have hnone : dc.sizeOf f.1 = none := by
        rw [sizeOf, hfnew]
        rfl
      simp [hl, hnone]
    · simp [hkey, Ne.symm hkey]

theorem accounted_unscanned (sha256 : Sha256) (config : DataCacheConfig) (disk : Disk) :
    (unscanned sha256 config disk).Accounted where
  listed := nofun
  indexed := nofun
  total := rfl
  nonneg := nofun

/-- The index rebuilt from a directory of whole files: the files that are no temporary
ones, with their sizes. -/
theorem scanDir_spec (ho : o.Succeeds) (sha256 : Sha256) (config : DataCacheConfig) {disk : Disk}
    {P : GoString → Bytes → Prop} (h : Whole P disk) :
    ((unscanned sha256 config disk).scanDir o).Accounted ∧
      ∀ key size, ((unscanned sha256 config disk).scanDir o).sizeOf key = some size ↔
        isTemp key = false ∧ cachePath key = some (key.take 2, key) ∧
          ∃ file, disk.lookup (key.take 2, key) = some file ∧ (file.data.length : Int) = size := by
  have hpath : ∀ path file, disk.lookup path = some file → isTemp path.2 = false →
      cachePath path.2 = some path ∧ path.1 = path.2.take 2 := by
    intro path file hfile htemp
    obtain ⟨hcache, -⟩ := h path file hfile htemp
    refine ⟨hcache, ?_⟩
    unfold cachePath at hcache
    split at hcache
    · cases hcache
    · exact (congrArg Prod.fst (Option.some.inj hcache)).symm
  obtain ⟨hacc, hspec⟩ := foldl_addFile_spec
    (nodup_visible fun path file hfile htemp => (hpath path file hfile htemp).2)
    (accounted_unscanned sha256 config disk) (fun _ _ => rfl)
  rw [scanDir_eq, show (unscanned sha256 config disk).disk = disk from rfl, scanned_eq_visible ho]
  refine ⟨hacc, fun key size => (hspec key size).trans ?_⟩
  constructor
  · rintro (⟨⟨name, file⟩, hf, rfl, rfl⟩ | hnone)
    · obtain ⟨shard, -, htemp, hfile⟩ := mem_visible.mp hf
      obtain ⟨hcache, hshard⟩ := hpath (shard, name) file hfile htemp
      have hshard : shard = name.take 2 := hshard
      subst hshard
      exact ⟨htemp, hcache, file, hfile, rfl⟩
    · cases hnone
  · rintro ⟨htemp, hcache, file, hfile, rfl⟩
    refine Or.inl ⟨(key, file), mem_visible.mpr ⟨key.take 2, ?_, htemp, hfile⟩, rfl, rfl⟩
    unfold cachePath at hcache
    split at hcache
    · cases hcache
    · next hlen => rw [List.length_take, Nat.min_eq_left (Nat.not_lt.mp hlen)]

/-! ## Runs -/

/-- A call, with the outcome of each of its steps. -/
abbrev FinishedCall := DataCall × List DiskOutcome

/-- The cache after a call. -/
def afterCall (dc : DataCache) (c : FinishedCall) : DataCache :=
  ((c.1.program dc).advance crashable c.2 dc).2

/-- The call has returned, and no other file system calls have failed than those a `Put`
makes on its temporary file. -/
def Returns (dc : DataCache) (c : FinishedCall) : Prop :=
  Prog.Admits crashable c.2 (c.1.program dc) dc ∧
    ∃ r, ((c.1.program dc).advance crashable c.2 dc).1 = .ret r

/-- Some `Put` of `data` among the calls is for this name. -/
def PutAmong (sha256 : Sha256) (calls : List DataCall) (name : GoString) (data : Bytes) : Prop :=
  ∃ s3Key etag, DataCall.put s3Key etag data ∈ calls ∧
    name = hexEncodeToString (sha256.sum256 (s3Key ++ etag))

section Runs

variable {sha256 : Sha256} {config : DataCacheConfig} {P : GoString → Bytes → Prop}

/-- One call. -/
theorem Between.afterCall (hpos : 0 ≤ config.maxSize) (h : Between sha256 config P dc)
    (c : FinishedCall) (hret : dc.Returns c)
    (hput : ∀ s3Key etag data, c.1 = .put s3Key etag data → P (dc.cacheKey s3Key etag) data) :
    Between sha256 config P (dc.afterCall c) := by
  obtain ⟨hadm, r, hr⟩ := hret
  exact ((along_program hpos h c.1 hput).advance hadm hr).2

theorem between_unscanned (sha256 : Sha256) (config : DataCacheConfig)
    (P : GoString → Bytes → Prop) :
    Between sha256 (unscanned sha256 config ∅).config P (unscanned sha256 config ∅) := by
  have hpos : 0 < (unscanned sha256 config ∅).config.maxSize := by
    show 0 < if config.maxSize ≤ 0 then defaultDataCacheMaxSize else config.maxSize
    split
    · decide
    · omega
  refine ⟨⟨⟨accounted_unscanned _ _ _, longKeys_unscanned _ _ _, fun shard name size => ?_⟩, nofun,
    rfl, rfl⟩, Int.le_of_lt hpos⟩
  constructor
  · rintro ⟨-, h⟩
    cases h
  · rintro ⟨-, h⟩
    cases h

theorem evictWhile_of_not {cond : DataCache → DataEntry → Bool}
    (h : ∀ entry, cond dc entry = false) (elems : List Nat) : evictWhile cond elems dc = some dc := by
  unfold evictWhile
  split
  · rfl
  · split
    · rfl
    · next entry _ => rw [h entry, if_neg Bool.false_ne_true]

/-- A cache within its size and without expiry evicts nothing. -/
theorem evict_of_bounded (httl : dc.config.dataTTL = 0) (hsize : dc.currentSize ≤ dc.config.maxSize)
    (now : Time) : dc.evict now = some dc := by
  unfold DataCache.evict
  rw [evictWhile_of_not fun entry => by simp [ttlExpired, httl], Option.bind_some]
  exact evictWhile_of_not (fun _ => decide_eq_false (Int.not_lt.mpr hsize)) _

/-- A cache started on an empty directory is empty. -/
theorem eq_of_newDataCache_empty {now : Time} {dc₀ : DataCache}
    (h : newDataCache sha256 config o now ∅ = some (.ok dc₀)) : dc₀ = unscanned sha256 config ∅ := by
  have hscan : (unscanned sha256 config ∅).scanDir o = unscanned sha256 config ∅ := by
    unfold scanDir
    cases o.readDir <;> rfl
  unfold newDataCache at h
  rw [hscan] at h
  split at h
  · cases h
  · obtain ⟨dc', hev, heq⟩ := Option.map_eq_some_iff.mp h
    cases heq
    exact (Option.some.inj hev).symm

/-- The directory left by a run is enough to rebuild its index. -/
theorem Between.restart (ho : o.Succeeds)
    (h : Between sha256 (unscanned sha256 config ∅).config P dc) (now : Time) :
    ∃ dc', newDataCache sha256 ⟨config.maxSize, 0⟩ o now dc.disk = some (.ok dc') ∧
      (∀ key, dc'.sizeOf key = dc.sizeOf key) ∧ dc'.currentSize = dc.currentSize := by
  obtain ⟨hacc, hspec⟩ := scanDir_spec ho sha256 ⟨config.maxSize, 0⟩ h.1.whole
  have hsize : ∀ key, ((unscanned sha256 ⟨config.maxSize, 0⟩ dc.disk).scanDir o).sizeOf key
      = dc.sizeOf key := by
    intro key
    refine Option.ext fun size => (hspec key size).trans ?_
    have hmir := h.1.synced.mirrored (key.take 2) key size
    constructor
    · rintro ⟨htemp, -, file, hfile, hsize⟩
      refine (hmir.mp ⟨htemp, ?_⟩).2
      rw [fileSize, hfile, ← hsize]
      rfl
    · intro hs
      have hmem : key ∈ dc.items := h.1.synced.accounted.mem_items_iff.mpr ⟨size, hs⟩
      obtain ⟨elem, hitem⟩ := (GoMap.mem_iff_lookup _ _).mp hmem
      have hcache := cachePath_of_two_le (h.1.synced.long.items key elem hitem)
      obtain ⟨htemp, hf⟩ := hmir.mpr ⟨hcache, hs⟩
      obtain ⟨file, hfile, hlen⟩ := Option.map_eq_some_iff.mp hf
      exact ⟨htemp, hcache, file, hfile, hlen⟩
  have hcur := h.1.synced.accounted.currentSize_congr hacc hsize
  refine ⟨_, ?_, hsize, hcur⟩
  have hconf : ((unscanned sha256 ⟨config.maxSize, 0⟩ dc.disk).scanDir o).config
      = (unscanned sha256 ⟨config.maxSize, 0⟩ dc.disk).config := by
    rw [scanDir_eq]
    exact (disk_foldl_addFile _ _).2
  have hbound : ((unscanned sha256 ⟨config.maxSize, 0⟩ dc.disk).scanDir o).currentSize
      ≤ ((unscanned sha256 ⟨config.maxSize, 0⟩ dc.disk).scanDir o).config.maxSize := by
    rw [hcur, hconf]
    exact h.2
  rw [newDataCache, ho.mkdirAll, if_neg (by decide), evict_of_bounded (hconf ▸ rfl) hbound now]
  rfl

theorem between_run (hpos : 0 ≤ config.maxSize) {calls : List FinishedCall}
    (h : Between sha256 config P dc) (hcalls : EachStep DataCache.afterCall Returns dc calls)
    (hputs : ∀ name data, PutAmong sha256 (calls.map Prod.fst) name data → P name data) :
    Between sha256 config P (calls.foldl DataCache.afterCall dc) := by
  have hput : EachStep DataCache.afterCall (fun _ c => ∀ s3Key etag data,
      c.1 = .put s3Key etag data → P (hexEncodeToString (sha256.sum256 (s3Key ++ etag))) data)
      dc calls := by
    refine EachStep.of_forall fun c hc s3Key etag data heq => hputs _ data ⟨s3Key, etag, ?_, rfl⟩
    exact heq ▸ List.mem_map_of_mem hc
  refine (throughout_of_eachStep (P := Between sha256 config P) (fun dc c h hc => ?_) (fun _ h => h)
    h (hcalls.and hput)).last
  refine h.afterCall hpos c hc.1 fun s3Key etag data heq => ?_
  rw [cacheKey, h.1.sha256_eq]
  exact hc.2 s3Key etag data heq

/-- After any run of calls, one after the other, on a cache that was started on an empty
directory: directory and index agree, a restart finds the same keys and sizes, and a
process stopped anywhere within a further `Put` leaves a directory from which only files
with the complete data of some `Put` are taken up. -/
theorem restart_and_crash (sha256 : Sha256) (config : DataCacheConfig) {o : ScanOutcome}
    (ho : o.Succeeds) {now₀ : Time} {dc₀ : DataCache}
    (hstart : newDataCache sha256 config o now₀ ∅ = some (.ok dc₀)) (calls : List FinishedCall)
    (hcalls : EachStep afterCall Returns dc₀ calls) :
    let dc := calls.foldl afterCall dc₀
    dc.Mirrored ∧
      (∀ now, ∃ dc', newDataCache sha256 ⟨config.maxSize, 0⟩ o now dc.disk = some (.ok dc') ∧
        (∀ key, dc'.sizeOf key = dc.sizeOf key) ∧ dc'.currentSize = dc.currentSize) ∧
      ∀ s3Key etag data os, Prog.Admits crashable os (putCall (dc.cacheKey s3Key etag) s3Key data) dc →
        ∀ disk ∈ (putCall (dc.cacheKey s3Key etag) s3Key data).stops crashable os dc,
          ∀ config', ∀ key ∈ ((unscanned sha256 config' disk).scanDir o).items,
            ∃ file, disk.lookup (key.take 2, key) = some file ∧
              PutAmong sha256 (.put s3Key etag data :: calls.map Prod.fst) key file.data := by
  intro dc
  cases eq_of_newDataCache_empty hstart
  have hpos : 0 ≤ (unscanned sha256 config ∅).config.maxSize :=
    (between_unscanned sha256 config fun _ _ => True).2
  have hrun : ∀ P, (∀ name data, PutAmong sha256 (calls.map Prod.fst) name data → P name data) →
      Between sha256 (unscanned sha256 config ∅).config P dc :=
    fun P hputs => between_run hpos (between_unscanned sha256 config P) hcalls hputs
  have hb := hrun _ fun _ _ h => h
  refine ⟨hb.1.synced.mirrored, hb.restart ho, fun s3Key etag data os hos disk hdisk config' key hkey => ?_⟩
  -- the files of the `Put` under way count as well
  have hb' := hrun (PutAmong sha256 (.put s3Key etag data :: calls.map Prod.fst)) (by
    rintro name data' ⟨s3Key', etag', hmem, hname⟩
    exact ⟨s3Key', etag', List.mem_cons_of_mem _ hmem, hname⟩)
  have hown : PutAmong sha256 (.put s3Key etag data :: calls.map Prod.fst) (dc.cacheKey s3Key etag)
      data := ⟨s3Key, etag, List.mem_cons_self, by rw [cacheKey, hb.1.sha256_eq]⟩
  have hwhole : Whole (PutAmong sha256 (.put s3Key etag data :: calls.map Prod.fst)) disk :=
    (along_putCall hpos hb' (two_le_length_cacheKey dc s3Key etag) (isTemp_cacheKey dc s3Key etag)
      hown s3Key).stops hos disk hdisk
  obtain ⟨hacc, hspec⟩ := scanDir_spec ho sha256 config' hwhole
  obtain ⟨size, hsize⟩ := hacc.mem_items_iff.mp hkey
  obtain ⟨htemp, -, file, hfile, -⟩ := (hspec key size).mp hsize
  exact ⟨file, hfile, (hwhole (key.take 2, key) file hfile htemp).2⟩

end Runs

/-- One byte is put into an empty cache; the cache is started again. -/
theorem restart_after_put :
    let dc := [(.put (gs "a") (gs "e") [1], List.replicate 7 Calls.fine)].foldl afterCall
      (unscanned padded ⟨10, 0⟩ ∅)
    dc.currentSize = 1 ∧ ∃ dc', newDataCache padded ⟨10, 0⟩ allSucceed 5 dc.disk = some (.ok dc') ∧
      (∀ key, dc'.sizeOf key = dc.sizeOf key) ∧ dc'.currentSize = dc.currentSize := by
  have hstart : newDataCache padded ⟨10, 0⟩ allSucceed 0 ∅
      = some (.ok (unscanned padded ⟨10, 0⟩ ∅)) := rfl
  have hcalls : EachStep afterCall Returns (unscanned padded ⟨10, 0⟩ ∅)
      [(.put (gs "a") (gs "e") [1], List.replicate 7 Calls.fine)] :=
    ⟨⟨⟨rfl, ⟨rfl, rfl⟩, trivial, trivial, trivial, trivial, trivial, trivial⟩, (), rfl⟩, trivial⟩
  exact ⟨by decide, (restart_and_crash padded ⟨10, 0⟩ ⟨rfl, rfl, fun _ => rfl, fun _ => rfl⟩ hstart _
    hcalls).2.1 5⟩

end DataCache

end S3Gateway
