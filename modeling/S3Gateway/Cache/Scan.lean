import S3Gateway.Cache.Entries

/-!
# The scan at the start and what it finds

`scanDir` indexes every file that lies in a directory with a name of two characters and is
no temporary one, under its name; all later code finds the file by taking the name apart
again. The elements of the LRU list are numbered in the order in which they are made, so
that the entry of the `i`-th file of the scan is the element `i`, at any later time.

`scan_safe_iff`: the entries lead back to their files, and no later call slices a name
that is too short, exactly if the name of every file the scan indexes starts with the name
of its directory.
-/

namespace S3Gateway

open Lib

namespace DataCache

variable {dc dc' dc₁ : DataCache}

/-! ## Elements keep their names -/

/-- The elements of `dc` have the same names in `dc'`, where there may be new ones. -/
structure SameNames (dc dc' : DataCache) : Prop where
  next_le : dc.order.next ≤ dc'.order.next
  names : ∀ i < dc.order.next,
    (dc'.order.value i).map DataEntry.key = (dc.order.value i).map DataEntry.key

theorem SameNames.refl (dc : DataCache) : SameNames dc dc := ⟨le_rfl, fun _ _ => rfl⟩

theorem SameNames.trans (h : SameNames dc dc₁) (h' : SameNames dc₁ dc') : SameNames dc dc' where
  next_le := h.next_le.trans h'.next_le
  names i hi := (h'.names i (hi.trans_le h.next_le)).trans (h.names i hi)

theorem sameNames_dropEntry (dc : DataCache) (key : GoString) (elem : Nat) (entry : DataEntry) :
    SameNames dc (dc.dropEntry key elem entry) :=
  ⟨le_rfl, fun _ _ => rfl⟩

theorem Drops.sameNames (h : Drops dc dc') : SameNames dc dc' := by
  refine h.induct (I := SameNames dc) (fun hI _ _ hrem => hI.trans ?_) (.refl dc)
  obtain ⟨path, -, rfl⟩ := Option.map_eq_some_iff.mp hrem
  exact ⟨le_rfl, fun _ _ => rfl⟩

/-- An entry may change, except for its name, and move. -/
theorem sameNames_update (dc : DataCache) (elem : Nat) (g : DataEntry → DataEntry)
    (hg : ∀ entry, (g entry).key = entry.key) (size : Int) :
    SameNames dc { dc with
      currentSize := size
      order := (dc.order.update elem g).moveToFront elem } := by
  refine ⟨by simp, fun i _ => ?_⟩
  dsimp only
  rw [LinkedList.value_moveToFront, LinkedList.value_update]
  split
  · next heq =>
    rw [heq, Option.map_map]
    exact congrArg (Option.map · _) (funext hg)
  · rfl

theorem sameNames_getOpen (dc : DataCache) (openOk : Bool) (key : GoString)
    (path : GoString × GoString) (elem : Nat) :
    SameNames dc (dc.getOpen openOk key path elem).2 := by
  unfold getOpen
  split
  · exact .refl dc
  · split
    · exact .refl dc
    · exact sameNames_dropEntry dc key elem _

theorem sameNames_get {now : Time} {openOk : Bool} {s3Key etag : GoString} {cached : Option Bytes}
    (hget : dc.get now openOk s3Key etag = some (cached, dc')) : SameNames dc dc' := by
  obtain ⟨path, -, hmap⟩ := Option.bind_eq_some_iff.mp hget
  obtain ⟨⟨found, dc₁⟩, hindex, hopen⟩ := Option.map_eq_some_iff.mp hmap
  have hfirst : SameNames dc dc₁ := by
    rcases getIndex_cases hindex with ⟨-, hdrops⟩ | ⟨elem, entry, -, -, -, rfl⟩
    · exact hdrops.sameNames
    · exact sameNames_update dc elem (fun entry => { entry with accessTime := now })
        (fun _ => rfl) dc.currentSize
  cases found with
  | none =>
    cases hopen
    exact hfirst
  | some elem =>
    have hsnd : (dc₁.getOpen openOk (dc.cacheKey s3Key etag) path elem).2 = dc' :=
      congrArg Prod.snd hopen
    exact hfirst.trans (hsnd ▸ sameNames_getOpen ..)

theorem sameNames_putIndex (dc : DataCache) (now : Time) (key s3Key : GoString) (written : Int) :
    SameNames dc (dc.putIndex now key s3Key written) := by
  unfold putIndex
  split
  · next elem _ =>
    exact sameNames_update dc elem (fun old => { old with size := written, accessTime := now })
      (fun _ => rfl) _
  · refine ⟨Nat.le_succ _, fun i hi => ?_⟩
    dsimp only
    rw [LinkedList.value_pushFront, if_neg hi.ne]

theorem sameNames_put {now : Time} {failure : Option PutFailure} {s3Key etag : GoString}
    {data : Bytes} {res : Except GoError Unit}
    (hput : dc.put now failure s3Key etag data = some (res, dc')) : SameNames dc dc' := by
  rcases put_cases hput with ⟨-, rfl⟩ | ⟨-, -, path, -, hev⟩
  · exact .refl dc'
  · have hdisk : SameNames dc { dc with disk := dc.disk.insert path ⟨data, now⟩ } :=
      ⟨le_rfl, fun _ _ => rfl⟩
    exact hdisk.trans ((sameNames_putIndex _ _ _ _ _).trans (drops_evict hev).sameNames)

/-! ## Calls that return -/

/-- The call does not panic. -/
def NoPanic (dc : DataCache) (ev : TimedDataOp) : Prop :=
  match ev.op with
  | .get s3Key etag openOk => (dc.get ev.now openOk s3Key etag).isSome
  | .put s3Key etag data failure => (dc.put ev.now failure s3Key etag data).isSome
  | .invalidate s3Key => (dc.invalidate s3Key).isSome
  | .evict => (dc.evict ev.now).isSome

/-- While all names can be sharded, calls return, and elements keep their names. -/
theorem LongKeys.perform (h : dc.LongKeys) (ev : TimedDataOp) :
    dc.NoPanic ev ∧ (dc.perform ev).LongKeys ∧ SameNames dc (dc.perform ev) := by
  obtain ⟨now, op⟩ := ev
  unfold NoPanic DataCache.perform
  cases op with
  | get s3Key etag openOk =>
    obtain ⟨cached, dc', hget, hlong⟩ := h.get now openOk s3Key etag
    dsimp only
    rw [hget]
    exact ⟨rfl, hlong, sameNames_get hget⟩
  | put s3Key etag data failure =>
    obtain ⟨res, dc', hput, hlong⟩ := h.put now failure s3Key etag data
    dsimp only
    rw [hput]
    exact ⟨rfl, hlong, sameNames_put hput⟩
  | invalidate s3Key =>
    obtain ⟨dc', hinv, hlong⟩ := h.invalidate s3Key
    dsimp only
    rw [hinv]
    exact ⟨rfl, hlong, (drops_invalidate hinv).sameNames⟩
  | evict =>
    obtain ⟨dc', hev, hlong⟩ := h.evict now
    dsimp only
    rw [hev]
    exact ⟨rfl, hlong, (drops_evict hev).sameNames⟩

/-- Runs of a cache whose names can be sharded. -/
theorem LongKeys.run (h : dc.LongKeys) (evs : List TimedDataOp) :
    EachStep DataCache.perform NoPanic dc evs ∧ (evs.foldl DataCache.perform dc).LongKeys ∧
      SameNames dc (evs.foldl DataCache.perform dc) := by
  induction evs generalizing dc with
  | nil => exact ⟨trivial, h, .refl dc⟩
  | cons ev evs ih =>
    obtain ⟨hret, hlong, hnames⟩ := h.perform ev
    obtain ⟨hrest, hlong', hnames'⟩ := ih hlong
    exact ⟨⟨hret, hrest⟩, hlong', hnames.trans hnames'⟩

/-! ## The entries of the scan -/

/-- The `i`-th file of the scan is the element `i`, and the `i`-th on the list. -/
theorem getElem_cells_scanDir (sha256 : Sha256) (config : DataCacheConfig) (disk : Disk)
    (o : ScanOutcome) {i : Nat} {sf : GoString × GoString × DiskFile}
    (h : (scanned disk o)[i]? = some sf) :
    ((unscanned sha256 config disk).scanDir o).cells[i]? = some (i, fileEntry sf.2) ∧
      i < ((unscanned sha256 config disk).scanDir o).order.next := by
  obtain ⟨hcells, hnext⟩ := cells_foldl_addFile ((scanned disk o).map Prod.snd)
    (unscanned sha256 config disk)
  rw [scanDir_eq, show (unscanned sha256 config disk).disk = disk from rfl, hcells, hnext]
  have hzero : (unscanned sha256 config disk).order.next = 0 := rfl
  have hnil : (unscanned sha256 config disk).cells = [] := rfl
  refine ⟨?_, ?_⟩
  · rw [hzero, hnil, List.nil_append, List.getElem?_map, List.getElem?_zipIdx, List.getElem?_map, h]
    simp
  · rw [hzero, List.length_map, Nat.zero_add]
    exact (List.getElem?_eq_some_iff.mp h).1

theorem longKeys_scanDir (sha256 : Sha256) (config : DataCacheConfig) {disk : Disk} {o : ScanOutcome}
    (h : ∀ sf ∈ scanned disk o, 2 ≤ sf.2.1.length) :
    ((unscanned sha256 config disk).scanDir o).LongKeys := by
  rw [scanDir_eq, show (unscanned sha256 config disk).disk = disk from rfl]
  have hstart := longKeys_unscanned sha256 config disk
  generalize unscanned sha256 config disk = dc at hstart
  generalize scanned disk o = l at h
  induction l generalizing dc with
  | nil => exact hstart
  | cons sf l ih =>
    obtain ⟨hsf, hl⟩ := List.forall_mem_cons.mp h
    refine ih _ ⟨fun elem entry hval => ?_, fun key elem hitem => ?_⟩ hl
    · rw [addFile, LinkedList.value_pushBack, LinkedList.value_pushFront] at hval
      split at hval
      · cases hval
        exact hsf
      · exact hstart.values elem entry hval
    · rw [addFile, GoMap.lookup_insert_ite] at hitem
      split at hitem
      · next heq => exact heq ▸ hsf
      · exact hstart.items key elem hitem

/-! ## Safety -/

/-- While the element is on the list, the path of its entry is that of the file, and
removing it deletes the file. -/
def LeadsTo (dc : DataCache) (elem : Nat) (path : GoString × GoString) : Prop :=
  ∀ entry, (elem, entry) ∈ dc.cells → cachePath entry.key = some path ∧
    ∃ dc', dc.removeEntry entry.key elem entry = some dc' ∧ dc'.disk.lookup path = none

theorem leadsTo_of_cachePath {elem : Nat} {path : GoString × GoString}
    (h : ∀ entry, (elem, entry) ∈ dc.cells → cachePath entry.key = some path) :
    dc.LeadsTo elem path := by
  intro entry hmem
  refine ⟨h entry hmem, _, by rw [removeEntry, h entry hmem]; rfl, AList.lookup_erase _ _⟩

/-- What is asked of a cache that has scanned the files `files`: each has an entry, which
leads to it at any later time, and no later call panics. -/
structure ScanSafe (files : List (GoString × GoString × DiskFile)) (dc : DataCache) : Prop where
  indexed : ∀ (i : Nat) sf, files[i]? = some sf → ∃ entry : DataEntry,
    dc.cells[i]? = some (i, entry) ∧ cachePath entry.key = some (sf.1, sf.2.1)
  leads : ∀ (evs : List TimedDataOp) (i : Nat) sf, files[i]? = some sf →
    (evs.foldl perform dc).LeadsTo i (sf.1, sf.2.1)
  returns : ∀ evs, EachStep perform NoPanic dc evs

theorem cachePath_eq_iff {shard name : GoString} (hshard : shard.length = 2) :
    cachePath name = some (shard, name) ↔ hasPrefix name shard = true := by
  unfold cachePath hasPrefix
  rw [List.isPrefixOf_iff_prefix, List.prefix_iff_eq_take, hshard]
  split
  · next hlt =>
    refine ⟨nofun, fun heq => ?_⟩
    have hlen := congrArg List.length heq
    rw [List.length_take] at hlen
    omega
  · rw [Option.some.injEq, Prod.mk.injEq]
    exact ⟨fun h => h.1.symm, fun h => ⟨h.symm, rfl⟩⟩

/-- `NewDataCache` on any directory, followed by any calls: it returns, the entry of every
file the scan indexes leads to that file as long as it is there, and no call panics,
exactly if the name of every file the scan indexes starts with the name of its shard
directory. (`NewDataCache` begins with an `evict` on what the scan made.) -/
theorem scan_safe_iff (sha256 : Sha256) (config : DataCacheConfig) (o : ScanOutcome) (disk : Disk) :
    ((∀ now, (newDataCache sha256 config o now disk).isSome) ∧
        ScanSafe (scanned disk o) ((unscanned sha256 config disk).scanDir o)) ↔
      ∀ sf ∈ scanned disk o, hasPrefix sf.2.1 sf.1 = true := by
  constructor
  · rintro ⟨-, hsafe⟩ sf hsf
    obtain ⟨i, hi⟩ := List.getElem?_of_mem hsf
    obtain ⟨entry, hcell, hpath⟩ := hsafe.indexed i sf hi
    rw [(getElem_cells_scanDir sha256 config disk o hi).1] at hcell
    cases hcell
    exact (cachePath_eq_iff (mem_scanned hsf).1).mp hpath
  · intro hall
    have hpath : ∀ sf ∈ scanned disk o, cachePath sf.2.1 = some (sf.1, sf.2.1) :=
      fun sf hsf => (cachePath_eq_iff (mem_scanned hsf).1).mpr (hall sf hsf)
    have hlong : ((unscanned sha256 config disk).scanDir o).LongKeys := by
      refine longKeys_scanDir sha256 config fun sf hsf => ?_
      have hle := (List.isPrefixOf_iff_prefix.mp (hall sf hsf)).length_le
      rwa [(mem_scanned hsf).1] at hle
    refine ⟨fun now => ?_, fun i sf hi => ?_, fun evs i sf hi => ?_, fun evs => (hlong.run evs).1⟩
    · unfold newDataCache
      split
      · rfl
      · obtain ⟨dc', hev, -⟩ := hlong.evict now
        rw [hev]
        rfl
    · exact ⟨fileEntry sf.2, (getElem_cells_scanDir sha256 config disk o hi).1,
        hpath sf (List.mem_of_getElem? hi)⟩
    · obtain ⟨hcell, hlt⟩ := getElem_cells_scanDir sha256 config disk o hi
      have hname := (hlong.run evs).2.2.names i hlt
      have hvalue := (mem_cells.mp (List.mem_of_getElem? hcell)).2
      refine leadsTo_of_cachePath fun entry hmem => ?_
      rw [(mem_cells.mp hmem).2, hvalue] at hname
      rw [Option.some.inj hname]
      exact hpath sf (List.mem_of_getElem? hi)

/-- A directory with one file. -/
def oneFileAt (shard name : GoString) : Disk := AList.insert (shard, name) ⟨[1], 0⟩ ∅

/-- A file with a name of one character makes `NewDataCache` panic when it has expired; one
in a shard of another name stays when its entry is evicted. -/
theorem scan_unsafe :
    newDataCache padded ⟨10, 10⟩ allSucceed 100 (oneFileAt (gs "aa") (gs "x")) = none ∧
    (newDataCache padded ⟨10, 10⟩ allSucceed 100 (oneFileAt (gs "aa") (gs "bb1"))).map
        (Except.map fun dc => (dc.order.order, dc.disk.lookup (gs "aa", gs "bb1")))
      = some (.ok ([], some ⟨[1], 0⟩)) := by
  exact ⟨rfl, rfl⟩

end DataCache

end S3Gateway
