import S3Gateway.Lib.Run
import S3Gateway.Cache.DataProof

/-!
# The keys of the data cache

The file of an entry is named by the digest of S3 key and ETag, written one after the
other with nothing in between. All names are long enough to be sharded, so that no
method panics (`LongKeys`), and a hit returns what the last successful `Put` under the
same name wrote. That this was a `Put` for the same key and ETag is another matter: two
pairs with the same concatenation share a file.

`hit_own_iff_injOn`: hits return the data of the last `Put` for their own pair, in all
runs over a set of pairs, exactly if no two pairs of the set have the same
concatenation.
-/

namespace S3Gateway

open Lib

namespace DataCache

/-- The names of all entries can be sharded. -/
structure LongKeys (dc : DataCache) : Prop where
  values : ∀ elem entry, dc.order.value elem = some entry → 2 ≤ entry.key.length
  items : ∀ key elem, dc.items.lookup key = some elem → 2 ≤ key.length

theorem two_le_length_cacheKey (dc : DataCache) (s3Key etag : GoString) :
    2 ≤ (dc.cacheKey s3Key etag).length := by
  rw [cacheKey, length_hexEncodeToString, dc.sha256.length_sum256]
  decide

theorem cachePath_of_two_le {key : GoString} (h : 2 ≤ key.length) :
    cachePath key = some (key.take 2, key) :=
  if_neg (Nat.not_lt.mpr h)

variable {dc dc' : DataCache}

theorem LongKeys.dropEntry (h : dc.LongKeys) (key : GoString) (elem : Nat) (entry : DataEntry) :
    (dc.dropEntry key elem entry).LongKeys :=
  ⟨h.values, fun _ elem' hitem => h.items _ elem' (lookup_of_erase hitem).2⟩

theorem LongKeys.removeEntry (h : dc.LongKeys) {key : GoString} (hkey : 2 ≤ key.length) (elem : Nat)
    (entry : DataEntry) : ∃ dc', dc.removeEntry key elem entry = some dc' ∧ dc'.LongKeys := by
  refine ⟨_, by rw [DataCache.removeEntry, cachePath_of_two_le hkey]; rfl, ?_⟩
  exact ⟨(h.dropEntry key elem entry).values, (h.dropEntry key elem entry).items⟩

/-- An entry may change, except for its name, and move. -/
theorem LongKeys.update (h : dc.LongKeys) (elem : Nat) (g : DataEntry → DataEntry)
    (hg : ∀ entry, (g entry).key = entry.key) (size : Int) :
    { dc with
      currentSize := size
      order := (dc.order.update elem g).moveToFront elem }.LongKeys := by
  refine ⟨fun elem' entry hv => ?_, h.items⟩
  rw [LinkedList.value_moveToFront, LinkedList.value_update] at hv
  split at hv
  · obtain ⟨old, hold, rfl⟩ := Option.map_eq_some_iff.mp hv
    rw [hg]
    exact h.values elem old hold
  · exact h.values elem' entry hv

theorem LongKeys.getIndex (h : dc.LongKeys) (now : Time) (key : GoString) :
    ∃ found dc', dc.getIndex now key = some (found, dc') ∧ dc'.LongKeys := by
  unfold DataCache.getIndex
  split
  · exact ⟨_, _, rfl, h⟩
  · next elem hitem =>
    split
    · exact ⟨_, _, rfl, h⟩
    · next entry hval =>
      split
      · obtain ⟨dc', hrem, hlong⟩ := h.removeEntry (h.items key elem hitem) elem entry
        rw [hrem]
        exact ⟨_, _, rfl, hlong⟩
      · exact ⟨_, _, rfl, h.update elem (fun entry => { entry with accessTime := now })
          (fun _ => rfl) dc.currentSize⟩

theorem LongKeys.getOpen (h : dc.LongKeys) (openOk : Bool) (key : GoString)
    (path : GoString × GoString) (elem : Nat) : (dc.getOpen openOk key path elem).2.LongKeys := by
  unfold DataCache.getOpen
  split
  · exact h
  · split
    · exact h
    · exact h.dropEntry key elem _

theorem LongKeys.get (h : dc.LongKeys) (now : Time) (openOk : Bool) (s3Key etag : GoString) :
    ∃ cached dc', dc.get now openOk s3Key etag = some (cached, dc') ∧ dc'.LongKeys := by
  obtain ⟨found, dc₁, hget, hlong⟩ := h.getIndex now (dc.cacheKey s3Key etag)
  unfold DataCache.get
  dsimp only
  rw [cachePath_of_two_le (two_le_length_cacheKey dc s3Key etag), Option.bind_some, hget,
    Option.map_some]
  cases found with
  | none => exact ⟨_, _, rfl, hlong⟩
  | some elem => exact ⟨_, _, rfl, hlong.getOpen _ _ _ _⟩

theorem LongKeys.evictWhile (h : dc.LongKeys) (cond : DataCache → DataEntry → Bool)
    (elems : List Nat) : ∃ dc', DataCache.evictWhile cond elems dc = some dc' ∧ dc'.LongKeys := by
  induction elems generalizing dc with
  | nil => exact ⟨dc, rfl, h⟩
  | cons elem elems ih =>
    unfold DataCache.evictWhile
    split
    · exact ⟨dc, rfl, h⟩
    · next entry hval =>
      split
      · obtain ⟨dc₁, hrem, hlong⟩ := h.removeEntry (h.values elem entry hval) elem entry
        rw [hrem]
        exact ih hlong
      · exact ⟨dc, rfl, h⟩

theorem LongKeys.evict (h : dc.LongKeys) (now : Time) :
    ∃ dc', dc.evict now = some dc' ∧ dc'.LongKeys := by
  obtain ⟨dc₁, h₁, hlong⟩ := h.evictWhile (fun dc entry => dc.ttlExpired now entry)
    dc.order.order.reverse
  unfold DataCache.evict
  rw [h₁]
  exact hlong.evictWhile _ _

theorem LongKeys.putIndex (h : dc.LongKeys) (now : Time) {key : GoString} (hkey : 2 ≤ key.length)
    (s3Key : GoString) (written : Int) : (dc.putIndex now key s3Key written).LongKeys := by
  unfold DataCache.putIndex
  split
  · next elem _ =>
    exact h.update elem (fun old => { old with size := written, accessTime := now })
      (fun _ => rfl) _
  · refine ⟨fun elem entry hv => ?_, fun key' elem hitem => ?_⟩
    · rw [LinkedList.value_pushFront] at hv
      split at hv
      · cases hv
        exact hkey
      · exact h.values elem entry hv
    · rw [GoMap.lookup_insert_ite] at hitem
      split at hitem
      · next heq => exact heq ▸ hkey
      · exact h.items key' elem hitem

theorem LongKeys.put (h : dc.LongKeys) (now : Time) (failure : Option PutFailure)
    (s3Key etag : GoString) (data : Bytes) :
    ∃ res dc', dc.put now failure s3Key etag data = some (res, dc') ∧ dc'.LongKeys := by
  have hkey := two_le_length_cacheKey dc s3Key etag
  unfold DataCache.put
  dsimp only
  rw [cachePath_of_two_le hkey, Option.bind_some]
  cases failure with
  | some f => exact ⟨_, _, rfl, h⟩
  | none =>
    have hdisk : ∀ disk, { dc with disk := disk }.LongKeys := fun _ => ⟨h.values, h.items⟩
    obtain ⟨dc', hev, hlong⟩ := ((hdisk _).putIndex now hkey s3Key data.length).evict now
    exact ⟨.ok (), dc', by rw [hev]; rfl, hlong⟩

theorem LongKeys.invalidateLoop (h : dc.LongKeys) (s3Key : GoString)
    {l : List (Sigma fun _ : GoString => Nat)} (hl : ∀ kv ∈ l, 2 ≤ kv.1.length) :
    ∃ dc', l.foldlM (fun dc kv =>
      match dc.order.value kv.2 with
      | none => some dc
      | some entry => if entry.s3Key = s3Key then dc.removeEntry kv.1 kv.2 entry else some dc) dc
        = some dc' ∧ dc'.LongKeys := by
  induction l generalizing dc with
  | nil => exact ⟨dc, rfl, h⟩
  | cons kv l ih =>
    obtain ⟨hkv, hl⟩ := List.forall_mem_cons.mp hl
    rw [List.foldlM_cons]
    split
    · exact ih h hl
    · next entry hval =>
      split
      · obtain ⟨dc₁, hrem, hlong⟩ := h.removeEntry hkv kv.2 entry
        rw [hrem]
        exact ih hlong hl
      · exact ih h hl

theorem LongKeys.invalidate (h : dc.LongKeys) (s3Key : GoString) :
    ∃ dc', dc.invalidate s3Key = some dc' ∧ dc'.LongKeys :=
  h.invalidateLoop s3Key fun kv hkv => h.items kv.1 kv.2 (GoMap.lookup_eq_of_mem_entries hkv)

theorem longKeys_unscanned (sha256 : Sha256) (config : DataCacheConfig) (disk : Disk) :
    (unscanned sha256 config disk).LongKeys :=
  ⟨nofun, nofun⟩

/-! ## Files -/

theorem diskSub_get {now : Time} {openOk : Bool} {s3Key etag : GoString} {cached : Option Bytes}
    (hget : dc.get now openOk s3Key etag = some (cached, dc')) : DiskSub dc' dc :=
  (FileIs.get (P := fun _ => True) (fun _ _ _ _ => trivial) hget).1

/-- The file under a name holds `data`. -/
def Stored (key : GoString) (dc : DataCache) (data : Bytes) : Prop :=
  ∃ path file, cachePath key = some path ∧ dc.disk.lookup path = some file ∧ file.data = data

theorem Stored.of_diskSub {key : GoString} {data : Bytes} (h : dc'.Stored key data)
    (hsub : DiskSub dc' dc) : dc.Stored key data := by
  obtain ⟨path, file, hpath, hfile, hdata⟩ := h
  exact ⟨path, file, hpath, hsub.files path file hfile, hdata⟩

/-- A hit is what the file holds. -/
theorem stored_of_get {now : Time} {openOk : Bool} {s3Key etag : GoString} {data : Bytes}
    (hget : dc.get now openOk s3Key etag = some (some data, dc')) :
    dc.Stored (dc.cacheKey s3Key etag) data := by
  have hpath := cachePath_of_two_le (two_le_length_cacheKey dc s3Key etag)
  have hfile : dc.FileIs (dc.cacheKey s3Key etag) (dc.Stored (dc.cacheKey s3Key etag)) :=
    fun path hpath file hfile => ⟨path, file, hpath, hfile, rfl⟩
  exact (hfile.get hget).2 data rfl

/-- After a successful `Put`, the file it is for holds the data, or is gone; the others
are as they were, or gone. -/
theorem Stored.put {now : Time} {s3Key etag : GoString} {data : Bytes} {res : Except GoError Unit}
    (hput : dc.put now none s3Key etag data = some (res, dc')) {key : GoString} {data' : Bytes}
    (h : dc'.Stored key data') :
    key = dc.cacheKey s3Key etag ∧ data' = data ∨
      key ≠ dc.cacheKey s3Key etag ∧ dc.Stored key data' := by
  obtain ⟨path', hpath', hput⟩ := Option.bind_eq_some_iff.mp hput
  obtain ⟨dc₁, hev, heq⟩ := Option.map_eq_some_iff.mp hput
  cases heq
  obtain ⟨path, file, hpath, hfile, rfl⟩ := h.of_diskSub (drops_evict hev).diskSub
  rw [disk_putIndex, GoMap.lookup_insert_ite] at hfile
  split at hfile
  · next heq =>
    cases hfile
    exact Or.inl ⟨(snd_of_cachePath hpath).symm.trans (heq ▸ snd_of_cachePath hpath'), rfl⟩
  · next hne =>
    refine Or.inr ⟨?_, path, file, hpath, hfile, rfl⟩
    rintro rfl
    rw [hpath] at hpath'
    exact hne (Option.some.inj hpath')

end DataCache

/-! ## Runs -/

/-- A call on the data cache, with what the file system contributes. -/
inductive DataOp where
  | get (s3Key etag : GoString) (openOk : Bool)
  | put (s3Key etag : GoString) (data : Bytes) (failure : Option PutFailure)
  | invalidate (s3Key : GoString)
  | evict

/-- A call and what `time.Now()` is at that call. -/
structure TimedDataOp where
  now : Time
  op : DataOp

/-- The key and ETag a call is about. -/
def DataOp.pair : DataOp → Option (GoString × GoString)
  | .get s3Key etag _ => some (s3Key, etag)
  | .put s3Key etag _ _ => some (s3Key, etag)
  | _ => none

/-- A successful `Put` of `data` for the pair. -/
def TimedDataOp.PutOf (p : GoString × GoString) (ev : TimedDataOp) (data : Bytes) : Prop :=
  ev.op = .put p.1 p.2 data none

/-- A successful `Put` for the pair. -/
def TimedDataOp.Puts (p : GoString × GoString) (ev : TimedDataOp) : Prop := ∃ data, ev.PutOf p data

namespace DataCache

/-- The cache after a call. -/
def perform (dc : DataCache) (ev : TimedDataOp) : DataCache :=
  match ev.op with
  | .get s3Key etag openOk => ((dc.get ev.now openOk s3Key etag).map Prod.snd).getD dc
  | .put s3Key etag data failure => ((dc.put ev.now failure s3Key etag data).map Prod.snd).getD dc
  | .invalidate s3Key => (dc.invalidate s3Key).getD dc
  | .evict => (dc.evict ev.now).getD dc

/-- The call is a successful `Put` of `data` under the name. -/
def WritesName (sha256 : Sha256) (key : GoString) (ev : TimedDataOp) (data : Bytes) : Prop :=
  ∃ p, ev.PutOf p data ∧ hexEncodeToString (sha256.sum256 (p.1 ++ p.2)) = key

/-- A run keeps the hash function, and names that can be sharded. -/
structure InOrder (sha256 : Sha256) (dc : DataCache) : Prop where
  sha256_eq : dc.sha256 = sha256
  longKeys : dc.LongKeys

/-- What one call does: names stay long, and what a file holds afterwards was written by
the call, or was there before and is not what the call overwrites. -/
theorem perform_spec {sha256 : Sha256} {dc : DataCache} (h : InOrder sha256 dc) (ev : TimedDataOp) :
    InOrder sha256 (dc.perform ev) ∧ ∀ key data, (dc.perform ev).Stored key data →
      WritesName sha256 key ev data ∨
        ¬ (∃ data, WritesName sha256 key ev data) ∧ dc.Stored key data := by
  -- calls that write no file
  have hsub : ∀ dc' : DataCache, dc'.LongKeys → DiskSub dc' dc →
      (∀ p data, ¬ ev.PutOf p data) →
      InOrder sha256 dc' ∧ ∀ key data, dc'.Stored key data → WritesName sha256 key ev data ∨
        ¬ (∃ data, WritesName sha256 key ev data) ∧ dc.Stored key data := by
    intro dc' hlong hsub hno
    refine ⟨⟨hsub.sha256.trans h.sha256_eq, hlong⟩, fun key data hst => Or.inr ⟨?_, hst.of_diskSub hsub⟩⟩
    rintro ⟨data', p, hput, -⟩
    exact hno p data' hput
  obtain ⟨now, op⟩ := ev
  cases op with
  | get s3Key etag openOk =>
    obtain ⟨cached, dc', hget, hlong⟩ := h.longKeys.get now openOk s3Key etag
    have heq : dc.perform ⟨now, .get s3Key etag openOk⟩ = dc' := by simp only [perform, hget]; rfl
    rw [heq]
    exact hsub dc' hlong (diskSub_get hget) nofun
  | put s3Key etag data failure =>
    obtain ⟨res, dc', hput, hlong⟩ := h.longKeys.put now failure s3Key etag data
    have heq : dc.perform ⟨now, .put s3Key etag data failure⟩ = dc' := by
      simp only [perform, hput]; rfl
    rw [heq]
    cases failure with
    | some f =>
      obtain ⟨path', -, hput⟩ := Option.bind_eq_some_iff.mp hput
      cases hput
      exact hsub dc hlong (DiskSub.refl dc) nofun
    | none =>
      have hany : dc.FileIs [] fun _ => True := fun _ _ _ _ => trivial
      have hsha : dc'.sha256 = dc.sha256 := (hany.put trivial hput).2
      refine ⟨⟨hsha.trans h.sha256_eq, hlong⟩, fun key data' hst => ?_⟩
      have hname : hexEncodeToString (sha256.sum256 (s3Key ++ etag)) = dc.cacheKey s3Key etag := by
        rw [cacheKey, h.sha256_eq]
      rcases Stored.put hput hst with ⟨rfl, rfl⟩ | ⟨hne, hst⟩
      · exact Or.inl ⟨(s3Key, etag), rfl, hname⟩
      · refine Or.inr ⟨?_, hst⟩
        rintro ⟨data₂, p, hput₂, hkey⟩
        cases hput₂
        exact hne (hkey.symm.trans hname)
  | invalidate s3Key =>
    obtain ⟨dc', hinv, hlong⟩ := h.longKeys.invalidate s3Key
    have heq : dc.perform ⟨now, .invalidate s3Key⟩ = dc' := by simp only [perform, hinv]; rfl
    rw [heq]
    exact hsub dc' hlong (drops_invalidate hinv).diskSub nofun
  | evict =>
    obtain ⟨dc', hev, hlong⟩ := h.longKeys.evict now
    have heq : dc.perform ⟨now, .evict⟩ = dc' := by simp only [perform, hev]; rfl
    rw [heq]
    exact hsub dc' hlong (drops_evict hev).diskSub nofun

/-- A hit goes back to the last successful `Put` under the same name. -/
theorem lastWrite_of_get {sha256 : Sha256} {config : DataCacheConfig} {evs : List TimedDataOp}
    {now : Time} {openOk : Bool} {s3Key etag : GoString} {data : Bytes} {dc' : DataCache}
    (hget : (evs.foldl perform (unscanned sha256 config ∅)).get now openOk s3Key etag
      = some (some data, dc')) :
    LastWrite (WritesName sha256 (hexEncodeToString (sha256.sum256 (s3Key ++ etag))))
      (fun ev => ∃ data, WritesName sha256
        (hexEncodeToString (sha256.sum256 (s3Key ++ etag))) ev data) evs data := by
  have hstart : InOrder sha256 (unscanned sha256 config ∅) := ⟨rfl, longKeys_unscanned _ _ _⟩
  have hend : InOrder sha256 (evs.foldl perform (unscanned sha256 config ∅)) :=
    (throughout_of_invariant (P := InOrder sha256) (fun _ ev h => (perform_spec h ev).1)
      (fun _ h => h) hstart evs).last
  have hst := stored_of_get hget
  rw [cacheKey, hend.sha256_eq] at hst
  have hlast := lastWrite_of_holds
    (H := Stored (hexEncodeToString (sha256.sum256 (s3Key ++ etag))))
    (fun _ ev h _ => (perform_spec h ev).1) (fun _ ev data h _ => (perform_spec h ev).2 _ data)
    hstart (EachStep.of_forall fun _ _ => trivial) hst
  -- the directory is empty at the start
  refine hlast.resolve_right ?_
  rintro ⟨-, path, file, -, hfile, -⟩
  cases hfile

/-- A live entry whose file can be opened is a hit. -/
theorem get_of_live {dc : DataCache} {now : Time} {s3Key etag : GoString}
    {path : GoString × GoString} {elem : Nat} {entry : DataEntry} {data : Bytes} {modTime : Time}
    (hpath : cachePath (dc.cacheKey s3Key etag) = some path)
    (hitem : dc.items.lookup (dc.cacheKey s3Key etag) = some elem)
    (hval : dc.order.value elem = some entry) (hlive : dc.ttlExpired now entry = false)
    (hfile : dc.disk.lookup path = some ⟨data, modTime⟩) :
    ∃ dc', dc.get now true s3Key etag = some (some data, dc') := by
  refine ⟨{ dc with order := (dc.order.update elem fun entry =>
    { entry with accessTime := now }).moveToFront elem }, ?_⟩
  simp only [DataCache.get, hpath, Option.bind_some, DataCache.getIndex, hitem, hval, hlive,
    Bool.false_eq_true, if_false, Option.map_some, getOpen, hfile]

/-- Empty data, put into an empty directory, is found under any pair with the same
concatenation. -/
theorem get_of_put_empty (sha256 : Sha256) {p q : GoString × GoString}
    (h : p.1 ++ p.2 = q.1 ++ q.2) :
    ∃ dc', ([(⟨0, .put p.1 p.2 [] none⟩ : TimedDataOp)].foldl perform
      (unscanned sha256 ⟨1, 0⟩ ∅)).get 0 true q.1 q.2 = some (some [], dc') := by
  obtain ⟨key, hkey⟩ : ∃ key, hexEncodeToString (sha256.sum256 (q.1 ++ q.2)) = key := ⟨_, rfl⟩
  have hpkey : (unscanned sha256 ⟨1, 0⟩ ∅).cacheKey p.1 p.2 = key := by
    rw [cacheKey, h]
    exact hkey
  have hpath : cachePath key = some (key.take 2, key) :=
    cachePath_of_two_le (hpkey ▸ two_le_length_cacheKey _ p.1 p.2)
  have hrun : [(⟨0, .put p.1 p.2 [] none⟩ : TimedDataOp)].foldl perform
      (unscanned sha256 ⟨1, 0⟩ ∅)
        = { unscanned sha256 ⟨1, 0⟩ ∅ with
            disk := AList.insert (key.take 2, key) ⟨[], 0⟩ ∅
            order := LinkedList.empty.pushFront ⟨key, p.1, 0, 0⟩
            items := AList.insert key 0 ∅ } := by
    simp only [List.foldl_cons, List.foldl_nil, perform, DataCache.put, hpkey, hpath,
      Option.bind_some]
    rfl
  have hitem : AList.lookup key (AList.insert key 0 ∅ : GoMap GoString Nat) = some 0 :=
    AList.lookup_insert _
  have hval : (LinkedList.empty.pushFront (⟨key, p.1, 0, 0⟩ : DataEntry)).value 0
      = some ⟨key, p.1, 0, 0⟩ := rfl
  have hfile : AList.lookup (key.take 2, key)
      (AList.insert (key.take 2, key) ⟨[], 0⟩ ∅ : Disk) = some ⟨[], 0⟩ := AList.lookup_insert _
  rw [hrun]
  refine get_of_live ?_ ?_ hval rfl hfile
  · exact (congrArg cachePath hkey).trans hpath
  · exact (congrArg (AList.lookup · _) hkey).trans hitem

/-- Hits of runs over the pairs `S` are the data of the last successful `Put` for their
own pair. -/
def HitsOwn (sha256 : Sha256) (S : Set (GoString × GoString)) : Prop :=
  ∀ (config : DataCacheConfig) (evs : List TimedDataOp),
    (∀ ev ∈ evs, ∀ p, ev.op.pair = some p → p ∈ S) →
    ∀ p ∈ S, ∀ now openOk data dc',
      (evs.foldl perform (unscanned sha256 config ∅)).get now openOk p.1 p.2
        = some (some data, dc') →
      LastWrite (TimedDataOp.PutOf p) (TimedDataOp.Puts p) evs data

/-- With no collisions of digests, hits return the data of the last successful `Put` for
their own pair, in all runs over a set of pairs, exactly if no two pairs of the set have
the same concatenation. -/
theorem hit_own_iff_injOn (sha256 : Sha256) (S : Set (GoString × GoString))
    (hsha : ∀ p ∈ S, ∀ q ∈ S,
      sha256.sum256 (p.1 ++ p.2) = sha256.sum256 (q.1 ++ q.2) → p.1 ++ p.2 = q.1 ++ q.2) :
    HitsOwn sha256 S ↔ Set.InjOn (fun p => p.1 ++ p.2) S := by
  constructor
  · intro hown p hp q hq hpq
    -- put nothing for one pair, and look for the other
    obtain ⟨dc', hget⟩ := get_of_put_empty sha256 hpq
    have hevs : ∀ ev ∈ [(⟨0, .put p.1 p.2 [] none⟩ : TimedDataOp)], ∀ p', ev.op.pair = some p' →
        p' ∈ S := by
      intro ev hev p' hp'
      rw [List.mem_singleton.mp hev] at hp'
      cases hp'
      exact hp
    obtain ⟨before, ev, after, heq, hput, -⟩ := hown ⟨1, 0⟩ _ hevs q hq 0 true [] dc' hget
    have hev : ev = ⟨0, .put p.1 p.2 [] none⟩ := by
      have : ev ∈ [(⟨0, .put p.1 p.2 [] none⟩ : TimedDataOp)] := heq ▸ by simp
      exact List.mem_singleton.mp this
    rw [hev] at hput
    injection hput with hkey hetag
    exact Prod.ext hkey hetag
  · intro hinj config evs hevs p hp now openOk data dc' hget
    have hname : ∀ ev ∈ evs, ∀ data, WritesName sha256
        (hexEncodeToString (sha256.sum256 (p.1 ++ p.2))) ev data → ev.PutOf p data := by
      rintro ev hev data ⟨q, hput, hkey⟩
      have hq : q ∈ S := by
        refine hevs ev hev q ?_
        rw [show ev.op = _ from hput]
        rfl
      have hqp : q = p := hinj hq hp (hsha q hq p hp (hexEncodeToString_injective hkey))
      exact hqp ▸ hput
    obtain ⟨before, ev, after, rfl, hw, hafter⟩ := lastWrite_of_get hget
    refine ⟨before, ev, after, rfl, hname ev (by simp) data hw, ?_⟩
    rintro ev' hev' ⟨data', hput⟩
    exact hafter ev' hev' ⟨data', p, hput, rfl⟩

/-- Two objects with the same ETag. -/
theorem hit_own_two_objects :
    HitsOwn padded {(gs "a", gs "e"), (gs "b", gs "e")} := by
  refine (hit_own_iff_injOn padded _ ?_).mpr ?_
  · rintro p (rfl | rfl) q (rfl | rfl) h
    all_goals first | rfl | exact absurd h (by decide)
  · rintro p (rfl | rfl) q (rfl | rfl) h
    all_goals first | rfl | exact absurd h (by decide)

/-- `Put("a", "bc")`, then `Get("ab", "c")` returns its data, though nothing was put for
that pair. -/
theorem hit_of_another_pair :
    ((([(⟨0, .put (gs "a") (gs "bc") [1] none⟩ : TimedDataOp)].foldl perform
        (unscanned padded ⟨10, 0⟩ ∅)).get 0 true (gs "ab") (gs "c")).map Prod.fst
          = some (some [1])) ∧
      ¬ LastWrite (TimedDataOp.PutOf (gs "ab", gs "c")) (TimedDataOp.Puts (gs "ab", gs "c"))
        [⟨0, .put (gs "a") (gs "bc") [1] none⟩] [1] := by
  refine ⟨by decide, ?_⟩
  rintro ⟨before, ev, after, heq, hput, -⟩
  have hmem : ev ∈ [(⟨0, .put (gs "a") (gs "bc") [1] none⟩ : TimedDataOp)] := heq ▸ by simp
  rw [List.mem_singleton.mp hmem] at hput
  cases hput

end DataCache

end S3Gateway
