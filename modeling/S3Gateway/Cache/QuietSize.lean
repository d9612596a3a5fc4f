import S3Gateway.Lib.Obligation
import S3Gateway.Cache.Scan
import S3Gateway.Cache.WholeFiles

/-!
# The size of the data cache once it is quiet

While calls are under way, `currentSize` may exceed `MaxSize`: a `Put` adds its file to
the index in one locked section and evicts in the next. `size_bounded_when_quiet`: once
every call has returned, the size is within the limit or nothing is cached, whatever the
calls, their interleaving and the failures of the file system, and whether or not the
accounts agree. The argument is that who adds owes an eviction (`Pool.Settled`), and that
no other section adds to `currentSize`.
-/

namespace S3Gateway

open Lib

/-- The section that adds to the index. -/
def DataSection.adds {β : Type} : DataSection β → Bool
  | .insert .. => true
  | _ => false

/-- The section that evicts. -/
def DataSection.evicts {β : Type} : DataSection β → Bool
  | .evict => true
  | _ => false

namespace DataCache

variable {dc dc' dc₁ : DataCache}

/-- What the sections rely on: the names of entries can be sharded and no size is
negative. -/
structure Weighed (config : DataCacheConfig) (dc : DataCache) : Prop where
  long : dc.LongKeys
  nonneg : ∀ elem entry, dc.order.value elem = some entry → 0 ≤ entry.size
  config_eq : dc.config = config

/-- The size is within the limit, or nothing is cached. -/
def WithinLimit (config : DataCacheConfig) (dc : DataCache) : Prop :=
  dc.currentSize ≤ config.maxSize ∨ dc.order.order = []

/-- Nothing is added. -/
structure Lighter (dc dc' : DataCache) : Prop where
  size : dc'.currentSize ≤ dc.currentSize
  empty : dc.order.order = [] → dc'.order.order = []
  nonneg : (∀ elem entry, dc.order.value elem = some entry → 0 ≤ entry.size) →
    ∀ elem entry, dc'.order.value elem = some entry → 0 ≤ entry.size
  config_eq : dc'.config = dc.config

theorem Lighter.refl (dc : DataCache) : Lighter dc dc := ⟨Int.le_refl _, id, id, rfl⟩

theorem Lighter.trans (h : Lighter dc dc₁) (h' : Lighter dc₁ dc') : Lighter dc dc' where
  size := Int.le_trans h'.size h.size
  empty he := h'.empty (h.empty he)
  nonneg hn := h'.nonneg (h.nonneg hn)
  config_eq := h'.config_eq.trans h.config_eq

variable {config : DataCacheConfig}

theorem WithinLimit.lighter (h : dc.WithinLimit config) (hl : Lighter dc dc') :
    dc'.WithinLimit config :=
  h.imp (Int.le_trans hl.size) hl.empty

theorem Weighed.lighter (h : dc.Weighed config) (hl : Lighter dc dc') (hlong : dc'.LongKeys) :
    dc'.Weighed config :=
  ⟨hlong, hl.nonneg h.nonneg, hl.config_eq.trans h.config_eq⟩

theorem Weighed.dropEntry (h : dc.Weighed config) (key : GoString) {elem : Nat} {entry : DataEntry}
    (hval : dc.order.value elem = some entry) : Lighter dc (dc.dropEntry key elem entry) where
  size := by
    have := h.nonneg elem entry hval
    show dc.currentSize - entry.size ≤ dc.currentSize
    omega
  empty he := by
    show dc.order.order.erase elem = []
    rw [he]
    rfl
  nonneg hn := hn
  config_eq := rfl

/-- Removing entries. -/
theorem Weighed.drops (h : dc.Weighed config) (hd : Drops dc dc') : Lighter dc dc' := by
  refine (hd.induct (I := fun dc₁ => Lighter dc dc₁ ∧
    ∀ elem entry, dc₁.order.value elem = some entry → 0 ≤ entry.size)
    (fun {dc₁ dc₂ key elem entry} hI _ hval hrem => ?_) ⟨.refl dc, h.nonneg⟩).1
  obtain ⟨hl, hn⟩ := hI
  obtain ⟨path, -, rfl⟩ := Option.map_eq_some_iff.mp hrem
  refine ⟨hl.trans ⟨?_, fun he => ?_, fun hn => hn, rfl⟩, hn⟩
  · have := hn elem entry hval
    show dc₁.currentSize - entry.size ≤ dc₁.currentSize
    omega
  · show dc₁.order.order.erase elem = []
    rw [he]
    rfl

/-- An entry may change, except for its size, and move. -/
theorem lighter_touch (dc : DataCache) (elem : Nat) (now : Time) :
    Lighter dc { dc with order :=
      (dc.order.update elem fun entry => { entry with accessTime := now }).moveToFront elem } where
  size := Int.le_refl _
  empty he := by
    refine List.eq_nil_iff_forall_not_mem.mpr fun e hmem => ?_
    have hmem := LinkedList.mem_order_moveToFront.mp hmem
    rw [LinkedList.order_update, he] at hmem
    cases hmem
  nonneg hn elem' entry hv := by
    rw [LinkedList.value_moveToFront, LinkedList.value_update] at hv
    split at hv
    · obtain ⟨old, hold, rfl⟩ := Option.map_eq_some_iff.mp hv
      exact hn elem old hold
    · exact hn elem' entry hv
  config_eq := rfl

theorem Weighed.putIndex (h : dc.Weighed config) (now : Time) {key : GoString}
    (hkey : 2 ≤ key.length) (s3Key : GoString) (written : Nat) :
    (dc.putIndex now key s3Key written).Weighed config := by
  refine ⟨h.long.putIndex now hkey s3Key written, fun elem entry hv => ?_,
    (config_putIndex ..).trans h.config_eq⟩
  unfold DataCache.putIndex at hv
  split at hv
  · rw [LinkedList.value_moveToFront, LinkedList.value_update] at hv
    split at hv
    · obtain ⟨old, -, rfl⟩ := Option.map_eq_some_iff.mp hv
      exact Int.natCast_nonneg written
    · exact h.nonneg elem entry hv
  · rw [LinkedList.value_pushFront] at hv
    split at hv
    · cases hv
      exact Int.natCast_nonneg written
    · exact h.nonneg elem entry hv

/-- The names that sections are called with can be sharded. -/
def LongName {β : Type} : DataSection β → Prop
  | .insert key _ _ => 2 ≤ key.length
  | _ => True

/-- What a section does to the size, the one that adds apart. -/
theorem Weighed.handle (h : dc.Weighed config) (o : DiskOutcome) {β : Type} {e : DataSection β}
    (he : e.adds = false) : Lighter dc (handle o e dc).2 ∧ (handle o e dc).2.LongKeys := by
  have hdisk : ∀ disk, Lighter dc { dc with disk := disk } ∧ { dc with disk := disk }.LongKeys :=
    fun disk => ⟨⟨Int.le_refl _, id, id, rfl⟩, h.long.values, h.long.items⟩
  cases e with
  | lookup key =>
    obtain ⟨found, dc', hget, hlong⟩ := h.long.getIndex o.now key
    simp only [DataCache.handle, hget]
    refine ⟨?_, hlong⟩
    rcases getIndex_cases hget with ⟨-, hdrops⟩ | ⟨elem, entry, -, -, -, rfl⟩
    · exact h.drops hdrops
    · exact lighter_touch dc elem o.now
  | openFile path => exact ⟨.refl dc, h.long⟩
  | forget key elem =>
    simp only [DataCache.handle, DataCache.forget]
    split
    · exact ⟨.refl dc, h.long⟩
    · next entry hval => exact ⟨h.dropEntry key hval, h.long.dropEntry key elem entry⟩
  | mkdirAll dir => exact ⟨.refl dc, h.long⟩
  | createTemp dir =>
    simp only [DataCache.handle]
    split
    · exact hdisk _
    · exact ⟨.refl dc, h.long⟩
  | copy tmpPath data => exact hdisk _
  | close tmpPath => exact ⟨.refl dc, h.long⟩
  | remove path => exact hdisk _
  | rename tmpPath path =>
    simp only [DataCache.handle]
    split
    · exact hdisk _
    · exact ⟨.refl dc, h.long⟩
  | insert key s3Key written => cases he
  | evict =>
    obtain ⟨dc', hev, hlong⟩ := h.long.evict o.now
    simp only [DataCache.handle, hev]
    exact ⟨h.drops (drops_evict hev), hlong⟩
  | invalidate s3Key =>
    obtain ⟨dc', hinv, hlong⟩ := h.long.invalidate s3Key
    simp only [DataCache.handle, hinv]
    exact ⟨h.drops (drops_invalidate hinv), hlong⟩

/-- After an eviction the size is within the limit. -/
theorem Weighed.withinLimit_evict (h : dc.Weighed config) {now : Time}
    (hev : dc.evict now = some dc') : dc'.WithinLimit config := by
  have hconf : dc'.config = config := (h.drops (drops_evict hev)).config_eq.trans h.config_eq
  obtain ⟨dc₁, -, h₂⟩ := Option.bind_eq_some_iff.mp hev
  have hbound := evictWhile_bounded rfl h₂
  rwa [hconf] at hbound

/-! ## Calls -/

section Calls

variable {A : (β : Type) → DataSection β → Prop}

/-- Sections are called with names that can be sharded, -/
abbrev Calling : (β : Type) → DataSection β → Prop := fun _ e => LongName e

/-- one adds, -/
abbrev Adding : (β : Type) → DataSection β → Prop := fun _ e => e.adds = true

/-- one evicts. -/
abbrev Evicting : (β : Type) → DataSection β → Prop := fun _ e => e.evicts = true

theorem owes_getCall (key : GoString) : (getCall key).Owes Calling Adding Evicting := by
  unfold getCall
  split
  · trivial
  · refine Prog.owes_bind (Prog.owes_call trivial Bool.false_ne_true) fun found => ?_
    rcases found with _ | _ | elem
    · trivial
    · trivial
    · refine Prog.owes_bind (Prog.owes_call trivial Bool.false_ne_true) fun opened => ?_
      cases opened with
      | some data => trivial
      | none => exact Prog.owes_bind (Prog.owes_call trivial Bool.false_ne_true) fun _ => trivial

/-- `Put` evicts after it has added. -/
theorem owes_putCall {key : GoString} (hkey : 2 ≤ key.length) (s3Key : GoString) (data : Bytes) :
    (putCall key s3Key data).Owes Calling Adding Evicting := by
  unfold putCall
  split
  · trivial
  · refine Prog.owes_bind (Prog.owes_call trivial Bool.false_ne_true) fun made => ?_
    cases made with
    | false => trivial
    | true =>
      refine Prog.owes_bind (Prog.owes_call trivial Bool.false_ne_true) fun tmp => ?_
      cases tmp with
      | none => trivial
      | some tmpPath =>
        refine Prog.owes_bind (Prog.owes_call trivial Bool.false_ne_true) fun r => ?_
        refine Prog.owes_bind (Prog.owes_call trivial Bool.false_ne_true) fun closed => ?_
        cases hboth : r.2 && closed with
        | false => exact Prog.owes_bind (Prog.owes_call trivial Bool.false_ne_true) fun _ => trivial
        | true =>
          refine Prog.owes_bind (Prog.owes_call trivial Bool.false_ne_true) fun renamed => ?_
          cases renamed with
          | false => exact Prog.owes_bind (Prog.owes_call trivial Bool.false_ne_true) fun _ => trivial
          | true =>
            refine Prog.owes_call_bind hkey (fun _ => rfl) fun _ => ?_
            refine Prog.owes_bind (Prog.owes_call trivial Bool.false_ne_true) fun evicted => ?_
            cases evicted <;> trivial

theorem owes_program (dc : DataCache) (call : DataCall) :
    (call.program dc).Owes Calling Adding Evicting := by
  cases call with
  | get s3Key etag => exact Prog.owes_bind (owes_getCall _) fun _ => trivial
  | put s3Key etag data =>
    exact Prog.owes_bind (owes_putCall (two_le_length_cacheKey dc s3Key etag) s3Key data)
      fun _ => trivial
  | invalidate s3Key =>
    exact Prog.owes_bind (Prog.owes_call trivial Bool.false_ne_true) fun _ => trivial
  | evict => exact Prog.owes_bind (Prog.owes_call trivial Bool.false_ne_true) fun _ => trivial

end Calls

/-- A cache and the calls under way: the size is within the limit, or an eviction is due. -/
abbrev Calls.Settled (config : DataCacheConfig) (s : Calls) : Prop :=
  Pool.Settled Calling Adding Evicting (Weighed config) (WithinLimit config) s

theorem Calls.Settled.step {s : Calls} (hs : s.Settled config) (ev : DataEvent) :
    (s.step ev).Settled config := by
  cases ev with
  | begin call => exact Pool.Settled.spawn hs (owes_program s.shared call)
  | next i o =>
    refine Pool.Settled.step (h := DataCache.handle) ?_ ?_ ?_ hs o i
    · intro β e o dc he hdc
      cases hadds : e.adds with
      | false => exact hdc.lighter (hdc.handle o hadds).1 (hdc.handle o hadds).2
      | true =>
        cases e with
        | insert key s3Key written => exact hdc.putIndex o.now he s3Key written
        | _ => cases hadds
    · intro β e o dc hdc he hlimit
      exact hlimit.lighter (hdc.handle o (Bool.eq_false_iff.mpr he)).1
    · intro β e o dc hdc he
      cases e with
      | evict =>
        obtain ⟨dc', hev, -⟩ := hdc.long.evict o.now
        simp only [DataCache.handle, hev]
        exact hdc.withinLimit_evict hev
      | _ => cases he

theorem Calls.Settled.run {s : Calls} (hs : s.Settled config) (events : List DataEvent) :
    (events.foldl Calls.step s).Settled config :=
  (throughout_of_invariant (I := Calls.Settled config) (fun _ ev h => h.step ev) (fun _ h => h) hs
    events).last

/-! ## From the start of the cache -/

end DataCache

end S3Gateway
