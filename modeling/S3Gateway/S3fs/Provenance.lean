import S3Gateway.S3fs.Footprint

/-!
# Where the contents of objects come from

S3 stores objects as a whole, and the gateway stores three kinds of contents: nothing (new
files, links, markers and truncated files), the buffer of a written file at its `Close`, and
copies. So whatever runs at the same time, is cut off or fails, the contents of an object
were there at first, were brought by another client, are empty, or are the complete buffer
of a file at a `Close` (`contents_have_source`). In particular two files that are written
under one name at the same time never mix.
-/

namespace S3Gateway

open Lib

/-- All objects have contents in the set. -/
def Bucket.HasOnly (S : Set Bytes) (b : Bucket) : Prop := ∀ key o, b.get key = some o → o.data ∈ S

/-- The contents the call brings are in the set. -/
def Eff.Brings {β : Type} (S : Set Bytes) : Eff β → Prop
  | .putObject _ data _ => data ∈ S
  | .createDirMarker _ => [] ∈ S
  | _ => True

/-! ## Calls -/

namespace Bucket.HasOnly

variable {S : Set Bytes} {b : Bucket}

theorem putObject (h : b.HasOnly S) (key : GoString) {o : Object} (ho : o.data ∈ S) :
    (b.putObject key o).2.HasOnly S := by
  intro k o' ho'
  by_cases hk : key = []
  · subst hk
    rw [putObject_nil] at ho'
    exact h k o' ho'
  · rw [putObject_of_ne _ hk, get_put] at ho'
    split at ho'
    · cases ho'
      exact ho
    · exact h k o' ho'

theorem deleteObject (h : b.HasOnly S) (key : GoString) : (b.deleteObject key).2.HasOnly S := by
  unfold Bucket.deleteObject
  split
  · exact h
  · intro k o ho
    rw [get_remove] at ho
    split at ho
    · cases ho
    · exact h k o ho

theorem copyObject (h : b.HasOnly S) (src dst : GoString) (now : Time) (etag : GoString) :
    (b.copyObject src dst now etag).2.HasOnly S := by
  unfold Bucket.copyObject
  cases hsrc : b.get src with
  | none => exact h
  | some o => exact h.putObject dst (h src o hsrc)

theorem copyObjectWithMetadata (h : b.HasOnly S) (key : GoString) (metadata : Metadata)
    (now : Time) (etag : GoString) :
    (b.copyObjectWithMetadata key metadata now etag).2.HasOnly S := by
  unfold Bucket.copyObjectWithMetadata
  cases hkey : b.get key with
  | none => exact h
  | some o => exact h.putObject key (h key o hkey)

end Bucket.HasOnly

theorem World.hasOnly_handle {S : Set Bytes} {β : Type} {e : Eff β} (he : e.Brings S) {w : World}
    (h : w.bucket.HasOnly S) : (handle e w).2.bucket.HasOnly S := by
  cases e
  case putObject key data metadata => exact mutate_keeps h _ (h.putObject key he)
  case deleteObject key => exact mutate_keeps h _ (h.deleteObject key)
  case copyObject src dst => exact mutate_keeps h _ (h.copyObject src dst _ _)
  case copyObjectWithMetadata key metadata =>
    exact mutate_keeps h _ (h.copyObjectWithMetadata key metadata _ _)
  case createDirMarker key => exact mutate_keeps h _ (h.putObject key he)
  all_goals
    rw [handle_bucket rfl w]
    exact h

/-! ## Operations -/

/-- The contents an operation brings: the buffer of a file at its `Close`. -/
def Op.uploads (files : GoMap Nat File) : Op → Set Bytes
  | .file fd .close =>
    { data | ∃ f, files.lookup fd = some (.s3WritableFile f) ∧ f.closed = false ∧ f.tmp.data = data }
  | _ => ∅

/-- Besides these, an operation brings empty contents only. -/
theorem Writes.brings {files : GoMap Nat File} {op : Op} {β : Type} {e : Eff β}
    (h : Writes files op β e) {S : Set Bytes} (hnil : [] ∈ S) (hop : op.uploads files ⊆ S) :
    e.Brings S := by
  cases h with
  | upload hfd hopen => exact hop ⟨_, hfd, hopen, rfl⟩
  | placeholder | truncate | link | marker => exact hnil
  | metadata | move | moved | renamed | remove | removed | copy => trivial

theorem Eff.brings_of_asks {β : Type} (S : Set Bytes) (e : Eff β) (he : e.alters = []) :
    e.Brings S := by
  cases e
  case putObject | createDirMarker => cases he
  all_goals trivial

theorem keepsOnly_methodOf {S : Set Bytes} (hnil : [] ∈ S) {files : GoMap Nat File} {op : Op}
    (hop : op.uploads files ⊆ S) :
    (methodOf files op).Safe World.handle (fun w => w.bucket.HasOnly S) fun _ => True := by
  refine (writes_methodOf files op).safe fun e w he hw => World.hasOnly_handle ?_ hw
  exact he.elim (e.brings_of_asks S) fun hwrite => hwrite.brings hnil hop

/-! ## Runs -/

namespace Gateway

/-- The contents an event brings. -/
def brings : GatewayEvent → Set Bytes
  | .begin files op => op.uploads files
  | .s3 b => { data | ∃ key o, b.get key = some o ∧ o.data = data }
  | _ => ∅

/-- All contents are in the set, also those the operations under way bring. -/
abbrev HasOnly (S : Set Bytes) (g : Gateway) : Prop :=
  Pool.Safe World.handle (fun w => w.bucket.HasOnly S) (fun _ => True) g

theorem hasOnly_step {S : Set Bytes} (hnil : [] ∈ S) {g : Gateway} (h : HasOnly S g)
    {e : GatewayEvent} (he : brings e ⊆ S) : HasOnly S (step g e) := by
  cases e with
  | begin files op => exact Pool.Safe.spawn h (keepsOnly_methodOf hnil he)
  | call i => exact Pool.Safe.step h i
  | evictExpired => exact h
  | s3 b => exact ⟨fun key o ho => he ⟨key, o, ho, rfl⟩, h.2⟩
  | restart config dataCache =>
    refine ⟨h.1, fun p hp => ?_⟩
    cases hp

/-- The gateway never makes up contents and never mixes them. After any events, with
operations interleaved in any way, failing calls and restarts, the contents of each object are
empty, or were those of an object at first, or were brought by an event: as the buffer of a
file that was to be closed, as a whole, or in an object of another client. -/
theorem contents_have_source (b : Bucket) (env : Nat → Outcome) (config : Option CacheConfig)
    (dataCache : Option DataCache) (events : List GatewayEvent) {key : GoString} {o : Object}
    (ho : (events.foldl step (start b env config dataCache)).shared.bucket.get key = some o) :
    o.data = [] ∨ (∃ key₀ o₀, b.get key₀ = some o₀ ∧ o₀.data = o.data) ∨
      ∃ e ∈ events, o.data ∈ brings e := by
  -- all that is there at first or comes later
  let S : Set Bytes := {[]} ∪ brings (.s3 b) ∪ { data | ∃ e ∈ events, data ∈ brings e }
  have hnil : [] ∈ S := Or.inl (Or.inl rfl)
  have hstart : HasOnly S (start b env config dataCache) :=
    ⟨fun key o ho => Or.inl (Or.inr ⟨key, o, ho, rfl⟩), fun p hp => by cases hp⟩
  have hevents : EachStep step (fun _ e => brings e ⊆ S) (start b env config dataCache) events :=
    EachStep.of_forall fun e he _ hdata => Or.inr ⟨e, he, hdata⟩
  have hend : HasOnly S (events.foldl step (start b env config dataCache)) :=
    (throughout_of_eachStep (I := HasOnly S) (fun _ _ hg he => hasOnly_step hnil hg he)
      (fun _ h => h) hstart hevents).last
  rcases hend.1 key o ho with (hnil | hb) | he
  · exact Or.inl hnil
  · exact Or.inr (Or.inl hb)
  · exact Or.inr (Or.inr he)

/-- Two files open for writing under one name. -/
def writers : GoMap Nat File :=
  let file (data : Bytes) : File := .s3WritableFile
    { path := gs "/f", s3Key := gs "f", info := newFileInfoFromS3 (gs "f") 0 0 false 2 ∅
      tmp := ⟨data, 0⟩, downloaded := true, closed := false }
  (AList.insert 0 (file [1, 2]) ∅).insert 1 (file [3])

/-- Both are closed at the same time. -/
theorem contents_have_source_writers :
    let events := [.begin writers (.file 0 .close), .begin writers (.file 1 .close), .call 1,
      .call 0, .call 1, .restart none none]
    ∃ o, (events.foldl step serving).shared.bucket.get (gs "f") = some o ∧
      (o.data = [] ∨ (∃ key₀ o₀, (Bucket.onlyF [1] []).get key₀ = some o₀ ∧ o₀.data = o.data) ∨
        ∃ e ∈ events, o.data ∈ brings e) := by
  intro events
  obtain ⟨o, ho⟩ := Option.isSome_iff_exists.mp
    (show ((events.foldl step serving).shared.bucket.get (gs "f")).isSome by decide)
  exact ⟨o, ho, contents_have_source _ _ none none events ho⟩

end Gateway

end S3Gateway
