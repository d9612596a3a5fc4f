import S3Gateway.S3fs.Namespace
import S3Gateway.S3fs.WriteBack

/-!
# What the gateway leaves in the bucket

Three things hold of every object the gateway stores (`Object.WellFormed`): its key is
made of names, as `path.Clean` leaves them; if the key is that of a directory marker the
object is empty; and its extended attributes take no more room than `SetXattr` allows. The
first two are properties of single calls. The last one is not: `Chmod`, `Chown`, `SetXattr`
and `RemoveXattr` write back what an earlier `HeadObject` returned, so it has to be carried
through everything that happens in between. It is an invariant of the gateway all the same
(`objects_well_formed`).
-/

namespace S3Gateway

open Lib

/-- The extended attributes fit the room that `SetXattr` leaves them. -/
def XattrsFit (userMeta : Metadata) : Prop := totalXattrBytes userMeta ≤ xattrMaxTotalBytes

structure Object.WellFormed (key : GoString) (o : Object) : Prop where
  canonical : CanonicalKey key
  marker : hasSuffixSlash key = true → o.data = []
  xattrs : XattrsFit o.userMetadata

namespace Bucket

def WellFormed (b : Bucket) : Prop := ∀ key o, b.get key = some o → o.WellFormed key

variable {b : Bucket} {key : GoString}

theorem WellFormed.remove (h : b.WellFormed) (key : GoString) : (b.remove key).WellFormed := by
  intro k o ho
  rw [get_remove] at ho
  split at ho
  · cases ho
  · exact h k o ho

theorem WellFormed.putObject (h : b.WellFormed) {o : Object} (ho : key ≠ [] → o.WellFormed key) :
    (b.putObject key o).2.WellFormed := by
  by_cases hk : key = []
  · subst hk
    rw [putObject_nil]
    exact h
  · rw [putObject_of_ne _ hk]
    intro k o' ho'
    rw [get_put] at ho'
    split at ho'
    · next heq =>
      cases ho'
      exact heq ▸ ho hk
    · exact h k o' ho'

end Bucket

/-! ## Calls -/

/-- The call stores well-formed objects if it finds well-formed ones. -/
def Eff.WritesWell {β : Type} : Eff β → Prop
  | .putObject key _ metadata =>
    (key ≠ [] → CanonicalKey key ∧ hasSuffixSlash key = false) ∧ XattrsFit metadata
  | .copyObject src dst =>
    (dst ≠ [] → CanonicalKey dst) ∧
      (hasSuffixSlash dst = true → src ≠ [] → hasSuffixSlash src = true)
  | .copyObjectWithMetadata _ metadata => XattrsFit metadata
  | .createDirMarker key => key ≠ [] → CanonicalKey key
  | _ => True

theorem Eff.writesWell_of_asks {β : Type} (e : Eff β) (he : e.alters = []) : e.WritesWell := by
  cases e
  case putObject | copyObject | copyObjectWithMetadata | createDirMarker => cases he
  all_goals trivial

theorem Bucket.WellFormed.copyObject {b : Bucket} (h : b.WellFormed) {src dst : GoString}
    (he : (Eff.copyObject src dst).WritesWell) (now : Time) (etag : GoString) :
    (b.copyObject src dst now etag).2.WellFormed := by
  unfold Bucket.copyObject
  cases hsrc : b.get src with
  | none => exact h
  | some o =>
    have ho := h src o hsrc
    have hne : src ≠ [] := by
      rintro rfl
      rw [get_nil] at hsrc
      cases hsrc
    exact h.putObject fun hdst =>
      ⟨he.1 hdst, fun hslash => ho.marker (he.2 hslash hne), ho.xattrs⟩

theorem Bucket.WellFormed.copyObjectWithMetadata {b : Bucket} (h : b.WellFormed) {key : GoString}
    {metadata : Metadata} (hfit : XattrsFit metadata) (now : Time) (etag : GoString) :
    (b.copyObjectWithMetadata key metadata now etag).2.WellFormed := by
  unfold Bucket.copyObjectWithMetadata
  cases hkey : b.get key with
  | none => exact h
  | some o =>
    have ho := h key o hkey
    exact h.putObject fun _ => ⟨ho.canonical, ho.marker, hfit⟩

theorem xattrsFit_empty : XattrsFit ∅ := Nat.zero_le _

/-- A call that writes well keeps the objects well-formed. -/
theorem World.wellFormed_handle {β : Type} {e : Eff β} (he : e.WritesWell) {w : World}
    (h : w.bucket.WellFormed) : (handle e w).2.bucket.WellFormed := by
  cases e
  case putObject key data metadata =>
    refine mutate_keeps h _ (h.putObject fun hk => ?_)
    obtain ⟨hcanon, hslash⟩ := he.1 hk
    refine ⟨hcanon, fun hs => ?_, he.2⟩
    rw [hslash] at hs
    cases hs
  case deleteObject key =>
    refine mutate_keeps h _ ?_
    show (w.bucket.deleteObject key).2.WellFormed
    unfold Bucket.deleteObject
    split
    · exact h
    · exact h.remove key
  case copyObject src dst => exact mutate_keeps h _ (h.copyObject he _ _)
  case copyObjectWithMetadata key metadata =>
    exact mutate_keeps h _ (h.copyObjectWithMetadata he _ _)
  case createDirMarker key =>
    refine mutate_keeps h _ (h.putObject fun hk => ?_)
    exact ⟨he hk, fun _ => rfl, xattrsFit_empty⟩
  all_goals
    rw [handle_bucket rfl w]
    exact h

/-! ## Open files -/

/-- The object a file writes to is one a path leads to. -/
def File.Named : File → Prop
  | .s3File f => f.writable = true → ∃ path, f.s3Key = s3KeyFromPath path
  | .s3WritableFile f => ∃ path, f.s3Key = s3KeyFromPath path

/-! ## Methods -/

theorem XattrsFit.insert {userMeta : Metadata} (h : XattrsFit userMeta) {key : GoString}
    (hkey : shortFromMetaKey key = none) (v : GoString) : XattrsFit (userMeta.insert key v) :=
  (totalXattrBytes_insert_le userMeta hkey v).trans h

theorem XattrsFit.insert_of {userMeta : Metadata} (h : XattrsFit userMeta) {key : GoString}
    (hkey : shortFromMetaKey key = none) (φ : Prop) [Decidable φ] (v : GoString) :
    XattrsFit (if φ then userMeta.insert key v else userMeta) := by
  split
  · exact h.insert hkey v
  · exact h

theorem xattrsFit_symlinkMetadata (target : GoString) : XattrsFit (symlinkMetadata target) :=
  (((xattrsFit_empty.insert (by decide) _).insert Attrs.short_uid _).insert Attrs.short_gid
    _).insert Attrs.short_mode _

theorem xattrsFit_defaultMetadata : XattrsFit defaultMetadata := by
  unfold XattrsFit
  decide

/-- Every call of the operation that stores something writes well, unless it writes back
metadata that were read before. -/
theorem Writes.writesWell {files : GoMap Nat File} {op : Op} {β : Type} {e : Eff β}
    (h : Writes files op β e) (hfiles : ∀ fd f, files.lookup fd = some f → f.Named)
    (hop : op.attr = none) : e.WritesWell := by
  have hfile : ∀ path, s3KeyFromPath path ≠ [] →
      CanonicalKey (s3KeyFromPath path) ∧ hasSuffixSlash (s3KeyFromPath path) = false :=
    fun path hk => ⟨canonicalKey_s3KeyFromPath hk, hasSuffixSlash_s3KeyFromPath path⟩
  have hcopy : ∀ src path, (Eff.copyObject src (s3KeyFromPath path)).WritesWell := by
    refine fun src path => ⟨canonicalKey_s3KeyFromPath, fun hs => ?_⟩
    rw [hasSuffixSlash_s3KeyFromPath] at hs
    cases hs
  cases h with
  | placeholder hflags => exact ⟨hfile _, xattrsFit_defaultMetadata⟩
  | upload hfd hopen =>
    obtain ⟨path, hpath⟩ := hfiles _ _ hfd
    rw [hpath]
    exact ⟨hfile path, xattrsFit_defaultMetadata⟩
  | truncate hfd hwritable =>
    obtain ⟨path, hpath⟩ := hfiles _ _ hfd hwritable
    rw [hpath]
    exact ⟨hfile path, xattrsFit_defaultMetadata⟩
  | metadata hrewrites =>
    cases op with
    | chmod | chown | setXattr | removeXattr => cases hop
    | _ => cases hrewrites
  | link => exact ⟨hfile _, xattrsFit_symlinkMetadata _⟩
  | move hkeys =>
    rcases hkeys with heq | heq
    · cases heq
      exact hcopy _ _
    · cases heq
      refine ⟨canonicalKey_s3DirKey, fun _ hsrc => hasSuffixSlash_s3DirKey fun hnil => hsrc ?_⟩
      rw [hnil]
      rfl
  | marker => exact canonicalKey_s3DirKey
  | copy => exact hcopy _ _
  | moved | renamed | remove | removed => trivial

/-- The program keeps the objects well-formed, whatever happens in between. -/
abbrev KeepsWellFormed {α : Type} (p : Gw α) : Prop :=
  WriteBack.Keeps (fun w => w.bucket.WellFormed) p

/-- Metadata that fit still fit after the attribute calls; `SetXattr` counts before it
writes. -/
theorem XattrsFit.outcome {userMeta userMeta' : Metadata} (h : XattrsFit userMeta) {a : AttrOp}
    (ha : a.outcome userMeta = .ok userMeta') : XattrsFit userMeta' := by
  cases a with
  | chmod path mode =>
    cases ha
    exact h.insert Attrs.short_mode _
  | chown path uid gid =>
    cases ha
    exact (h.insert_of Attrs.short_uid _ _).insert_of Attrs.short_gid _ _
  | xattr path op =>
    cases op with
    | set name value option => exact (XattrOp.outcome_set ha).2.2
    | remove name =>
      obtain ⟨-, rfl⟩ := XattrOp.outcome_remove ha
      exact (totalXattrBytes_remove_le userMeta name).trans h

theorem writeBack_wellFormed :
    WriteBack (fun w => w.bucket.WellFormed) (fun _ userMeta => XattrsFit userMeta) where
  ask e _ he hw := World.wellFormed_handle (e.writesWell_of_asks he) hw
  read := by
    intro key w info hw hinfo
    obtain ⟨o, ho, -, -, -, -, hmeta⟩ := Bucket.headObject_ok (World.headObject_ok hinfo)
    rw [hmeta]
    exact (hw key o ho).xattrs
  outcome _ _ _ _ h ha := h.outcome ha
  write {key userMeta} _ hfit hw :=
    World.wellFormed_handle (show (Eff.copyObjectWithMetadata key userMeta).WritesWell from hfit) hw

theorem keepsWellFormed_methodOf {files : GoMap Nat File}
    (hfiles : ∀ fd f, files.lookup fd = some f → f.Named) (op : Op) :
    KeepsWellFormed (methodOf files op) := by
  cases hop : op.attr with
  | none =>
    refine (writes_methodOf files op).safe fun e w he hw => World.wellFormed_handle ?_ hw
    exact he.elim e.writesWell_of_asks fun hwrite => hwrite.writesWell hfiles hop
  | some a => exact writeBack_wellFormed.keeps_methodOf hop files

/-! ## Runs -/

namespace Gateway

/-- Operations are on files that were opened by a path, and other clients leave the objects
well-formed. -/
def Admissible : GatewayEvent → Prop
  | .begin files _ => ∀ fd f, files.lookup fd = some f → f.Named
  | .s3 b => b.WellFormed
  | _ => True

/-- The objects are well-formed, and the operations under way keep them so. -/
abbrev KeepsObjects (g : Gateway) : Prop :=
  Pool.Safe World.handle (fun w => w.bucket.WellFormed) (fun _ => True) g

theorem KeepsObjects.step {g : Gateway} (hg : KeepsObjects g) {e : GatewayEvent}
    (he : Admissible e) : KeepsObjects (step g e) := by
  cases e with
  | begin files op => exact Pool.Safe.spawn hg (keepsWellFormed_methodOf he op)
  | call i => exact Pool.Safe.step hg i
  | evictExpired => exact hg
  | s3 b => exact ⟨he, hg.2⟩
  | restart config dataCache =>
    refine ⟨hg.1, fun p hp => ?_⟩
    cases hp

/-- The gateway keeps the bucket well-formed. Whatever operations run, however their calls
interleave and fail, and whenever the process is restarted: every object's key is made of
names, the objects of directory markers are empty, and no object has more extended
attributes than `SetXattr` allows. -/
theorem objects_well_formed {b : Bucket} (hb : b.WellFormed) (env : Nat → Outcome)
    (config : Option CacheConfig) (dataCache : Option DataCache) {events : List GatewayEvent}
    (hevents : ∀ e ∈ events, Admissible e) :
    Throughout step (fun g => g.shared.bucket.WellFormed) (start b env config dataCache)
      events := by
  have hstart : KeepsObjects (start b env config dataCache) := ⟨hb, fun p hp => by cases hp⟩
  exact throughout_of_eachStep (I := KeepsObjects) (fun _ _ hg he => hg.step he)
    (fun _ hg => hg.1) hstart (EachStep.of_forall hevents)

theorem wellFormed_onlyF (data : Bytes) : (Bucket.onlyF data []).WellFormed := by
  have hempty : Bucket.empty.WellFormed := fun key o ho => by cases ho
  have hcanon : CanonicalKey (s3KeyFromPath (gs "/f")) := canonicalKey_s3KeyFromPath (by decide)
  refine hempty.putObject fun _ => ⟨hcanon, fun hs => ?_, xattrsFit_empty⟩
  cases hs

/-- `SetXattr` and `Chmod` of `f` race, a marker is moved, and the process is restarted. -/
theorem objects_well_formed_racing_attributes :
    Throughout step (fun g => g.shared.bucket.WellFormed)
      (start (.onlyF [1] []) (fun _ => .fine) none none)
      [.begin ∅ (.setXattr (gs "/f") (gs "a") [7] 0), .begin ∅ (.chmod (gs "/f") 0o600), .call 0,
        .call 1, .call 0, .call 1, .begin ∅ (.mkdirAll (gs "/d")), .call 2,
        .begin ∅ (.rename (gs "/d") (gs "/e")), .call 3, .call 3, .call 3, .restart none none] := by
  refine objects_well_formed (wellFormed_onlyF [1]) _ none none ?_
  simp [Admissible]

end Gateway

end S3Gateway
