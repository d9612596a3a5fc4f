import S3Gateway.S3fs.WriteBuffer

/-!
# Creating over existing content

`OpenFile` and `Symlink` ask S3 for the object and, if the answer is an error, put an
empty one in its place. Between the calls other sessions may change the services, and
the error need not mean that there is no object. This module says exactly when the
`PutObject` is harmless.

Other sessions are a function `others` that changes the services before each of the
calls; `Prog.ownSteps` are the calls themselves.
-/

namespace S3Gateway

open Lib

/-- Every object has the bytes it had. -/
def World.KeepsBytes (w w' : World) : Prop :=
  ∀ key data, w.bucket.dataAt key = some data → w'.bucket.dataAt key = some data

/-- A `PutObject` of an empty object under `key` fails, or replaces nothing but an empty
object. -/
def World.PutHarmless (w : World) (key : GoString) : Prop :=
  w.outcome.fault.callError ≠ none ∨ w.bucket.dataAt key = none ∨ w.bucket.dataAt key = some []

theorem keepsBytes_of_bucket_eq {w w' : World} (h : w'.bucket = w.bucket) : w.KeepsBytes w' := by
  intro key data hdata
  rw [h]
  exact hdata

/-- Putting an empty object changes the bytes of no object, unless it had some. -/
theorem Bucket.putObject_keeps_iff (b : Bucket) (key : GoString) {o : Object} (ho : o.data = []) :
    (∀ k data, b.dataAt k = some data → (b.putObject key o).2.dataAt k = some data) ↔
      b.dataAt key = none ∨ b.dataAt key = some [] := by
  unfold putObject
  split
  · next hroot =>
    refine iff_of_true (fun _ _ hdata => hdata) (Or.inl ?_)
    rw [hroot, dataAt, get_nil]
    rfl
  · next hroot =>
    constructor
    · intro h
      cases hd : b.dataAt key with
      | none => exact Or.inl rfl
      | some data =>
        have hkept := h key data hd
        rw [dataAt_put, ho] at hkept
        exact Or.inr hkept.symm
    · intro h k data hdata
      by_cases hk : k = key
      · subst hk
        rw [hdata] at h
        rw [dataAt_put, ho]
        rcases h with h | h
        · cases h
        · exact h.symm
      · rw [dataAt, get_put, if_neg hk]
        exact hdata

theorem keepsBytes_putObject_iff (w : World) (key : GoString) (metadata : Metadata) :
    w.KeepsBytes (World.handle (.putObject key [] metadata) w).2 ↔ w.PutHarmless key := by
  unfold World.PutHarmless World.KeepsBytes World.handle World.mutate
  dsimp only
  cases w.outcome.fault.callError with
  | some err => exact iff_of_true (fun _ _ hdata => hdata) (Or.inl nofun)
  | none =>
    exact (w.bucket.putObject_keeps_iff key rfl).trans
      ⟨Or.inr, fun h => h.resolve_left fun hne => hne rfl⟩

/-- The program makes no call that changes the bucket. -/
abbrev LeavesBucket {α : Type} (p : Gw α) : Prop :=
  Prog.Only (fun _ e => e.writesBucket = false) p

theorem LeavesBucket.keepsBytes {α : Type} {p : Gw α} (hp : LeavesBucket p)
    (others : Nat → World → World) (i : Nat) (w : World) :
    Prog.EachOwnStep World.handle others World.KeepsBytes p i w :=
  hp.eachOwnStep (fun _ w he => keepsBytes_of_bucket_eq (World.handle_bucket he w)) i w

/-- A program that begins with a call that leaves the bucket alone. -/
theorem keepsBytes_call_bind {α β : Type} {e : Eff β} (he : e.writesBucket = false)
    (k : β → Gw α) (others : Nat → World → World) (i : Nat) (w : World) :
    Prog.EachOwnStep World.handle others World.KeepsBytes (Prog.call e >>= k) i w ↔
      Prog.EachOwnStep World.handle others World.KeepsBytes (k (World.handle e (others i w)).1) (i + 1)
        (World.handle e (others i w)).2 := by
  rw [Prog.eachOwnStep_call_bind]
  exact and_iff_right (keepsBytes_of_bucket_eq (World.handle_bucket he _))

/-- A program that begins with the `PutObject` of an empty object, its only write. -/
theorem keepsBytes_putObject_bind {α : Type} (key : GoString) (metadata : Metadata)
    {k : Except GoError Unit → Gw α} (hk : ∀ res, LeavesBucket (k res))
    (others : Nat → World → World) (i : Nat) (w : World) :
    Prog.EachOwnStep World.handle others World.KeepsBytes
      (Prog.call (.putObject key [] metadata) >>= k) i w ↔ (others i w).PutHarmless key := by
  rw [Prog.eachOwnStep_call_bind, keepsBytes_putObject_iff]
  exact and_iff_left ((hk _).keepsBytes others _ _)

/-! ## The calls that leave the bucket alone -/

theorem leavesBucket_newWritableFile (path s3Key : GoString) (info : FileInfo) :
    LeavesBucket (newWritableFile path s3Key info) := by
  refine Prog.only_bind (Prog.only_call rfl) fun res => ?_
  cases res <;> exact Prog.only_pure _

theorem leavesBucket_newEmptyWritableFile (path s3Key : GoString) (info : FileInfo) :
    LeavesBucket (newEmptyWritableFile path s3Key info) := by
  refine Prog.only_bind (leavesBucket_newWritableFile _ _ _) fun res => ?_
  cases res <;> exact Prog.only_pure _

theorem leavesBucket_openMarker (path dirKey : GoString) : LeavesBucket (openMarker path dirKey) := by
  refine Prog.only_bind (Prog.only_call rfl) fun res => ?_
  cases res with
  | error err => exact Prog.only_pure _
  | ok objInfo =>
    refine Prog.only_bind (Prog.only_call rfl) fun inode => ?_
    cases inode with
    | error err => exact Prog.only_pure _
    | ok inode => exact Prog.only_bind (Prog.only_call rfl) fun _ => Prog.only_pure _

theorem leavesBucket_openDirectory (path dirKey : GoString) :
    LeavesBucket (openDirectory path dirKey) := by
  refine Prog.only_bind (Prog.only_call rfl) fun res => ?_
  cases res with
  | error err => exact leavesBucket_openMarker path dirKey
  | ok entries =>
    dsimp only
    split
    · exact leavesBucket_openMarker path dirKey
    · refine Prog.only_bind (Prog.only_bind (Prog.only_call rfl) fun inode => ?_)
        fun _ => Prog.only_pure _
      cases inode with
      | error err => exact Prog.only_pure _
      | ok inode =>
        exact Prog.only_bind (Prog.only_call rfl) fun _ =>
          Prog.only_bind (Prog.only_call rfl) fun _ => Prog.only_pure _

/-! ## The call that does not -/

/-- The services as `OpenFile` finds them at its `PutObject`, if it comes to one. -/
def openFilePut (others : Nat → World → World) (path : GoString) (flags : Nat) (w : World) :
    Option World :=
  if s3KeyFromPath path = [] ∨ writableFlags flags = false then none
  else
    match World.handle (.headObject (s3KeyFromPath path)) (others 0 w) with
    | (.ok _, _) => none
    | (.error _, w) =>
      match World.handle (.getOrCreateInode (s3KeyFromPath path)) (others 1 w) with
      | (.error _, _) => none
      | (.ok _, w) => some (others 2 w)

/-- The services as `Symlink` finds them at its `PutObject`, if it comes to one. -/
def symlinkPut (others : Nat → World → World) (target linkPath : GoString) (w : World) :
    Option World :=
  if target = [] ∨ target.length > 4080 then none
  else
    match World.handle (.headObject (s3KeyFromPath linkPath)) (others 0 w) with
    | (.ok _, _) => none
    | (.error _, w) => some (others 1 w)

/-- There is nothing to show if there is no `PutObject`. -/
theorem forall_eq_none {P : World → Prop} (w' : World) (h : none = some w') : P w' := by
  cases h

theorem createPlaceholder_keepsBytes_iff (others : Nat → World → World) (path s3Key : GoString)
    (i : Nat) (w : World) :
    Prog.EachOwnStep World.handle others World.KeepsBytes (createPlaceholder path s3Key) i w ↔
      match World.handle (.getOrCreateInode s3Key) (others i w) with
      | (.error _, _) => True
      | (.ok _, w) => (others (i + 1) w).PutHarmless s3Key := by
  unfold createPlaceholder
  rw [keepsBytes_call_bind rfl]
  rcases World.handle (.getOrCreateInode s3Key) (others i w) with ⟨err | inode, w'⟩
  · exact iff_of_true (LeavesBucket.keepsBytes (Prog.only_pure _) others _ _) trivial
  · refine keepsBytes_putObject_bind s3Key defaultMetadata (fun res => ?_) others (i + 1) w'
    cases res with
    | error err => exact Prog.only_pure _
    | ok _ =>
      refine Prog.only_bind (Prog.only_call rfl) fun _ => Prog.only_bind (Prog.only_call rfl) fun _ =>
        Prog.only_bind (Prog.only_call rfl) fun _ => ?_
      exact Prog.only_bind (leavesBucket_newEmptyWritableFile _ _ _) fun _ => Prog.only_pure _

theorem openFile_keepsBytes_iff (others : Nat → World → World) (path : GoString) (flags : Nat)
    (w : World) :
    Prog.EachOwnStep World.handle others World.KeepsBytes (openFile path flags) 0 w ↔
      ∀ w', openFilePut others path flags w = some w' → w'.PutHarmless (s3KeyFromPath path) := by
  unfold openFile openFilePut
  dsimp only
  generalize s3KeyFromPath path = s3Key
  by_cases hroot : s3Key = []
  · rw [if_pos hroot, if_pos (Or.inl hroot)]
    refine iff_of_true (LeavesBucket.keepsBytes ?_ others 0 w) forall_eq_none
    exact Prog.only_bind (Prog.only_call rfl) fun _ => Prog.only_bind (Prog.only_call rfl) fun _ =>
      Prog.only_pure _
  · rw [if_neg hroot, keepsBytes_call_bind rfl]
    rcases World.handle (.headObject s3Key) (others 0 w) with ⟨err | objInfo, w₁⟩
    · -- any error counts as absence
      dsimp only
      by_cases hflags : writableFlags flags = true
      · have hput : ¬ (s3Key = [] ∨ writableFlags flags = false) := by simp [hroot, hflags]
        rw [if_pos hflags, if_neg hput]
        refine (createPlaceholder_keepsBytes_iff others path s3Key 1 w₁).trans ?_
        rcases World.handle (.getOrCreateInode s3Key) (others 1 w₁) with ⟨err | inode, w₂⟩
        · exact iff_of_true trivial forall_eq_none
        · exact ⟨fun h w' hw' => Option.some.inj hw' ▸ h, fun h => h _ rfl⟩
      · rw [if_neg hflags, if_pos (Or.inr (Bool.eq_false_iff.mpr hflags))]
        exact iff_of_true ((leavesBucket_openDirectory _ _).keepsBytes others _ _) forall_eq_none
    · refine iff_of_true (LeavesBucket.keepsBytes ?_ others _ _) (by simp)
      refine Prog.only_bind (Prog.only_call rfl) fun inode => ?_
      cases inode with
      | error err => exact Prog.only_pure _
      | ok inode =>
        refine Prog.only_bind (Prog.only_call rfl) fun _ => ?_
        split
        · exact Prog.only_bind (leavesBucket_newWritableFile _ _ _) fun _ => Prog.only_pure _
        · exact Prog.only_pure _

theorem symlink_keepsBytes_iff (others : Nat → World → World) (target linkPath : GoString)
    (w : World) :
    Prog.EachOwnStep World.handle others World.KeepsBytes (symlink target linkPath) 0 w ↔
      ∀ w', symlinkPut others target linkPath w = some w' →
        w'.PutHarmless (s3KeyFromPath linkPath) := by
  unfold symlink symlinkPut
  dsimp only
  generalize s3KeyFromPath linkPath = s3Key
  by_cases hempty : target = []
  · rw [if_pos hempty, if_pos (Or.inl hempty)]
    exact iff_of_true (LeavesBucket.keepsBytes (Prog.only_pure _) others 0 w) forall_eq_none
  · by_cases hlong : target.length > 4080
    · rw [if_neg hempty, if_pos hlong, if_pos (Or.inr hlong)]
      exact iff_of_true (LeavesBucket.keepsBytes (Prog.only_pure _) others 0 w) forall_eq_none
    · rw [if_neg hempty, if_neg hlong, if_neg (not_or.mpr ⟨hempty, hlong⟩), keepsBytes_call_bind rfl]
      rcases World.handle (.headObject s3Key) (others 0 w) with ⟨err | objInfo, w₁⟩
      · refine (keepsBytes_putObject_bind s3Key (symlinkMetadata target) (fun res => ?_) others 1 w₁).trans
          ⟨fun h w' hw' => Option.some.inj hw' ▸ h, fun h => h _ rfl⟩
        cases res with
        | error err => exact Prog.only_pure _
        | ok _ => exact Prog.only_bind (Prog.only_call rfl) fun _ => Prog.only_pure _
      · exact iff_of_true (LeavesBucket.keepsBytes (Prog.only_pure _) others _ _) forall_eq_none

/-- Exactly when `OpenFile` and `Symlink` destroy no content, whatever other sessions do and
however the calls to S3 turn out: when they do not come to their `PutObject`, and when
that fails or finds no object or an empty one. -/
theorem create_keepsBytes_iff (others : Nat → World → World) (w : World) :
    (∀ path flags,
      Prog.EachOwnStep World.handle others World.KeepsBytes (openFile path flags) 0 w ↔
        ∀ w', openFilePut others path flags w = some w' → w'.PutHarmless (s3KeyFromPath path)) ∧
    (∀ target linkPath,
      Prog.EachOwnStep World.handle others World.KeepsBytes (symlink target linkPath) 0 w ↔
        ∀ w', symlinkPut others target linkPath w = some w' →
          w'.PutHarmless (s3KeyFromPath linkPath)) :=
  ⟨fun path flags => openFile_keepsBytes_iff others path flags w,
    fun target linkPath => symlink_keepsBytes_iff others target linkPath w⟩

/-- A call that is answered truthfully, with an error. -/
theorem dataAt_of_headObject_error {w w' : World} {key : GoString} {err : GoError}
    (hfault : w.outcome.fault.callError = none)
    (h : World.handle (.headObject key) w = (.error err, w')) :
    w.bucket.dataAt key = none ∧ w'.bucket = w.bucket := by
  have hbucket : (World.handle (.headObject key) w).2.bucket = w.bucket := World.handle_bucket rfl w
  rw [h] at hbucket
  refine ⟨?_, hbucket⟩
  have hanswer : World.answer w.outcome (w.bucket.headObject key) = .error err :=
    congrArg Prod.fst h
  rw [World.answer, hfault] at hanswer
  dsimp only [Bucket.headObject] at hanswer
  cases hget : w.bucket.get key with
  | none => rw [Bucket.dataAt, hget, Option.map_none]
  | some o =>
    rw [hget] at hanswer
    cases hanswer

/-- `OpenFile` destroys nothing when `HeadObject` is answered and no other session touches the
object in the meantime. -/
theorem openFile_keepsBytes_alone {others : Nat → World → World} {path : GoString} {flags : Nat}
    {w : World} (hhead : (others 0 w).outcome.fault.callError = none)
    (hothers : ∀ i w, (others i w).bucket.dataAt (s3KeyFromPath path) =
      w.bucket.dataAt (s3KeyFromPath path)) :
    Prog.EachOwnStep World.handle others World.KeepsBytes (openFile path flags) 0 w := by
  rw [openFile_keepsBytes_iff]
  intro w' hput
  unfold openFilePut at hput
  split at hput
  · cases hput
  · split at hput
    · cases hput
    · next err w₁ hres =>
      obtain ⟨hnone, hbucket⟩ := dataAt_of_headObject_error hhead hres
      split at hput
      · cases hput
      · next inode w₂ hinode =>
        have hbucket' := World.handle_bucket (e := .getOrCreateInode (s3KeyFromPath path)) rfl
          (others 1 w₁)
        rw [hinode] at hbucket'
        cases hput
        refine Or.inr (Or.inl ?_)
        rw [hothers, hbucket', hothers, hbucket, hnone]

/-- `Symlink`, likewise. -/
theorem symlink_keepsBytes_alone {others : Nat → World → World} {target linkPath : GoString}
    {w : World} (hhead : (others 0 w).outcome.fault.callError = none)
    (hothers : ∀ i w, (others i w).bucket.dataAt (s3KeyFromPath linkPath) =
      w.bucket.dataAt (s3KeyFromPath linkPath)) :
    Prog.EachOwnStep World.handle others World.KeepsBytes (symlink target linkPath) 0 w := by
  rw [symlink_keepsBytes_iff]
  intro w' hput
  unfold symlinkPut at hput
  split at hput
  · cases hput
  · split at hput
    · cases hput
    · next err w₁ hres =>
      obtain ⟨hnone, hbucket⟩ := dataAt_of_headObject_error hhead hres
      cases hput
      refine Or.inr (Or.inl ?_)
      rw [hothers, hbucket, hnone]

/-- A `PutObject` that is going to replace content. -/
theorem not_putHarmless {found : Option World} {key : GoString} {data : Bytes} (hne : data ≠ [])
    (h : found.map (fun w => (w.outcome.fault.callError, w.bucket.dataAt key)) =
      some (none, some data)) :
    ¬ ∀ w', found = some w' → w'.PutHarmless key := by
  intro hharmless
  obtain ⟨w', hw', heq⟩ := Option.map_eq_some_iff.mp h
  obtain ⟨hfault, hdata⟩ := Prod.mk.inj heq
  rcases hharmless w' hw' with hfails | habsent | hempty
  · exact hfails hfault
  · rw [hdata] at habsent
    cases habsent
  · rw [hdata] at hempty
    exact hne (Option.some.inj hempty)

/-- Two ways to lose content. `HeadObject` times out on an object that is there, and
`OpenFile` empties it. Another session creates the object after `Symlink` has asked for it,
and `Symlink` empties it. -/
theorem create_empties_objects :
    ¬ Prog.EachOwnStep World.handle (fun _ w => w) World.KeepsBytes (openFile (gs "/f") oRDWR) 0
      { World.start oneByteBucket with
        env := fun i => if i = 0 then { Outcome.fine with fault := .call (.transport 0) } else .fine } ∧
    ¬ Prog.EachOwnStep World.handle
      (fun i w => if i = 1 then { w with bucket := oneByteBucket } else w) World.KeepsBytes
      (symlink (gs "t") (gs "/f")) 0 (World.start .empty) := by
  have hne : ([1] : Bytes) ≠ [] := nofun
  rw [openFile_keepsBytes_iff, symlink_keepsBytes_iff]
  exact ⟨not_putHarmless hne (by decide), not_putHarmless hne (by decide)⟩

end S3Gateway
