import S3Gateway.S3fs.Existence
import S3Gateway.S3fs.HandleProof
import S3Gateway.S3fs.Tree

/-!
# `Stat` and `Open` on the same path

Both methods look for a file, then for a directory. `Stat` asks for the directory marker
before it asks for anything below; `Open` lists first. The marker is itself below its own
key, so `Open` never comes to ask for it, and reports every directory with the default
mode and size 0. `Stat` reports the attributes of the marker, which is where `Chmod`
writes them.

With no metadata cache each of the two reports a function of the bucket
(`Bucket.statAttributes`, `Bucket.openAttributes`) and the inode of one key
(`Reported`). They agree exactly if there is no marker that says otherwise
(`stat_open_agree_iff`).
-/

namespace S3Gateway

open Lib

/-- `IsDir`, `Size` and `Mode`. -/
def FileInfo.attributes (fi : FileInfo) : Bool × Int × FileMode := (fi.isDir, fi.size, fi.mode)

/-- The infos have equal `IsDir`, `Size`, `Mode` and inode. -/
def FileInfo.SameAttributes (fi fi' : FileInfo) : Prop :=
  fi.isDir = fi'.isDir ∧ fi.size = fi'.size ∧ fi.mode = fi'.mode ∧ fi.inode = fi'.inode

theorem FileInfo.sameAttributes_iff {fi fi' : FileInfo} :
    fi.SameAttributes fi' ↔ fi.attributes = fi'.attributes ∧ fi.inode = fi'.inode := by
  unfold SameAttributes attributes
  rw [Prod.mk.injEq, Prod.mk.injEq, and_assoc, and_assoc]

/-- The attributes an object gives to a file or directory. -/
def Object.attributes (o : Object) (isDir : Bool) : Bool × Int × FileMode :=
  (isDir, o.data.length, parseMode o.userMetadata isDir)

/-- The attributes `newDirInfo` gives to a directory. -/
def defaultDirAttributes : Bool × Int × FileMode := (true, 0, modeDir ||| defaultDirMode)

namespace Bucket

variable {b : Bucket} {path : GoString}

/-- The attributes `Stat` reports for something that exists at the key. -/
def statAttributes (b : Bucket) (s3Key : GoString) : Bool × Int × FileMode :=
  match b.get s3Key with
  | some o => o.attributes false
  | none =>
    match b.get (s3DirKey s3Key) with
    | some o => o.attributes true
    | none => defaultDirAttributes

/-- The attributes `Open` reports. -/
def openAttributes (b : Bucket) (s3Key : GoString) : Bool × Int × FileMode :=
  match b.get s3Key with
  | some o => o.attributes false
  | none => defaultDirAttributes

/-- A directory marker the path resolves to is empty and has the default mode of
directories. -/
def PlainMarker (b : Bucket) (path : GoString) : Prop :=
  b.get (s3KeyFromPath path) = none → ∀ o, b.get (s3DirKey (s3KeyFromPath path)) = some o →
    o.data = [] ∧ parseMode o.userMetadata true = modeDir ||| defaultDirMode

theorem attributes_eq_iff_plainMarker :
    b.statAttributes (s3KeyFromPath path) = b.openAttributes (s3KeyFromPath path) ↔
      b.PlainMarker path := by
  unfold statAttributes openAttributes PlainMarker
  cases hfile : b.get (s3KeyFromPath path) with
  | some o =>
    refine iff_of_true rfl fun hnone => ?_
    cases hnone
  | none =>
    cases hmarker : b.get (s3DirKey (s3KeyFromPath path)) with
    | none =>
      refine iff_of_true rfl fun _ o ho => ?_
      cases ho
    | some o =>
      show o.attributes true = defaultDirAttributes ↔ _
      unfold Object.attributes defaultDirAttributes
      simp [List.length_eq_zero_iff]

/-- The node's key is the key of the object the path names. -/
theorem key_eq_objectKey {node : Node} (h : b.node (s3KeyFromPath path) = some node) :
    node.key (s3KeyFromPath path) = objectKey b path := by
  unfold objectKey
  cases hfile : b.get (s3KeyFromPath path) with
  | some o =>
    cases (node_of_get hfile).symm.trans h
    rfl
  | none =>
    unfold Bucket.node at h
    rw [hfile] at h
    dsimp only at h
    split at h
    · cases h
    · cases h
      rfl

end Bucket

/-! ## What each method reports -/

/-- The path exists: it is the root, or there is something at its key or below. -/
def Bucket.Exists (b : Bucket) (path : GoString) : Prop :=
  s3KeyFromPath path = [] ∨ ¬ Absent b path

section Methods

variable {b : Bucket} {h : HandleStore} {env : Nat → Outcome} {path : GoString} {α β : Type}

/-- What a method that returns an info, as seen through `view`, leaves: no key has lost
its inode, and an info returned has these attributes and the inode of the path's key. If
the path exists and its key has or gets an inode, there is one. -/
structure Reported (b : Bucket) (h : HandleStore) (env : Nat → Outcome) (path : GoString)
    (attributes : Bool × Int × FileMode) (view : α → FileInfo) (r : Except GoError α)
    (w : World) : Prop where
  bare : Bare b w.handles env w
  keeps : h.Keeps w.handles
  reports : ∀ a, r = .ok a → (view a).attributes = attributes ∧
    w.handles.keyToInode.lookup (objectKey b path) = some (view a).inode
  returns : b.Exists path →
    (∀ n, ∃ inode, (h.getOrCreateInode (objectKey b path) (env n).commit).1 = .ok inode) →
    ∃ a, r = .ok a

/-- A method that looks for a path reports the inode it allocates. -/
theorem Looks.reported {attributes : Bool × Int × FileMode} {view : α → FileInfo}
    {r : Except GoError α} {w : World} (hk : s3KeyFromPath path ≠ [])
    (hr : Looks b h env (s3KeyFromPath path)
      (fun _ inode a => (view a).attributes = attributes ∧ (view a).inode = inode) r w) :
    Reported b h env path attributes view r w := by
  rcases hr with ⟨hnone, rfl, hw⟩ | ⟨node, hnode, n, hw, herr, hok⟩
  · have hhandles := hw.handles
    refine ⟨hhandles ▸ hw, hhandles ▸ .refl h, fun a ha => ?_, fun hex _ => ?_⟩
    · cases ha
    · have hsome : (b.node (s3KeyFromPath path)).isSome := by
        rw [Bucket.node_isSome_iff]
        by_contra hno
        rw [not_or] at hno
        refine hex.resolve_left hk ⟨?_, fun k hk hpre => hno.2 ⟨k, hk, hpre⟩⟩
        exact Option.not_isSome_iff_eq_none.mp hno.1
      rw [hnone] at hsome
      cases hsome
  · rw [Bucket.key_eq_objectKey hnode] at hw herr hok
    have hhandles := hw.handles
    have hc := (h.creates (objectKey b path) (env n).commit).keeps
    refine ⟨hhandles ▸ hw, hhandles ▸ hc.1, fun a ha => ?_, fun _ halloc => ?_⟩
    · cases hres : (h.getOrCreateInode (objectKey b path) (env n).commit).1 with
      | error err => cases (herr err hres).symm.trans ha
      | ok inode =>
        obtain ⟨a', ha', hattr, hinode⟩ := hok inode hres
        cases ha'.symm.trans ha
        rw [hinode, hhandles]
        exact ⟨hattr, hc.2 inode hres⟩
    · obtain ⟨inode, hinode⟩ := halloc n
      obtain ⟨a, ha, -⟩ := hok inode hinode
      exact ⟨a, ha⟩

/-- On the root both methods return the default attributes of a directory. -/
theorem reported_root {view : α → FileInfo} {m : UInt64 → Time → α} (hroot : [] ∈ h.keyToInode)
    (hk : s3KeyFromPath path = [])
    (hview : ∀ inode now, view (m inode now) = newDirInfo [slash] inode now) :
    Prog.Triple World.handle (Bare b h env)
      (do
        let inode ← Prog.call (.getOrCreateInode [])
        let now ← Prog.call .now
        pure (.ok (m (inode.toOption.getD 0) now)))
      (Reported b h env path defaultDirAttributes view) := by
  obtain ⟨inode, hinode⟩ := (GoMap.mem_iff_lookup _ _).mp hroot
  have hkey : objectKey b path = [] := by
    unfold objectKey
    rw [hk, Bucket.get_nil]
    rfl
  refine Prog.triple_bind (bare_getOrCreateInode []) fun r => Prog.triple_exists fun n =>
    Prog.triple_and fun hr => ?_
  rw [HandleStore.getOrCreateInode_of_some hinode] at hr ⊢
  subst hr
  refine Prog.triple_bind (bare_call rfl fun _ _ => rfl) fun now => Prog.triple_pure fun w hw => ?_
  have hhandles := hw.handles
  refine ⟨hhandles ▸ hw, hhandles ▸ .refl h, fun a ha => ?_, fun _ _ => ⟨_, rfl⟩⟩
  cases ha
  rw [hview, hhandles, hkey]
  exact ⟨rfl, hinode⟩

theorem reported_stat (hroot : [] ∈ h.keyToInode) :
    Prog.Triple World.handle (Bare b h env) (stat path)
      (Reported b h env path (b.statAttributes (s3KeyFromPath path)) id) := by
  by_cases hk : s3KeyFromPath path = []
  · have hattr : b.statAttributes (s3KeyFromPath path) = defaultDirAttributes := by
      have hdir : b.get (s3DirKey []) = none := b.get_nil
      unfold Bucket.statAttributes
      rw [hk, Bucket.get_nil, hdir]
    rw [hattr]
    unfold stat
    dsimp only
    rw [if_pos hk]
    exact reported_root hroot hk fun _ _ => rfl
  · refine (looks_stat_of hk (fun o inode ho => ?_) (fun o inode hnone ho => ?_)
      fun inode now hnone hnone' => ?_).post fun r w hr => hr.reported hk
    · refine ⟨?_, rfl⟩
      unfold Bucket.statAttributes
      rw [ho]
      rfl
    · refine ⟨?_, rfl⟩
      unfold Bucket.statAttributes
      rw [hnone, ho]
      rfl
    · refine ⟨?_, rfl⟩
      unfold Bucket.statAttributes
      rw [hnone, hnone']
      rfl

theorem reported_open (hroot : [] ∈ h.keyToInode) :
    Prog.Triple World.handle (Bare b h env) (openFile path oRDONLY)
      (Reported b h env path (b.openAttributes (s3KeyFromPath path)) File.info) := by
  by_cases hk : s3KeyFromPath path = []
  · have hattr : b.openAttributes (s3KeyFromPath path) = defaultDirAttributes := by
      unfold Bucket.openAttributes
      rw [hk, Bucket.get_nil]
    rw [hattr]
    unfold openFile
    dsimp only
    rw [if_pos hk]
    exact reported_root (m := fun inode now => openDir [slash] [] (newDirInfo [slash] inode now))
      hroot hk fun _ _ => rfl
  · refine (looks_open_of hk (fun o inode ho => ?_) fun inode now hnone => ?_).post
      fun r w hr => hr.reported hk
    · refine ⟨?_, rfl⟩
      unfold Bucket.openAttributes
      rw [ho]
      rfl
    · refine ⟨?_, rfl⟩
      unfold Bucket.openAttributes
      rw [hnone]
      rfl

/-- Two such methods on one path, one after the other: the infos they return have the
same inode, and both return one if the key has or gets an inode. -/
theorem reported_then (path : GoString) {p : Gw (Except GoError α)} {q : Gw (Except GoError β)}
    {attributes attributes' : Bool × Int × FileMode} {view : α → FileInfo} {view' : β → FileInfo}
    (hp : ∀ h : HandleStore, [] ∈ h.keyToInode →
      Prog.Triple World.handle (Bare b h env) p (Reported b h env path attributes view))
    (hq : ∀ h : HandleStore, [] ∈ h.keyToInode →
      Prog.Triple World.handle (Bare b h env) q (Reported b h env path attributes' view'))
    (hroot : [] ∈ h.keyToInode) {w : World} (hw : Bare b h env w) :
    let first := p.run World.handle w
    let second := q.run World.handle first.2
    (∀ a a', first.1 = .ok a → second.1 = .ok a' →
      ((view a).SameAttributes (view' a') ↔ attributes = attributes')) ∧
      (b.Exists path →
        (∀ n, ∃ inode, (h.getOrCreateInode (objectKey b path) (env n).commit).1 = .ok inode) →
        ∃ a a', first.1 = .ok a ∧ second.1 = .ok a') := by
  dsimp only
  have h₁ := hp h hroot w hw
  have hroot₁ : [] ∈ (p.run World.handle w).2.handles.keyToInode := by
    obtain ⟨inode, hi⟩ := (GoMap.mem_iff_lookup _ _).mp hroot
    exact (GoMap.mem_iff_lookup _ _).mpr ⟨inode, h₁.keeps [] inode hi⟩
  have h₂ := hq _ hroot₁ _ h₁.bare
  constructor
  · intro a a' ha ha'
    obtain ⟨hattr, hinode⟩ := h₁.reports a ha
    obtain ⟨hattr', hinode'⟩ := h₂.reports a' ha'
    have hsame := (h₂.keeps _ _ hinode).symm.trans hinode'
    rw [FileInfo.sameAttributes_iff, hattr, hattr']
    exact and_iff_left (Option.some.inj hsame)
  · intro hex halloc
    obtain ⟨a, ha⟩ := h₁.returns hex halloc
    have hinode := (h₁.reports a ha).2
    obtain ⟨a', ha'⟩ := h₂.returns hex fun n => ⟨_, by
      rw [HandleStore.getOrCreateInode_of_some hinode]⟩
    exact ⟨a, a', ha, ha'⟩

end Methods

/-- With no metadata cache and no failed S3 call, from every state and on every path, in
either order: when `Stat` and `Open` both return, the infos have equal `IsDir`, size,
mode and inode exactly if the path resolves to no directory marker, or to one that is
empty and has the default mode. Both return if the path exists and the handle store has
or allocates its inode. -/
theorem stat_open_agree_iff {w : World} (hf : w.NoFaults) (hc : w.cache = none)
    (hroot : [] ∈ w.handles.keyToInode) (path : GoString) :
    let st := (stat path).run World.handle w
    let thenOpen := (openFile path oRDONLY).run World.handle st.2
    let op := (openFile path oRDONLY).run World.handle w
    let thenStat := (stat path).run World.handle op.2
    (∀ fi f, st.1 = .ok fi → thenOpen.1 = .ok f →
      (fi.SameAttributes f.info ↔ w.bucket.PlainMarker path)) ∧
    (∀ f fi, op.1 = .ok f → thenStat.1 = .ok fi →
      (f.info.SameAttributes fi ↔ w.bucket.PlainMarker path)) ∧
    (w.bucket.Exists path → w.Allocates (objectKey w.bucket path) →
      (∃ fi f, st.1 = .ok fi ∧ thenOpen.1 = .ok f) ∧ ∃ f fi, op.1 = .ok f ∧ thenStat.1 = .ok fi) := by
  dsimp only
  have hw : Bare w.bucket w.handles w.env w := ⟨hf, rfl, hc, rfl, rfl⟩
  have hfirst := reported_then path (fun _ => reported_stat) (fun _ => reported_open) hroot hw
  have hsecond := reported_then path (fun _ => reported_open) (fun _ => reported_stat) hroot hw
  refine ⟨fun fi f hfi hopen => ?_, fun f fi hopen hfi => ?_, fun hex halloc => ?_⟩
  · exact (hfirst.1 fi f hfi hopen).trans Bucket.attributes_eq_iff_plainMarker
  · exact (hsecond.1 f fi hopen hfi).trans (eq_comm.trans Bucket.attributes_eq_iff_plainMarker)
  · exact ⟨hfirst.2 hex halloc, hsecond.2 hex halloc⟩

/-- A gateway without a metadata cache, on a directory `/d` with a marker and a file. -/
def World.uncachedD : World := { World.start .dWithF with cache := none }

/-- The marker of `/d` has no attributes of its own, so `Stat` and `Open` agree. -/
theorem stat_open_agree_uncachedD :
    let st := (stat (gs "/d")).run World.handle .uncachedD
    let op := (openFile (gs "/d") oRDONLY).run World.handle st.2
    ∃ fi f, st.1 = .ok fi ∧ op.1 = .ok f ∧ fi.SameAttributes f.info := by
  have hroot : [] ∈ World.uncachedD.handles.keyToInode := by decide
  obtain ⟨hsame, -, hreturns⟩ :=
    stat_open_agree_iff (w := .uncachedD) (fun _ => rfl) rfl hroot (gs "/d")
  have hex : World.uncachedD.bucket.Exists (gs "/d") := by
    refine Or.inr fun habsent => habsent.2 (gs "d/") (by decide) (by decide)
  obtain ⟨⟨fi, f, hfi, hopen⟩, -⟩ := hreturns hex fun _ => ⟨2, rfl⟩
  refine ⟨fi, f, hfi, hopen, (hsame fi f hfi hopen).mpr fun _ o ho => ?_⟩
  cases ho
  exact ⟨rfl, rfl⟩

/-- `Chmod("/d", 0700)`: `Stat` reports the mode, `Open` the default one. -/
theorem open_misses_chmod_of_directory :
    let w := ((chmod (gs "/d") 0o700).run World.handle .uncachedD).2
    let st := (stat (gs "/d")).run World.handle w
    let op := (openFile (gs "/d") oRDONLY).run World.handle st.2
    ((chmod (gs "/d") 0o700).run World.handle .uncachedD).1 = .ok () ∧
      st.1.toOption.map FileInfo.mode = some (modeDir ||| 0o700) ∧
      op.1.toOption.map (fun f => f.info.mode) = some (modeDir ||| 0o755) := by
  decide

end S3Gateway
