import S3Gateway.S3fs.Directories

/-!
# The tree that paths describe

With no metadata cache, what a path is follows from the bucket alone: a file if
there is an object at its key, else a directory if there is anything at or below its
directory key (`Bucket.node`). `Stat` and `Open` report exactly that (`looks_stat`,
`looks_open`).

`Chmod`, `Chown`, `ListXattrs`, `Remove` and `Rename` ask for less: an object at the
key or at the directory key. They miss directories that exist only because something
lies below them (`agrees_iff`).

The services are tracked by `Bare`: no call is failed, no metadata cache, and the
bucket and the handle store are known exactly, so that the inode a method reports can
be compared with the one another method reports later.
-/

namespace S3Gateway

open Lib

/-! ## Nodes -/

/-- What a path may be. -/
inductive Node where
  | file (size : Nat)
  | dir
deriving DecidableEq

namespace Node

def isDir : Node → Bool
  | .file _ => false
  | .dir => true

/-- The key whose inode the node has. -/
def key (s3Key : GoString) : Node → GoString
  | .file _ => s3Key
  | .dir => s3DirKey s3Key

/-- The info describes the node, with this inode. -/
def Shows (node : Node) (inode : UInt64) (info : FileInfo) : Prop :=
  info.isDir = node.isDir ∧ info.inode = inode ∧ ∀ n : Nat, node = .file n → info.size = n

end Node

namespace Bucket

variable {b : Bucket} {s3Key : GoString}

/-- What there is at a key other than the root's. -/
def node (b : Bucket) (s3Key : GoString) : Option Node :=
  match b.get s3Key with
  | some o => some (.file o.data.length)
  | none => if b.listObjects (s3DirKey s3Key) = [] then none else some .dir

theorem node_of_get {o : Object} (h : b.get s3Key = some o) :
    b.node s3Key = some (.file o.data.length) := by
  rw [node, h]

theorem node_of_below (h : b.get s3Key = none) {k : GoString} (hk : k ∈ b.keys)
    (hpre : s3DirKey s3Key <+: k) : b.node s3Key = some .dir := by
  have hne : b.listObjects (s3DirKey s3Key) ≠ [] :=
    fun hnil => listObjects_eq_nil_iff.mp hnil k hk hpre
  simp [node, h, hne]

theorem node_of_nothing (h : b.get s3Key = none) (hlist : b.listObjects (s3DirKey s3Key) = []) :
    b.node s3Key = none := by
  simp [node, h, hlist]

theorem node_isSome_iff : (b.node s3Key).isSome ↔
    (b.get s3Key).isSome ∨ ∃ k ∈ b.keys, s3DirKey s3Key <+: k := by
  cases hget : b.get s3Key with
  | some o => simp [node_of_get hget]
  | none =>
    by_cases hlist : b.listObjects (s3DirKey s3Key) = []
    · have hnone := listObjects_eq_nil_iff.mp hlist
      simpa [node_of_nothing hget hlist] using hnone
    · have hsome : ∃ k ∈ b.keys, s3DirKey s3Key <+: k := by
        by_contra hno
        exact hlist (listObjects_eq_nil_iff.mpr fun k hk hpre => hno ⟨k, hk, hpre⟩)
      obtain ⟨k, hk, hpre⟩ := hsome
      simpa [node_of_below hget hk hpre] using ⟨k, hk, hpre⟩

end Bucket

/-! ## Calls on known services -/

/-- No call is failed; bucket, handle store and schedule are known. -/
structure Steady (b : Bucket) (h : HandleStore) (env : Nat → Outcome) (w : World) : Prop where
  noFaults : w.NoFaults
  bucket : w.bucket = b
  handles : w.handles = h
  env : w.env = env

section Steady

variable {b : Bucket} {h : HandleStore} {env : Nat → Outcome}

theorem Steady.at {w : World} (hw : Steady b h env w) : At w.clock b w.cache w :=
  ⟨hw.noFaults, hw.bucket, rfl, le_refl _⟩

/-- A call that leaves the bucket alone, and what it does to the handle store. -/
theorem steady_effect {β : Type} {e : Eff β} (hb : e.writesBucket = false) {w : World}
    (hw : Steady b h env w) :
    Steady b (e.onHandles (env w.calls).commit h) env (World.handle e w).2 := by
  have hframe := World.handle_frame e w
  refine ⟨fun n => ?_, (hframe.bucket hb).trans hw.bucket, ?_, hframe.env.trans hw.env⟩
  · rw [hframe.env]
    exact hw.noFaults n
  · rw [hframe.handles, hw.handles, ← hw.env]
    rfl

/-- Calls that change neither the bucket nor the handle store. -/
theorem steady_call {β : Type} {e : Eff β} (hb : e.writesBucket = false)
    (hh : ∀ commit s, e.onHandles commit s = s) :
    Prog.Triple World.handle (Steady b h env) (Prog.call e) fun _ => Steady b h env := by
  intro w hw
  have := steady_effect hb hw
  rwa [hh] at this

theorem steady_headObject (key : GoString) :
    Prog.Triple World.handle (Steady b h env) (Prog.call (.headObject key))
      fun r w => r = b.headObject key ∧ Steady b h env w :=
  fun w hw => ⟨(triple_headObject key w hw.at).1, steady_call rfl (fun _ _ => rfl) w hw⟩

theorem steady_listObjects (pfx : GoString) :
    Prog.Triple World.handle (Steady b h env) (Prog.call (.listObjects pfx))
      fun r w => r = .ok (b.listObjects pfx) ∧ Steady b h env w :=
  fun w hw => ⟨(triple_listObjects pfx w hw.at).1, steady_call rfl (fun _ _ => rfl) w hw⟩

theorem steady_getOrCreateInode (key : GoString) :
    Prog.Triple World.handle (Steady b h env) (Prog.call (.getOrCreateInode key)) fun r w =>
      ∃ n, r = (h.getOrCreateInode key (env n).commit).1 ∧
        Steady b (h.getOrCreateInode key (env n).commit).2 env w := by
  intro w hw
  have hw' : Steady b _ env (World.handle (.getOrCreateInode key) w).2 := steady_effect rfl hw
  refine ⟨w.calls, ?_, hw'⟩
  rw [← hw.handles, ← hw.env]
  rfl

end Steady

/-! ## Calls without a metadata cache -/

/-- No call is failed and there is no metadata cache; bucket, handle store and schedule
are known. -/
structure Bare (b : Bucket) (h : HandleStore) (env : Nat → Outcome) (w : World) : Prop where
  noFaults : w.NoFaults
  bucket : w.bucket = b
  cache : w.cache = none
  handles : w.handles = h
  env : w.env = env

/-- No call makes a metadata cache. -/
theorem triple_noCache {α : Type} (p : Gw α) :
    Prog.Triple World.handle (fun w => w.cache = none) p fun _ w => w.cache = none := by
  induction p with
  | ret a => exact fun _ hw => hw
  | op e k ih =>
    intro w hw
    have hcache : (World.handle e w).2.cache = none := by
      rw [(World.handle_frame e w).cache, hw]
      rfl
    exact ih _ _ hcache

section Bare

variable {b : Bucket} {h : HandleStore} {env : Nat → Outcome} {α : Type}

theorem Bare.at {w : World} (hw : Bare b h env w) : At w.clock b none w :=
  ⟨hw.noFaults, hw.bucket, hw.cache, le_refl _⟩

theorem Bare.steady {w : World} (hw : Bare b h env w) : Steady b h env w :=
  ⟨hw.noFaults, hw.bucket, hw.handles, hw.env⟩

theorem Steady.bare {w : World} (hw : Steady b h env w) (hc : w.cache = none) : Bare b h env w :=
  ⟨hw.noFaults, hw.bucket, hc, hw.handles, hw.env⟩

/-- What holds of a method with a metadata cache holds of it without. -/
theorem bare_of_steady {p : Gw α} {Q : α → World → Prop}
    (hp : Prog.Triple World.handle (Steady b h env) p Q) :
    Prog.Triple World.handle (Bare b h env) p fun a w => Q a w ∧ w.cache = none :=
  fun w hw => ⟨hp w hw.steady, triple_noCache p w hw.cache⟩

/-- Calls that change neither the bucket nor the handle store. -/
theorem bare_call {β : Type} {e : Eff β} (hb : e.writesBucket = false)
    (hh : ∀ commit s, e.onHandles commit s = s) :
    Prog.Triple World.handle (Bare b h env) (Prog.call e) fun _ => Bare b h env :=
  (bare_of_steady (steady_call hb hh)).post fun _ _ hw => hw.1.bare hw.2

theorem bare_headObject (key : GoString) :
    Prog.Triple World.handle (Bare b h env) (Prog.call (.headObject key))
      fun r w => r = b.headObject key ∧ Bare b h env w :=
  (bare_of_steady (steady_headObject key)).post fun _ _ hw => ⟨hw.1.1, hw.1.2.bare hw.2⟩

theorem bare_listObjects (pfx : GoString) :
    Prog.Triple World.handle (Bare b h env) (Prog.call (.listObjects pfx))
      fun r w => r = .ok (b.listObjects pfx) ∧ Bare b h env w :=
  (bare_of_steady (steady_listObjects pfx)).post fun _ _ hw => ⟨hw.1.1, hw.1.2.bare hw.2⟩

theorem bare_getDirListing (pfx : GoString) :
    Prog.Triple World.handle (Bare b h env) (Prog.call (.getDirListing pfx))
      fun r w => r = none ∧ Bare b h env w :=
  fun w hw => ⟨(hw.at.onCache none fun mc => (mc.getDirListing w.begin.clock pfx, mc)).1,
    bare_call rfl (fun _ _ => rfl) w hw⟩

theorem bare_cacheGet (key : GoString) :
    Prog.Triple World.handle (Bare b h env) (cacheGet key)
      fun r w => r = none ∧ Bare b h env w := by
  have hget : Prog.Triple World.handle (Bare b h env) (Prog.call (.getEntry key))
      fun r w => r = none ∧ Bare b h env w :=
    fun w hw => ⟨(hw.at.onCache none fun mc => mc.getEntry w.begin.clock key).1,
      bare_call rfl (fun _ _ => rfl) w hw⟩
  refine hget.step fun r hr => ?_
  subst hr
  exact Prog.triple_pure fun _ hw => ⟨rfl, hw⟩

theorem bare_cachePut (key : GoString) (info : FileInfo) :
    Prog.Triple World.handle (Bare b h env) (cachePut key info) fun _ => Bare b h env :=
  bare_call rfl fun _ _ => rfl

theorem bare_cachePutNegative (key : GoString) :
    Prog.Triple World.handle (Bare b h env) (cachePutNegative key) fun _ => Bare b h env :=
  bare_call rfl fun _ _ => rfl

theorem bare_getOrCreateInode (key : GoString) :
    Prog.Triple World.handle (Bare b h env) (Prog.call (.getOrCreateInode key)) fun r w =>
      ∃ n, r = (h.getOrCreateInode key (env n).commit).1 ∧
        Bare b (h.getOrCreateInode key (env n).commit).2 env w := by
  refine (bare_of_steady (steady_getOrCreateInode key)).post ?_
  rintro r w ⟨⟨n, hr, hw⟩, hc⟩
  exact ⟨n, hr, hw.bare hc⟩

/-- The method allocated an inode for the key: it returns the error if that failed and
else a result made with the inode. -/
def Allocated (b : Bucket) (h : HandleStore) (env : Nat → Outcome) (key : GoString)
    (φ : UInt64 → α → Prop) (r : Except GoError α) (w : World) : Prop :=
  ∃ n, Bare b (h.getOrCreateInode key (env n).commit).2 env w ∧
    (∀ err, (h.getOrCreateInode key (env n).commit).1 = .error err → r = .error err) ∧
    ∀ inode, (h.getOrCreateInode key (env n).commit).1 = .ok inode → ∃ a, r = .ok a ∧ φ inode a

/-- Allocate, then make the result without further changes. -/
theorem allocated_bind {key : GoString} {φ : UInt64 → α → Prop}
    {k : Except GoError UInt64 → Gw (Except GoError α)}
    (herr : ∀ err, k (.error err) = pure (.error err))
    (hok : ∀ h inode, Prog.Triple World.handle (Bare b h env) (k (.ok inode)) fun r w =>
      (∃ a, r = .ok a ∧ φ inode a) ∧ Bare b h env w) :
    Prog.Triple World.handle (Bare b h env) (Prog.call (.getOrCreateInode key) >>= k)
      (Allocated b h env key φ) := by
  refine Prog.triple_bind (bare_getOrCreateInode key) fun r => Prog.triple_exists fun n => ?_
  refine Prog.triple_and fun hr => ?_
  cases r with
  | error err =>
    rw [herr]
    refine Prog.triple_pure fun w hw => ⟨n, hw, fun err' herr' => ?_, fun inode hi => ?_⟩
    · cases hr.trans herr'
      rfl
    · cases hr.trans hi
  | ok inode =>
    refine (hok _ inode).post ?_
    rintro r' w ⟨hres, hw⟩
    refine ⟨n, hw, fun err' herr' => ?_, fun inode' hi => ?_⟩
    · cases hr.trans herr'
    · cases hr.trans hi
      exact hres

end Bare

/-! ## `Stat` and `Open` -/

section Methods

variable {b : Bucket} {h : HandleStore} {env : Nat → Outcome} {path : GoString}

theorem allocated_statFound (key : GoString) (isDir : Bool) (objInfo : ObjectInfo) :
    Prog.Triple World.handle (Bare b h env) (statFound path key isDir objInfo)
      (Allocated b h env key fun inode info =>
        info = newFileInfoFromS3 (nameFromPath path) objInfo.size objInfo.lastModified isDir inode
          objInfo.userMetadata) := by
  refine allocated_bind (fun _ => rfl) fun h' inode => ?_
  refine Prog.triple_bind (bare_cachePut _ _) fun _ => ?_
  exact Prog.triple_pure fun w hw => ⟨⟨_, rfl, rfl⟩, hw⟩

theorem allocated_implicitDirInfo (dirKey : GoString) :
    Prog.Triple World.handle (Bare b h env) (implicitDirInfo path dirKey)
      (Allocated b h env dirKey fun inode info =>
        ∃ now, info = newDirInfo (nameFromPath path) inode now) := by
  refine allocated_bind (fun _ => rfl) fun h' inode => ?_
  refine Prog.triple_bind (bare_call rfl fun _ _ => rfl) fun now => ?_
  refine Prog.triple_bind (bare_cachePut _ _) fun _ => ?_
  exact Prog.triple_pure fun w hw => ⟨⟨_, rfl, now, rfl⟩, hw⟩

theorem Allocated.mono {α : Type} {key : GoString} {φ ψ : UInt64 → α → Prop}
    {r : Except GoError α} {w : World} (hr : Allocated b h env key φ r w)
    (himp : ∀ inode a, φ inode a → ψ inode a) : Allocated b h env key ψ r w := by
  obtain ⟨n, hw, herr, hok⟩ := hr
  refine ⟨n, hw, herr, fun inode hi => ?_⟩
  obtain ⟨a, ha, hφ⟩ := hok inode hi
  exact ⟨a, ha, himp inode a hφ⟩

/-- A method that looks for a path: `ErrNotExist` and no change if there is nothing, else
an inode for the node and a result made with it. -/
def Looks {α : Type} (b : Bucket) (h : HandleStore) (env : Nat → Outcome) (s3Key : GoString)
    (φ : Node → UInt64 → α → Prop) (r : Except GoError α) (w : World) : Prop :=
  b.node s3Key = none ∧ r = .error .errNotExist ∧ Bare b h env w ∨
    ∃ node, b.node s3Key = some node ∧ Allocated b h env (node.key s3Key) (φ node) r w

theorem looks_statMissing (s3Key dirKey : GoString) {key : GoString} (hnode : b.node key = none)
    {φ : Node → UInt64 → FileInfo → Prop} :
    Prog.Triple World.handle (Bare b h env) (statMissing s3Key dirKey) (Looks b h env key φ) := by
  refine Prog.triple_bind (bare_cachePutNegative _) fun _ => ?_
  refine Prog.triple_bind (bare_cachePutNegative _) fun _ => ?_
  exact Prog.triple_pure fun w hw => Or.inl ⟨hnode, rfl, hw⟩

/-- A directory marker is below its own directory key. -/
theorem node_of_marker {s3Key : GoString} (hfile : b.get s3Key = none) {o : Object}
    (ho : b.get (s3DirKey s3Key) = some o) : b.node s3Key = some .dir :=
  Bucket.node_of_below hfile (Bucket.mem_keys.mpr ⟨o, ho⟩) (List.prefix_refl _)

theorem looks_implicitDirInfo {s3Key : GoString} (hfile : b.get s3Key = none)
    (hlist : b.listObjects (s3DirKey s3Key) ≠ []) {φ : Node → UInt64 → FileInfo → Prop}
    (hdir : ∀ inode now, φ .dir inode (newDirInfo (nameFromPath path) inode now)) :
    Prog.Triple World.handle (Bare b h env) (implicitDirInfo path (s3DirKey s3Key))
      (Looks b h env s3Key φ) := by
  have hnode : b.node s3Key = some .dir := by simp [Bucket.node, hfile, hlist]
  refine (allocated_implicitDirInfo _).post fun r w hr => Or.inr ⟨.dir, hnode, hr.mono ?_⟩
  rintro inode info ⟨now, rfl⟩
  exact hdir inode now

/-- What `Stat` returns for a file, for a directory with a marker and for one without. -/
theorem looks_stat_of (hk : s3KeyFromPath path ≠ []) {φ : Node → UInt64 → FileInfo → Prop}
    (hfile : ∀ o inode, b.get (s3KeyFromPath path) = some o → φ (.file o.data.length) inode
      (newFileInfoFromS3 (nameFromPath path) o.data.length o.lastModified false inode
        o.userMetadata))
    (hmarker : ∀ o inode, b.get (s3KeyFromPath path) = none →
      b.get (s3DirKey (s3KeyFromPath path)) = some o → φ .dir inode
      (newFileInfoFromS3 (nameFromPath path) o.data.length o.lastModified true inode
        o.userMetadata))
    (hdir : ∀ inode now, b.get (s3KeyFromPath path) = none →
      b.get (s3DirKey (s3KeyFromPath path)) = none →
      φ .dir inode (newDirInfo (nameFromPath path) inode now)) :
    Prog.Triple World.handle (Bare b h env) (stat path)
      (Looks b h env (s3KeyFromPath path) φ) := by
  unfold stat
  dsimp only
  rw [if_neg hk]
  refine (bare_cacheGet _).step fun r hr => ?_
  subst hr
  refine (bare_cacheGet _).step fun r hr => ?_
  subst hr
  refine (bare_headObject _).step fun r hr => ?_
  cases r with
  | ok info =>
    obtain ⟨o, ho, hsize, htime, -, hisDir, hmeta⟩ := Bucket.headObject_ok hr.symm
    refine (allocated_statFound _ _ _).post fun r w hr =>
      Or.inr ⟨_, Bucket.node_of_get ho, hr.mono ?_⟩
    rintro inode fi rfl
    rw [hisDir, hasSuffixSlash_s3KeyFromPath, hsize, htime, hmeta]
    exact hfile o inode ho
  | error _ =>
    have hnone := Bucket.headObject_error hr.symm
    refine (bare_headObject _).step fun r hr => ?_
    cases r with
    | ok info =>
      obtain ⟨o, ho, hsize, htime, -, -, hmeta⟩ := Bucket.headObject_ok hr.symm
      refine (allocated_statFound _ _ _).post fun r w hr =>
        Or.inr ⟨.dir, node_of_marker hnone ho, hr.mono ?_⟩
      rintro inode fi rfl
      rw [hsize, htime, hmeta]
      exact hmarker o inode hnone ho
    | error _ =>
      have hnone' := Bucket.headObject_error hr.symm
      refine (bare_listObjects _).step fun r hr => ?_
      subst hr
      dsimp only
      split
      · next hlist => exact looks_statMissing _ _ (Bucket.node_of_nothing hnone hlist)
      · next hlist =>
        exact looks_implicitDirInfo hnone hlist fun inode now => hdir inode now hnone hnone'

/-- `Stat` reports the node at the path's key. -/
theorem looks_stat (hk : s3KeyFromPath path ≠ []) :
    Prog.Triple World.handle (Bare b h env) (stat path)
      (Looks b h env (s3KeyFromPath path) Node.Shows) := by
  refine looks_stat_of hk (fun o inode _ => ⟨rfl, rfl, fun n hn => ?_⟩)
    (fun o inode _ _ => ⟨rfl, rfl, fun n hn => ?_⟩) fun inode now _ _ => ⟨rfl, rfl, fun n hn => ?_⟩
  · cases hn
    rfl
  · cases hn
  · cases hn

/-- The file is the read-only handle `OpenFile` makes for a node. -/
def Node.Opens (s3Key : GoString) (node : Node) (f : File) : Prop :=
  ∃ f' : S3File, f = .s3File f' ∧ f'.isDir = node.isDir ∧ f'.s3Key = node.key s3Key

theorem looks_openMarker {s3Key : GoString} (hfile : b.get s3Key = none)
    (hlist : b.listObjects (s3DirKey s3Key) = []) {φ : Node → UInt64 → File → Prop} :
    Prog.Triple World.handle (Bare b h env) (openMarker path (s3DirKey s3Key))
      (Looks b h env s3Key φ) := by
  refine (bare_headObject _).step fun r hr => ?_
  cases r with
  | error _ =>
    exact Prog.triple_pure fun w hw => Or.inl ⟨Bucket.node_of_nothing hfile hlist, rfl, hw⟩
  | ok info =>
    -- a marker would have been listed
    obtain ⟨o, ho, -⟩ := Bucket.headObject_ok hr.symm
    exact absurd (List.prefix_refl _)
      (listObjects_eq_nil_iff.mp hlist _ (Bucket.mem_keys.mpr ⟨o, ho⟩))

/-- What `Open` returns for a file and for a directory. A directory with a marker is one
with something below its key, so that the marker itself is never asked for. -/
theorem looks_open_of (hk : s3KeyFromPath path ≠ []) {φ : Node → UInt64 → File → Prop}
    (hfile : ∀ o inode, b.get (s3KeyFromPath path) = some o → φ (.file o.data.length) inode
      (.s3File { path, s3Key := s3KeyFromPath path, isDir := false, writable := false, offset := 0
                 info := newFileInfoFromS3WithETag (nameFromPath path) o.data.length o.lastModified
                   false inode o.userMetadata o.etag
                 chunked := none, closed := false, etag := o.etag }))
    (hdir : ∀ inode now, b.get (s3KeyFromPath path) = none → φ .dir inode
      (openDir path (s3DirKey (s3KeyFromPath path)) (newDirInfo (nameFromPath path) inode now))) :
    Prog.Triple World.handle (Bare b h env) (openFile path oRDONLY)
      (Looks b h env (s3KeyFromPath path) φ) := by
  have hread : writableFlags oRDONLY = false := rfl
  unfold openFile
  dsimp only
  rw [if_neg hk]
  refine (bare_headObject _).step fun r hr => ?_
  cases r with
  | ok info =>
    obtain ⟨o, ho, hsize, htime, hetag, -, hmeta⟩ := Bucket.headObject_ok hr.symm
    dsimp only
    rw [hread, hsize, htime, hetag, hmeta]
    refine Prog.Triple.post ?_ fun r w hr => Or.inr ⟨_, Bucket.node_of_get ho, hr⟩
    refine allocated_bind (fun _ => rfl) fun h' inode => ?_
    refine Prog.triple_bind (bare_cachePut _ _) fun _ => ?_
    exact Prog.triple_pure fun w hw => ⟨⟨_, rfl, hfile o inode ho⟩, hw⟩
  | error _ =>
    have hnone := Bucket.headObject_error hr.symm
    dsimp only
    rw [hread]
    refine (bare_listObjects _).step fun r hr => ?_
    subst hr
    dsimp only
    split
    · next hlist => exact looks_openMarker hnone hlist
    · next hlist =>
      have hnode : b.node (s3KeyFromPath path) = some .dir := by simp [Bucket.node, hnone, hlist]
      refine Prog.Triple.post ?_ fun r w hr => Or.inr ⟨_, hnode, hr⟩
      refine Prog.triple_bind (allocated_implicitDirInfo _) fun r => Prog.triple_pure fun w hr => ?_
      obtain ⟨n, hw, herr, hok⟩ := hr
      refine ⟨n, hw, fun err he => ?_, fun inode hi => ?_⟩
      · rw [herr err he]
        rfl
      · obtain ⟨info, rfl, now, rfl⟩ := hok inode hi
        exact ⟨_, rfl, hdir inode now hnone⟩

/-- `Open` reports the node at the path's key. -/
theorem looks_open (hk : s3KeyFromPath path ≠ []) :
    Prog.Triple World.handle (Bare b h env) (openFile path oRDONLY)
      (Looks b h env (s3KeyFromPath path) fun node _ => node.Opens (s3KeyFromPath path)) :=
  looks_open_of hk (fun _ _ _ => ⟨_, rfl, rfl, rfl⟩) fun _ _ _ => ⟨_, rfl, rfl, rfl⟩

end Methods

/-! ## What exists, according to each method -/

theorem HandleStore.getOrCreateInode_ok {h : HandleStore} (hroom : h.nextInode ≠ 0)
    (key : GoString) : ∃ inode, (h.getOrCreateInode key true).1 = .ok inode := by
  unfold HandleStore.getOrCreateInode HandleStore.createInode HandleStore.getInode
  cases h.keyToInode.lookup key with
  | some inode => exact ⟨inode, rfl⟩
  | none =>
    dsimp only
    rw [if_neg hroom]
    exact ⟨h.nextInode, rfl⟩

/-- While inodes can be allocated, a method that looks for a path succeeds exactly if
there is something. -/
theorem Looks.ok_iff {α : Type} {b : Bucket} {h : HandleStore} {env : Nat → Outcome}
    {s3Key : GoString} {φ : Node → UInt64 → α → Prop} {r : Except GoError α} {w : World}
    (hr : Looks b h env s3Key φ r w) (hcommit : ∀ n, (env n).commit = true)
    (hroom : h.nextInode ≠ 0) : (∃ a, r = .ok a) ↔ (b.node s3Key).isSome := by
  rcases hr with ⟨hnone, rfl, -⟩ | ⟨node, hnode, n, -, -, hok⟩
  · simp [hnone]
  · rw [hcommit] at hok
    obtain ⟨inode, hi⟩ := HandleStore.getOrCreateInode_ok hroom (node.key s3Key)
    obtain ⟨a, ha, -⟩ := hok inode hi
    simp [hnode, ha]

/-- `errors.Is(err, target)`. -/
def errorsIs (target : GoError) : GoError → Bool
  | .wrap msg err => .wrap msg err = target || errorsIs target err
  | err => err = target

/-- The call reports `ErrNotExist`. -/
def ReportsNotExist {α : Type} (r : Except GoError α) : Prop :=
  ∃ err, r = .error err ∧ errorsIs .errNotExist err = true

theorem not_reportsNotExist_ok {α : Type} (a : α) : ¬ ReportsNotExist (.ok a : Except GoError α) :=
  fun ⟨_, h, _⟩ => nomatch h

theorem reportsNotExist_errNotExist {α : Type} :
    ReportsNotExist (.error .errNotExist : Except GoError α) := ⟨_, rfl, rfl⟩

section ByObject

variable {t : Time} {b : Bucket} {c : Option MetadataCache} {path : GoString}

/-- A method that starts with the lookup of the path's object, and does not report
`ErrNotExist` once it has it, reports it exactly if there is no such object. -/
theorem reportsNotExist_headPath {α : Type}
    {k : Option (GoString × ObjectInfo) → Gw (Except GoError α)}
    (hnone : k none = pure (.error .errNotExist))
    (hsome : ∀ info o, b.get (objectKey b path) = some o →
      Prog.Triple World.handle (At t b c) (k (some (objectKey b path, info)))
        fun r _ => ¬ ReportsNotExist r) :
    Prog.Triple World.handle (At t b c) (headPath path >>= k)
      fun r _ => (ReportsNotExist r ↔ b.get (objectKey b path) = none) := by
  refine (triple_headPath path).step fun r hr => ?_
  cases hhead : b.headObject (objectKey b path) with
  | error _ =>
    rw [hhead] at hr
    subst hr
    exact hnone ▸ Prog.triple_pure fun _ _ =>
      ⟨fun _ => Bucket.headObject_error hhead, fun _ => reportsNotExist_errNotExist⟩
  | ok info =>
    rw [hhead] at hr
    subst hr
    obtain ⟨o, ho, -⟩ := Bucket.headObject_ok hhead
    refine (hsome info o ho).post fun r w hnot => ⟨fun hr => absurd hr hnot, fun hno => ?_⟩
    rw [ho] at hno
    cases hno

theorem not_reportsNotExist_replaceMetadata (what : GoString) (metadata : Metadata) {o : Object}
    (ho : b.get (objectKey b path) = some o) :
    Prog.Triple World.handle (At t b c) (replaceMetadata what (objectKey b path) metadata)
      fun r _ => ¬ ReportsNotExist r :=
  (triple_replaceMetadata what _ metadata ho).post fun _ _ h => h.1 ▸ not_reportsNotExist_ok _

theorem reportsNotExist_chmod (path : GoString) (mode : FileMode) :
    Prog.Triple World.handle (At t b c) (chmod path mode)
      fun r _ => (ReportsNotExist r ↔ b.get (objectKey b path) = none) :=
  reportsNotExist_headPath rfl fun _ _ ho => not_reportsNotExist_replaceMetadata _ _ ho

theorem reportsNotExist_chown (path : GoString) (uid gid : Int) :
    Prog.Triple World.handle (At t b c) (chown path uid gid)
      fun r _ => (ReportsNotExist r ↔ b.get (objectKey b path) = none) :=
  reportsNotExist_headPath rfl fun _ _ ho => not_reportsNotExist_replaceMetadata _ _ ho

theorem reportsNotExist_listXattrs (path : GoString) :
    Prog.Triple World.handle (At t b c) (listXattrs path)
      fun r _ => (ReportsNotExist r ↔ b.get (objectKey b path) = none) :=
  reportsNotExist_headPath rfl fun _ _ _ => Prog.triple_pure fun _ _ => not_reportsNotExist_ok _

theorem reportsNotExist_remove (path : GoString) :
    Prog.Triple World.handle (At t b c) (remove path)
      fun r _ => (ReportsNotExist r ↔ b.get (objectKey b path) = none) := by
  refine (remove_outcome c path).post ?_
  rintro r w (⟨⟨o, ho⟩, rfl, -⟩ | ⟨hnone, rfl, -⟩)
  · simp [ho, not_reportsNotExist_ok]
  · simp [hnone, reportsNotExist_errNotExist]

/-- Moving an object fails only if S3 rejects a key. -/
theorem not_reportsNotExist_renameObject (what which : GoString) {oldKey : GoString}
    (newKey : GoString) {o : Object} (ho : b.get oldKey = some o) :
    Prog.Triple World.handle (At t b c) (renameObject what which oldKey newKey)
      fun r _ => ¬ ReportsNotExist r := by
  refine Prog.triple_bind (triple_copyObject oldKey newKey) fun r => ?_
  refine Prog.triple_exists fun now => Prog.triple_exists fun etag => Prog.triple_and fun hr => ?_
  cases r with
  | error err =>
    refine Prog.triple_pure fun _ _ => ?_
    rw [Bucket.copyObject, ho] at hr
    dsimp only at hr
    unfold Bucket.putObject at hr
    split at hr
    · cases hr
      rintro ⟨_, heq, his⟩
      cases heq
      exact absurd his (by simp [errorsIs])
    · cases hr
  | ok _ =>
    refine (triple_deleteObject oldKey).step fun r hr => ?_
    rw [Bucket.deleteObject_of_ne (Bucket.ne_nil_of_get ho)] at hr
    subst hr
    dsimp only
    repeat refine Prog.triple_bind (Prog.triple_true _) fun _ => ?_
    exact Prog.triple_pure fun _ _ => not_reportsNotExist_ok _

theorem reportsNotExist_rename (path newpath : GoString) :
    Prog.Triple World.handle (At t b c) (rename path newpath)
      fun r _ => (ReportsNotExist r ↔ b.get (objectKey b path) = none) := by
  have hmoved : ∀ {key : GoString} {o : Object} (what which newKey : GoString),
      b.get key = some o → objectKey b path = key →
      Prog.Triple World.handle (At t b c) (renameObject what which key newKey)
        fun r _ => (ReportsNotExist r ↔ b.get (objectKey b path) = none) := by
    intro key o what which newKey ho hkey
    refine (not_reportsNotExist_renameObject what which newKey ho).post fun r w hnot => ?_
    rw [hkey, ho]
    exact ⟨fun hr => absurd hr hnot, nofun⟩
  refine (triple_headObject _).step fun r hr => ?_
  cases r with
  | ok info =>
    obtain ⟨o, ho, -⟩ := Bucket.headObject_ok hr.symm
    exact hmoved _ _ _ ho (objectKey_of_ok hr.symm)
  | error _ =>
    have hkey := objectKey_of_error hr.symm
    refine (triple_headObject _).step fun r hr => ?_
    cases r with
    | ok info =>
      obtain ⟨o, ho, -⟩ := Bucket.headObject_ok hr.symm
      exact hmoved _ _ _ ho hkey
    | error _ =>
      refine Prog.triple_pure fun _ _ => ⟨fun _ => ?_, fun _ => reportsNotExist_errNotExist⟩
      rw [hkey]
      exact Bucket.headObject_error hr.symm

end ByObject

/-- `Stat` and `Open` succeed on a path alike, and exactly if none of the methods that
work on an object reports `ErrNotExist`. -/
structure Agrees (w : World) (path newpath : GoString) (mode : FileMode) (uid gid : Int) : Prop where
  opens : (∃ info, ((stat path).run World.handle w).1 = .ok info) ↔
    ∃ f, ((openFile path oRDONLY).run World.handle w).1 = .ok f
  others : (∃ f, ((openFile path oRDONLY).run World.handle w).1 = .ok f) ↔
    ¬ ReportsNotExist ((chmod path mode).run World.handle w).1 ∧
    ¬ ReportsNotExist ((chown path uid gid).run World.handle w).1 ∧
    ¬ ReportsNotExist ((listXattrs path).run World.handle w).1 ∧
    ¬ ReportsNotExist ((remove path).run World.handle w).1 ∧
    ¬ ReportsNotExist ((rename path newpath).run World.handle w).1

/-- With no metadata cache and no failed call, the methods agree on a path exactly if it
names an object, or there is nothing below it either. -/
theorem agrees_iff {w : World} (hf : w.NoFaults) (hc : w.cache = none)
    (hcommit : ∀ n, (w.env n).commit = true) (hroom : w.handles.nextInode ≠ 0)
    {path : GoString} (hk : s3KeyFromPath path ≠ []) (newpath : GoString) (mode : FileMode)
    (uid gid : Int) :
    Agrees w path newpath mode uid gid ↔
      ((∃ o, w.bucket.get (objectKey w.bucket path) = some o) ∨
        ∀ key ∈ w.bucket.keys, ¬ s3DirKey (s3KeyFromPath path) <+: key) := by
  have hbare : Bare w.bucket w.handles w.env w := ⟨hf, rfl, hc, rfl, rfl⟩
  have hat : At w.clock w.bucket w.cache w := ⟨hf, rfl, rfl, le_refl _⟩
  have hstat := (looks_stat hk w hbare).ok_iff hcommit hroom
  have hopen := (looks_open hk w hbare).ok_iff hcommit hroom
  -- what the five methods depend on, and how it relates to the node
  have hfive : (∃ o, w.bucket.get (objectKey w.bucket path) = some o) ↔
      ¬ w.bucket.get (objectKey w.bucket path) = none := by
    rw [← Option.isSome_iff_exists, Option.isSome_iff_ne_none]
  have hnode : (w.bucket.node (s3KeyFromPath path)).isSome ↔
      (∃ o, w.bucket.get (objectKey w.bucket path) = some o) ∨
        ∃ key ∈ w.bucket.keys, s3DirKey (s3KeyFromPath path) <+: key := by
    rw [Bucket.node_isSome_iff, ← Option.isSome_iff_exists]
    by_cases hfile : (w.bucket.get (s3KeyFromPath path)).isSome
    · rw [objectKey, if_pos hfile]
    · rw [objectKey, if_neg hfile]
      refine ⟨fun h => Or.inr (h.resolve_left hfile), ?_⟩
      rintro (h | h)
      · obtain ⟨o, ho⟩ := Option.isSome_iff_exists.mp h
        exact Or.inr ⟨_, Bucket.mem_keys.mpr ⟨o, ho⟩, List.prefix_refl _⟩
      · exact Or.inr h
  have hothers : (¬ ReportsNotExist ((chmod path mode).run World.handle w).1 ∧
      ¬ ReportsNotExist ((chown path uid gid).run World.handle w).1 ∧
      ¬ ReportsNotExist ((listXattrs path).run World.handle w).1 ∧
      ¬ ReportsNotExist ((remove path).run World.handle w).1 ∧
      ¬ ReportsNotExist ((rename path newpath).run World.handle w).1) ↔
        ∃ o, w.bucket.get (objectKey w.bucket path) = some o := by
    have hchmod : ReportsNotExist _ ↔ _ := reportsNotExist_chmod path mode w hat
    have hchown : ReportsNotExist _ ↔ _ := reportsNotExist_chown path uid gid w hat
    have hlist : ReportsNotExist _ ↔ _ := reportsNotExist_listXattrs path w hat
    have hremove : ReportsNotExist _ ↔ _ := reportsNotExist_remove path w hat
    have hrename : ReportsNotExist _ ↔ _ := reportsNotExist_rename path newpath w hat
    rw [hchmod, hchown, hlist, hremove, hrename, hfive]
    simp only [and_self]
  constructor
  · intro hagree
    have hiff := hagree.others
    rw [hopen, hothers, hnode] at hiff
    by_cases ho : ∃ o, w.bucket.get (objectKey w.bucket path) = some o
    · exact Or.inl ho
    · exact Or.inr fun key hkey hpre => ho (hiff.mp (Or.inr ⟨key, hkey, hpre⟩))
  · intro hcond
    refine ⟨hstat.trans hopen.symm, ?_⟩
    rw [hopen, hothers, hnode]
    refine ⟨fun h => ?_, Or.inl⟩
    rcases hcond with ho | hnothing
    · exact ho
    · refine h.resolve_right ?_
      rintro ⟨key, hkey, hpre⟩
      exact hnothing key hkey hpre

/-- The methods agree on an empty directory with a marker. -/
theorem agrees_on_marker :
    Agrees { World.start .onlyD with cache := none } (gs "/d") (gs "/e") 0 0 0 :=
  (agrees_iff (w := { World.start .onlyD with cache := none }) (fun _ => rfl) rfl (fun _ => rfl)
    (by decide) (by decide) (gs "/e") 0 0 0).mpr (Or.inl ⟨_, rfl⟩)

/-- `/d` is a directory to `Stat` and `Open` because of `/d/f`, and does not exist for
the others. -/
theorem disagrees_on_implicit_directory :
    let w := { World.start (Bucket.dWithF.remove (gs "d/")) with cache := none }
    (((stat (gs "/d")).run World.handle w).1.map FileInfo.isDir = .ok true) ∧
      ((openFile (gs "/d") oRDONLY).run World.handle w).1.toOption.isSome ∧
      ((chmod (gs "/d") 0).run World.handle w).1 = .error .errNotExist ∧
      ((chown (gs "/d") 0 0).run World.handle w).1 = .error .errNotExist ∧
      ((listXattrs (gs "/d")).run World.handle w).1 = .error .errNotExist ∧
      ((remove (gs "/d")).run World.handle w).1 = .error .errNotExist ∧
      ((rename (gs "/d") (gs "/e")).run World.handle w).1 = .error .errNotExist := by
  decide

end S3Gateway
