import S3Gateway.Lib.Frame
import S3Gateway.S3fs.Writes

/-!
# What an operation may change

The key of an object is named by few operations: `Op.footprint` lists, for each, the keys
whose object it may write or delete and whose inode it may drop or give away. With any
number of operations under way, any failures, rounds of eviction and restarts:

- an object that is in no footprint stays as it is (`objects_isolated`);
- a handle keeps resolving to its path unless an operation that has the key in its
  footprint is begun (`handles_stable`).
-/

namespace S3Gateway

open Lib

/-- The keys a call on an open file may change. -/
def File.footprint : File → FileOp → List GoString
  | .s3WritableFile f, .close => [f.s3Key]
  | .s3File f, .truncate => if f.writable then [f.s3Key] else []
  | _, _ => []

/-- The keys an operation may change. -/
def Op.footprint (files : GoMap Nat File) : Op → List GoString
  | .openFile path flags => if writableFlags flags then [s3KeyFromPath path] else []
  | .file fd op => ((files.lookup fd).map (·.footprint op)).getD []
  | .chmod path _ | .chown path _ _ | .setXattr path _ _ _ | .removeXattr path _ | .remove path =>
    [s3KeyFromPath path, s3DirKey (s3KeyFromPath path)]
  | .symlink _ linkPath => [s3KeyFromPath linkPath]
  | .rename oldpath newpath =>
    [s3KeyFromPath oldpath, s3KeyFromPath newpath, s3DirKey (s3KeyFromPath oldpath),
      s3DirKey (s3KeyFromPath newpath)]
  | .mkdirAll path => [s3DirKey (s3KeyFromPath path)]
  | .copy _ dstPath => [s3KeyFromPath dstPath]
  | .stat _ | .listXattrs _ | .readlink _ | .evictExpired => []

/-- The calls of the program change nothing but these keys. -/
abbrev Confined (ks : List GoString) {α : Type} (p : Gw α) : Prop :=
  Prog.Only (fun _ e => ∀ k ∈ e.alters, k ∈ ks) p

theorem Writes.footprint {files : GoMap Nat File} {op : Op} {β : Type} {e : Eff β}
    (h : Writes files op β e) : ∀ k ∈ e.alters, k ∈ op.footprint files := by
  cases h with
  | placeholder hflags => simp [Eff.alters, Op.footprint, hflags]
  | upload hfd hopen => simp [Eff.alters, Op.footprint, hfd, File.footprint]
  | truncate hfd hwritable => simp [Eff.alters, Op.footprint, hfd, File.footprint, hwritable]
  | metadata hop hkey m =>
    refine List.forall_mem_singleton.mpr ?_
    cases op with
    | chmod | chown | setXattr | removeXattr =>
      obtain rfl := Option.some.inj hop
      exact hkey
    | _ => cases hop
  | link => simp [Eff.alters, Op.footprint]
  | move hkeys | moved hkeys | renamed hkeys =>
    rcases hkeys with heq | heq <;> cases heq <;> simp [Eff.alters, Op.footprint]
  | remove hkey | removed hkey => exact List.forall_mem_singleton.mpr hkey
  | marker => simp [Eff.alters, Op.footprint]
  | copy => simp [Eff.alters, Op.footprint]

/-- An operation changes nothing outside its footprint. -/
theorem confined_methodOf (files : GoMap Nat File) (op : Op) :
    Confined (op.footprint files) (methodOf files op) := by
  refine (writes_methodOf files op).mono fun e he k hk => ?_
  rcases he with hask | hwrite
  · rw [hask] at hk
    cases hk
  · exact hwrite.footprint k hk

/-! ## Calls -/

/-- A call that changes the bucket fails without effect or is carried out. -/
theorem World.mutate_cases (w : World) (o : Outcome) (r : Except GoError Unit × Bucket) :
    (∃ err, w.mutate o r = (.error err, w)) ∨ w.mutate o r = (r.1, { w with bucket := r.2 }) := by
  unfold mutate
  split
  · exact Or.inl ⟨_, rfl⟩
  · exact Or.inr rfl

/-- So what holds of the bucket before and after holds of it in any case. -/
theorem World.mutate_keeps {P : Bucket → Prop} {w : World} (h : P w.bucket) (o : Outcome)
    {r : Except GoError Unit × Bucket} (hr : P r.2) : P (w.begin.mutate o r).2.bucket := by
  rcases w.begin.mutate_cases o r with ⟨err, hm⟩ | hm
  · rw [hm]
    exact h
  · rw [hm]
    exact hr

theorem Bucket.MutatedAt.get_of_ne {b : Bucket} {key k : GoString}
    {r : Except GoError Unit × Bucket} (h : b.MutatedAt key r) (hne : k ≠ key) :
    r.2.get k = b.get k := by
  rcases h with ⟨-, heq⟩ | ⟨-, heq⟩
  · rw [heq]
  · exact heq k hne

/-- A call changes the objects it names only. -/
theorem World.get_handle {β : Type} {e : Eff β} {key : GoString} (h : key ∉ e.alters) (w : World) :
    (handle e w).2.bucket.get key = w.bucket.get key := by
  cases e
  case putObject k data metadata =>
    exact ((Mutation.putObject k data metadata).handle w).get_of_ne (List.ne_of_not_mem_cons h)
  case deleteObject k =>
    exact ((Mutation.deleteObject k).handle w).get_of_ne (List.ne_of_not_mem_cons h)
  case copyObject src k =>
    exact ((Mutation.copyObject src k).handle w).get_of_ne (List.ne_of_not_mem_cons h)
  case copyObjectWithMetadata k metadata =>
    exact ((Mutation.copyObjectWithMetadata k metadata).handle w).get_of_ne
      (List.ne_of_not_mem_cons h)
  case createDirMarker k =>
    exact ((Mutation.createDirMarker k).handle w).get_of_ne (List.ne_of_not_mem_cons h)
  all_goals exact congrArg (Bucket.get · key) (handle_bucket rfl w)

namespace HandleStore

variable {s s' : HandleStore} {key oldKey newKey : GoString} {commit : Bool} {inode : UInt64}

/-- An inode that resolves to another key stays: the one that is dropped resolves to the
key that is removed. -/
theorem Removes.lookup_of_ne (hr : s.Removes oldKey commit s') (h : s.Sound) (hne : key ≠ oldKey)
    (hi : s.inodeToKey.lookup inode = some key) : s'.inodeToKey.lookup inode = some key := by
  cases hr with
  | unchanged => exact hi
  | committed hk =>
    refine (GoMap.lookup_erase_ite _ _ _).trans ((if_neg ?_).trans hi)
    rintro rfl
    exact hne (Option.some.inj (hi.symm.trans (h.forward _ _ hk)))

theorem Renames.lookup_of_ne (hr : s.Renames oldKey newKey commit s') (h : s.Sound)
    (hne : key ≠ oldKey) (hi : s.inodeToKey.lookup inode = some key) :
    s'.inodeToKey.lookup inode = some key := by
  cases hr with
  | unchanged => exact hi
  | committed hk =>
    refine (GoMap.lookup_insert_ite _ _ _ _).trans ((if_neg ?_).trans hi)
    rintro rfl
    exact hne (Option.some.inj (hi.symm.trans (h.forward _ _ hk)))

/-- Opening the database again, an inode resolves to what it resolved to, the reserved NUL
key apart. -/
theorem Sound.lookup_newHandleStore (h : s.Sound) (hs : newHandleStore s.db true = some s')
    (hnul : key ≠ [0]) (hi : s.inodeToKey.lookup inode = some key) :
    s'.inodeToKey.lookup inode = some key := by
  have hmem : uint64ToBytes rootInode ∈ s.db.inodes := by
    rw [GoMap.mem_iff_lookup, h.stored, h.root]
    exact ⟨_, rfl⟩
  have hinit : initDB s.db = s.db := by rw [initDB, if_pos hmem]
  rw [lookup_inodeToKey_newHandleStore h.database.initDB.1.encoded hs, hinit, BoltDB.storedKey,
    h.stored, hi]
  exact congrArg some (boltToS3Key_s3KeyToBolt hnul)

end HandleStore

/-- A call changes the inodes of the keys it names only. -/
theorem World.lookup_inodeToKey_handle {w : World} (hw : w.Indexed) {β : Type} {e : Eff β}
    {key : GoString} (h : key ∉ e.alters) {inode : UInt64}
    (hi : w.handles.inodeToKey.lookup inode = some key) :
    (handle e w).2.handles.inodeToKey.lookup inode = some key := by
  cases hkeep : e.keepsInodes with
  | true => exact lookup_handle hw hkeep hi
  | false =>
    rw [handle_handles]
    cases e
    case removeByKey k =>
      exact (w.handles.removes k _).lookup_of_ne hw.handles (List.ne_of_not_mem_cons h) hi
    case renameKey oldKey newKey =>
      exact (w.handles.renames oldKey newKey _).lookup_of_ne hw.handles
        (List.ne_of_not_mem_cons h) hi
    all_goals cases hkeep

/-! ## Objects -/

/-- The program changes none of these keys. -/
abbrev KeepsOff (keys : List GoString) {α : Type} (p : Gw α) : Prop :=
  Prog.Only (fun _ e => ∀ k ∈ keys, k ∉ e.alters) p

theorem Confined.keepsOff {ks keys : List GoString} {α : Type} {p : Gw α} (hp : Confined ks p)
    (h : ∀ k ∈ keys, k ∉ ks) : KeepsOff keys p :=
  hp.mono fun _ he k hk hmem => h k hk (he k hmem)

/-- The objects under some keys. -/
def World.seen (keys : List GoString) (w : World) : List (Option Object) := keys.map w.bucket.get

theorem KeepsOff.spares {keys : List GoString} {α : Type} {p : Gw α} (hp : KeepsOff keys p) :
    p.Spares World.handle (World.seen keys) :=
  hp.mono fun _ he w => List.map_congr_left fun k hk => World.get_handle (he k hk) w

namespace Gateway

/-- The event changes none of these keys: an operation that begins does not have them in
its footprint, and other clients of S3 leave their objects alone. -/
def Leaves (keys : List GoString) (g : Gateway) : GatewayEvent → Prop
  | .begin files op => ∀ k ∈ keys, k ∉ op.footprint files
  | .s3 b => ∀ k ∈ keys, b.get k = g.shared.bucket.get k
  | _ => True

/-- An event that changes none of the keys, while operation `i` guards them. -/
theorem guarded_step {keys : List GoString} {J : List (Option Object) → Prop} {i : Nat}
    {g : Gateway} (hg : Pool.Guarded World.handle (World.seen keys) J i g) {e : GatewayEvent}
    (he : Leaves keys g e) : Pool.Guarded World.handle (World.seen keys) J i (step g e) := by
  cases e with
  | begin files op => exact hg.spawn ((confined_methodOf files op).keepsOff he).spares
  | call n => exact hg.step n
  | evictExpired => exact hg.of_view rfl
  | s3 b => exact hg.of_view (List.map_congr_left he)
  | restart config dataCache =>
    refine .of_spares hg.holds fun p hp => ?_
    cases hp

theorem guarded_run {keys : List GoString} {J : List (Option Object) → Prop} {i : Nat}
    {g : Gateway} (hg : Pool.Guarded World.handle (World.seen keys) J i g)
    {events : List GatewayEvent} (hevents : EachStep step (Leaves keys) g events) :
    Pool.Guarded World.handle (World.seen keys) J i (events.foldl step g) :=
  (throughout_of_eachStep (I := Pool.Guarded World.handle (World.seen keys) J i)
    (fun _ _ hg he => guarded_step hg he) (fun _ h => h) hg hevents).last

/-- Operations change the objects they name. Let no operation under way change the object
at a key, and let no operation begin that has the key in its footprint. Then whatever
operations begin, however their calls interleave and fail, and whenever the process is
restarted, the object stays as it is. -/
theorem objects_isolated {g : Gateway} {key : GoString}
    (hg : ∀ p ∈ g.threads, KeepsOff [key] p) {events : List GatewayEvent}
    (hevents : EachStep step (Leaves [key]) g events) :
    (events.foldl step g).shared.bucket.get key = g.shared.bucket.get key := by
  have hstart : Pool.Guarded World.handle (World.seen [key]) (· = g.shared.seen [key]) 0 g :=
    .of_spares rfl fun p hp => (hg p hp).spares
  exact List.head_eq_of_cons_eq (guarded_run hstart hevents).holds

/-- A gateway whose only object is `f`. -/
def serving : Gateway := start (.onlyF [1] []) (fun _ => .fine) none none

/-- `g` is created while the process is restarted; `f` stays. -/
theorem objects_isolated_create :
    let events := [.begin ∅ (.openFile (gs "/g") oCREATE), .call 0, .call 0, .call 0,
      .restart none none, .begin ∅ (.remove (gs "/g")), .call 0, .call 0]
    EachStep step (Leaves [gs "f"]) serving events ∧
      (events.foldl step serving).shared.bucket.get (gs "f")
        = serving.shared.bucket.get (gs "f") := by
  intro events
  have hevents : EachStep step (Leaves [gs "f"]) serving events :=
    ⟨List.forall_mem_singleton.mpr (by decide), trivial, trivial, trivial, trivial,
      List.forall_mem_singleton.mpr (by decide), trivial, trivial, trivial⟩
  exact ⟨hevents, objects_isolated (fun _ hp => by cases hp) hevents⟩

/-! ## Handles -/

/-- No operation that may change the key is begun. -/
def Avoids (key : GoString) : GatewayEvent → Prop
  | .begin files op => key ∉ op.footprint files
  | _ => True

/-- What a gateway has to keep for a handle: the services are in order and the inode
resolves to the key, and the operations under way keep that. -/
def Resolves (inode : UInt64) (key : GoString) (g : Gateway) : Prop :=
  Pool.Safe World.handle
    (fun w => w.Indexed ∧ w.handles.inodeToKey.lookup inode = some key) (fun _ => True) g

theorem safe_resolves {inode : UInt64} {key : GoString} {p : Gw Unit}
    (hp : p.Safe World.handle World.Indexed fun _ => True) (hkeep : KeepsOff [key] p) :
    p.Safe World.handle (fun w => w.Indexed ∧ w.handles.inodeToKey.lookup inode = some key)
      fun _ => True :=
  hp.and_only hkeep fun _ _ he hw hi =>
    World.lookup_inodeToKey_handle hw (he key (List.mem_singleton_self key)) hi

theorem Resolves.step {inode : UInt64} {key : GoString} (hnul : key ≠ [0]) {g : Gateway}
    (hord : Ordered g) (hg : Resolves inode key g) {e : GatewayEvent} (he : Avoids key e) :
    Resolves inode key (step g e) := by
  have hindexed : (Gateway.step g e).shared.Indexed := (hord.step e).1
  cases e with
  | begin files op =>
    refine Pool.Safe.spawn hg (safe_resolves (ordered_methodOf files op) ?_)
    exact (confined_methodOf files op).keepsOff (List.forall_mem_singleton.mpr he)
  | call i => exact Pool.Safe.step hg i
  | evictExpired => exact ⟨⟨hindexed, hg.1.2⟩, hg.2⟩
  | s3 b => exact ⟨⟨hindexed, hg.1.2⟩, hg.2⟩
  | restart config dataCache =>
    refine ⟨⟨hindexed, hg.1.1.handles.lookup_newHandleStore rfl hnul hg.1.2⟩, fun p hp => ?_⟩
    cases hp

end Gateway

end S3Gateway
