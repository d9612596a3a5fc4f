import S3Gateway.S3fs.FaultCoherence
import S3Gateway.S3fs.Staleness

/-!
# File type bits

Every `fileInfo` says twice whether it is a directory: in `IsDir` and in the `os.ModeDir`
bit of `Mode`. Infos are made from an object's metadata, from nothing (implicit
directories), and from cache entries, which are made from infos. The mode of an object is
whatever octal number of up to 32 bits a client of S3 stored with it, and `parseMode` hands
it on as it is, type bits included.

`Prog.Safe` carries the argument through the methods: if the cache holds entries whose two
answers agree (`CacheEntry.Typed`), and the objects a method may ask for have modes without
the directory bit (`PlainMode`), then so do the infos it returns and the entries it stores,
wherever its calls fail.

`infos_typed`: in every run in which no operation comes upon a file with the directory bit
in its mode, all infos agree with themselves.
-/

namespace S3Gateway

open Lib

/-- The mode, the kind and the link count agree. -/
structure FileInfo.Typed (fi : FileInfo) : Prop where
  mode : fi.mode.isDir = true ↔ fi.isDir = true
  numLinks : fi.numLinks = 2 ↔ fi.isDir = true

/-- The mode and the kind agree. -/
def CacheEntry.Typed (e : CacheEntry) : Prop := FileMode.isDir e.mode = true ↔ e.isDir = true

/-- A file with this metadata gets no directory bit. -/
def PlainMode (userMeta : Metadata) : Prop := (parseMode userMeta false).isDir = false

instance (userMeta : Metadata) : Decidable (PlainMode userMeta) :=
  inferInstanceAs (Decidable (_ = _))

/-! ## The constructors -/

theorem numLinksOf_eq_two (isDir : Bool) : numLinksOf isDir = 2 ↔ isDir = true := by
  cases isDir <;> decide

theorem plainMode_empty : PlainMode ∅ := by
  decide

theorem plainMode_defaultMetadata : PlainMode defaultMetadata := by
  rw [PlainMode, parseMode_defaultMetadata]
  decide

theorem typed_newFileInfoFromS3 (name : GoString) (size : Int) (lastModified : Time) (isDir : Bool)
    (inode : UInt64) {userMeta : Metadata} (h : isDir = false → PlainMode userMeta) :
    (newFileInfoFromS3 name size lastModified isDir inode userMeta).Typed := by
  refine ⟨?_, numLinksOf_eq_two isDir⟩
  show (parseMode userMeta isDir).isDir = true ↔ isDir = true
  cases isDir with
  | false =>
    rw [show (parseMode userMeta false).isDir = false from h rfl]
  | true => exact iff_of_true (isDir_parseMode userMeta) rfl

theorem typed_newDirInfo (name : GoString) (inode : UInt64) (now : Time) :
    (newDirInfo name inode now).Typed :=
  ⟨iff_of_true (isDir_or_modeDir defaultDirMode) rfl, iff_of_true rfl rfl⟩

theorem FileInfo.Typed.entry {fi : FileInfo} (h : fi.Typed) (key : GoString) :
    (cacheEntryOf key fi).Typed :=
  h.mode

/-- A mode of zero is replaced by the default of the kind. -/
theorem CacheEntry.Typed.info {e : CacheEntry} (h : e.Typed) (name : GoString) (inode : UInt64) :
    (cacheEntryToFileInfo e name inode).Typed := by
  refine ⟨?_, numLinksOf_eq_two e.isDir⟩
  show FileMode.isDir (if e.mode = 0 then if e.isDir then modeDir ||| defaultDirMode
    else defaultFileMode else e.mode) = true ↔ e.isDir = true
  split
  · cases e.isDir <;> decide
  · exact h

/-! ## The services -/

/-- All cached entries agree with themselves, and the objects under the keys `K` have no
directory bit. -/
structure World.Typed (config : CacheConfig) (K : Set GoString) (w : World) : Prop where
  cache : ∀ mc, w.cache = some mc → mc.Holds config (fun _ e => e.Typed)
    fun _ dl => ∀ e ∈ dl.entries, e.Typed
  plain : ∀ key ∈ K, ∀ o, w.bucket.get key = some o → PlainMode o.userMetadata

/-- What a call stores in the cache agrees with itself, and it writes no object under the
keys `K`, or one without a directory bit. -/
def Eff.KeepsTypes (K : Set GoString) {β : Type} : Eff β → Prop
  | .putEntry _ entry => entry.Typed
  | .putDirListing _ entries => ∀ e ∈ entries, e.Typed
  | .putObject key _ metadata => key ∈ K → PlainMode metadata
  | .deleteObject key => key ∉ K
  | .copyObject _ dstKey => dstKey ∉ K
  | .copyObjectWithMetadata key _ => key ∉ K
  | .createDirMarker key => key ∉ K
  | _ => True

section Safe

variable {config : CacheConfig} {K : Set GoString} {w : World}

theorem Eff.KeepsTypes.caches {β : Type} {e : Eff β} (he : e.KeepsTypes K) (now : Time) :
    e.Caches now (fun _ e => e.Typed) fun _ dl => ∀ e ∈ dl.entries, e.Typed := by
  cases e
  case putEntry => exact he
  case putDirListing => exact he
  case putNegative =>
    show FileMode.isDir 0 = true ↔ false = true
    decide
  all_goals trivial

/-- The key a call may write to is not in `K`, or gets an object without a directory bit. -/
theorem Eff.KeepsTypes.mutation {e : Eff (Except GoError Unit)} (he : e.KeepsTypes K)
    {key : GoString} (hm : Mutation e key) (hkey : key ∈ K)
    (hok : (World.handle e w).1 = .ok ()) :
    ∃ o, (World.handle e w).2.bucket.get key = some o ∧ PlainMode o.userMetadata := by
  cases hm with
  | putObject data metadata =>
    obtain ⟨o, ho, -, hmeta⟩ := World.putObject_ok hok
    exact ⟨o, ho, hmeta ▸ he hkey⟩
  | deleteObject => exact absurd hkey he
  | copyObject => exact absurd hkey he
  | copyObjectWithMetadata => exact absurd hkey he
  | createDirMarker => exact absurd hkey he

theorem World.Typed.mutation (h : w.Typed config K) {e : Eff (Except GoError Unit)}
    (he : e.KeepsTypes K) {key : GoString} (hm : Mutation e key) :
    ∀ k ∈ K, ∀ o, (World.handle e w).2.bucket.get k = some o → PlainMode o.userMetadata := by
  intro k hk o ho
  rcases hm.handle w with ⟨-, hb⟩ | ⟨hok, hb⟩
  · have hb : (World.handle e w).2.bucket = w.bucket := hb
    rw [hb] at ho
    exact h.plain k hk o ho
  · by_cases hkey : k = key
    · subst hkey
      obtain ⟨o', ho', hplain⟩ := he.mutation hm hk hok
      cases ho.symm.trans ho'
      exact hplain
    · exact h.plain k hk o ((hb k hkey).symm.trans ho)

theorem World.Typed.handle (h : w.Typed config K) {β : Type} {e : Eff β} (he : e.KeepsTypes K) :
    (World.handle e w).2.Typed config K := by
  refine ⟨World.handle_holds h.cache (he.caches _), ?_⟩
  cases e
  case putObject => exact h.mutation he (.putObject _ _ _)
  case deleteObject => exact h.mutation he (.deleteObject _)
  case copyObject => exact h.mutation he (.copyObject _ _)
  case copyObjectWithMetadata => exact h.mutation he (.copyObjectWithMetadata _ _)
  case createDirMarker => exact h.mutation he (.createDirMarker _)
  all_goals
    rw [World.handle_bucket rfl]
    exact h.plain

/-- The program keeps the types, and its result satisfies `φ`. -/
abbrev KeepsTyped (config : CacheConfig) (K : Set GoString) {α : Type} (φ : α → Prop)
    (p : Gw α) : Prop :=
  Prog.Safe World.handle (World.Typed config K) φ p

theorem typed_call {β : Type} {e : Eff β} (he : e.KeepsTypes K) :
    KeepsTyped config K (fun _ => True) (Prog.call e) :=
  Prog.safe_call fun _ h => ⟨h.handle he, trivial⟩

theorem typed_headObject (key : GoString) :
    KeepsTyped config K (fun r => ∀ info, r = .ok info → key ∈ K → PlainMode info.userMetadata)
      (Prog.call (.headObject key)) := by
  refine Prog.safe_call fun w h => ⟨h.handle trivial, fun info hr hkey => ?_⟩
  obtain ⟨o, ho, -, -, -, -, hmeta⟩ := Bucket.headObject_ok (World.headObject_ok hr)
  exact hmeta ▸ h.plain key hkey o ho

theorem typed_getEntry (key : GoString) :
    KeepsTyped config K (fun r => ∀ e, r = some e → e.Typed) (Prog.call (.getEntry key)) := by
  refine Prog.safe_call fun w h => ⟨h.handle trivial, fun e hr => ?_⟩
  obtain ⟨mc, hmc, hhit⟩ := World.getEntry_some hr
  exact (h.cache mc hmc).entry key e (MetadataCache.getEntry_hit hhit).1

theorem typed_getDirListing (pfx : GoString) :
    KeepsTyped config K (fun r => ∀ entries, r = some entries → ∀ e ∈ entries, e.Typed)
      (Prog.call (.getDirListing pfx)) := by
  refine Prog.safe_call fun w h => ⟨h.handle trivial, fun entries hr => ?_⟩
  obtain ⟨mc, hmc, hhit⟩ := World.getDirListing_some hr
  obtain ⟨dl, hl, -, rfl⟩ := MetadataCache.getDirListing_some hhit
  exact (h.cache mc hmc).listing pfx dl hl

theorem typed_listObjects (pfx : GoString) :
    KeepsTyped config K (fun r => ∀ entries, r = .ok entries → ∀ entry ∈ entries,
      entryName pfx entry.key ≠ [] → IsChild pfx entry.key) (Prog.call (.listObjects pfx)) := by
  refine Prog.safe_call fun w h => ⟨h.handle trivial, fun entries hr entry hmem hname => ?_⟩
  rw [World.listObjects_ok hr] at hmem
  exact isChild_of_mem_listObjects hmem hname

theorem typed_cachePut {key : GoString} {info : FileInfo} (h : info.Typed) :
    KeepsTyped config K (fun _ => True) (cachePut key info) :=
  typed_call (h.entry key)

/-- Methods that store nothing in the cache. -/
theorem LearnsNothing.typed {α : Type} {p : Gw α} (hp : LearnsNothing p) :
    KeepsTyped config ∅ (fun _ => True) p := by
  refine Prog.Only.safe hp fun {_} e _ he h => h.handle ?_
  cases e
  case putEntry => cases he
  case putDirListing => cases he
  case putObject => exact fun hk => hk.elim
  case deleteObject => exact fun hk => hk.elim
  case copyObject => exact fun hk => hk.elim
  case copyObjectWithMetadata => exact fun hk => hk.elim
  case createDirMarker => exact fun hk => hk.elim
  all_goals trivial

/-! ## `Stat` -/

theorem typed_cacheGet (key : GoString) :
    KeepsTyped config K (fun r => ∀ fi, r = some (some fi) → fi.Typed) (cacheGet key) := by
  refine Prog.safe_bind (typed_getEntry key) fun r hr => ?_
  cases r with
  | none => exact Prog.safe_pure fun fi hfi => by cases hfi
  | some entry =>
    dsimp only
    split
    · exact Prog.safe_pure fun fi hfi => by cases hfi
    · refine Prog.safe_bind (typed_call trivial) fun r _ => ?_
      cases r with
      | error err => exact Prog.safe_pure fun fi hfi => by cases hfi
      | ok inode =>
        refine Prog.safe_pure fun fi hfi => ?_
        cases hfi
        exact ⟨hr entry rfl, numLinksOf_eq_two _⟩

theorem typed_statFound {path key : GoString} {isDir : Bool} {info : ObjectInfo}
    (h : isDir = false → PlainMode info.userMetadata) :
    KeepsTyped config K (fun r => ∀ fi, r = .ok fi → fi.Typed) (statFound path key isDir info) := by
  have hinfo := fun inode =>
    typed_newFileInfoFromS3 (nameFromPath path) info.size info.lastModified isDir inode h
  refine Prog.safe_bind (typed_call trivial) fun r _ => ?_
  cases r with
  | error err => exact Prog.safe_error
  | ok inode =>
    refine Prog.safe_bind (typed_cachePut (hinfo inode)) fun _ _ => ?_
    refine Prog.safe_pure fun fi hfi => ?_
    cases hfi
    exact hinfo inode

theorem typed_implicitDirInfo (path dirKey : GoString) :
    KeepsTyped config K (fun r => ∀ fi, r = .ok fi → fi.Typed) (implicitDirInfo path dirKey) := by
  refine Prog.safe_bind (typed_call trivial) fun r _ => ?_
  cases r with
  | error err => exact Prog.safe_error
  | ok inode =>
    refine Prog.safe_bind (typed_call trivial) fun now _ => ?_
    refine Prog.safe_bind (typed_cachePut (typed_newDirInfo _ inode now)) fun _ _ => ?_
    refine Prog.safe_pure fun fi hfi => ?_
    cases hfi
    exact typed_newDirInfo _ inode now

theorem typed_statMissing (s3Key dirKey : GoString) :
    KeepsTyped config K (fun r => ∀ fi, r = .ok fi → fi.Typed) (statMissing s3Key dirKey) := by
  refine Prog.safe_bind (typed_call trivial) fun _ _ => ?_
  refine Prog.safe_bind (typed_call trivial) fun _ _ => ?_
  exact Prog.safe_error

theorem typed_statS3 {path s3Key dirKey : GoString} (hkey : s3Key ∈ K) :
    KeepsTyped config K (fun r => ∀ fi, r = .ok fi → fi.Typed) (statS3 path s3Key dirKey) := by
  refine Prog.safe_bind (typed_headObject s3Key) fun r hr => ?_
  cases r with
  | ok info => exact typed_statFound fun _ => hr info rfl hkey
  | error err =>
    refine Prog.safe_bind (typed_headObject dirKey) fun r _ => ?_
    cases r with
    | ok info => exact typed_statFound fun hdir => by cases hdir
    | error err =>
      refine Prog.safe_bind (typed_listObjects dirKey) fun r _ => ?_
      cases r with
      | error err => exact typed_statMissing s3Key dirKey
      | ok entries =>
        dsimp only
        split
        · exact typed_statMissing s3Key dirKey
        · exact typed_implicitDirInfo path dirKey

/-- An entry of the cache answers, or else the rest of `Stat` does. -/
theorem typed_cacheGet_bind {path key : GoString} {p : Gw (Except GoError FileInfo)}
    (hp : KeepsTyped config K (fun r => ∀ fi, r = .ok fi → fi.Typed) p) :
    KeepsTyped config K (fun r => ∀ fi, r = .ok fi → fi.Typed) (do
      match ← cacheGet key with
      | some (some fi) => pure (.ok { fi with name := nameFromPath path })
      | _ => p) := by
  refine Prog.safe_bind (typed_cacheGet key) fun r hr => ?_
  rcases r with _ | _ | fi
  · exact hp
  · exact hp
  · refine Prog.safe_pure fun fi' hfi => ?_
    cases hfi
    exact ⟨(hr fi rfl).mode, (hr fi rfl).numLinks⟩

theorem typed_stat {path : GoString} (hkey : s3KeyFromPath path ∈ K) :
    KeepsTyped config K (fun r => ∀ fi, r = .ok fi → fi.Typed) (stat path) := by
  unfold stat
  dsimp only
  split
  · refine Prog.safe_bind (typed_call trivial) fun inode _ => ?_
    refine Prog.safe_bind (typed_call trivial) fun now _ => ?_
    refine Prog.safe_pure fun fi hfi => ?_
    cases hfi
    exact typed_newDirInfo _ _ now
  · exact typed_cacheGet_bind (typed_cacheGet_bind (typed_statS3 hkey))

/-! ## `OpenFile` -/

theorem typed_newWritableFile {path s3Key : GoString} {info : FileInfo} (h : info.Typed) :
    KeepsTyped config K (fun r => ∀ f, r = .ok f → f.info.Typed)
      (newWritableFile path s3Key info) := by
  refine Prog.safe_bind (typed_call trivial) fun r _ => ?_
  cases r with
  | error err => exact Prog.safe_error
  | ok _ =>
    refine Prog.safe_pure fun f hf => ?_
    cases hf
    exact h

theorem typed_createPlaceholder (path s3Key : GoString) :
    KeepsTyped config K (fun r => ∀ f, r = .ok f → f.info.Typed)
      (createPlaceholder path s3Key) := by
  refine Prog.safe_bind (typed_call trivial) fun r _ => ?_
  cases r with
  | error err => exact Prog.safe_error
  | ok inode =>
    refine Prog.safe_bind (typed_call fun _ => plainMode_defaultMetadata) fun r _ => ?_
    cases r with
    | error err => exact Prog.safe_error
    | ok _ =>
      refine Prog.safe_bind (typed_call trivial) fun now _ => ?_
      have hinfo := typed_newFileInfoFromS3 (nameFromPath path) 0 now false inode fun _ =>
        plainMode_empty
      refine Prog.safe_bind (typed_cachePut hinfo) fun _ _ => ?_
      refine Prog.safe_bind (typed_call trivial) fun _ _ => ?_
      refine Prog.safe_bind (φ := fun r => ∀ f, r = .ok f → f.info.Typed)
        (Prog.safe_bind (typed_newWritableFile hinfo) fun r hr => ?_) fun r hr => ?_
      · cases r with
        | error err => exact Prog.safe_error
        | ok f =>
          refine Prog.safe_pure fun f' hf' => ?_
          cases hf'
          exact hr f rfl
      · refine Prog.safe_pure fun f hf => ?_
        cases r with
        | error err => cases hf
        | ok f' =>
          cases hf
          exact hr f' rfl

theorem typed_openMarker (path dirKey : GoString) :
    KeepsTyped config K (fun r => ∀ f, r = .ok f → f.info.Typed) (openMarker path dirKey) := by
  refine Prog.safe_bind (typed_headObject dirKey) fun r _ => ?_
  cases r with
  | error err => exact Prog.safe_error
  | ok info =>
    refine Prog.safe_bind (typed_call trivial) fun r _ => ?_
    cases r with
    | error err => exact Prog.safe_error
    | ok inode =>
      have hinfo : (newFileInfoFromS3 (nameFromPath path) info.size info.lastModified true inode
          info.userMetadata).Typed := typed_newFileInfoFromS3 _ _ _ _ _ fun hdir => by
            cases hdir
      refine Prog.safe_bind (typed_cachePut hinfo) fun _ _ => ?_
      refine Prog.safe_pure fun f hf => ?_
      cases hf
      exact hinfo

theorem typed_openDirectory (path dirKey : GoString) :
    KeepsTyped config K (fun r => ∀ f, r = .ok f → f.info.Typed) (openDirectory path dirKey) := by
  refine Prog.safe_bind (typed_listObjects dirKey) fun r _ => ?_
  cases r with
  | error err => exact typed_openMarker path dirKey
  | ok entries =>
    dsimp only
    split
    · exact typed_openMarker path dirKey
    · refine Prog.safe_bind (typed_implicitDirInfo path dirKey) fun r hr => ?_
      refine Prog.safe_pure fun f hf => ?_
      cases r with
      | error err => cases hf
      | ok fi =>
        cases hf
        exact hr fi rfl

theorem typed_openFile {path : GoString} (hkey : s3KeyFromPath path ∈ K) (flags : Nat) :
    KeepsTyped config K (fun r => ∀ f, r = .ok f → f.info.Typed) (openFile path flags) := by
  unfold openFile
  dsimp only
  split
  · refine Prog.safe_bind (typed_call trivial) fun inode _ => ?_
    refine Prog.safe_bind (typed_call trivial) fun now _ => ?_
    refine Prog.safe_pure fun f hf => ?_
    cases hf
    exact typed_newDirInfo _ _ now
  · refine Prog.safe_bind (typed_headObject _) fun r hr => ?_
    cases r with
    | error err =>
      dsimp only
      split
      · exact typed_createPlaceholder _ _
      · exact typed_openDirectory _ _
    | ok info =>
      refine Prog.safe_bind (typed_call trivial) fun r _ => ?_
      cases r with
      | error err => exact Prog.safe_error
      | ok inode =>
        have hfile := typed_newFileInfoFromS3 (nameFromPath path) info.size info.lastModified false
          inode fun _ => hr info rfl hkey
        have hinfo : (newFileInfoFromS3WithETag (nameFromPath path) info.size info.lastModified
            false inode info.userMetadata info.etag).Typed := ⟨hfile.mode, hfile.numLinks⟩
        refine Prog.safe_bind (typed_cachePut hinfo) fun _ _ => ?_
        split
        · refine Prog.safe_bind (typed_newWritableFile hinfo) fun r hr => ?_
          refine Prog.safe_pure fun f hf => ?_
          cases r with
          | error err => cases hf
          | ok f' =>
            cases hf
            exact hr f' rfl
        · refine Prog.safe_pure fun f hf => ?_
          cases hf
          exact hinfo

/-! ## `Readdir` -/

theorem typed_readdirCached {entries : List CacheEntry} (hentries : ∀ e ∈ entries, e.Typed)
    {infos : List FileInfo} (hinfos : ∀ fi ∈ infos, fi.Typed) :
    KeepsTyped config K (fun r => ∀ infos', r = .ok infos' → ∀ fi ∈ infos', fi.Typed)
      (S3File.readdirCached entries infos) := by
  induction entries generalizing infos with
  | nil =>
    refine Prog.safe_pure fun infos' hr => ?_
    cases hr
    exact hinfos
  | cons ce entries ih =>
    obtain ⟨hce, hrest⟩ := List.forall_mem_cons.mp hentries
    unfold S3File.readdirCached
    dsimp only
    split
    · exact ih hrest hinfos
    · refine Prog.safe_bind (typed_call trivial) fun r _ => ?_
      cases r with
      | error err => exact Prog.safe_error
      | ok inode =>
        refine ih hrest (List.forall_mem_append.mpr ⟨hinfos, ?_⟩)
        exact List.forall_mem_singleton.mpr (hce.info _ inode)

theorem typed_entryMeta {isDir : Bool} {key : GoString} (hkey : isDir = false → key ∈ K) :
    KeepsTyped config K (fun userMeta => isDir = false → PlainMode userMeta)
      (S3File.entryMeta isDir key) := by
  unfold S3File.entryMeta
  cases isDir with
  | true => exact Prog.safe_pure fun hdir => by cases hdir
  | false =>
    refine Prog.safe_bind (typed_headObject key) fun r hr => ?_
    cases r with
    | ok info => exact Prog.safe_pure fun _ => hr info rfl (hkey rfl)
    | error err => exact Prog.safe_pure fun _ => plainMode_empty

theorem typed_readdirList {pfx : GoString} {entries : List ListEntry}
    (hentries : ∀ entry ∈ entries, entryName pfx entry.key ≠ [] →
      hasSuffixSlash entry.key = false → entry.key ∈ K)
    {infos : List FileInfo} (hinfos : ∀ fi ∈ infos, fi.Typed) {cached : List CacheEntry}
    (hcached : ∀ e ∈ cached, e.Typed) :
    KeepsTyped config K (fun r => ∀ infos' cached', r = .ok (infos', cached') →
        (∀ fi ∈ infos', fi.Typed) ∧ ∀ e ∈ cached', e.Typed)
      (S3File.readdirList pfx entries infos cached) := by
  induction entries generalizing infos cached with
  | nil =>
    refine Prog.safe_pure fun infos' cached' hr => ?_
    cases hr
    exact ⟨hinfos, hcached⟩
  | cons entry entries ih =>
    obtain ⟨hentry, hrest⟩ := List.forall_mem_cons.mp hentries
    unfold S3File.readdirList
    dsimp only
    split
    · exact ih hrest hinfos hcached
    · next hname =>
      refine Prog.safe_bind (typed_call trivial) fun r _ => ?_
      cases r with
      | error err => exact Prog.safe_pure fun _ _ hr => by cases hr
      | ok inode =>
        refine Prog.safe_bind (typed_entryMeta fun hdir =>
          hentry hname (Bool.or_eq_false_iff.mp hdir).2) fun userMeta hmeta => ?_
        have hinfo := typed_newFileInfoFromS3 (entryName pfx entry.key) entry.size
          entry.lastModified _ inode hmeta
        refine Prog.safe_bind (typed_cachePut hinfo) fun _ _ => ?_
        refine ih hrest (List.forall_mem_append.mpr ⟨hinfos, ?_⟩)
          (List.forall_mem_append.mpr ⟨hcached, ?_⟩)
        · exact List.forall_mem_singleton.mpr hinfo
        · exact List.forall_mem_singleton.mpr (hinfo.entry _)

theorem typed_limitInfos {infos : List FileInfo} (h : ∀ fi ∈ infos, fi.Typed) (count : Int) :
    ∀ fi ∈ S3File.limitInfos count infos, fi.Typed := by
  unfold S3File.limitInfos
  split
  · exact fun fi hfi => h fi (List.mem_of_mem_take hfi)
  · exact h

theorem typed_readdir {f : S3File}
    (hK : ∀ key, IsChild f.listPrefix key → hasSuffixSlash key = false → key ∈ K) (count : Int) :
    KeepsTyped config K (fun r => ∀ infos, r = .ok infos → ∀ fi ∈ infos, fi.Typed)
      (f.readdir count) := by
  unfold S3File.readdir
  split
  · exact Prog.safe_error
  · refine Prog.safe_bind (typed_getDirListing _) fun r hr => ?_
    cases r with
    | some entries =>
      refine Prog.safe_bind (typed_readdirCached (hr entries rfl) (by simp)) fun r hr => ?_
      refine Prog.safe_pure fun infos hinfos => ?_
      cases r with
      | error err => cases hinfos
      | ok all =>
        cases hinfos
        exact typed_limitInfos (hr all rfl) count
    | none =>
      refine Prog.safe_bind (typed_listObjects _) fun r hr => ?_
      cases r with
      | error err => exact Prog.safe_error
      | ok entries =>
        refine Prog.safe_bind (typed_readdirList
          (fun entry he hname => hK entry.key (hr entries rfl entry he hname)) (by simp)
          (by simp)) fun r hr => ?_
        rcases r with err | ⟨all, cached⟩
        · exact Prog.safe_error
        · obtain ⟨hall, hcached⟩ := hr all cached rfl
          refine Prog.safe_bind (typed_call hcached) fun _ _ => ?_
          refine Prog.safe_pure fun infos hinfos => ?_
          cases hinfos
          exact typed_limitInfos hall count

/-! ## Open files -/

theorem typed_onTmp (f : S3WritableFile) {α : Type}
    (act : ByteFile UInt8 → Except GoError α × ByteFile UInt8) :
    KeepsTyped config K (fun r => r.2.info = f.info) (f.onTmp act) := by
  have hdown : KeepsTyped config K (fun r => r.2.info = f.info) f.ensureDownloaded := by
    unfold S3WritableFile.ensureDownloaded
    split
    · exact Prog.safe_pure rfl
    · refine Prog.safe_bind (typed_call trivial) fun r _ => ?_
      cases r with
      | error err => exact Prog.safe_pure rfl
      | ok body =>
        dsimp only
        split <;> exact Prog.safe_pure rfl
  unfold S3WritableFile.onTmp
  split
  · exact Prog.safe_pure rfl
  · refine Prog.safe_bind hdown fun r hr => ?_
    obtain ⟨r, f'⟩ := r
    cases r <;> exact Prog.safe_pure hr

theorem typed_close (f : S3WritableFile) :
    KeepsTyped config ∅ (fun r => r.2.info = f.info) f.close := by
  unfold S3WritableFile.close
  split
  · exact Prog.safe_pure rfl
  · refine Prog.safe_bind (typed_call fun hk => hk.elim) fun r _ => ?_
    cases r with
    | error err => exact Prog.safe_pure rfl
    | ok _ =>
      refine Prog.safe_bind (typed_call trivial) fun _ _ => ?_
      refine Prog.safe_bind (typed_call trivial) fun _ _ => ?_
      refine Prog.safe_bind (typed_call trivial) fun _ _ => ?_
      refine Prog.safe_bind (typed_call trivial) fun now _ => ?_
      refine Prog.safe_bind (typed_cachePut ⟨?_, ?_⟩) fun _ _ => Prog.safe_pure rfl
      · show defaultFileMode.isDir = true ↔ false = true
        decide
      · show 1 = 2 ↔ false = true
        decide

theorem typed_s3WritableFile_call (f : S3WritableFile) (op : FileOp) :
    KeepsTyped config ∅ (fun r => r.2.info = f.info) (f.call op) := by
  cases op with
  | read fuel n => exact Prog.safe_bind (typed_onTmp f _) fun _ hr => Prog.safe_pure hr
  | write p => exact Prog.safe_bind (typed_onTmp f _) fun _ hr => Prog.safe_pure hr
  | seek offset whence => exact Prog.safe_bind (typed_onTmp f _) fun _ hr => Prog.safe_pure hr
  | truncate =>
    refine Prog.safe_pure ?_
    unfold S3WritableFile.truncate
    split <;> rfl
  | readdir count => exact Prog.safe_pure rfl
  | stat => exact Prog.safe_pure rfl
  | sync => exact Prog.safe_pure rfl
  | close => exact Prog.safe_bind (typed_close f) fun _ hr => Prog.safe_pure hr

theorem info_seek (f : S3File) (offset : Int64) (whence : Int) :
    (f.seek offset whence).2.info = f.info := by
  unfold S3File.seek
  split
  · rfl
  · split
    · rfl
    · split
      · split
        · split <;> rfl
        · rfl
      · rfl

/-- A read-only file keeps its info, but for the size. -/
theorem typed_s3File_perform {f : S3File} (hf : f.info.Typed) {op : FileOp}
    (hop : ∀ count, op ≠ .readdir count) :
    KeepsTyped config ∅ (fun f' => f'.info.Typed) (f.perform op) := by
  cases op with
  | read fuel n =>
    have hread : KeepsTyped config ∅ (fun r => ∀ res f', r = some (res, f') → f'.info = f.info)
        (f.read fuel n) := by
      unfold S3File.read
      split
      · exact Prog.safe_pure fun _ _ hr => by cases hr; rfl
      · split
        · exact Prog.safe_pure fun _ _ hr => by cases hr; rfl
        · have hquiet : QuietCalls (f.reader.readAt fuel n f.offset) :=
            (fetches_readAt _ _ _ _).mono fun _ he => Eff.quiet_of_fetches he
          refine Prog.safe_bind hquiet.learnsNothing.typed fun r _ => ?_
          rcases r with _ | ⟨res, r⟩
          · exact Prog.safe_pure fun _ _ hr => by cases hr
          · exact Prog.safe_pure fun _ _ hr => by cases hr; rfl
    refine Prog.safe_bind hread fun r hr => ?_
    rcases r with _ | ⟨res, f'⟩
    · exact Prog.safe_pure hf
    · exact Prog.safe_pure (hr res f' rfl ▸ hf)
  | truncate =>
    refine Prog.safe_bind (φ := fun r => r.2.info.Typed) ?_ fun r hr => Prog.safe_pure hr
    unfold S3File.truncate
    split
    · exact Prog.safe_pure hf
    · split
      · exact Prog.safe_pure hf
      · refine Prog.safe_bind (typed_call fun hk => hk.elim) fun r _ => ?_
        cases r with
        | error err => exact Prog.safe_pure hf
        | ok _ =>
          refine Prog.safe_bind (typed_call trivial) fun _ _ => ?_
          refine Prog.safe_bind (typed_call trivial) fun _ _ => ?_
          exact Prog.safe_pure ⟨hf.mode, hf.numLinks⟩
  | readdir count => exact absurd rfl (hop count)
  | write p => exact Prog.safe_pure hf
  | seek offset whence => exact Prog.safe_pure (info_seek f offset whence ▸ hf)
  | stat => exact Prog.safe_pure hf
  | sync => exact Prog.safe_pure hf
  | close =>
    refine Prog.safe_pure ?_
    unfold S3File.close
    split <;> exact hf

end Safe

/-! ## Runs -/

/-- The infos an operation returns: `Stat`, `OpenFile`, `Readdir`, and `Stat` of an open
file. -/
def Session.infos (s : Session) : Op → List FileInfo
  | .stat path => ((stat path).run World.handle s.world).1.toOption.toList
  | .openFile path flags =>
    (((openFile path flags).run World.handle s.world).1.toOption.map File.info).toList
  | .file fd .stat => ((s.files.lookup fd).map File.info).toList
  | .file fd (.readdir count) =>
    match s.files.lookup fd with
    | some (.s3File f) => ((f.readdir count).run World.handle s.world).1.toOption.getD []
    | _ => []
  | _ => []

/-- The keys of files an operation may ask S3 for when it makes an info. -/
def Session.asked (s : Session) : Op → Set GoString
  | .stat path => {s3KeyFromPath path}
  | .openFile path _ => {s3KeyFromPath path}
  | .file fd (.readdir _) => {key | ∃ f, s.files.lookup fd = some (.s3File f) ∧
      IsChild f.listPrefix key ∧ hasSuffixSlash key = false}
  | _ => ∅

/-- The files an operation may ask for have no directory bit in their modes. -/
def Session.AsksPlain (s : Session) (op : Op) : Prop :=
  ∀ key ∈ s.asked op, ∀ o, s.world.bucket.get key = some o → PlainMode o.userMetadata

/-- All cached entries and the infos of all open files agree with themselves. -/
structure Session.Typed (config : CacheConfig) (s : Session) : Prop where
  world : s.world.Typed config ∅
  files : ∀ fd f, s.files.lookup fd = some f → f.info.Typed

section Step

variable {config : CacheConfig} {s : Session}

theorem World.Typed.widen {w : World} {K : Set GoString} (h : w.Typed config ∅)
    (hK : ∀ key ∈ K, ∀ o, w.bucket.get key = some o → PlainMode o.userMetadata) :
    w.Typed config K :=
  ⟨h.cache, hK⟩

theorem World.Typed.narrow {w : World} {K : Set GoString} (h : w.Typed config K) :
    w.Typed config ∅ :=
  ⟨h.cache, fun _ hk => hk.elim⟩

theorem Session.Typed.insert (h : s.Typed config) {w : World} (hw : w.Typed config ∅) {fd n : Nat}
    {f : File} (hf : f.info.Typed) :
    Session.Typed config { world := w, files := s.files.insert fd f, nextFd := n } := by
  refine ⟨hw, fun fd' f' hl => ?_⟩
  have hl := (GoMap.lookup_insert_ite _ _ _ _).symm.trans hl
  split at hl
  · cases hl
    exact hf
  · exact h.files fd' f' hl

theorem Session.Typed.discard (h : s.Typed config) {α : Type} {p : Gw α} (hp : LearnsNothing p) :
    (s.discard p).Typed config :=
  ⟨(hp.typed.triple s.world h.world).2, h.files⟩

/-- The calls on an open file other than `Readdir`. -/
theorem Session.Typed.perform (h : s.Typed config) {f : File} (hf : f.info.Typed) {op : FileOp}
    (hop : ∀ count, op ≠ .readdir count) :
    ((f.perform op).run World.handle s.world).1.info.Typed ∧
      ((f.perform op).run World.handle s.world).2.Typed config ∅ := by
  cases f with
  | s3File f =>
    have hperform : KeepsTyped config ∅ (fun f : File => f.info.Typed)
        (File.perform (.s3File f) op) :=
      Prog.safe_bind (typed_s3File_perform hf hop) fun f' hf' => Prog.safe_pure hf'
    exact hperform.triple s.world h.world
  | s3WritableFile f =>
    have hperform : KeepsTyped config ∅ (fun f : File => f.info.Typed)
        (File.perform (.s3WritableFile f) op) := by
      refine Prog.safe_bind (typed_s3WritableFile_call f op) fun r hr => Prog.safe_pure ?_
      show r.2.info.Typed
      rw [hr]
      exact hf
    exact hperform.triple s.world h.world

theorem ok_of_mem_toList {α : Type} {r : Except GoError α} {a : α} (h : a ∈ r.toOption.toList) :
    r = .ok a := by
  cases r with
  | error err => cases h
  | ok a' => rw [List.mem_singleton.mp h]

theorem Session.Typed.readdir (h : s.Typed config) {fd : Nat} {f : S3File}
    (hfd : s.files.lookup fd = some (.s3File f)) {count : Int}
    (hop : s.AsksPlain (.file fd (.readdir count))) :
    (∀ fi ∈ s.infos (.file fd (.readdir count)), fi.Typed) ∧
      (s.step (.file fd (.readdir count))).Typed config := by
  have hasked : ∀ key, IsChild f.listPrefix key → hasSuffixSlash key = false →
      key ∈ s.asked (.file fd (.readdir count)) :=
    fun key hchild hfile => ⟨f, hfd, hchild, hfile⟩
  obtain ⟨hinfos, hworld⟩ := (typed_readdir hasked count).triple s.world (h.world.widen hop)
  refine ⟨fun fi hfi => ?_, ?_⟩
  · simp only [Session.infos, hfd] at hfi
    cases hr : ((f.readdir count).run World.handle s.world).1 with
    | error err =>
      rw [hr] at hfi
      cases hfi
    | ok infos =>
      rw [hr] at hfi
      exact hinfos infos hr fi hfi
  · simp only [Session.step, hfd, File.perform, S3File.perform, Prog.run_bind, Prog.run_pure]
    exact h.insert hworld.narrow (h.files fd _ hfd)

/-- An operation on an open file. -/
theorem Session.Typed.file (h : s.Typed config) (fd : Nat) (op : FileOp)
    (hop : s.AsksPlain (.file fd op)) :
    (∀ fi ∈ s.infos (.file fd op), fi.Typed) ∧ (s.step (.file fd op)).Typed config := by
  have hstat : op = .stat → ∀ fi ∈ s.infos (.file fd op), fi.Typed := by
    rintro rfl fi hfi
    simp only [Session.infos, Option.mem_toList, Option.map_eq_some_iff] at hfi
    obtain ⟨f, hf, rfl⟩ := hfi
    exact h.files fd f hf
  have hperform : (∀ count, op ≠ .readdir count) → (s.step (.file fd op)).Typed config := by
    intro hread
    cases hfd : s.files.lookup fd with
    | none =>
      simp only [Session.step, hfd]
      exact h
    | some f =>
      simp only [Session.step, hfd]
      exact h.insert (h.perform (h.files fd f hfd) hread).2 (h.perform (h.files fd f hfd) hread).1
  cases op with
  | readdir count =>
    cases hfd : s.files.lookup fd with
    | none =>
      simp only [Session.infos, Session.step, hfd]
      exact ⟨List.forall_mem_nil _, h⟩
    | some f =>
      cases f with
      | s3File f => exact h.readdir hfd hop
      | s3WritableFile f =>
        simp only [Session.infos, Session.step, hfd]
        exact ⟨List.forall_mem_nil _, h.insert h.world (h.files fd _ hfd)⟩
  | stat => exact ⟨hstat rfl, hperform (by simp)⟩
  | read fuel n => exact ⟨List.forall_mem_nil _, hperform (by simp)⟩
  | write p => exact ⟨List.forall_mem_nil _, hperform (by simp)⟩
  | seek offset whence => exact ⟨List.forall_mem_nil _, hperform (by simp)⟩
  | truncate => exact ⟨List.forall_mem_nil _, hperform (by simp)⟩
  | sync => exact ⟨List.forall_mem_nil _, hperform (by simp)⟩
  | close => exact ⟨List.forall_mem_nil _, hperform (by simp)⟩

/-- One operation: the infos it returns agree with themselves, and the invariant stays. -/
theorem Session.Typed.step (h : s.Typed config) (op : Op) (hop : s.AsksPlain op) :
    (∀ fi ∈ s.infos op, fi.Typed) ∧ (s.step op).Typed config := by
  -- operations that return no info and store nothing in the cache
  have hquiet : ∀ {α : Type} {p : Gw α}, LearnsNothing p →
      (∀ fi ∈ ([] : List FileInfo), fi.Typed) ∧ (s.discard p).Typed config :=
    fun hp => ⟨List.forall_mem_nil _, h.discard hp⟩
  cases op with
  | openFile path flags =>
    obtain ⟨hfile, hworld⟩ := (typed_openFile (K := s.asked (.openFile path flags)) rfl
      flags).triple s.world (h.world.widen hop)
    unfold Session.infos Session.step
    dsimp only
    cases hr : (openFile path flags).run World.handle s.world with
    | mk r w =>
      rw [hr] at hfile hworld
      cases r with
      | error err => exact ⟨List.forall_mem_nil _, hworld.narrow, h.files⟩
      | ok f =>
        exact ⟨List.forall_mem_singleton.mpr (hfile f rfl), h.insert hworld.narrow (hfile f rfl)⟩
  | file fd op => exact h.file fd op hop
  | stat path =>
    obtain ⟨hinfo, hworld⟩ := (typed_stat (K := s.asked (.stat path)) rfl).triple s.world
      (h.world.widen hop)
    exact ⟨fun fi hfi => hinfo fi (ok_of_mem_toList hfi), hworld.narrow, h.files⟩
  | chmod path mode => exact hquiet (quiet_chmod path mode).learnsNothing
  | chown path uid gid => exact hquiet (quiet_chown path uid gid).learnsNothing
  | setXattr path name value option =>
    exact hquiet (quiet_setXattr path name value option).learnsNothing
  | listXattrs path => exact hquiet (quiet_listXattrs path).learnsNothing
  | removeXattr path name => exact hquiet (quiet_removeXattr path name).learnsNothing
  | symlink target linkPath => exact hquiet (quiet_symlink target linkPath).learnsNothing
  | readlink path => exact hquiet (quiet_readlink path).learnsNothing
  | rename oldpath newpath => exact hquiet (learnsNothing_rename oldpath newpath)
  | remove path => exact hquiet (learnsNothing_remove path)
  | mkdirAll path => exact hquiet (quiet_mkdirAll path).learnsNothing
  | copy srcPath dstPath => exact hquiet (quiet_copy srcPath dstPath).learnsNothing
  | evictExpired =>
    refine ⟨List.forall_mem_nil _, ⟨fun mc hmc => ?_, fun _ hk => hk.elim⟩, h.files⟩
    obtain ⟨mc₀, hmc₀, rfl⟩ := Option.map_eq_some_iff.mp hmc
    have hholds := h.world.cache mc₀ hmc₀
    exact hholds.of_sub (MetadataCache.evictExpired_spec hholds.wf _)

end Step

namespace Timeline

/-- The infos an event returns agree with themselves. -/
def InfosTyped (tl : Timeline) : TimelineEvent → Prop
  | .op op => ∀ fi ∈ tl.session.infos op, fi.Typed
  | _ => True

/-- No operation comes upon a file with the directory bit in its mode. -/
def AsksPlain (tl : Timeline) : TimelineEvent → Prop
  | .op op => tl.session.AsksPlain op
  | _ => True

theorem typed_step {config : CacheConfig} {tl : Timeline} (h : tl.session.Typed config)
    {e : TimelineEvent} (he : tl.AsksPlain e) :
    tl.InfosTyped e ∧ (tl.step e).session.Typed config := by
  cases e with
  | op op => exact h.step op he
  | s3 b => exact ⟨trivial, ⟨h.world.cache, fun _ hk => hk.elim⟩, h.files⟩
  | elapse d => exact ⟨trivial, ⟨h.world.cache, fun _ hk => hk.elim⟩, h.files⟩

end Timeline

/-- On any bucket, with any metadata, whatever calls fail and whatever other clients do to
the bucket between operations: as long as no operation comes upon a file with the directory
bit in its mode, the mode of every info has that bit exactly if it is one of a directory,
and its link count is 2 exactly then, be it made from S3 or from the cache. -/
theorem infos_typed {s : Session} {config : CacheConfig} (hfiles : s.files = ∅)
    (hcache : ∀ mc, s.world.cache = some mc → mc = newMetadataCache config)
    {events : List TimelineEvent}
    (hplain : EachStep Timeline.step Timeline.AsksPlain (.start s) events) :
    EachStep Timeline.step Timeline.InfosTyped (.start s) events := by
  have hstart : (Timeline.start s).session.Typed (newMetadataCache config).config := by
    refine ⟨⟨fun mc hmc => ?_, fun _ hk => hk.elim⟩, fun fd f hf => ?_⟩
    · rw [hcache mc hmc]
      exact MetadataCache.holds_newMetadataCache config
    · rw [show (Timeline.start s).session.files = ∅ from hfiles] at hf
      cases hf
  exact EachStep.of_invariant
    (I := fun tl => tl.session.Typed (newMetadataCache config).config)
    (fun _ _ h he => Timeline.typed_step h he) hstart hplain

/-- A file without a mode, asked for twice: the second info comes from the cache. -/
theorem infos_typed_stat_twice :
    EachStep Timeline.step Timeline.InfosTyped (.start (.start (.onlyF [1] [])))
        [.op (.stat (gs "/f")), .op (.stat (gs "/f"))] ∧
      (((Session.start (.onlyF [1] [])).step (.stat (gs "/f"))).infos (.stat (gs "/f"))).map
        (fun fi => (fi.mode, fi.isDir)) = [(0o644, false)] := by
  have hplain : ∀ {s : Session}, s.world.bucket = .onlyF [1] [] →
      s.AsksPlain (.stat (gs "/f")) := by
    intro s hs key hkey o ho
    rw [Set.mem_singleton_iff.mp hkey, hs] at ho
    cases ho
    decide
  exact ⟨infos_typed rfl (fun _ hmc => (Option.some.inj hmc).symm)
    ⟨hplain rfl, hplain rfl, trivial⟩, by decide⟩

/-- Another client stores the mode 20000000000: the info of the file says that it is a
directory and that it is none. -/
theorem file_with_directory_bit :
    (let s := Session.start ((Bucket.onlyF [1] []).copyObjectWithMetadata (gs "f")
        (AList.insert metaKeyMode (gs "20000000000") ∅) 0 []).2;
      (s.infos (.stat (gs "/f"))).map (fun fi => (fi.mode.isDir, fi.isDir)) = [(true, false)] ∧
      ¬ EachStep Timeline.step Timeline.InfosTyped (.start s) [.op (.stat (gs "/f"))]) := by
  dsimp only
  have hinfos : ((Session.start ((Bucket.onlyF [1] []).copyObjectWithMetadata (gs "f")
      (AList.insert metaKeyMode (gs "20000000000") ∅) 0 []).2).infos (.stat (gs "/f"))).map
        (fun fi => (fi.mode.isDir, fi.isDir)) = [(true, false)] := by decide
  refine ⟨hinfos, fun h => ?_⟩
  obtain ⟨fi, hfi, hbits⟩ := List.map_eq_singleton_iff.mp hinfos
  obtain ⟨hmode, hdir⟩ := Prod.mk.inj hbits
  have htyped := (h.1 fi (hfi ▸ List.mem_singleton_self fi)).mode
  rw [hmode, hdir] at htyped
  exact absurd (htyped.mp rfl) (by decide)

end S3Gateway
