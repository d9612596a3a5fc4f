import S3Gateway.Cache.MetadataHistory
import S3Gateway.S3fs.Resolve

/-!
# Read-after-close across sessions

`Close` of a writable file uploads it, drops what the metadata cache knows of it and
stores the attributes it has uploaded. Other sessions share the cache: `Stat`,
`OpenFile` and `Readdir` ask S3 and then store what they were told, in two separate
calls. Attributes that were asked for before the upload can therefore be stored after
`Close` has returned, and stay for as long as the entry lives
(`stale_entry_outlives_close`).

`stat_after_close` says that there is no other way to go wrong: if, once `Close` has
returned, no call stores other attributes for the file, a `Stat` that starts then
reports the size that was uploaded, whatever runs beside it. This takes for granted
that the file is not modified any more and that its path is not cached as a
directory.
-/

namespace S3Gateway

open Lib

/-! ## Sessions -/

/-- A call of another session. -/
inductive ReaderCall where
  | stat (path : GoString)
  | openFile (path : GoString) (flags : Nat)
  | readdir (f : S3File) (count : Int)

/-- What a call returns. -/
inductive CallResult where
  | closed (r : Except GoError Unit)
  | stat (r : Except GoError FileInfo)
  | openFile (r : Except GoError File)
  | readdir (r : Except GoError (List FileInfo))

def ReaderCall.program : ReaderCall → Gw CallResult
  | .stat path => do
    let r ← S3Gateway.stat path
    pure (.stat r)
  | .openFile path flags => do
    let r ← S3Gateway.openFile path flags
    pure (.openFile r)
  | .readdir f count => do
    let r ← f.readdir count
    pure (.readdir r)

/-- The size `Close` uploads. -/
def S3WritableFile.size (f : S3WritableFile) : Int := f.tmp.data.length

/-- The session that closes `f`. -/
def closing (f : S3WritableFile) : Gw CallResult := do
  let (r, _) ← f.close
  pure (.closed r)

/-- The services and the calls under way; call `0` is the `Close`. -/
abbrev Sessions := Pool Eff World CallResult

/-- What happens to them. -/
inductive SessionsEvent where
  | begin (call : ReaderCall)
  /-- Call `i` makes its next request. -/
  | next (i : Nat)
  /-- One round of `evictionLoop`. -/
  | evictExpired

namespace Sessions

/-- `f` is about to be closed. -/
def start (w : World) (f : S3WritableFile) : Sessions := ⟨w, [closing f]⟩

def step (g : Sessions) : SessionsEvent → Sessions
  | .begin call => g.spawn call.program
  | .next i => Pool.step World.handle g i
  | .evictExpired =>
    { g with shared := { g.shared.begin with
        cache := g.shared.cache.map (·.evictExpired g.shared.begin.clock) } }

/-- `Close` has returned `nil`. -/
def Closed (g : Sessions) : Prop := g.threads[0]? = some (.ret (.closed (.ok ())))

end Sessions

/-! ## What the cache says about a size -/

/-- The entry the metadata cache holds for a key. -/
def World.cachedEntry (w : World) (key : GoString) : Option CacheEntry :=
  w.cache.bind fun mc => mc.entryOf key

/-- An entry for the key that is no negative one has the size. -/
def World.SaysSize (w : World) (key : GoString) (size : Int) : Prop :=
  ∀ entry, w.cachedEntry key = some entry → entry.negative = true ∨ entry.size = size

/-- The call stores no attributes of the key with another size. -/
def Eff.AgreesOn {β : Type} (key : GoString) (size : Int) : Eff β → Prop
  | .putEntry s3Key entry => s3Key = key → entry.size = size
  | _ => True

/-- The call stores attributes of the key with the size. -/
def Eff.Refreshes {β : Type} (key : GoString) (size : Int) : Eff β → Prop
  | .putEntry s3Key entry => s3Key = key ∧ entry.size = size
  | _ => False

/-- No request of the event stores attributes of the key with another size. -/
def SessionsEvent.AgreesOn (key : GoString) (size : Int) (g : Sessions) : SessionsEvent → Prop
  | .next i => g.Next (fun _ e _ => e.AgreesOn key size) i
  | _ => True

/-- The metadata cache is well formed. -/
def World.CacheWF (w : World) : Prop := ∀ mc, w.cache = some mc → mc.WF

/-- Without faults, with an inode for the key, and with a well-formed cache. -/
structure World.Ready (key : GoString) (w : World) : Prop where
  noFaults : w.NoFaults
  inode : key ∈ w.handles.keyToInode
  wf : w.CacheWF

/-- The file `f` is in S3 as it was uploaded, and not cached as a directory. -/
structure World.Undisturbed (f : S3WritableFile) (w : World) : Prop where
  object : w.bucket.dataAt f.s3Key = some f.tmp.data
  noDir : w.SaysSize (s3DirKey f.s3Key) f.size

namespace MetadataCache

variable {mc : MetadataCache}

theorem WF.onCache (h : mc.WF) {β : Type} (e : Eff β) (now : Time) : (e.onCache now mc).WF := by
  have hholds : mc.Holds mc.config (fun _ _ => True) fun _ _ => True :=
    ⟨h, rfl, fun _ _ _ => trivial, fun _ _ _ => trivial⟩
  refine (hholds.onCache ?_).wf
  cases e <;> trivial

/-- What an entry is after a call: it was there before, is negative, or was stored. -/
theorem entryOf_onCache (h : mc.WF) {β : Type} {e : Eff β} {now : Time} {key : GoString}
    {size : Int} (he : e.AgreesOn key size) {entry : CacheEntry}
    (hentry : (e.onCache now mc).entryOf key = some entry) :
    mc.entryOf key = some entry ∨ entry.negative = true ∨ entry.size = size := by
  let J : GoString → CacheEntry → Prop := fun k entry => k = key →
    mc.entryOf key = some entry ∨ entry.negative = true ∨ entry.size = size
  have hholds : mc.Holds mc.config J fun _ _ => True :=
    ⟨h, rfl, fun k e he hk => Or.inl (hk ▸ he), fun _ _ _ => trivial⟩
  refine (hholds.onCache ?_).entry key entry hentry rfl
  cases e
  case putEntry k new => exact fun hk => Or.inr (Or.inr (he hk))
  case putNegative k => exact fun _ => Or.inr (Or.inl rfl)
  all_goals trivial

end MetadataCache

namespace World

variable {w : World} {key : GoString} {size : Int}

theorem CacheWF.handle (h : w.CacheWF) {β : Type} (e : Eff β) : (World.handle e w).2.CacheWF := by
  intro mc' hmc'
  rw [handle_cache] at hmc'
  obtain ⟨mc, hmc, rfl⟩ := Option.map_eq_some_iff.mp hmc'
  exact (h mc hmc).onCache e _

theorem Ready.handle (h : w.Ready key) {β : Type} {e : Eff β} (he : e.keepsInodes = true) :
    (World.handle e w).2.Ready key where
  noFaults := by
    intro n
    rw [handle_env]
    exact h.noFaults n
  inode := by
    rw [handle_handles]
    cases e
    case removeByKey => cases he
    case renameKey => cases he
    case getOrCreateInode s3Key => exact (w.handles.creates s3Key _).mem_keyToInode h.inode
    all_goals exact h.inode
  wf := h.wf.handle e

theorem cached_handle {β : Type} (e : Eff β) (w : World) :
    (World.handle e w).2.cachedEntry key
      = w.cache.bind fun mc => (e.onCache w.begin.clock mc).entryOf key := by
  rw [cachedEntry, handle_cache]
  exact Option.bind_map ..

theorem SaysSize.handle (h : w.SaysSize key size) (hr : w.CacheWF)
    {β : Type} {e : Eff β} (he : e.AgreesOn key size) :
    (World.handle e w).2.SaysSize key size := by
  intro entry hentry
  rw [cached_handle] at hentry
  obtain ⟨mc, hmc, hentry⟩ := Option.bind_eq_some_iff.mp hentry
  rcases MetadataCache.entryOf_onCache (hr mc hmc) he hentry with hold | hnew
  · refine h entry ?_
    rw [cachedEntry, hmc]
    exact hold
  · exact hnew

/-- Storing the size makes the cache say it. -/
theorem saysSize_of_refreshes (hr : w.CacheWF) {β : Type} {e : Eff β}
    (he : e.Refreshes key size) : (World.handle e w).2.SaysSize key size := by
  cases e
  case putEntry s3Key new =>
    obtain ⟨rfl, rfl⟩ := he
    intro entry hentry
    rw [cached_handle] at hentry
    obtain ⟨mc, hmc, hentry⟩ := Option.bind_eq_some_iff.mp hentry
    obtain ⟨-, -, -, hnew, -⟩ := MetadataCache.store_spec (hr mc hmc) s3Key
      { new with cachedAt := w.begin.clock, negative := false }
    cases hnew.symm.trans hentry
    exact Or.inr rfl
  all_goals cases he

theorem cached_of_getEntry {entry : CacheEntry}
    (h : (World.handle (.getEntry key) w).1 = some entry) : w.cachedEntry key = some entry := by
  obtain ⟨mc, hmc, hhit⟩ := getEntry_some h
  exact Option.bind_eq_some_iff.mpr ⟨mc, hmc, (MetadataCache.getEntry_hit hhit).1⟩

end World

/-! ## A `Stat` that starts after `Close` -/

/-- `f` has been uploaded, and the cache says nothing else. -/
structure World.Settled (f : S3WritableFile) (w : World) : Prop where
  ready : w.Ready f.s3Key
  undisturbed : w.Undisturbed f
  file : w.SaysSize f.s3Key f.size

section Stat

variable {f : S3WritableFile}

theorem World.Settled.handle {w : World} (h : w.Settled f) {β : Type} {e : Eff β}
    (hkeep : e.keepsInodes = true) (hwrite : e.writesBucket = false)
    (hfile : e.AgreesOn f.s3Key f.size)
    (hdir : e.AgreesOn (s3DirKey f.s3Key) f.size) :
    (World.handle e w).2.Settled f where
  ready := h.ready.handle hkeep
  undisturbed := by
    constructor
    · rw [World.handle_bucket hwrite]
      exact h.undisturbed.object
    · exact h.undisturbed.noDir.handle h.ready.wf hdir
  file := h.file.handle h.ready.wf hfile

/-- `φ` holds of the program's result, whatever runs beside it while `f` stays
settled; and the program leaves `f` settled. -/
abbrev Settles (f : S3WritableFile) {α : Type} (φ : α → Prop) (p : Gw α) : Prop :=
  Prog.Safe World.handle (World.Settled f) φ p

theorem settles_getOrCreateInode (key : GoString) :
    Settles f (fun r => key = f.s3Key → ∃ inode, r = .ok inode)
      (Prog.call (.getOrCreateInode key)) := by
  refine Prog.safe_call fun w hw => ⟨hw.handle rfl rfl trivial trivial, ?_⟩
  rintro rfl
  obtain ⟨inode, hi⟩ := (GoMap.mem_iff_lookup _ _).mp hw.ready.inode
  refine ⟨inode, ?_⟩
  show (w.handles.getOrCreateInode f.s3Key _).1 = .ok inode
  rw [HandleStore.getOrCreateInode, HandleStore.getInode, hi]

/-- A hit has the size. -/
theorem settles_cacheGet {key : GoString} (hkey : key = f.s3Key ∨ key = s3DirKey f.s3Key) :
    Settles f (fun r => ∀ fi, r = some (some fi) → fi.size = f.size)
      (cacheGet key) := by
  have hget : Settles f (fun r => ∀ entry, r = some entry →
      entry.negative = true ∨ entry.size = f.size) (Prog.call (.getEntry key)) := by
    refine Prog.safe_call fun w hw => ⟨hw.handle rfl rfl trivial trivial, fun entry hr => ?_⟩
    have hcached := World.cached_of_getEntry hr
    rcases hkey with rfl | rfl
    · exact hw.file entry hcached
    · exact hw.undisturbed.noDir entry hcached
  refine Prog.safe_bind hget fun r hr => ?_
  cases r with
  | none => exact Prog.safe_pure fun fi hfi => by cases hfi
  | some entry =>
    dsimp only
    split
    · exact Prog.safe_pure fun fi hfi => by cases hfi
    · next hneg =>
      refine Prog.safe_bind (settles_getOrCreateInode key) fun r _ => ?_
      cases r with
      | error _ => exact Prog.safe_pure fun fi hfi => by cases hfi
      | ok inode =>
        refine Prog.safe_pure fun fi hfi => ?_
        cases hfi
        exact (hr entry rfl).resolve_left hneg

/-- S3 has the file. -/
theorem settles_headObject :
    Settles f (fun r => ∃ info, r = .ok info ∧ info.size = f.size)
      (Prog.call (.headObject f.s3Key)) := by
  refine Prog.safe_call fun w hw => ⟨hw.handle rfl rfl trivial trivial, ?_⟩
  obtain ⟨o, ho, hdata⟩ := Option.map_eq_some_iff.mp hw.undisturbed.object
  refine ⟨⟨f.s3Key, o.data.length, o.lastModified, o.etag, false, o.userMetadata⟩, ?_, ?_⟩
  · show World.answer w.outcome (w.bucket.headObject f.s3Key) = _
    rw [World.answer, hw.ready.noFaults.outcome, Bucket.headObject, ho]
    rfl
  · rw [S3WritableFile.size, ← hdata]

theorem settles_statS3 {path : GoString} :
    Settles f (fun r => ∃ info, r = .ok info ∧ info.size = f.size)
      (statS3 path f.s3Key (s3DirKey f.s3Key)) := by
  refine Prog.safe_bind settles_headObject fun r hr => ?_
  obtain ⟨objInfo, rfl, hsize⟩ := hr
  refine Prog.safe_bind (settles_getOrCreateInode f.s3Key) fun r hr => ?_
  obtain ⟨inode, rfl⟩ := hr rfl
  refine Prog.safe_bind (φ := fun _ => True) (Prog.safe_call fun w hw => ⟨?_, trivial⟩)
    fun _ _ => ?_
  · exact hw.handle rfl rfl (fun _ => hsize) fun _ => hsize
  · exact Prog.safe_pure ⟨_, rfl, hsize⟩

theorem settles_stat {path : GoString} (hpath : s3KeyFromPath path = f.s3Key)
    (hne : f.s3Key ≠ []) :
    Settles f (fun r => ∃ info, r = .ok info ∧ info.size = f.size)
      (S3Gateway.stat path) := by
  unfold S3Gateway.stat
  dsimp only
  rw [hpath, if_neg hne]
  refine Prog.safe_bind (settles_cacheGet (Or.inl rfl)) fun r hr => ?_
  have hdir : Settles f (fun r => ∃ info, r = .ok info ∧ info.size = f.size)
      (statDir path f.s3Key (s3DirKey f.s3Key)) := by
    refine Prog.safe_bind (settles_cacheGet (Or.inr rfl)) fun r hr => ?_
    rcases r with _ | _ | fi
    · exact settles_statS3
    · exact settles_statS3
    · exact Prog.safe_pure ⟨_, rfl, hr fi rfl⟩
  rcases r with _ | _ | fi
  · exact hdir
  · exact hdir
  · exact Prog.safe_pure ⟨_, rfl, hr fi rfl⟩

end Stat

/-! ## The run up to the `Stat` -/

theorem PlainCalls.keepsInodes {α : Type} {p : Gw α} (hp : PlainCalls p) :
    p.Only fun _ e => e.keepsInodes = true :=
  hp.mono fun _ he => Eff.keepsInodes_of_plain he

theorem keepsInodes_readdirList (pfx : GoString) (entries : List ListEntry)
    (infos : List FileInfo) (cached : List CacheEntry) :
    (S3File.readdirList pfx entries infos cached).Only fun _ e => e.keepsInodes = true := by
  induction entries generalizing infos cached with
  | nil => exact Prog.only_pure _
  | cons entry entries ih =>
    unfold S3File.readdirList
    dsimp only
    split
    · exact ih _ _
    · refine Prog.only_bind (Prog.only_call rfl) fun r => ?_
      cases r with
      | error err => exact Prog.only_pure _
      | ok inode =>
        refine Prog.only_bind (plain_entryMeta _ _).keepsInodes fun userMeta => ?_
        exact Prog.only_bind (Prog.only_call rfl) fun _ => ih _ _

theorem keepsInodes_readdir (f : S3File) (count : Int) :
    (f.readdir count).Only fun _ e => e.keepsInodes = true := by
  unfold S3File.readdir
  split
  · exact Prog.only_pure _
  · refine Prog.only_bind (Prog.only_call rfl) fun r => ?_
    cases r with
    | some cachedEntries =>
      exact Prog.only_bind (plain_readdirCached _ _).keepsInodes fun _ => Prog.only_pure _
    | none =>
      refine Prog.only_bind (Prog.only_call rfl) fun r => ?_
      cases r with
      | error err => exact Prog.only_pure _
      | ok entries =>
        refine Prog.only_bind (keepsInodes_readdirList _ _ _ _) fun r => ?_
        rcases r with err | ⟨infos, cached⟩
        · exact Prog.only_pure _
        · exact Prog.only_bind (Prog.only_call rfl) fun _ => Prog.only_pure _

/-- No call of another session takes a key out of the handle store. -/
theorem keepsInodes_program (call : ReaderCall) :
    call.program.Only fun _ e => e.keepsInodes = true := by
  cases call with
  | stat path => exact Prog.only_bind (plain_stat path).keepsInodes fun _ => Prog.only_pure _
  | openFile path flags =>
    exact Prog.only_bind (plain_openFile path flags).keepsInodes fun _ => Prog.only_pure _
  | readdir f count => exact Prog.only_bind (keepsInodes_readdir f count) fun _ => Prog.only_pure _

theorem keepsInodes_closing (f : S3WritableFile) :
    (closing f).Only fun _ e => e.keepsInodes = true :=
  Prog.only_bind (plain_close f).keepsInodes fun _ => Prog.only_pure _

/-- The last thing `Close` does before it returns `nil` is to store the size. -/
theorem endsWith_closing {f : S3WritableFile} (hopen : f.closed = false) :
    (closing f).EndsWith (fun _ e => e.Refreshes f.s3Key f.size)
      (fun r => r = .closed (.ok ())) := by
  unfold closing S3WritableFile.close
  rw [hopen]
  intro r
  cases r with
  | error err =>
    refine ⟨?_, trivial⟩
    rintro a ha rfl
    cases ha
  | ok _ =>
    -- three invalidations and the clock come before the refresh
    have hop : ∀ {β : Type} {e : Eff β} {k : β → Gw CallResult} {a : CallResult} {P : Prop},
        Prog.op e k = .ret a → P := fun h => (by cases h)
    exact ⟨fun _ ha => hop ha, fun _ => ⟨fun _ ha => hop ha, fun _ => ⟨fun _ ha => hop ha,
      fun _ => ⟨fun _ ha => hop ha, fun _ => ⟨fun _ ha => hop ha,
        fun _ => ⟨fun _ _ _ => ⟨rfl, rfl⟩, trivial⟩⟩⟩⟩⟩⟩

namespace Sessions

/-- What is true whenever `Close` may still be running: the services are ready, the
calls keep them so, `Close` will end with its refresh, and once it has, the cache says
the size. -/
structure Inv (f : S3WritableFile) (g : Sessions) : Prop where
  ready : g.shared.Ready f.s3Key
  keeps : ∀ p ∈ g.threads, p.Only fun _ e => e.keepsInodes = true
  close : ∃ p, g.threads[0]? = some p ∧
    p.EndsWith (fun _ e => e.Refreshes f.s3Key f.size) (fun r => r = .closed (.ok ()))
  refreshed : g.Closed → g.shared.SaysSize f.s3Key f.size

variable {f : S3WritableFile} {g : Sessions}

theorem inv_start {w : World} (hw : w.Ready f.s3Key) (hopen : f.closed = false) :
    (start w f).Inv f where
  ready := hw
  keeps := by
    intro p hp
    rw [List.mem_singleton.mp hp]
    exact keepsInodes_closing f
  close := ⟨_, rfl, endsWith_closing hopen⟩
  refreshed := by
    intro hclosed
    have hret : closing f = .ret (.closed (.ok ())) := Option.some.inj hclosed
    unfold closing S3WritableFile.close at hret
    rw [hopen] at hret
    cases hret

theorem inv_next (h : g.Inv f) (i : Nat)
    (hagree : g.Closed → (SessionsEvent.next i).AgreesOn f.s3Key f.size g) :
    Inv f (Pool.step World.handle g i) := by
  rcases g.step_cases World.handle i with ⟨heq, -⟩ | ⟨β, e, k, hi, heq⟩
  · rw [heq]
    exact h
  · obtain ⟨p, hp, hend⟩ := h.close
    have hkeep := h.keeps _ (List.mem_of_getElem? hi)
    have hwf := h.ready.wf
    refine ⟨?_, ?_, ?_, ?_⟩
    · rw [heq]
      exact h.ready.handle hkeep.1
    · rw [heq]
      intro q hq
      rcases List.mem_or_eq_of_mem_set hq with hq | rfl
      · exact h.keeps q hq
      · exact hkeep.2 _
    · by_cases h0 : i = 0
      · subst h0
        rw [hi] at hp
        cases hp
        refine ⟨k (World.handle e g.shared).1, ?_, (hend _).2⟩
        rw [heq]
        exact List.getElem?_set_self (List.getElem?_eq_some_iff.mp hi).1
      · refine ⟨p, ?_, hend⟩
        rw [heq]
        exact (List.getElem?_set_ne h0).trans hp
    · intro hclosed
      rw [heq] at hclosed ⊢
      by_cases h0 : i = 0
      · -- the refresh itself
        subst h0
        rw [hi] at hp
        cases hp
        have hret : some (k (World.handle e g.shared).1) = some (.ret (.closed (.ok ()))) :=
          (List.getElem?_set_self (List.getElem?_eq_some_iff.mp hi).1).symm.trans hclosed
        exact World.saysSize_of_refreshes hwf ((hend _).1 _ (Option.some.inj hret) rfl)
      · have hclosed : g.Closed := (List.getElem?_set_ne h0).symm.trans hclosed
        have hnext : g.Next (fun _ e _ => e.AgreesOn f.s3Key f.size) i := hagree hclosed
        exact (h.refreshed hclosed).handle hwf (hnext.of_op hi)

theorem inv_step (h : g.Inv f) (e : SessionsEvent)
    (hagree : g.Closed → e.AgreesOn f.s3Key f.size g) : (g.step e).Inv f := by
  cases e with
  | next i => exact inv_next h i hagree
  | begin call =>
    obtain ⟨p, hp, hend⟩ := h.close
    have hfirst : (g.threads ++ [call.program])[0]? = g.threads[0]? :=
      List.getElem?_append_left (List.getElem?_eq_some_iff.mp hp).1
    refine ⟨h.ready, fun q hq => ?_, ⟨p, hfirst.trans hp, hend⟩, fun hclosed => ?_⟩
    · rcases List.mem_append.mp hq with hq | hq
      · exact h.keeps q hq
      · rw [List.mem_singleton.mp hq]
        exact keepsInodes_program call
    · exact h.refreshed (hfirst.symm.trans hclosed)
  | evictExpired =>
    refine ⟨⟨h.ready.noFaults, h.ready.inode, fun mc' hmc' => ?_⟩, h.keeps, h.close,
      fun hclosed entry hentry => ?_⟩
    · obtain ⟨mc, hmc, rfl⟩ := Option.map_eq_some_iff.mp hmc'
      exact (MetadataCache.evictExpired_spec (h.ready.wf mc hmc) _).1
    · obtain ⟨mc', hmc', hentry⟩ := Option.bind_eq_some_iff.mp hentry
      obtain ⟨mc, hmc, rfl⟩ := Option.map_eq_some_iff.mp hmc'
      refine h.refreshed hclosed entry ?_
      rw [World.cachedEntry, hmc]
      exact (MetadataCache.evictExpired_spec (h.ready.wf mc hmc) _).2.entry _ _ hentry

/-! ## The run from there on -/

theorem closed_step (h : g.Closed) (e : SessionsEvent) : (g.step e).Closed := by
  cases e with
  | next i => exact Pool.getElem?_step_of_ret h
  | begin call => exact (List.getElem?_append_left (List.getElem?_eq_some_iff.mp h).1).trans h
  | evictExpired => exact h

/-- Call `m` is a `Stat` of the file that started after `Close` had returned. -/
structure StatInv (f : S3WritableFile) (m : Nat) (g : Sessions) : Prop where
  inv : g.Inv f
  closed : g.Closed
  stat : ∃ p, g.threads[m]? = some p ∧
    Settles f (fun r => ∃ info, r = .stat (.ok info) ∧ info.size = f.size) p

theorem StatInv.settled {m : Nat} (h : g.StatInv f m) (hund : g.shared.Undisturbed f) :
    g.shared.Settled f :=
  ⟨h.inv.ready, hund, h.inv.refreshed h.closed⟩

theorem StatInv.step {m : Nat} (h : g.StatInv f m) (hund : g.shared.Undisturbed f)
    {e : SessionsEvent} (hagree : e.AgreesOn f.s3Key f.size g) : (g.step e).StatInv f m := by
  refine ⟨inv_step h.inv e fun _ => hagree, closed_step h.closed e, ?_⟩
  obtain ⟨p, hp, hsafe⟩ := h.stat
  cases e with
  | begin call =>
    exact ⟨p, (List.getElem?_append_left (List.getElem?_eq_some_iff.mp hp).1).trans hp, hsafe⟩
  | evictExpired => exact ⟨p, hp, hsafe⟩
  | next i =>
    show ∃ p, (Pool.step World.handle g i).threads[m]? = some p ∧ _
    rcases g.step_cases World.handle i with ⟨heq, -⟩ | ⟨β, e, k, hi, heq⟩
    · rw [heq]
      exact ⟨p, hp, hsafe⟩
    · rw [heq]
      by_cases him : i = m
      · -- its own request
        subst him
        rw [hi] at hp
        cases hp
        exact ⟨_, List.getElem?_set_self (List.getElem?_eq_some_iff.mp hi).1,
          (hsafe _ (h.settled hund)).2⟩
      · exact ⟨p, (List.getElem?_set_ne him).trans hp, hsafe⟩

theorem StatInv.run {m : Nat} {events : List SessionsEvent} (h : g.StatInv f m)
    (hagree : EachStep Sessions.step (fun g e => g.Closed → e.AgreesOn f.s3Key f.size g) g events)
    (hund : Throughout Sessions.step (fun g => g.Closed → g.shared.Undisturbed f) g events) :
    (events.foldl Sessions.step g).StatInv f m := by
  induction events generalizing g with
  | nil => exact h
  | cons e events ih =>
    exact ih (h.step (hund.1 h.closed) (hagree.1 h.closed)) hagree.2 hund.2

/-- If no call stores other attributes for a file once its `Close` has returned `nil`,
and the file stays as it is and is not cached as a directory, then every `Stat` that
starts then and returns reports the size `Close` uploaded. -/
theorem stat_after_close (w : World) (f : S3WritableFile) (hopen : f.closed = false)
    (hready : w.Ready f.s3Key) (path : GoString) (hpath : s3KeyFromPath path = f.s3Key)
    (before after : List SessionsEvent)
    (hclosed : (before.foldl step (start w f)).Closed)
    (hagree : EachStep step (fun g e => g.Closed → e.AgreesOn f.s3Key f.size g) (start w f)
      (before ++ .begin (.stat path) :: after))
    (hund : Throughout step (fun g => g.Closed → g.shared.Undisturbed f) (start w f)
      (before ++ .begin (.stat path) :: after)) :
    ∀ r, ((before ++ .begin (.stat path) :: after).foldl step (start w f)).threads[
        (before.foldl step (start w f)).threads.length]? = some (.ret r) →
      ∃ info, r = .stat (.ok info) ∧ info.size = f.size := by
  obtain ⟨hbefore, hagree⟩ := EachStep.append.mp hagree
  have hund := hund.drop
  have hinv : (before.foldl step (start w f)).Inv f :=
    (throughout_of_eachStep (P := Inv f) (fun _ e h hC => inv_step h e hC) (fun _ h => h)
      (inv_start hready hopen) hbefore).last
  rw [List.foldl_append, List.foldl_cons]
  generalize before.foldl step (start w f) = g at *
  have hne : f.s3Key ≠ [] := by
    intro hnil
    have hobject := (hund.head hclosed).object
    rw [hnil, Bucket.dataAt, Bucket.get_nil] at hobject
    cases hobject
  have hstat : (g.step (.begin (.stat path))).StatInv f g.threads.length := by
    refine ⟨inv_step hinv _ hagree.1, closed_step hclosed _, (ReaderCall.stat path).program, ?_, ?_⟩
    · exact List.getElem?_concat_length
    · refine Prog.safe_bind (settles_stat hpath hne) fun r hr => ?_
      obtain ⟨info, rfl, hsize⟩ := hr
      exact Prog.safe_pure ⟨info, rfl, hsize⟩
  intro r hr
  obtain ⟨p, hp, hsafe⟩ := (hstat.run hagree.2 hund.2).stat
  cases hr.symm.trans hp
  exact hsafe

/-- A file of one byte has been opened for writing. -/
def opened : World := ((openFile (gs "/f") oRDWR).run World.handle (.start (.onlyF [1] []))).2

/-- Its two new bytes are about to be uploaded. -/
def rewritten : S3WritableFile where
  path := gs "/f"
  s3Key := gs "f"
  info := newFileInfoFromS3 (gs "f") 1 0 false 2 ∅
  tmp := ⟨[1, 2], 2⟩
  downloaded := true
  closed := false

theorem ready_opened : opened.Ready rewritten.s3Key where
  noFaults := by
    intro n
    unfold opened
    rfl
  inode := by decide
  wf := by
    refine Prog.run_preserves (I := World.CacheWF) (fun e _ h => h.handle e) _ ?_
    intro mc hmc
    cases hmc
    exact MetadataCache.wf_newMetadataCache _

theorem undisturbed_of_cached {w : World} (hdata : w.bucket.dataAt f.s3Key = some f.tmp.data)
    (hdir : w.cachedEntry (s3DirKey f.s3Key) = none) : w.Undisturbed f := by
  refine ⟨hdata, fun entry hentry => ?_⟩
  rw [hdir] at hentry
  cases hentry

/-- Nothing runs beside `Close` and `Stat`. -/
theorem stat_after_close_alone :
    ∃ info, ([.next 0, .next 0, .next 0, .next 0, .next 0, .next 0, .begin (.stat (gs "/f")),
        .next 1, .next 1].foldl step (start opened rewritten)).threads[1]?
          = some (.ret (.stat (.ok info))) ∧
      info.size = rewritten.size := by
  obtain ⟨info, hinfo, hsize⟩ := stat_after_close opened rewritten rfl ready_opened (gs "/f")
    (by decide) [.next 0, .next 0, .next 0, .next 0, .next 0, .next 0] [.next 1, .next 1] rfl
    ⟨fun _ => trivial, fun _ => trivial, fun _ => trivial, fun _ => trivial, fun _ => trivial,
      fun _ _ => rfl, fun _ => trivial, fun _ => trivial, fun _ => trivial, trivial⟩
    ⟨fun h => (by cases h), fun h => (by cases h), fun h => (by cases h), fun h => (by cases h),
      fun h => (by cases h), fun h => (by cases h),
      fun _ => undisturbed_of_cached (by decide) (by decide),
      fun _ => undisturbed_of_cached (by decide) (by decide),
      fun _ => undisturbed_of_cached (by decide) (by decide),
      fun _ => undisturbed_of_cached (by decide) (by decide)⟩ _ rfl
  cases hinfo
  exact ⟨_, rfl, hsize⟩

/-- Another session opens the file: it asks S3 before the upload and stores the answer
after `Close` has returned. The next `Stat` reports the old size. -/
theorem stale_entry_outlives_close :
    let g := [.begin (.openFile (gs "/f") oRDONLY), .next 1, .next 0, .next 0, .next 0, .next 0,
      .next 0, .next 0, .next 1, .next 1].foldl step (start opened rewritten)
    let g' := [.begin (.stat (gs "/f")), .next 2, .next 2].foldl step g
    g.Closed ∧ g'.shared.bucket.dataAt (gs "f") = some rewritten.tmp.data ∧
      ∃ info, g'.threads[2]? = some (.ret (.stat (.ok info))) ∧ info.size ≠ rewritten.size := by
  refine ⟨rfl, by decide, _, rfl, ?_⟩
  decide

end Sessions

end S3Gateway
