import S3Gateway.Lib.Run
import S3Gateway.S3fs.Summary
import S3Gateway.S3fs.XattrKeys

/-!
# Extended attributes on a backend that changes the case of keys

S3 servers may return user-metadata keys in another case than they were written
in. `CaseFolding.Recasing` is any such behaviour: every key comes back under a key
that folds to it, and where keys become equal any of their values may survive.
`World.recasing` are the services of `World` with it in front of `HeadObject`.

An attribute then lives in whichever key of the metadata decodes to its name
(`shortFromMetaKey_eq_some`). `Slots` is the invariant: every live name has exactly
one such key, and it holds the last value set. Reads, `RemoveXattr`, and `SetXattr`
of a new name keep it. `SetXattr` of a live name writes the key in its own spelling
and leaves the old one beside it unless they are spelled alike: `recased_iff` says
that this is the only way a run goes wrong.
-/

namespace S3Gateway

open Lib

/-! ## Backends that change the case of keys -/

/-- `strings.EqualFold`, of which only this is used: that it is reflexive and
symmetric, and that it is `equalFold` where one of the strings is `AsciiFold`. -/
structure CaseFolding where
  Equal : GoString → GoString → Prop
  refl : ∀ s, Equal s s
  symm : ∀ s t, Equal s t → Equal t s
  ascii_fold : ∀ s t, AsciiFold t → (Equal s t ↔ equalFold s t = true)

/-- The folding that ignores the case of ASCII letters only. -/
def CaseFolding.ascii : CaseFolding where
  Equal s t := equalFold s t = true
  refl _ := equalFold_iff.mpr rfl
  symm _ _ h := equalFold_iff.mpr (equalFold_iff.mp h).symm
  ascii_fold _ _ _ := Iff.rfl

namespace CaseFolding

variable {F : CaseFolding}

/-- Keys that fold to each other belong to the same attribute. -/
theorem shortFromMetaKey_eq {key key' : GoString} (h : F.Equal key' key) :
    shortFromMetaKey key' = shortFromMetaKey key := by
  have hsame : ∀ {k k' name}, F.Equal k k' → shortFromMetaKey k' = some name →
      shortFromMetaKey k = some name := by
    intro k k' name heq hk'
    obtain ⟨hne, hfold⟩ := shortFromMetaKey_eq_some.mp hk'
    have hfold' := asciiFold_of_equalFold hfold (asciiFold_xattrSlot name)
    have hkk' := equalFold_iff.mp ((F.ascii_fold k k' hfold').mp heq)
    exact shortFromMetaKey_eq_some.mpr
      ⟨hne, equalFold_iff.mpr (hkk'.trans (equalFold_iff.mp hfold))⟩
  cases hk : shortFromMetaKey key with
  | some name => exact hsame h hk
  | none =>
    cases hk' : shortFromMetaKey key' with
    | none => rfl
    | some name =>
      rw [hsame (F.symm _ _ h) hk'] at hk
      cases hk

/-- `returned` is `stored` with its keys in another case. Each key comes back; of
keys that become equal any value may survive. -/
def Recased (F : CaseFolding) (stored returned : Metadata) : Prop :=
  ∃ recase : GoString → GoString,
    (∀ key ∈ stored, F.Equal (recase key) key ∧ recase key ∈ returned) ∧
    ∀ key' v, returned.lookup key' = some v →
      ∃ key, stored.lookup key = some v ∧ recase key = key'

/-- What a backend does to the metadata it returns. -/
structure Recasing (F : CaseFolding) where
  apply : Metadata → Metadata
  recased : ∀ userMeta, F.Recased userMeta (apply userMeta)

/-- A backend that returns keys as they were written. -/
def Recasing.asWritten (F : CaseFolding) : F.Recasing where
  apply userMeta := userMeta
  recased _ := ⟨id, fun key hkey => ⟨F.refl key, hkey⟩, fun key' _ hv => ⟨key', hv, rfl⟩⟩

theorem toLower_toLower (c : UInt8) : toLower (toLower c) = toLower c := by
  unfold toLower
  grind

/-- A backend that returns keys in lower case. -/
def Recasing.lowered : ascii.Recasing where
  apply userMeta := userMeta.entries.foldl (fun (m : Metadata) kv =>
    m.insert (kv.1.map toLower) kv.2) ∅
  recased userMeta := by
    refine ⟨fun key => key.map toLower, fun key hkey => ⟨?_, ?_⟩, fun key' v hv => ?_⟩
    · refine equalFold_iff.mpr ?_
      rw [List.map_map]
      exact List.map_congr_left fun c _ => toLower_toLower c
    · obtain ⟨v, hv⟩ := (GoMap.mem_iff_lookup _ _).mp hkey
      exact GoMap.mem_foldl_insert _ _ _ _ (Or.inl ⟨⟨key, v⟩, AList.mem_lookup_iff.mp hv, rfl⟩)
    · rcases GoMap.of_lookup_foldl_insert _ _ _ _ hv with ⟨kv, hkv, rfl, rfl⟩ | hv
      · exact ⟨kv.1, GoMap.lookup_eq_of_mem_entries hkv, rfl⟩
      · cases hv

end CaseFolding

/-- `HeadObject` on a backend that changes the case of keys. -/
def ObjectInfo.recased (recase : Metadata → Metadata) (info : ObjectInfo) : ObjectInfo :=
  { info with userMetadata := recase info.userMetadata }

/-- The services, with a backend that changes the case of keys. -/
def World.recasing (recase : Metadata → Metadata) : Handler Eff World := fun e w =>
  match e with
  | .headObject key =>
    let (r, w) := World.handle (.headObject key) w
    (r.map (ObjectInfo.recased recase), w)
  | e => World.handle e w

/-! ## The invariant -/

/-- Each live name has exactly one key, with the value last set. -/
structure Slots (userMeta : Metadata) (live : GoMap GoString Bytes) : Prop where
  sound : ∀ key v name, userMeta.lookup key = some v → shortFromMetaKey key = some name →
    ∃ value, live.lookup name = some value ∧ v = base64Encode value
  complete : ∀ name ∈ live, ∃ key ∈ userMeta, shortFromMetaKey key = some name
  once : ∀ key ∈ userMeta, ∀ key' ∈ userMeta, ∀ name, shortFromMetaKey key = some name →
    shortFromMetaKey key' = some name → key = key'

namespace Slots

variable {F : CaseFolding} {userMeta : Metadata} {live : GoMap GoString Bytes} {name : GoString}

theorem initial (h : ∀ key ∈ userMeta, shortFromMetaKey key = none) : Slots userMeta ∅ := by
  have hno : ∀ {key name}, key ∈ userMeta → shortFromMetaKey key ≠ some name := by
    intro key name hkey hname
    rw [h key hkey] at hname
    cases hname
  refine ⟨fun key v name hv hname => ?_, fun name hname => ?_, fun key hkey _ _ name hname _ => ?_⟩
  · exact absurd hname (hno ((GoMap.mem_iff_lookup _ _).mpr ⟨v, hv⟩))
  · exact absurd hname (AList.notMem_empty name)
  · exact absurd hname (hno hkey)

/-- Changing the case of keys moves no attribute. -/
theorem recased (h : Slots userMeta live) {returned : Metadata}
    (hre : F.Recased userMeta returned) : Slots returned live := by
  obtain ⟨recase, hkeys, hvalues⟩ := hre
  -- a returned key goes back to a stored one of the same attribute
  have hback : ∀ key' v, returned.lookup key' = some v → ∃ key, userMeta.lookup key = some v ∧
      recase key = key' ∧ shortFromMetaKey key' = shortFromMetaKey key := by
    intro key' v hv
    obtain ⟨key, hkey, rfl⟩ := hvalues key' v hv
    have hmem := (GoMap.mem_iff_lookup _ _).mpr ⟨v, hkey⟩
    exact ⟨key, hkey, rfl, CaseFolding.shortFromMetaKey_eq (hkeys key hmem).1⟩
  refine ⟨fun key' v name hv hname => ?_, fun name hname => ?_, ?_⟩
  · obtain ⟨key, hkey, -, hshort⟩ := hback key' v hv
    exact h.sound key v name hkey (hshort ▸ hname)
  · obtain ⟨key, hkey, hshort⟩ := h.complete name hname
    obtain ⟨heq, hmem⟩ := hkeys key hkey
    exact ⟨recase key, hmem, (CaseFolding.shortFromMetaKey_eq heq).trans hshort⟩
  · intro key₁ hkey₁ key₂ hkey₂ name hname₁ hname₂
    obtain ⟨v₁, hv₁⟩ := (GoMap.mem_iff_lookup _ _).mp hkey₁
    obtain ⟨v₂, hv₂⟩ := (GoMap.mem_iff_lookup _ _).mp hkey₂
    obtain ⟨k₁, hk₁, rfl, hshort₁⟩ := hback key₁ v₁ hv₁
    obtain ⟨k₂, hk₂, rfl, hshort₂⟩ := hback key₂ v₂ hv₂
    rw [h.once k₁ ((GoMap.mem_iff_lookup _ _).mpr ⟨v₁, hk₁⟩) k₂
      ((GoMap.mem_iff_lookup _ _).mpr ⟨v₂, hk₂⟩) name (hshort₁ ▸ hname₁) (hshort₂ ▸ hname₂)]

/-- A lookup finds the value of a live name, and nothing for any other. -/
theorem findXattr (h : Slots userMeta live) (hne : name ≠ []) :
    S3Gateway.findXattr userMeta (xattrSlot name) = (live.lookup name).map base64Encode := by
  have hslot : ∀ {key}, equalFold key (xattrSlot name) = true →
      shortFromMetaKey key = some name := fun hfold => shortFromMetaKey_eq_some.mpr ⟨hne, hfold⟩
  -- whatever key is found, its value is the live one
  have hvalue : ∀ key v, userMeta.lookup key = some v → equalFold key (xattrSlot name) = true →
      some v = (live.lookup name).map base64Encode := by
    intro key v hv hfold
    obtain ⟨value, hlive, rfl⟩ := h.sound key v name hv (hslot hfold)
    rw [hlive]
    rfl
  unfold S3Gateway.findXattr
  split
  · next v hv => exact hvalue _ v hv (equalFold_iff.mpr rfl)
  · cases hfind : userMeta.entries.find? fun kv => equalFold kv.1 (xattrSlot name) with
    | some kv =>
      have hmem := List.mem_of_find?_eq_some hfind
      have hfold := List.find?_some hfind
      exact hvalue kv.1 kv.2 (GoMap.lookup_eq_of_mem_entries hmem) hfold
    | none =>
      cases hlive : live.lookup name with
      | none => rfl
      | some value =>
        obtain ⟨key, hkey, hshort⟩ := h.complete name ((GoMap.mem_iff_lookup _ _).mpr ⟨_, hlive⟩)
        obtain ⟨v, hv⟩ := (GoMap.mem_iff_lookup _ _).mp hkey
        have hmem := AList.mem_lookup_iff.mp hv
        exact absurd (shortFromMetaKey_eq_some.mp hshort).2 (List.find?_eq_none.mp hfind _ hmem)

/-- Setting a name that is not live, or whose key has the spelling being written. -/
theorem insert (h : Slots userMeta live) (hne : name ≠ []) (value : Bytes)
    (hkey : name ∈ live → xattrSlot name ∈ userMeta) :
    Slots (userMeta.insert (xattrSlot name) (base64Encode value)) (live.insert name value) := by
  have hslot : shortFromMetaKey (xattrSlot name) = some name :=
    shortFromMetaKey_eq_some.mpr ⟨hne, equalFold_iff.mpr rfl⟩
  -- any key of this attribute is the one being written
  have honly : ∀ key ∈ userMeta, shortFromMetaKey key = some name → key = xattrSlot name := by
    intro key hmem hshort
    obtain ⟨v, hv⟩ := (GoMap.mem_iff_lookup _ _).mp hmem
    obtain ⟨value', hlive, -⟩ := h.sound key v name hv hshort
    have hin := hkey ((GoMap.mem_iff_lookup _ _).mpr ⟨value', hlive⟩)
    exact h.once key hmem _ hin name hshort hslot
  refine ⟨fun key v name' hv hname' => ?_, fun name' hname' => ?_, ?_⟩
  · rw [GoMap.lookup_insert_ite] at hv ⊢
    split at hv
    · next heq =>
      cases hv
      rw [heq, hslot] at hname'
      cases hname'
      exact ⟨value, if_pos rfl, rfl⟩
    · next hne' =>
      rw [if_neg]
      · exact h.sound key v name' hv hname'
      · rintro rfl
        exact hne' (honly key ((GoMap.mem_iff_lookup _ _).mpr ⟨v, hv⟩) hname')
  · rcases (AList.mem_insert _).mp hname' with rfl | hname'
    · exact ⟨_, (AList.mem_insert _).mpr (Or.inl rfl), hslot⟩
    · obtain ⟨key, hmem, hshort⟩ := h.complete name' hname'
      exact ⟨key, (AList.mem_insert _).mpr (Or.inr hmem), hshort⟩
  · intro key₁ hkey₁ key₂ hkey₂ name' hshort₁ hshort₂
    rcases (AList.mem_insert _).mp hkey₁ with rfl | hkey₁
    · rw [hslot] at hshort₁
      cases hshort₁
      rcases (AList.mem_insert _).mp hkey₂ with rfl | hkey₂
      · rfl
      · exact (honly key₂ hkey₂ hshort₂).symm
    · rcases (AList.mem_insert _).mp hkey₂ with rfl | hkey₂
      · rw [hslot] at hshort₂
        cases hshort₂
        exact honly key₁ hkey₁ hshort₁
      · exact h.once key₁ hkey₁ key₂ hkey₂ name' hshort₁ hshort₂

/-- Dropping every spelling of a name's key. -/
theorem erase (h : Slots userMeta live) (hne : name ≠ []) {rest : Metadata}
    (hrest : ∀ key, rest.lookup key
      = if equalFold key (xattrSlot name) then none else userMeta.lookup key) :
    Slots rest (live.erase name) := by
  have hmem : ∀ {key}, key ∈ rest → key ∈ userMeta ∧ equalFold key (xattrSlot name) = false := by
    intro key hkey
    obtain ⟨v, hv⟩ := (GoMap.mem_iff_lookup _ _).mp hkey
    rw [hrest] at hv
    split at hv
    · cases hv
    · next hfold => exact ⟨(GoMap.mem_iff_lookup _ _).mpr ⟨v, hv⟩, Bool.eq_false_iff.mpr hfold⟩
  refine ⟨fun key v name' hv hname' => ?_, fun name' hname' => ?_, ?_⟩
  · have hkey := hmem ((GoMap.mem_iff_lookup _ _).mpr ⟨v, hv⟩)
    rw [hrest, hkey.2] at hv
    rw [GoMap.lookup_erase_ite, if_neg]
    · exact h.sound key v name' hv hname'
    · rintro rfl
      rw [(shortFromMetaKey_eq_some.mp hname').2] at hkey
      cases hkey.2
  · obtain ⟨hne', hlive⟩ := AList.mem_erase.mp hname'
    obtain ⟨key, hkey, hshort⟩ := h.complete name' hlive
    refine ⟨key, ?_, hshort⟩
    rw [GoMap.mem_iff_lookup, hrest, if_neg]
    · exact (GoMap.mem_iff_lookup _ _).mp hkey
    · intro hfold
      rw [shortFromMetaKey_eq_some.mpr ⟨hne, hfold⟩] at hshort
      exact hne' (Option.some.inj hshort).symm
  · intro key₁ hkey₁ key₂ hkey₂
    exact h.once key₁ (hmem hkey₁).1 key₂ (hmem hkey₂).1

end Slots

/-- The names `ListXattrs` returns for the metadata of an object. -/
def xattrNames (userMeta : Metadata) : List GoString :=
  userMeta.entries.filterMap fun kv => shortFromMetaKey kv.1

theorem mem_xattrNames {userMeta : Metadata} {name : GoString} :
    name ∈ xattrNames userMeta ↔ ∃ key ∈ userMeta, shortFromMetaKey key = some name := by
  rw [xattrNames, List.mem_filterMap]
  constructor
  · rintro ⟨kv, hkv, hshort⟩
    exact ⟨kv.1, AList.mem_keys.mpr (List.mem_keys_of_mem hkv), hshort⟩
  · rintro ⟨key, hkey, hshort⟩
    obtain ⟨v, hv⟩ := (GoMap.mem_iff_lookup _ _).mp hkey
    exact ⟨⟨key, v⟩, AList.mem_lookup_iff.mp hv, hshort⟩

/-- No name is listed twice exactly if no two keys belong to one attribute. -/
theorem nodup_xattrNames {userMeta : Metadata} :
    (xattrNames userMeta).Nodup ↔ ∀ key ∈ userMeta, ∀ key' ∈ userMeta, ∀ name,
      shortFromMetaKey key = some name → shortFromMetaKey key' = some name → key = key' := by
  rw [xattrNames, List.Nodup, List.pairwise_filterMap]
  constructor
  · intro h key hkey key' hkey' name hshort hshort'
    by_contra hne
    obtain ⟨v, hv⟩ := (GoMap.mem_iff_lookup _ _).mp hkey
    obtain ⟨v', hv'⟩ := (GoMap.mem_iff_lookup _ _).mp hkey'
    have hsymm : Std.Symm fun kv kv' : Sigma fun _ : GoString => GoString =>
        ∀ b, shortFromMetaKey kv.1 = some b → ∀ b', shortFromMetaKey kv'.1 = some b' → b ≠ b' :=
      ⟨fun _ _ hxy b hb b' hb' heq => hxy b' hb' b hb heq.symm⟩
    exact h.forall (AList.mem_lookup_iff.mp hv) (AList.mem_lookup_iff.mp hv')
      (fun heq => hne (congrArg Sigma.fst heq)) name hshort name hshort' rfl
  · intro h
    refine List.Nodup.pairwise_of_forall_ne userMeta.nodupKeys.nodup fun kv hkv kv' hkv' hne => ?_
    intro name hshort name' hshort' heq
    subst heq
    have hkey := h kv.1 (AList.mem_keys.mpr (List.mem_keys_of_mem hkv)) kv'.1
      (AList.mem_keys.mpr (List.mem_keys_of_mem hkv')) name hshort hshort'
    exact hne (List.NodupKeys.eq_of_fst_eq userMeta.nodupKeys hkv hkv' hkey)

theorem Slots.names {userMeta : Metadata} {live : GoMap GoString Bytes} (h : Slots userMeta live) :
    (xattrNames userMeta).Perm live.keys := by
  rw [List.perm_ext_iff_of_nodup (nodup_xattrNames.mpr h.once) live.keys_nodup]
  intro name
  rw [mem_xattrNames, ← AList.mem_keys]
  constructor
  · rintro ⟨key, hkey, hshort⟩
    obtain ⟨v, hv⟩ := (GoMap.mem_iff_lookup _ _).mp hkey
    obtain ⟨value, hlive, -⟩ := h.sound key v name hv hshort
    exact (GoMap.mem_iff_lookup _ _).mpr ⟨value, hlive⟩
  · exact h.complete name

/-! ## The methods -/

section Triples

variable {t : Time} {b : Bucket} {c : Option MetadataCache} {recase : Metadata → Metadata}
  {path : GoString} {o : Object}

theorem triple_headObject_recasing (key : GoString) :
    Prog.Triple (World.recasing recase) (At t b c) (Prog.call (.headObject key))
      fun r w => r = (b.headObject key).map (ObjectInfo.recased recase) ∧ At t b c w := by
  intro w h
  obtain ⟨hr, hat⟩ := triple_headObject key w h
  exact ⟨congrArg (Except.map (ObjectInfo.recased recase)) hr, hat⟩

/-- The call is not a `HeadObject`. -/
def NoHead (β : Type) : Eff β → Prop
  | .headObject _ => False
  | _ => True

/-- Programs that make other calls only run as before. -/
theorem triple_recasing_of_noHead {α : Type} {p : Gw α} (hp : Prog.Only NoHead p)
    {P : World → Prop} {Q : α → World → Prop} (h : Prog.Triple World.handle P p Q) :
    Prog.Triple (World.recasing recase) P p Q := by
  have hsame : ∀ {β : Type} (e : Eff β) (w : World), NoHead β e →
      World.recasing recase e w = World.handle e w := by
    intro β e w he
    cases e
    case headObject => exact he.elim
    all_goals rfl
  intro w hw
  rw [hp.run_eq hsame]
  exact h w hw

theorem noHead_replaceMetadata (what key : GoString) (metadata : Metadata) :
    Prog.Only NoHead (replaceMetadata what key metadata) := by
  refine Prog.only_bind (Prog.only_call trivial) fun r => ?_
  cases r with
  | error _ => exact Prog.only_pure _
  | ok _ => exact Prog.only_bind (Prog.only_call trivial) fun _ => Prog.only_pure _

/-- The lookup finds the object and the metadata the backend returns for it. -/
theorem triple_headPath_recasing (ho : b.get (objectKey b path) = some o) :
    Prog.Triple (World.recasing recase) (At t b c) (headPath path) fun r w =>
      (∃ info, r = some (objectKey b path, info) ∧ info.userMetadata = recase o.userMetadata) ∧
        At t b c w := by
  have hhead : ∀ {key}, b.get key = some o → ∃ info, b.headObject key = .ok info ∧
      info.userMetadata = o.userMetadata := by
    intro key hkey
    rw [Bucket.headObject, hkey]
    exact ⟨_, rfl, rfl⟩
  refine (triple_headObject_recasing _).step fun r hr => ?_
  cases hfile : b.headObject (s3KeyFromPath path) with
  | ok info =>
    rw [hfile] at hr
    subst hr
    rw [objectKey_of_ok hfile] at ho ⊢
    obtain ⟨info', hinfo', hmeta⟩ := hhead ho
    rw [hfile] at hinfo'
    cases hinfo'
    exact Prog.triple_pure fun w h => ⟨⟨_, rfl, congrArg recase hmeta⟩, h⟩
  | error err =>
    rw [hfile] at hr
    subst hr
    rw [objectKey_of_error hfile] at ho ⊢
    obtain ⟨info', hinfo', hmeta⟩ := hhead ho
    refine (triple_headObject_recasing _).step fun r hr => ?_
    rw [hinfo'] at hr
    subst hr
    exact Prog.triple_pure fun w h => ⟨⟨_, rfl, congrArg recase hmeta⟩, h⟩

/-- The call succeeded and rewrote the metadata it was returned, or failed and changed
nothing. -/
def XattrOp.Done (op : XattrOp) (returned : Metadata) (b : Bucket) {key : GoString} (hk : key ≠ [])
    (r : Except GoError Unit) (w : World) : Prop :=
  w.NoFaults ∧ (r = .ok () ∧ op.name ≠ [] ∧
      (∃ o', o'.userMetadata = op.rewrite returned ∧ w.bucket = b.put key o' hk) ∨
    r ≠ .ok () ∧ w.bucket = b)

theorem XattrOp.done_error (op : XattrOp) (returned : Metadata) {key : GoString} (hk : key ≠ [])
    (err : GoError) : Prog.Triple (World.recasing recase) (At t b c)
      (pure (.error err) : Gw (Except GoError Unit)) (op.Done returned b hk) :=
  Prog.triple_pure fun _ h => ⟨h.noFaults, Or.inr ⟨nofun, h.bucket⟩⟩

theorem XattrOp.done_replaceMetadata (op : XattrOp) {returned : Metadata} (hname : op.name ≠ [])
    (what : GoString) {key : GoString} (ho : b.get key = some o) :
    Prog.Triple (World.recasing recase) (At t b c)
      (replaceMetadata what key (op.rewrite returned))
      (op.Done returned b (Bucket.ne_nil_of_get ho)) := by
  refine (triple_recasing_of_noHead (noHead_replaceMetadata _ _ _)
    (triple_replaceMetadata what key _ ho)).post ?_
  rintro r w ⟨hr, o', -, hmeta, c', -, hw⟩
  exact ⟨hw.noFaults, Or.inl ⟨hr, hname, o', hmeta, hw.bucket⟩⟩

theorem done_xattrOp (op : XattrOp) (ho : b.get (objectKey b path) = some o) :
    Prog.Triple (World.recasing recase) (At t b c) (op.program path)
      (op.Done (recase o.userMetadata) b (Bucket.ne_nil_of_get ho)) := by
  cases op with
  | set name value option =>
    unfold XattrOp.program setXattr
    dsimp only
    split
    · exact XattrOp.done_error _ _ _ _
    · split
      · exact XattrOp.done_error _ _ _ _
      · next metaKey hkey =>
        obtain ⟨hne, rfl⟩ := xattrMetaKey_ok hkey
        refine (triple_headPath_recasing ho).step fun r hr => ?_
        obtain ⟨info, rfl, hmeta⟩ := hr
        dsimp only
        split
        · exact XattrOp.done_error _ _ _ _
        · split
          · exact XattrOp.done_error _ _ _ _
          · rw [hmeta]
            exact XattrOp.done_replaceMetadata (.set name value option) hne _ ho
  | remove name =>
    unfold XattrOp.program removeXattr
    dsimp only
    split
    · exact XattrOp.done_error _ _ _ _
    · next metaKey hkey =>
      obtain ⟨hne, rfl⟩ := xattrMetaKey_ok hkey
      refine (triple_headPath_recasing ho).step fun r hr => ?_
      obtain ⟨info, rfl, hmeta⟩ := hr
      dsimp only
      split
      · exact XattrOp.done_error _ _ _ _
      · rw [hmeta]
        exact XattrOp.done_replaceMetadata (.remove name) hne _ ho

theorem triple_listXattrs_recasing (ho : b.get (objectKey b path) = some o) :
    Prog.Triple (World.recasing recase) (At t b c) (listXattrs path) fun r _ =>
      r = .ok (xattrNames (recase o.userMetadata)) := by
  refine (triple_headPath_recasing ho).step fun r hr => ?_
  obtain ⟨info, rfl, hmeta⟩ := hr
  exact Prog.triple_pure fun w _ => by rw [hmeta, xattrNames]

theorem triple_getXattr_recasing (ho : b.get (objectKey b path) = some o) {name key : GoString}
    (hkey : xattrMetaKey name = .ok key) {live : GoMap GoString Bytes}
    (hslots : Slots (recase o.userMetadata) live) :
    Prog.Triple (World.recasing recase) (At t b c) (getXattr path name) fun r _ =>
      r = (live.lookup name).elim (.error .errNotExist) .ok := by
  obtain ⟨hne, rfl⟩ := xattrMetaKey_ok hkey
  unfold getXattr
  rw [hkey]
  refine (triple_headPath_recasing ho).step fun r hr => ?_
  obtain ⟨info, rfl, hmeta⟩ := hr
  dsimp only
  rw [hmeta, hslots.findXattr hne]
  cases live.lookup name with
  | none => exact Prog.triple_pure fun _ _ => rfl
  | some value =>
    dsimp only [Option.map_some]
    rw [base64Decode_encode]
    exact Prog.triple_pure fun _ _ => rfl

end Triples

/-! ## Runs -/

/-- The services and, beside them, the attributes the object should have: each name
with the value last set. -/
structure XattrState where
  world : World
  live : GoMap GoString Bytes

namespace XattrState

variable {F : CaseFolding} {path : GoString} {s : XattrState}

/-- What a call on the object at `path` answers. -/
def answer (path : GoString) (s : XattrState) (e : F.Recasing × XattrOp) : Except GoError Unit :=
  ((e.2.program path).run (World.recasing e.1.apply) s.world).1

/-- A call on the object at `path`. The backend may treat each call differently. -/
def step (path : GoString) (s : XattrState) (e : F.Recasing × XattrOp) : XattrState where
  world := ((e.2.program path).run (World.recasing e.1.apply) s.world).2
  live := if s.answer path e = .ok () then e.2.onLive s.live else s.live

/-- The metadata the backend stores for the object. -/
def userMeta (path : GoString) (s : XattrState) : Metadata :=
  ((s.world.bucket.get (objectKey s.world.bucket path)).map Object.userMetadata).getD ∅

/-- However the backend changes the case of keys next, `ListXattrs` returns exactly the
live names, each once, and `GetXattr` the value of a live name and `ErrNotExist` for
any other valid one. -/
def Intact (F : CaseFolding) (path : GoString) (s : XattrState) : Prop :=
  ∀ backend : F.Recasing,
    (∃ names, ((listXattrs path).run (World.recasing backend.apply) s.world).1 = .ok names ∧
      names.Perm s.live.keys) ∧
    ∀ name key, xattrMetaKey name = .ok key →
      ((getXattr path name).run (World.recasing backend.apply) s.world).1
        = (s.live.lookup name).elim (.error .errNotExist) .ok

/-- A call that sets a live name is returned its key spelled as it was written. -/
def KeepsSpelling (path : GoString) (s : XattrState) (e : F.Recasing × XattrOp) : Prop :=
  ∀ name value option, e.2 = .set name value option → s.answer path e = .ok () → name ∈ s.live →
    xattrSlot name ∈ e.1.apply (s.userMeta path)

/-- The object exists and has one key for each live name. -/
structure Kept (path : GoString) (s : XattrState) : Prop where
  noFaults : s.world.NoFaults
  slots : ∃ o, s.world.bucket.get (objectKey s.world.bucket path) = some o ∧
    Slots o.userMetadata s.live

theorem userMeta_eq {o : Object}
    (ho : s.world.bucket.get (objectKey s.world.bucket path) = some o) :
    s.userMeta path = o.userMetadata := by
  rw [userMeta, ho]
  rfl

theorem objectKey_put {b : Bucket} {o o' : Object} (ho : b.get (objectKey b path) = some o) :
    objectKey (b.put (objectKey b path) o' (Bucket.ne_nil_of_get ho)) path = objectKey b path := by
  by_cases hfile : (b.get (s3KeyFromPath path)).isSome
  · have hkey : objectKey b path = s3KeyFromPath path := if_pos hfile
    rw [objectKey, Bucket.get_put, if_pos hkey.symm]
    exact hkey.symm
  · have hkey : objectKey b path = s3DirKey (s3KeyFromPath path) := if_neg hfile
    have hne : s3KeyFromPath path ≠ objectKey b path := by
      intro heq
      rw [heq, ho] at hfile
      exact hfile rfl
    rw [objectKey, Bucket.get_put, if_neg hne, if_neg hfile, hkey]

/-- What a step does to the stored metadata and to the live names. -/
theorem step_spec {o : Object} (hf : s.world.NoFaults)
    (ho : s.world.bucket.get (objectKey s.world.bucket path) = some o) (e : F.Recasing × XattrOp) :
    (s.step path e).world.NoFaults ∧ ∃ o',
      (s.step path e).world.bucket.get (objectKey (s.step path e).world.bucket path) = some o' ∧
      (s.answer path e = .ok () ∧ e.2.name ≠ [] ∧ (s.step path e).live = e.2.onLive s.live ∧
          o'.userMetadata = e.2.rewrite (e.1.apply o.userMetadata) ∨
        s.answer path e ≠ .ok () ∧ (s.step path e).live = s.live ∧ o' = o) := by
  have hrun : e.2.Done (e.1.apply o.userMetadata) s.world.bucket (Bucket.ne_nil_of_get ho)
      (s.answer path e) (s.step path e).world :=
    done_xattrOp (t := s.world.clock) e.2 ho s.world ⟨hf, rfl, rfl, le_refl _⟩
  obtain ⟨hf', ⟨hok, hname, o', hmeta, hbucket⟩ | ⟨herr, hbucket⟩⟩ := hrun
  · refine ⟨hf', o', ?_, Or.inl ⟨hok, hname, if_pos hok, hmeta⟩⟩
    rw [hbucket, objectKey_put ho, Bucket.get_put_self]
  · refine ⟨hf', o, ?_, Or.inr ⟨herr, if_neg herr, rfl⟩⟩
    rw [hbucket, ho]

theorem Kept.step (h : Kept path s) {e : F.Recasing × XattrOp} (hC : KeepsSpelling path s e) :
    Kept path (s.step path e) := by
  obtain ⟨o, ho, hslots⟩ := h.slots
  obtain ⟨hf, o', ho', ⟨hok, hname, hlive, hmeta⟩ | ⟨-, hlive, rfl⟩⟩ := step_spec h.noFaults ho e
  · refine ⟨hf, o', ho', ?_⟩
    rw [hlive, hmeta]
    have hreturned := hslots.recased (e.1.recased o.userMetadata)
    obtain ⟨backend, op⟩ := e
    cases op with
    | set name value option =>
      refine hreturned.insert hname value fun hmem => ?_
      rw [← userMeta_eq ho]
      exact hC name value option rfl hok hmem
    | remove name => exact hreturned.erase hname (lookup_rewrite_remove _ name)
  · exact ⟨hf, o', ho', hlive ▸ hslots⟩

theorem Kept.intact (h : Kept path s) : Intact F path s := by
  obtain ⟨o, ho, hslots⟩ := h.slots
  intro backend
  have hat : At s.world.clock s.world.bucket s.world.cache s.world :=
    ⟨h.noFaults, rfl, rfl, le_refl _⟩
  have hreturned := hslots.recased (backend.recased o.userMetadata)
  exact ⟨⟨_, triple_listXattrs_recasing ho _ hat, hreturned.names⟩,
    fun name key hkey => triple_getXattr_recasing ho hkey hreturned _ hat⟩

/-- A step that writes a second spelling beside the first makes `ListXattrs` return the
name twice. -/
theorem keepsSpelling_of_intact (h : Kept path s) {e : F.Recasing × XattrOp}
    (hP : Intact F path (s.step path e)) : KeepsSpelling path s e := by
  obtain ⟨o, ho, hslots⟩ := h.slots
  intro name value option hop hok hmem
  obtain ⟨hf, o', ho', ⟨-, hname, -, hmeta⟩ | ⟨herr, -⟩⟩ := step_spec h.noFaults ho e
  · obtain ⟨names, hnames, hperm⟩ := (hP (.asWritten F)).1
    have hlist : ((listXattrs path).run (World.recasing fun m => m) (s.step path e).world).1
        = .ok (xattrNames o'.userMetadata) :=
      triple_listXattrs_recasing ho' _ ⟨hf, rfl, rfl, le_refl _⟩
    have heq : names = xattrNames o'.userMetadata := Except.ok.inj (hnames.symm.trans hlist)
    have honce := nodup_xattrNames.mp (heq ▸ hperm.nodup_iff.mpr (AList.keys_nodup _))
    rw [hop] at hname hmeta
    have hslot : shortFromMetaKey (xattrSlot name) = some name :=
      shortFromMetaKey_eq_some.mpr ⟨hname, equalFold_iff.mpr rfl⟩
    -- the key the name had when the call read it
    obtain ⟨key, hkey, hshort⟩ := (hslots.recased (e.1.recased o.userMetadata)).complete name hmem
    rw [hmeta] at honce
    have hsame := honce key ((AList.mem_insert _).mpr (Or.inr hkey)) (xattrSlot name)
      ((AList.mem_insert _).mpr (Or.inl rfl)) name hshort hslot
    rw [userMeta_eq ho, ← hsame]
    exact hkey
  · exact absurd hok herr

/-- From an object without attributes, the attributes stay intact through a run of
`SetXattr` and `RemoveXattr` on a backend that changes the case of keys exactly if every
`SetXattr` of a live name is returned the name's key as it was written. -/
theorem recased_iff (F : CaseFolding) (path : GoString) {w : World} {o : Object}
    (hf : w.NoFaults) (ho : w.bucket.get (objectKey w.bucket path) = some o)
    (hnone : ∀ key ∈ o.userMetadata, shortFromMetaKey key = none)
    (calls : List (F.Recasing × XattrOp)) :
    Throughout (step path) (Intact F path) ⟨w, ∅⟩ calls ↔
      EachStep (step path) (KeepsSpelling path) ⟨w, ∅⟩ calls :=
  throughout_iff_eachStep (I := Kept path) (fun _ _ h hC => h.step hC) (fun _ h => h.intact)
    (fun _ _ h hP => keepsSpelling_of_intact h hP) ⟨hf, o, ho, Slots.initial hnone⟩

/-- On a backend that returns keys in lower case, an attribute that is set, removed and
set again. -/
theorem recased_set_remove_set :
    Throughout (step (gs "/f")) (Intact .ascii (gs "/f")) ⟨.start (.onlyF [] []), ∅⟩
      [(.lowered, .set (gs "a") [1] 0), (.lowered, .remove (gs "a")),
        (.lowered, .set (gs "a") [2] 0)] := by
  refine (recased_iff .ascii (gs "/f") (fun _ => rfl) rfl
    (fun key hkey => absurd hkey (AList.notMem_empty key)) _).mpr ⟨?_, nofun, ?_, trivial⟩
  · intro name value option hop _ hmem
    cases hop
    exact absurd hmem (by decide)
  · intro name value option hop _ hmem
    cases hop
    exact absurd hmem (by decide)

/-- An attribute set twice on such a backend is listed twice, and reads of it may return
the first value. -/
theorem recased_set_twice :
    let s := ([(.lowered, .set (gs "a") [1] 0), (.lowered, .set (gs "a") [2] 0)] :
      List (CaseFolding.ascii.Recasing × XattrOp)).foldl (step (gs "/f"))
        ⟨.start (.onlyF [] []), ∅⟩
    s.live.lookup (gs "a") = some [2] ∧
      ((listXattrs (gs "/f")).run (World.recasing fun m => m) s.world).1
        = .ok [gs "a", gs "a"] ∧
      ((getXattr (gs "/f") (gs "a")).run
        (World.recasing CaseFolding.Recasing.lowered.apply) s.world).1 = .ok [1] := by
  decide

end XattrState

end S3Gateway
