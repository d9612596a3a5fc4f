import S3Gateway.Lib.Run
import S3Gateway.S3fs.AttributeRaces
import S3Gateway.S3fs.Summary

/-!
# Attributes of one object, call after call

`Chmod`, `Chown`, `SetXattr` and `RemoveXattr` keep all attributes of an object in one
map, the user metadata, which each call reads and writes back as a whole. `outcome` is
what a call makes of the metadata it has read.

`Attrs` is what the attributes should be: the last mode, user and group that were set,
and the extended attributes. `Attrs.entry` says what each metadata entry is then, and a
run keeps the metadata so, entry by entry (`attributes_independent`).
-/

namespace S3Gateway

open Lib

/-! ## Calls -/

/-- What a call makes of the metadata it has read: it gives up, or writes metadata back. -/
def XattrOp.outcome (userMeta : Metadata) : XattrOp → Except GoError Metadata
  | .set name value option =>
    if value.length > xattrValueMax then
      .error (.wrap (gs "xattr value too large") .errInvalid)
    else
      match xattrMetaKey name with
      | .error err => .error err
      | .ok metaKey =>
        match checkXattrOption option (findXattr userMeta metaKey).isSome with
        | .error err => .error err
        | .ok () =>
          if totalXattrBytes (userMeta.insert metaKey (base64Encode value)) > xattrMaxTotalBytes then
            .error (.wrap (gs "xattr total too large") .errInvalid)
          else .ok (userMeta.insert metaKey (base64Encode value))
  | .remove name =>
    match xattrMetaKey name with
    | .error err => .error err
    | .ok metaKey =>
      if (findXattr userMeta metaKey).isNone then .error .errNotExist
      else .ok ((XattrOp.remove name).rewrite userMeta)

namespace AttrOp

def path : AttrOp → GoString
  | .chmod path _ => path
  | .chown path _ _ => path
  | .xattr path _ => path

@[inherit_doc XattrOp.outcome]
def outcome (userMeta : Metadata) : AttrOp → Except GoError Metadata
  | .chmod _ mode => .ok (userMeta.insert metaKeyMode (formatOctal mode.perm))
  | .chown _ uid gid =>
    let userMeta := if uid ≥ 0 then userMeta.insert metaKeyUID (itoa uid) else userMeta
    .ok (if gid ≥ 0 then userMeta.insert metaKeyGID (itoa gid) else userMeta)
  | .xattr _ op => op.outcome userMeta

/-- The answer to a call, and the bucket it leaves. -/
def Done (op : AttrOp) (b : Bucket) (o : Object) {key : GoString} (hk : key ≠ [])
    (r : Except GoError Unit) (w : World) : Prop :=
  w.NoFaults ∧
    ((∃ err, op.outcome o.userMetadata = .error err ∧ r = .error err ∧ w.bucket = b) ∨
      ∃ userMeta o', op.outcome o.userMetadata = .ok userMeta ∧ r = .ok () ∧
        o'.data = o.data ∧ o'.userMetadata = userMeta ∧ w.bucket = b.put key o' hk)

variable {op : AttrOp} {t : Time} {b : Bucket} {c : Option MetadataCache} {o : Object}

theorem done_error {key : GoString} (hk : key ≠ []) {err : GoError}
    (h : op.outcome o.userMetadata = .error err) :
    Prog.Triple World.handle (At t b c) (pure (.error err) : Gw (Except GoError Unit))
      (op.Done b o hk) :=
  Prog.triple_pure fun _ hw => ⟨hw.noFaults, Or.inl ⟨err, h, rfl, hw.bucket⟩⟩

theorem done_replaceMetadata {key : GoString} (ho : b.get key = some o) (what : GoString)
    {userMeta : Metadata} (h : op.outcome o.userMetadata = .ok userMeta) :
    Prog.Triple World.handle (At t b c) (replaceMetadata what key userMeta)
      (op.Done b o (Bucket.ne_nil_of_get ho)) := by
  refine (triple_replaceMetadata what key userMeta ho).post ?_
  rintro r w ⟨hr, o', hdata, hmeta, c', -, hw⟩
  exact ⟨hw.noFaults, Or.inr ⟨userMeta, o', h, hr, hdata, hmeta, hw.bucket⟩⟩

theorem triple_headPath_found {path : GoString} (ho : b.get (objectKey b path) = some o) :
    Prog.Triple World.handle (At t b c) (headPath path) fun r w =>
      (∃ info, r = some (objectKey b path, info) ∧ info.userMetadata = o.userMetadata) ∧
        At t b c w := by
  refine (triple_headPath path).post ?_
  rintro r w ⟨rfl, hw⟩
  refine ⟨?_, hw⟩
  rw [Bucket.headObject, ho]
  exact ⟨_, rfl, rfl⟩

/-- A call on an object that is there does to its metadata what `outcome` says. -/
theorem done_program (op : AttrOp) (ho : b.get (objectKey b op.path) = some o) :
    Prog.Triple World.handle (At t b c) op.program (op.Done b o (Bucket.ne_nil_of_get ho)) := by
  cases op with
  | chmod path mode =>
    refine (triple_headPath_found ho).step fun r hr => ?_
    obtain ⟨info, rfl, hmeta⟩ := hr
    exact done_replaceMetadata ho _ (by rw [hmeta]; rfl)
  | chown path uid gid =>
    refine (triple_headPath_found ho).step fun r hr => ?_
    obtain ⟨info, rfl, hmeta⟩ := hr
    exact done_replaceMetadata ho _ (by rw [hmeta]; rfl)
  | xattr path op =>
    cases op with
    | set name value option =>
      unfold program XattrOp.program setXattr
      dsimp only
      split
      · next hsize => exact done_error _ (if_pos hsize)
      · next hsize =>
        split
        · next err hkey => exact done_error _ (by rw [outcome, XattrOp.outcome, if_neg hsize, hkey])
        · next metaKey hkey =>
          refine (triple_headPath_found ho).step fun r hr => ?_
          obtain ⟨info, rfl, hmeta⟩ := hr
          dsimp only
          rw [hmeta]
          split
          · next err hopt =>
            exact done_error _ (by rw [outcome, XattrOp.outcome, if_neg hsize, hkey]; dsimp only; rw [hopt])
          · next hopt =>
            split
            · next htotal =>
              refine done_error _ ?_
              rw [outcome, XattrOp.outcome, if_neg hsize, hkey]
              dsimp only
              rw [hopt]
              exact if_pos htotal
            · next htotal =>
              refine done_replaceMetadata ho _ ?_
              rw [outcome, XattrOp.outcome, if_neg hsize, hkey]
              dsimp only
              rw [hopt]
              exact if_neg htotal
    | remove name =>
      unfold program XattrOp.program removeXattr
      dsimp only
      split
      · next err hkey => exact done_error _ (by rw [outcome, XattrOp.outcome, hkey])
      · next metaKey hkey =>
        obtain ⟨-, rfl⟩ := xattrMetaKey_ok hkey
        refine (triple_headPath_found ho).step fun r hr => ?_
        obtain ⟨info, rfl, hmeta⟩ := hr
        dsimp only
        rw [hmeta]
        split
        · next hnone => exact done_error _ (by rw [outcome, XattrOp.outcome, hkey]; exact if_pos hnone)
        · next hsome =>
          exact done_replaceMetadata ho _ (by rw [outcome, XattrOp.outcome, hkey]; exact if_neg hsome)

end AttrOp

/-! ## The attributes and their entries -/

/-- The attributes of an object, as calls have set them. -/
structure Attrs where
  mode : Option FileMode
  uid : Option Int
  gid : Option Int
  xattrs : GoMap GoString Bytes

namespace Attrs

/-- Nothing has been set. -/
def unset : Attrs := ⟨none, none, none, ∅⟩

/-- The metadata entry under a key: what was set, or else what was there initially. -/
def entry (a : Attrs) (initial : Metadata) (key : GoString) : Option GoString :=
  if key = metaKeyMode then (a.mode.map fun mode => formatOctal mode.perm).or (initial.lookup key)
  else if key = metaKeyUID then (a.uid.map itoa).or (initial.lookup key)
  else if key = metaKeyGID then (a.gid.map itoa).or (initial.lookup key)
  else
    match shortFromMetaKey key with
    | some name =>
      if key = xattrSlot name then (a.xattrs.lookup name).map base64Encode else initial.lookup key
    | none => initial.lookup key

end Attrs

/-- The attributes after a call that succeeds. -/
def AttrOp.onAttrs (a : Attrs) : AttrOp → Attrs
  | .chmod _ mode => { a with mode := some mode }
  | .chown _ uid gid =>
    { a with
      uid := if uid ≥ 0 then some uid else a.uid
      gid := if gid ≥ 0 then some gid else a.gid }
  | .xattr _ op => { a with xattrs := op.onLive a.xattrs }

/-- No key starts with `Xattr-`, in whatever case. -/
def NoXattrKeys (userMeta : Metadata) : Prop :=
  ∀ key ∈ userMeta, equalFold (key.take xattrMetaPrefix.length) xattrMetaPrefix = false

/-- The metadata have the entries that the attributes say, and the extended attributes
take no more room than they may. -/
structure Holds (initial : Metadata) (a : Attrs) (userMeta : Metadata) : Prop where
  entries : ∀ key, userMeta.lookup key = a.entry initial key
  total : totalXattrBytes userMeta ≤ xattrMaxTotalBytes

namespace Attrs

variable {a : Attrs} {initial : Metadata} {name key : GoString}

theorem shortFromMetaKey_slot (hne : name ≠ []) : shortFromMetaKey (xattrSlot name) = some name :=
  shortFromMetaKey_eq_some.mpr ⟨hne, equalFold_iff.mpr rfl⟩

/-- A key that decodes to a name begins like the key of an attribute. -/
theorem equalFold_of_short (h : shortFromMetaKey key = some name) :
    equalFold (key.take xattrMetaPrefix.length) xattrMetaPrefix = true := by
  obtain ⟨-, hfold⟩ := shortFromMetaKey_eq_some.mp h
  rw [equalFold_iff] at hfold ⊢
  rw [List.map_take, hfold, xattrSlot, List.map_append]
  exact List.take_left' (List.length_map _)

/-- The keys of mode, user and group are no keys of extended attributes. -/
theorem short_mode : shortFromMetaKey metaKeyMode = none := by decide

theorem short_uid : shortFromMetaKey metaKeyUID = none := by decide

theorem short_gid : shortFromMetaKey metaKeyGID = none := by decide

theorem entry_slot (hne : name ≠ []) :
    a.entry initial (xattrSlot name) = (a.xattrs.lookup name).map base64Encode := by
  have hshort := shortFromMetaKey_slot hne
  have hkey : ∀ key, shortFromMetaKey key = none → xattrSlot name ≠ key := by
    rintro key hnone rfl
    rw [hshort] at hnone
    cases hnone
  rw [entry, if_neg (hkey _ short_mode), if_neg (hkey _ short_uid), if_neg (hkey _ short_gid), hshort]
  exact if_pos rfl

/-- Other extended attributes make a difference in their slots only. -/
theorem entry_xattrs {xattrs : GoMap GoString Bytes}
    (h : ∀ name, name ≠ [] → key = xattrSlot name → a.xattrs.lookup name = xattrs.lookup name) :
    a.entry initial key = { a with xattrs := xattrs }.entry initial key := by
  unfold entry
  refine if_congr Iff.rfl rfl (if_congr Iff.rfl rfl (if_congr Iff.rfl rfl ?_))
  cases hshort : shortFromMetaKey key with
  | none => rfl
  | some name =>
    dsimp only
    by_cases hslot : key = xattrSlot name
    · rw [if_pos hslot, if_pos hslot, h name (shortFromMetaKey_eq_some.mp hshort).1 hslot]
    · rw [if_neg hslot, if_neg hslot]

/-- Of the keys that decode to a name, only its slot is ever there. -/
theorem eq_slot_of_entry (hinit : NoXattrKeys initial) (hshort : shortFromMetaKey key = some name)
    (h : a.entry initial key ≠ none) : key = xattrSlot name := by
  have hkey : ∀ key', shortFromMetaKey key' = none → key ≠ key' := by
    rintro key' hnone rfl
    rw [hshort] at hnone
    cases hnone
  rw [entry, if_neg (hkey _ short_mode), if_neg (hkey _ short_uid), if_neg (hkey _ short_gid),
    hshort] at h
  dsimp only at h
  by_contra hne
  rw [if_neg hne] at h
  obtain ⟨v, hv⟩ := Option.ne_none_iff_exists'.mp h
  have hno := hinit key ((GoMap.mem_iff_lookup _ _).mpr ⟨v, hv⟩)
  rw [equalFold_of_short hshort] at hno
  cases hno

end Attrs

namespace Holds

variable {initial userMeta userMeta' : Metadata} {a : Attrs} {name : GoString}

/-- A lookup finds the value of an attribute that is set, and nothing for any other. -/
theorem findXattr (h : Holds initial a userMeta) (hinit : NoXattrKeys initial) (hne : name ≠ []) :
    S3Gateway.findXattr userMeta (xattrSlot name) = (a.xattrs.lookup name).map base64Encode := by
  have hslot : userMeta.lookup (xattrSlot name) = (a.xattrs.lookup name).map base64Encode :=
    (h.entries _).trans (Attrs.entry_slot hne)
  unfold S3Gateway.findXattr
  split
  · next v hv => exact hv.symm.trans hslot
  · next hnone =>
    rw [← hslot, hnone, Option.map_eq_none_iff, List.find?_eq_none]
    intro kv hkv hfold
    -- a key that folds to the slot is the slot
    have hv := GoMap.lookup_eq_of_mem_entries hkv
    have hkey : kv.1 = xattrSlot name := by
      refine Attrs.eq_slot_of_entry hinit (shortFromMetaKey_eq_some.mpr ⟨hne, hfold⟩) (a := a) ?_
      rw [← h.entries, hv]
      exact Option.some_ne_none _
    rw [← hkey, hv] at hnone
    cases hnone

end Holds

/-! ## The room that extended attributes take -/

/-- What a metadata entry adds to `totalXattrBytes`. -/
def xattrBytes (kv : Sigma fun _ : GoString => GoString) : Nat :=
  if (shortFromMetaKey kv.1).isSome then kv.1.length + kv.2.length else 0

theorem totalXattrBytes_eq (userMeta : Metadata) :
    totalXattrBytes userMeta = (userMeta.entries.map xattrBytes).sum := by
  have hfold : ∀ (l : List (Sigma fun _ : GoString => GoString)) (total : Nat),
      l.foldl (fun total kv =>
        if (shortFromMetaKey kv.1).isSome then total + (kv.1.length + kv.2.length) else total) total
        = total + (l.map xattrBytes).sum := by
    intro l
    induction l with
    | nil => exact fun _ => rfl
    | cons kv l ih =>
      intro total
      rw [List.foldl_cons, ih, List.map_cons, List.sum_cons, xattrBytes]
      split <;> omega
  rw [totalXattrBytes, hfold, Nat.zero_add]

theorem totalXattrBytes_insert_le (userMeta : Metadata) {key : GoString}
    (hkey : shortFromMetaKey key = none) (v : GoString) :
    totalXattrBytes (userMeta.insert key v) ≤ totalXattrBytes userMeta := by
  rw [totalXattrBytes_eq, totalXattrBytes_eq, AList.entries_insert, List.map_cons, List.sum_cons,
    xattrBytes, hkey, Option.isSome_none, if_neg Bool.false_ne_true, Nat.zero_add]
  exact ((List.kerase_sublist key userMeta.entries).map xattrBytes).sum_le_sum
    fun _ _ => Nat.zero_le _

theorem totalXattrBytes_erase_le (userMeta : Metadata) (key : GoString) :
    totalXattrBytes (userMeta.erase key) ≤ totalXattrBytes userMeta := by
  rw [totalXattrBytes_eq, totalXattrBytes_eq]
  exact ((List.kerase_sublist key userMeta.entries).map xattrBytes).sum_le_sum
    fun _ _ => Nat.zero_le _

theorem totalXattrBytes_remove_le (userMeta : Metadata) (name : GoString) :
    totalXattrBytes ((XattrOp.remove name).rewrite userMeta) ≤ totalXattrBytes userMeta := by
  have hfold : ∀ (l : List (Sigma fun _ : GoString => GoString)) (m : Metadata),
      totalXattrBytes (l.foldl (fun (m : Metadata) kv =>
        if equalFold kv.1 (xattrSlot name) then m.erase kv.1 else m) m) ≤ totalXattrBytes m := by
    intro l
    induction l with
    | nil => exact fun _ => Nat.le_refl _
    | cons kv l ih =>
      intro m
      rw [List.foldl_cons]
      refine (ih _).trans ?_
      split
      · exact totalXattrBytes_erase_le m kv.1
      · exact Nat.le_refl _
  exact hfold userMeta.entries userMeta

theorem totalXattrBytes_eq_zero {userMeta : Metadata} (h : NoXattrKeys userMeta) :
    totalXattrBytes userMeta = 0 := by
  rw [totalXattrBytes_eq, List.sum_eq_zero]
  intro n hn
  obtain ⟨kv, hkv, rfl⟩ := List.mem_map.mp hn
  rw [xattrBytes]
  cases hshort : shortFromMetaKey kv.1 with
  | none => rfl
  | some name =>
    have hno := h kv.1 (AList.mem_keys.mpr (List.mem_keys_of_mem hkv))
    rw [Attrs.equalFold_of_short hshort] at hno
    cases hno

/-! ## One call -/

namespace Holds

variable {initial userMeta userMeta' : Metadata} {a : Attrs} {name : GoString}

theorem initially (h : NoXattrKeys initial) : Holds initial .unset initial := by
  refine ⟨fun key => ?_, ?_⟩
  · unfold Attrs.entry
    split
    · rfl
    · split
      · rfl
      · split
        · rfl
        · split
          · next name hshort =>
            split
            · next hslot =>
              -- the slot of an attribute is not among the initial keys
              cases hv : initial.lookup key with
              | none => rfl
              | some v =>
                have hno := h key ((GoMap.mem_iff_lookup _ _).mpr ⟨v, hv⟩)
                rw [Attrs.equalFold_of_short hshort] at hno
                cases hno
            · rfl
          · rfl
  · rw [totalXattrBytes_eq_zero h]
    exact Nat.zero_le _

theorem chmod (h : Holds initial a userMeta) (path : GoString) (mode : FileMode) :
    Holds initial ((AttrOp.chmod path mode).onAttrs a)
      (userMeta.insert metaKeyMode (formatOctal mode.perm)) := by
  refine ⟨fun key => ?_, (totalXattrBytes_insert_le _ Attrs.short_mode _).trans h.total⟩
  rw [GoMap.lookup_insert_ite, h.entries, Attrs.entry, Attrs.entry]
  split <;> rfl

theorem chown (h : Holds initial a userMeta) (path : GoString) (uid gid : Int)
    (houtcome : (AttrOp.chown path uid gid).outcome userMeta = .ok userMeta') :
    Holds initial ((AttrOp.chown path uid gid).onAttrs a) userMeta' := by
  cases houtcome
  constructor
  · intro key
    have hkeys : metaKeyMode ≠ metaKeyUID ∧ metaKeyMode ≠ metaKeyGID ∧ metaKeyUID ≠ metaKeyGID := by
      decide
    rw [lookup_insert_of, lookup_insert_of, h.entries, Attrs.entry, Attrs.entry]
    by_cases hmode : key = metaKeyMode
    · subst hmode
      simp [hkeys, AttrOp.onAttrs]
    · by_cases huid : key = metaKeyUID
      · subst huid
        by_cases hpos : uid ≥ 0 <;> simp [hkeys, Ne.symm hkeys.1, hpos, AttrOp.onAttrs]
      · by_cases hgid : key = metaKeyGID
        · subst hgid
          by_cases hpos : gid ≥ 0 <;>
            simp [Ne.symm hkeys.2.1, Ne.symm hkeys.2.2, hpos, AttrOp.onAttrs]
        · simp [hmode, huid, hgid, AttrOp.onAttrs]
  · have hinsert : ∀ (φ : Prop) [Decidable φ] (m : Metadata) (key v : GoString),
        shortFromMetaKey key = none →
        totalXattrBytes (if φ then m.insert key v else m) ≤ totalXattrBytes m := by
      intro φ _ m key v hkey
      split
      · exact totalXattrBytes_insert_le m hkey v
      · exact Nat.le_refl _
    exact (hinsert _ _ _ _ Attrs.short_gid).trans
      ((hinsert _ _ _ _ Attrs.short_uid).trans h.total)

theorem setXattr (h : Holds initial a userMeta) (path value : GoString) (option : UInt32)
    (hne : name ≠ [])
    (htotal : totalXattrBytes (userMeta.insert (xattrSlot name) (base64Encode value))
      ≤ xattrMaxTotalBytes) :
    Holds initial ((AttrOp.xattr path (.set name value option)).onAttrs a)
      (userMeta.insert (xattrSlot name) (base64Encode value)) := by
  refine ⟨fun key => ?_, htotal⟩
  rw [GoMap.lookup_insert_ite]
  split
  · next hkey =>
    rw [hkey, Attrs.entry_slot hne]
    show _ = ((a.xattrs.insert name value).lookup name).map base64Encode
    rw [AList.lookup_insert]
    rfl
  · next hkey =>
    rw [h.entries]
    refine Attrs.entry_xattrs fun name' _ hslot => ?_
    rw [XattrOp.onLive, GoMap.lookup_insert_ite, if_neg]
    rintro rfl
    exact hkey hslot

theorem removeXattr (h : Holds initial a userMeta) (hinit : NoXattrKeys initial) (path : GoString)
    (hne : name ≠ []) :
    Holds initial ((AttrOp.xattr path (.remove name)).onAttrs a)
      ((XattrOp.remove name).rewrite userMeta) := by
  refine ⟨fun key => ?_, (totalXattrBytes_remove_le _ _).trans h.total⟩
  rw [lookup_rewrite_remove]
  split
  · next hfold =>
    -- whatever spelling of the slot it is, there is nothing under it
    symm
    by_contra hsome
    have hslot := Attrs.eq_slot_of_entry hinit (shortFromMetaKey_eq_some.mpr ⟨hne, hfold⟩) hsome
    rw [hslot, Attrs.entry_slot hne] at hsome
    refine hsome ?_
    show ((a.xattrs.erase name).lookup name).map base64Encode = none
    rw [AList.lookup_erase]
    rfl
  · next hfold =>
    rw [h.entries]
    refine Attrs.entry_xattrs fun name' _ hslot => ?_
    rw [XattrOp.onLive, GoMap.lookup_erase_ite, if_neg]
    rintro rfl
    exact hfold (hslot ▸ equalFold_iff.mpr rfl)

/-- A call that succeeds. -/
theorem outcome (h : Holds initial a userMeta) (hinit : NoXattrKeys initial) {op : AttrOp}
    (houtcome : op.outcome userMeta = .ok userMeta') : Holds initial (op.onAttrs a) userMeta' := by
  cases op with
  | chmod path mode =>
    cases houtcome
    exact h.chmod path mode
  | chown path uid gid => exact h.chown path uid gid houtcome
  | xattr path op =>
    cases op with
    | set name value option =>
      rw [AttrOp.outcome, XattrOp.outcome] at houtcome
      split at houtcome
      · cases houtcome
      · split at houtcome
        · cases houtcome
        · next metaKey hkey =>
          obtain ⟨hne, rfl⟩ := xattrMetaKey_ok hkey
          split at houtcome
          · cases houtcome
          · split at houtcome
            · cases houtcome
            · next htotal =>
              cases houtcome
              exact h.setXattr path value option hne (Nat.not_lt.mp htotal)
    | remove name =>
      rw [AttrOp.outcome, XattrOp.outcome] at houtcome
      split at houtcome
      · cases houtcome
      · next metaKey hkey =>
        obtain ⟨hne, rfl⟩ := xattrMetaKey_ok hkey
        split at houtcome
        · cases houtcome
        · cases houtcome
          exact h.removeXattr hinit path hne

end Holds

/-- With a valid name and a value of allowed size, what a call answers depends on whether
the attribute is set. -/
theorem Holds.xattr_answers {initial userMeta : Metadata} {a : Attrs}
    (h : Holds initial a userMeta) (hinit : NoXattrKeys initial) {name metaKey : GoString}
    (hkey : xattrMetaKey name = .ok metaKey) :
    (∀ value : GoString, value.length ≤ xattrValueMax →
      ((XattrOp.set name value 1).outcome userMeta = .error .errExist ↔ name ∈ a.xattrs) ∧
      ((XattrOp.set name value 2).outcome userMeta = .error .errNotExist ↔ name ∉ a.xattrs)) ∧
    ((XattrOp.remove name).outcome userMeta = .error .errNotExist ↔ name ∉ a.xattrs) := by
  have hne := (xattrMetaKey_ok hkey).1
  have hmem : name ∈ a.xattrs ↔ (a.xattrs.lookup name).isSome :=
    (GoMap.mem_iff_lookup _ _).trans Option.isSome_iff_exists.symm
  have hfind := h.findXattr hinit hne
  refine ⟨fun value hsize => ?_, ?_⟩
  · rw [XattrOp.outcome, XattrOp.outcome, if_neg (Nat.not_lt.mpr hsize),
      if_neg (Nat.not_lt.mpr hsize), hkey]
    dsimp only
    rw [(xattrMetaKey_ok hkey).2, hfind, hmem, Option.isSome_map]
    cases (a.xattrs.lookup name).isSome with
    | true =>
      refine ⟨iff_of_true rfl rfl, iff_of_false ?_ (fun hnot => hnot rfl)⟩
      rw [show checkXattrOption 2 true = .ok () from rfl]
      dsimp only
      split <;> exact nofun
    | false =>
      refine ⟨iff_of_false ?_ Bool.false_ne_true, iff_of_true rfl Bool.false_ne_true⟩
      rw [show checkXattrOption 1 false = .ok () from rfl]
      dsimp only
      split <;> exact nofun
  · rw [XattrOp.outcome, hkey]
    dsimp only
    rw [(xattrMetaKey_ok hkey).2, hfind, hmem]
    cases a.xattrs.lookup name with
    | none => exact iff_of_true rfl Bool.false_ne_true
    | some value => exact iff_of_false nofun fun hnot => hnot rfl

/-! ## Runs -/

/-- The services and, beside them, the attributes that calls have set. -/
structure AttrState where
  world : World
  attrs : Attrs

namespace AttrState

/-- What a call answers. -/
def answer (s : AttrState) (op : AttrOp) : Except GoError Unit :=
  (op.program.run World.handle s.world).1

/-- A call, which sets attributes if it succeeds. -/
def step (s : AttrState) (op : AttrOp) : AttrState where
  world := (op.program.run World.handle s.world).2
  attrs := if s.answer op = .ok () then op.onAttrs s.attrs else s.attrs

/-- The object under `key` has the bytes it had in `b`, and the metadata that the calls
since then say; no other object has changed. -/
structure Intact (b : Bucket) (key : GoString) (o : Object) (s : AttrState) : Prop where
  object : ∃ o', s.world.bucket.get key = some o' ∧ o'.data = o.data ∧
    Holds o.userMetadata s.attrs o'.userMetadata
  others : ∀ key', key' ≠ key → s.world.bucket.get key' = b.get key'

/-- A call that fails changes nothing, `Chmod` and `Chown` do not fail, and `SetXattr` and
`RemoveXattr` with a valid name and a value of allowed size report that an attribute
exists, or does not, if that is so. -/
structure Answers (s : AttrState) (op : AttrOp) : Prop where
  failed : s.answer op ≠ .ok () → (s.step op).world.bucket = s.world.bucket
  chmod : ∀ path mode, op = .chmod path mode → s.answer op = .ok ()
  chown : ∀ path uid gid, op = .chown path uid gid → s.answer op = .ok ()
  create : ∀ path name value metaKey, op = .xattr path (.set name value 1) →
    xattrMetaKey name = .ok metaKey → value.length ≤ xattrValueMax →
    (s.answer op = .error .errExist ↔ name ∈ s.attrs.xattrs)
  replace : ∀ path name value metaKey, op = .xattr path (.set name value 2) →
    xattrMetaKey name = .ok metaKey → value.length ≤ xattrValueMax →
    (s.answer op = .error .errNotExist ↔ name ∉ s.attrs.xattrs)
  remove : ∀ path name metaKey, op = .xattr path (.remove name) →
    xattrMetaKey name = .ok metaKey →
    (s.answer op = .error .errNotExist ↔ name ∉ s.attrs.xattrs)

variable {b : Bucket} {key : GoString} {o : Object} {s : AttrState} {op : AttrOp}

/-- The same objects are there, so that paths lead to the same ones. -/
theorem Intact.objectKey_eq (h : Intact b key o s) (ho : b.get key = some o) (path : GoString) :
    objectKey s.world.bucket path = objectKey b path := by
  have hsame : ∀ k, (s.world.bucket.get k).isSome = (b.get k).isSome := by
    intro k
    by_cases hk : k = key
    · obtain ⟨o', ho', -⟩ := h.object
      rw [hk, ho', ho]
      rfl
    · rw [h.others k hk]
  rw [objectKey, objectKey, hsame]

theorem Intact.step (h : Intact b key o s) (ho : b.get key = some o)
    (hinit : NoXattrKeys o.userMetadata) (hf : s.world.NoFaults)
    (hop : objectKey b op.path = key) :
    s.Answers op ∧ (s.step op).world.NoFaults ∧ Intact b key o (s.step op) := by
  obtain ⟨o', ho', hdata, hholds⟩ := h.object
  have hpath : objectKey s.world.bucket op.path = key := (h.objectKey_eq ho op.path).trans hop
  subst hpath
  have hdone : op.Done s.world.bucket o' (Bucket.ne_nil_of_get ho') (s.answer op)
      (s.step op).world :=
    op.done_program (t := s.world.clock) ho' s.world ⟨hf, rfl, rfl, le_refl _⟩
  obtain ⟨hf', hcases⟩ := hdone
  -- the answer is that of `outcome`
  have hanswer : s.answer op = (op.outcome o'.userMetadata).map fun _ => () := by
    rcases hcases with ⟨err, hout, hr, -⟩ | ⟨userMeta, o'', hout, hr, -⟩
    · rw [hr, hout]
      rfl
    · rw [hr, hout]
      rfl
  have herror : ∀ err, s.answer op = .error err ↔ op.outcome o'.userMetadata = .error err := by
    intro err
    rw [hanswer]
    cases op.outcome o'.userMetadata with
    | ok _ => exact ⟨nofun, nofun⟩
    | error err' =>
      exact ⟨fun h => congrArg _ (Except.error.inj h), fun h => congrArg _ (Except.error.inj h)⟩
  refine ⟨⟨fun hfail => ?_, ?_, ?_, ?_, ?_, ?_⟩, hf', ?_⟩
  · rcases hcases with ⟨-, -, -, hb⟩ | ⟨-, -, -, hr, -⟩
    · exact hb
    · exact absurd hr hfail
  · rintro path mode rfl
    exact hanswer
  · rintro path uid gid rfl
    exact hanswer
  · rintro path name value metaKey rfl hkey hsize
    exact (herror _).trans ((hholds.xattr_answers hinit hkey).1 value hsize).1
  · rintro path name value metaKey rfl hkey hsize
    exact (herror _).trans ((hholds.xattr_answers hinit hkey).1 value hsize).2
  · rintro path name metaKey rfl hkey
    exact (herror _).trans (hholds.xattr_answers hinit hkey).2
  · rcases hcases with ⟨err, -, hr, hb⟩ | ⟨userMeta, o'', hout, hr, hdata', rfl, hb⟩
    · have hattrs : (s.step op).attrs = s.attrs := if_neg (by rw [hr]; nofun)
      exact ⟨⟨o', hb ▸ ho', hdata, hattrs ▸ hholds⟩, hb ▸ h.others⟩
    · have hattrs : (s.step op).attrs = op.onAttrs s.attrs := if_pos hr
      refine ⟨⟨o'', ?_, hdata'.trans hdata, hattrs ▸ hholds.outcome hinit hout⟩, fun key' hne => ?_⟩
      · rw [hb, Bucket.get_put_self]
      · rw [hb, Bucket.get_put, if_neg hne]
        exact h.others key' hne

/-- On a reliable S3 that keeps the case of keys, for an object with no metadata key that
starts with `Xattr-`, in whatever case, and any run of `Chmod`, `Chown`, `SetXattr` and
`RemoveXattr` on it: at all times its metadata are the initial ones but for the mode,
user and group that were set last and the extended attributes as they were set and
removed, which take no more room than they may; its bytes and all other objects stay the
same; and the calls answer accordingly. -/
theorem attributes_independent {w : World} (hf : w.NoFaults) {key : GoString} {o : Object}
    (ho : w.bucket.get key = some o) (hinit : NoXattrKeys o.userMetadata) (ops : List AttrOp)
    (hops : ∀ op ∈ ops, objectKey w.bucket op.path = key) :
    Throughout step (Intact w.bucket key o) ⟨w, .unset⟩ ops ∧
      EachStep step Answers ⟨w, .unset⟩ ops := by
  have hstart : Intact w.bucket key o ⟨w, .unset⟩ :=
    ⟨⟨o, ho, rfl, .initially hinit⟩, fun _ _ => rfl⟩
  have hpaths : EachStep step (fun _ op => objectKey w.bucket op.path = key) ⟨w, .unset⟩ ops :=
    EachStep.of_forall hops
  constructor
  · refine throughout_of_eachStep (I := fun s => Intact w.bucket key o s ∧ s.world.NoFaults)
      (fun s op h hop => ?_) (fun s h => h.1) ⟨hstart, hf⟩ hpaths
    obtain ⟨-, hf', hintact⟩ := h.1.step ho hinit h.2 hop
    exact ⟨hintact, hf'⟩
  · refine EachStep.of_invariant (I := fun s => Intact w.bucket key o s ∧ s.world.NoFaults)
      (fun s op h hop => ?_) ⟨hstart, hf⟩ hpaths
    obtain ⟨hanswers, hf', hintact⟩ := h.1.step ho hinit h.2 hop
    exact ⟨hanswers, hintact, hf'⟩

/-- The mode is set; an attribute is created, cannot be created again, and is removed. -/
def fourCalls : List AttrOp :=
  [.chmod (gs "/f") 0o600, .xattr (gs "/f") (.set (gs "a") [1] 1),
    .xattr (gs "/f") (.set (gs "a") [2] 1), .xattr (gs "/f") (.remove (gs "a"))]

theorem attributes_independent_fourCalls :
    ∃ o, (World.start (.onlyF [1] [])).bucket.get (gs "f") = some o ∧
      Throughout step (Intact (World.start (.onlyF [1] [])).bucket (gs "f") o)
        ⟨.start (.onlyF [1] []), .unset⟩ fourCalls ∧
      EachStep step Answers ⟨.start (.onlyF [1] []), .unset⟩ fourCalls := by
  have hinit : NoXattrKeys ∅ := fun key hkey => absurd hkey (AList.notMem_empty key)
  exact ⟨_, rfl, attributes_independent (fun _ => rfl) rfl hinit fourCalls (by decide)⟩

end AttrState

end S3Gateway
