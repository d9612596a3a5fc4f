import S3Gateway.S3fs.Xattr

/-!
# Keys and values of extended attributes

An attribute lives in the metadata key that `xattrSlot` makes of its name. The keys
that decode to the name are those that fold to the slot (`shortFromMetaKey_eq_some`),
so the slots of different names stay apart. `XattrOp` are the two calls that change
attributes, with the metadata each of them makes of what it has read.
-/

namespace S3Gateway

open Lib

/-! ## Keys of attributes -/

/-- The metadata key of an attribute. -/
def xattrSlot (name : GoString) : GoString := xattrMetaPrefix ++ hexEncodeToString name

theorem xattrMetaKey_ok {name key : GoString} (h : xattrMetaKey name = .ok key) :
    name ≠ [] ∧ key = xattrSlot name := by
  unfold xattrMetaKey at h
  split at h
  · cases h
  · next hne =>
    split at h
    · cases h
    · cases h
      exact ⟨hne, rfl⟩

/-- The character is ASCII and no letter that folds to one outside ASCII. -/
def AsciiFoldChar (c : UInt8) : Prop := c < 128 ∧ toLower c ≠ 107 ∧ toLower c ≠ 115

/-- The strings for which `equalFold` is `strings.EqualFold`. -/
def AsciiFold (s : GoString) : Prop := ∀ c ∈ s, AsciiFoldChar c

theorem equalFold_iff {s t : GoString} : equalFold s t = true ↔ s.map toLower = t.map toLower :=
  beq_iff_eq

theorem asciiFoldChar_of_toLower {c d : UInt8} (h : toLower c = toLower d) (hd : AsciiFoldChar d) :
    AsciiFoldChar c := by
  unfold AsciiFoldChar toLower at *
  grind

theorem asciiFold_of_equalFold {s t : GoString} (h : equalFold s t = true) (ht : AsciiFold t) :
    AsciiFold s := by
  intro c hc
  have hmem : toLower c ∈ t.map toLower := equalFold_iff.mp h ▸ List.mem_map_of_mem hc
  obtain ⟨d, hd, heq⟩ := List.mem_map.mp hmem
  exact asciiFoldChar_of_toLower heq.symm (ht d hd)

theorem asciiFold_xattrSlot (name : GoString) : AsciiFold (xattrSlot name) := by
  intro c hc
  have hpre : ∀ c ∈ xattrMetaPrefix, c < 128 ∧ toLower c ≠ 107 ∧ toLower c ≠ 115 := by
    decide +kernel
  rcases List.mem_append.mp hc with hc | hc
  · exact hpre c hc
  · have hdigit := mem_hexEncodeToString hc
    unfold AsciiFoldChar toLower
    grind

/-- A hexadecimal digit has the same value in either case. -/
theorem fromHexChar_toLower (c : UInt8) : fromHexChar (toLower c) = fromHexChar c := by
  unfold fromHexChar toLower
  grind

/-- A hexadecimal digit in lower case is the one the encoder writes. -/
theorem toLower_of_fromHexChar {c x : UInt8} (h : fromHexChar c = some x) :
    toLower c = hexDigit x ∧ x < 16 := by
  unfold fromHexChar at h
  unfold toLower hexDigit
  grind

theorem hexDecodeString_toLower (s : GoString) :
    hexDecodeString (s.map toLower) = hexDecodeString s := by
  induction s using hexDecodeString.induct with
  | case1 => rfl
  | case2 c => rfl
  | case3 a b rest ih =>
    rw [List.map_cons, List.map_cons, hexDecodeString, hexDecodeString, fromHexChar_toLower,
      fromHexChar_toLower, ih]

theorem hexEncodeToString_of_decode {s b : GoString} (h : hexDecodeString s = some b) :
    s.map toLower = hexEncodeToString b := by
  induction s using hexDecodeString.induct generalizing b with
  | case1 =>
    cases h
    rfl
  | case2 c => cases h
  | case3 x y rest ih =>
    simp only [hexDecodeString, Option.bind_eq_bind, Option.bind_eq_some_iff] at h
    obtain ⟨hi, hhi, lo, hlo, tail, htail, hb⟩ := h
    cases hb
    obtain ⟨hx, hhi16⟩ := toLower_of_fromHexChar hhi
    obtain ⟨hy, hlo16⟩ := toLower_of_fromHexChar hlo
    have hdiv : (hi * 16 + lo) / 16 = hi := by grind
    have hmod : (hi * 16 + lo) % 16 = lo := by grind
    rw [List.map_cons, List.map_cons, ih htail, hexEncodeToString_cons, hx, hy, hdiv, hmod]

theorem toLower_hexEncodeToString (b : GoString) :
    (hexEncodeToString b).map toLower = hexEncodeToString b :=
  hexEncodeToString_of_decode (hexDecodeString_encode b)

/-- The keys that decode to a name are those that fold to the name's slot. -/
theorem shortFromMetaKey_eq_some {key name : GoString} :
    shortFromMetaKey key = some name ↔ name ≠ [] ∧ equalFold key (xattrSlot name) = true := by
  have hlen : xattrMetaPrefix.length = 6 := rfl
  rw [equalFold_iff, xattrSlot, List.map_append, toLower_hexEncodeToString]
  unfold shortFromMetaKey
  rw [hlen]
  constructor
  · intro h
    split at h
    · cases h
    · next hlong =>
      split at h
      · cases h
      · next hpre =>
        rw [Bool.not_eq_true, Bool.not_eq_false', equalFold_iff] at hpre
        have henc := hexEncodeToString_of_decode h
        refine ⟨?_, ?_⟩
        · rintro rfl
          have := congrArg List.length henc
          simp [hexEncodeToString] at this
          omega
        · rw [← henc, ← hpre, ← List.map_append, List.take_append_drop]
  · rintro ⟨hne, h⟩
    have hlength := congrArg List.length h
    rw [List.length_map, List.length_append, List.length_map, hlen, length_hexEncodeToString]
      at hlength
    have hpos := List.length_pos_iff.mpr hne
    have htake := congrArg (List.take 6) h
    have hdrop := congrArg (List.drop 6) h
    rw [← List.map_take, List.take_left' (by rw [List.length_map, hlen])] at htake
    rw [← List.map_drop, List.drop_left' (by rw [List.length_map, hlen])] at hdrop
    rw [if_neg (by omega), equalFold_iff.mpr htake, Bool.not_true, if_neg Bool.false_ne_true,
      ← hexDecodeString_toLower, hdrop, hexDecodeString_encode]

/-! ## The calls that change attributes -/

/-- A call that changes the attributes of an object. -/
inductive XattrOp where
  | set (name value : GoString) (option : UInt32)
  | remove (name : GoString)

namespace XattrOp

def name : XattrOp → GoString
  | .set name _ _ => name
  | .remove name => name

def program (path : GoString) : XattrOp → Gw (Except GoError Unit)
  | .set name value option => setXattr path name value option
  | .remove name => removeXattr path name

/-- The attributes after the call, if it succeeds. -/
def onLive (live : GoMap GoString Bytes) : XattrOp → GoMap GoString Bytes
  | .set name value _ => live.insert name value
  | .remove name => live.erase name

/-- The metadata the call writes, given the metadata it read. -/
def rewrite (userMeta : Metadata) : XattrOp → Metadata
  | .set name value _ => userMeta.insert (xattrSlot name) (base64Encode value)
  | .remove name => userMeta.entries.foldl (fun (m : Metadata) kv =>
      if equalFold kv.1 (xattrSlot name) then m.erase kv.1 else m) userMeta

end XattrOp

theorem lookup_foldl_erase (metaKey key : GoString)
    (l : List (Sigma fun _ : GoString => GoString)) (m : Metadata) :
    (l.foldl (fun (m : Metadata) kv => if equalFold kv.1 metaKey then m.erase kv.1 else m) m).lookup key
      = if equalFold key metaKey ∧ key ∈ l.map Sigma.fst then none else m.lookup key := by
  induction l generalizing m with
  | nil => simp
  | cons kv l ih =>
    rw [List.foldl_cons, ih, List.map_cons]
    by_cases heq : key = kv.1
    · subst heq
      by_cases hkv : equalFold kv.1 metaKey = true
      · rw [if_pos hkv, GoMap.lookup_erase_ite, if_pos rfl, ite_self,
          if_pos ⟨hkv, List.mem_cons_self⟩]
      · rw [if_neg hkv, if_neg fun h => hkv h.1, if_neg fun h => hkv h.1]
    · have hmem : key ∈ kv.1 :: l.map Sigma.fst ↔ key ∈ l.map Sigma.fst := by
        rw [List.mem_cons, or_iff_right heq]
      simp only [hmem]
      split
      · rfl
      · split
        · rw [GoMap.lookup_erase_ite, if_neg heq]
        · rfl

theorem lookup_rewrite_remove (userMeta : Metadata) (name key : GoString) :
    ((XattrOp.remove name).rewrite userMeta).lookup key
      = if equalFold key (xattrSlot name) then none else userMeta.lookup key := by
  rw [XattrOp.rewrite, lookup_foldl_erase]
  by_cases hmem : key ∈ userMeta.entries.map Sigma.fst
  · simp [hmem]
  · have hnone : userMeta.lookup key = none := (GoMap.notMem_iff_lookup _ _).mp hmem
    simp [hmem, hnone]

end S3Gateway
