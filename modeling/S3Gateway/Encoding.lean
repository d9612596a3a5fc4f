import S3Gateway.Path

/-!
# Hexadecimal and base64 (`encoding/hex`, `encoding/base64`)

What the gateway uses of the two packages: cache keys and the names of extended
attributes are hexadecimal, attribute values are base64 with padding. Both decoders
undo their encoders (`hexDecodeString_encode`, `base64Decode_encode`).
-/

namespace S3Gateway

/-! ## Hexadecimal -/

/-- One lower-case hexadecimal digit. -/
def hexDigit (n : UInt8) : UInt8 := if n < 10 then 48 + n else 87 + n

/-- `hex.EncodeToString`. -/
def hexEncodeToString (b : List UInt8) : GoString :=
  b.flatMap fun x => [hexDigit (x / 16), hexDigit (x % 16)]

/-- The value of a hexadecimal digit. -/
def fromHexChar (c : UInt8) : Option UInt8 :=
  if 48 ≤ c ∧ c ≤ 57 then some (c - 48)
  else if 97 ≤ c ∧ c ≤ 102 then some (c - 87)
  else if 65 ≤ c ∧ c ≤ 70 then some (c - 55)
  else none

/-- `hex.DecodeString`; `none` is an error. -/
def hexDecodeString : GoString → Option (List UInt8)
  | [] => some []
  | [_] => none
  | a :: b :: rest => do
    let hi ← fromHexChar a
    let lo ← fromHexChar b
    let tail ← hexDecodeString rest
    pure ((hi * 16 + lo) :: tail)

/-- The two digits of a byte give the byte back. -/
theorem fromHexChar_hexDigit (x : UInt8) :
    fromHexChar (hexDigit (x / 16)) = some (x / 16) ∧
      fromHexChar (hexDigit (x % 16)) = some (x % 16) ∧ x / 16 * 16 + x % 16 = x := by
  have h : ∀ n : Fin 256, fromHexChar (hexDigit (UInt8.ofNat n / 16)) = some (UInt8.ofNat n / 16) ∧
      fromHexChar (hexDigit (UInt8.ofNat n % 16)) = some (UInt8.ofNat n % 16) ∧
      UInt8.ofNat n / 16 * 16 + UInt8.ofNat n % 16 = UInt8.ofNat n := by decide +kernel
  simpa using h ⟨x.toNat, x.toNat_lt⟩

@[simp] theorem hexEncodeToString_cons (x : UInt8) (b : List UInt8) :
    hexEncodeToString (x :: b)
      = hexDigit (x / 16) :: hexDigit (x % 16) :: hexEncodeToString b := rfl

theorem length_hexEncodeToString (b : List UInt8) :
    (hexEncodeToString b).length = 2 * b.length := by
  induction b with
  | nil => rfl
  | cons x b ih =>
    rw [hexEncodeToString_cons, List.length_cons, List.length_cons, ih, List.length_cons]
    omega

/-- Decoding undoes encoding. -/
theorem hexDecodeString_encode (b : List UInt8) : hexDecodeString (hexEncodeToString b) = some b := by
  induction b with
  | nil => rfl
  | cons x b ih =>
    obtain ⟨hhi, hlo, hx⟩ := fromHexChar_hexDigit x
    rw [hexEncodeToString_cons, hexDecodeString, hhi, hlo, ih]
    exact congrArg (fun y => some (y :: b)) hx

theorem hexEncodeToString_injective : Function.Injective hexEncodeToString := by
  intro b b' h
  have hdec := congrArg hexDecodeString h
  rw [hexDecodeString_encode, hexDecodeString_encode] at hdec
  exact Option.some.inj hdec

/-- The digits of an encoding. -/
theorem mem_hexEncodeToString {b : List UInt8} {c : UInt8} (h : c ∈ hexEncodeToString b) :
    48 ≤ c ∧ c ≤ 57 ∨ 97 ≤ c ∧ c ≤ 102 := by
  have hdigit : ∀ n : UInt8, n < 16 → 48 ≤ hexDigit n ∧ hexDigit n ≤ 57 ∨
      97 ≤ hexDigit n ∧ hexDigit n ≤ 102 := by
    intro n hn
    unfold hexDigit
    grind
  obtain ⟨x, -, hc⟩ := List.mem_flatMap.mp h
  rcases List.mem_cons.mp hc with rfl | hc
  · exact hdigit _ (by grind)
  · rw [List.mem_singleton.mp hc]
    exact hdigit _ (by grind)

/-! ## Base64 -/

/-- The base64 alphabet. -/
def base64Char (n : Nat) : UInt8 :=
  if n < 26 then UInt8.ofNat (65 + n)
  else if n < 52 then UInt8.ofNat (71 + n)
  else if n < 62 then UInt8.ofNat (n - 4)
  else if n = 62 then 43 else 47

/-- `base64.StdEncoding.EncodeToString`. -/
def base64Encode : List UInt8 → GoString
  | [] => []
  | [a] =>
    let n := a.toNat * 65536
    [base64Char (n / 262144), base64Char (n / 4096 % 64), 61, 61]
  | [a, b] =>
    let n := a.toNat * 65536 + b.toNat * 256
    [base64Char (n / 262144), base64Char (n / 4096 % 64), base64Char (n / 64 % 64), 61]
  | a :: b :: c :: rest =>
    let n := a.toNat * 65536 + b.toNat * 256 + c.toNat
    base64Char (n / 262144) :: base64Char (n / 4096 % 64) :: base64Char (n / 64 % 64) ::
      base64Char (n % 64) :: base64Encode rest

/-- The place of a character in the base64 alphabet. -/
def base64Value (c : UInt8) : Option Nat :=
  if 65 ≤ c ∧ c ≤ 90 then some (c.toNat - 65)
  else if 97 ≤ c ∧ c ≤ 122 then some (c.toNat - 71)
  else if 48 ≤ c ∧ c ≤ 57 then some (c.toNat + 4)
  else if c = 43 then some 62
  else if c = 47 then some 63
  else none

/-- Decode groups of four characters; only the last group may be padded, and the bits
of its last character that no byte needs are ignored. -/
def base64DecodeQuanta : GoString → Option (List UInt8)
  | [] => some []
  | a :: b :: c :: d :: rest =>
    if d = 61 then
      if rest ≠ [] then none
      else if c = 61 then do
        let n := (← base64Value a) * 262144 + (← base64Value b) * 4096
        pure [UInt8.ofNat (n / 65536)]
      else do
        let n := (← base64Value a) * 262144 + (← base64Value b) * 4096 + (← base64Value c) * 64
        pure [UInt8.ofNat (n / 65536), UInt8.ofNat (n / 256)]
    else do
      let n := (← base64Value a) * 262144 + (← base64Value b) * 4096 + (← base64Value c) * 64 +
        (← base64Value d)
      let tail ← base64DecodeQuanta rest
      pure (UInt8.ofNat (n / 65536) :: UInt8.ofNat (n / 256) :: UInt8.ofNat n :: tail)
  | _ => none

/-- `base64.StdEncoding.DecodeString`: line breaks are skipped; `none` is an error. -/
def base64Decode (s : GoString) : Option (List UInt8) :=
  base64DecodeQuanta (s.filter fun c => c ≠ 10 ∧ c ≠ 13)

theorem base64Value_base64Char {n : Nat} (h : n < 64) : base64Value (base64Char n) = some n := by
  have hall : ∀ n : Fin 64, base64Value (base64Char n) = some n.val := by decide +kernel
  exact hall ⟨n, h⟩

theorem base64Char_ne (n : Nat) : base64Char n ≠ 10 ∧ base64Char n ≠ 13 ∧ base64Char n ≠ 61 := by
  have hlt : ∀ n : Fin 64, base64Char n ≠ 10 ∧ base64Char n ≠ 13 ∧ base64Char n ≠ 61 := by
    decide +kernel
  by_cases h : n < 64
  · exact hlt ⟨n, h⟩
  · rw [base64Char, if_neg (by omega), if_neg (by omega), if_neg (by omega), if_neg (by omega)]
    decide

/-- No line breaks in an encoding. -/
theorem base64Encode_ne (v : List UInt8) : ∀ c ∈ base64Encode v, c ≠ 10 ∧ c ≠ 13 := by
  have hchar : ∀ n, base64Char n ≠ 10 ∧ base64Char n ≠ 13 :=
    fun n => ⟨(base64Char_ne n).1, (base64Char_ne n).2.1⟩
  have hpad : (61 : UInt8) ≠ 10 ∧ (61 : UInt8) ≠ 13 := by decide
  induction v using base64Encode.induct with
  | case1 => exact fun c hc => nomatch hc
  | case2 a =>
    simp only [base64Encode, List.forall_mem_cons]
    exact ⟨hchar _, hchar _, hpad, hpad, fun c hc => nomatch hc⟩
  | case3 a b =>
    simp only [base64Encode, List.forall_mem_cons]
    exact ⟨hchar _, hchar _, hchar _, hpad, fun c hc => nomatch hc⟩
  | case4 a b c rest ih =>
    simp only [base64Encode, List.forall_mem_cons]
    exact ⟨hchar _, hchar _, hchar _, hchar _, ih⟩

theorem ofNat_eq_of_mod {k : Nat} {a : UInt8} (h : k % 256 = a.toNat) : UInt8.ofNat k = a := by
  rw [← UInt8.toNat_inj, UInt8.toNat_ofNat']
  exact h

theorem sextets_sum (n : Nat) :
    n / 262144 * 262144 + n / 4096 % 64 * 4096 + n / 64 % 64 * 64 + n % 64 = n := by
  omega

/-- Decoding undoes encoding. -/
theorem base64Decode_encode (v : List UInt8) : base64Decode (base64Encode v) = some v := by
  rw [base64Decode, List.filter_eq_self.mpr fun c hc => by simpa using base64Encode_ne v c hc]
  induction v using base64Encode.induct with
  | case1 => rfl
  | case2 a =>
    have ha := a.toNat_lt
    simp only [base64Encode, base64DecodeQuanta, if_true, ne_eq, not_true_eq_false, if_false,
      base64Value_base64Char (show a.toNat * 65536 / 262144 < 64 by omega),
      base64Value_base64Char (show a.toNat * 65536 / 4096 % 64 < 64 by omega)]
    exact congrArg (fun x => some [x]) (ofNat_eq_of_mod (by omega))
  | case3 a b =>
    have ha := a.toNat_lt
    have hb := b.toNat_lt
    have hpad := (base64Char_ne ((a.toNat * 65536 + b.toNat * 256) / 64 % 64)).2.2
    simp only [base64Encode, base64DecodeQuanta, if_true, ne_eq, not_true_eq_false, if_false, hpad,
      base64Value_base64Char (show (a.toNat * 65536 + b.toNat * 256) / 262144 < 64 by omega),
      base64Value_base64Char (Nat.mod_lt _ (show 64 > 0 by decide))]
    exact congrArg₂ (fun x y => some [x, y]) (ofNat_eq_of_mod (by omega)) (ofNat_eq_of_mod (by omega))
  | case4 a b c rest ih =>
    have ha := a.toNat_lt
    have hb := b.toNat_lt
    have hc := c.toNat_lt
    rw [base64Encode]
    generalize hn : a.toNat * 65536 + b.toNat * 256 + c.toNat = n
    have hpad := (base64Char_ne (n % 64)).2.2
    simp only [base64DecodeQuanta, if_neg hpad, ih,
      base64Value_base64Char (show n / 262144 < 64 by omega),
      base64Value_base64Char (Nat.mod_lt _ (show 64 > 0 by decide)), Option.bind_eq_bind,
      Option.bind_some, sextets_sum]
    rw [ofNat_eq_of_mod (a := a) (by omega), ofNat_eq_of_mod (a := b) (by omega),
      ofNat_eq_of_mod (a := c) (by omega)]
    rfl

end S3Gateway
