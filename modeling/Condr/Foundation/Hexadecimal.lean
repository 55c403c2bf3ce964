import Condr.Foundation.Utf8

/-!
# Hexadecimal text

The digits of base 16, the standard parser of a byte in that base, which also reads a plus
sign, and the two digits a byte is written with.
-/

namespace Hexadecimal

/-- `char::to_digit(16)`. -/
def toDigit (char : Char) : Option ℕ :=
  if '0' ≤ char ∧ char ≤ '9' then some (char.toNat - '0'.toNat)
  else if 'a' ≤ char ∧ char ≤ 'f' then some (char.toNat - 'a'.toNat + 10)
  else if 'A' ≤ char ∧ char ≤ 'F' then some (char.toNat - 'A'.toNat + 10)
  else none

/-- One more digit behind a value; none where it is no digit or the byte overflows. -/
def pushDigit (value byte : UInt8) : Option UInt8 := do
  let digit ← toDigit (Char.ofNat byte.toNat)
  let pushed := value.toNat * 16 + digit
  if pushed < 256 then some (UInt8.ofNat pushed) else none

/-- `u8::from_str_radix(text, 16)`: a lone sign is refused, a plus in front is skipped, and a
minus is no digit, as the type has no sign. -/
def fromStrRadix (text : String) : Option UInt8 :=
  match text.toUTF8.data.toList with
  | [] => none
  | [byte] => if byte = 43 ∨ byte = 45 then none else pushDigit 0 byte
  | byte :: rest =>
      if byte = 43 then rest.foldlM pushDigit 0 else (byte :: rest).foldlM pushDigit 0

/-- The byte that a slice of two bytes is the text of. -/
def parsePair (pair : List UInt8) : Option UInt8 :=
  (Utf8.fromUtf8 pair).bind fromStrRadix

/-- `{byte:02x}`. -/
def formatByte (byte : UInt8) : List Char :=
  [Nat.digitChar (byte.toNat / 16), Nat.digitChar (byte.toNat % 16)]

/-! ## Digits -/

/-- The hexadecimal digits, in either case. -/
def IsDigit (char : Char) : Prop := char ∈ "0123456789abcdefABCDEF".toList

instance (char : Char) : Decidable (IsDigit char) :=
  inferInstanceAs (Decidable (char ∈ "0123456789abcdefABCDEF".toList))

def digitValue (char : Char) : ℕ := (toDigit char).getD 0

/-- The byte of two digits. -/
def byteOf (high low : Char) : UInt8 := UInt8.ofNat (digitValue high * 16 + digitValue low)

theorem lt_of_toDigit {char : Char} (digit : (toDigit char).isSome) : char.toNat < 103 := by
  unfold toDigit at digit
  simp only [Char.le_def, UInt32.le_iff_toNat_le] at digit
  change char.val.toNat < 103
  split_ifs at digit with decimal lower upper
  · exact Nat.lt_of_le_of_lt decimal.2 (by decide)
  · exact Nat.lt_of_le_of_lt lower.2 (by decide)
  · exact Nat.lt_of_le_of_lt upper.2 (by decide)
  · simp at digit

theorem isDigit_iff (char : Char) : IsDigit char ↔ (toDigit char).isSome := by
  constructor
  · have all : ∀ char ∈ "0123456789abcdefABCDEF".toList, (toDigit char).isSome :=
      List.all_iff_forall_prop.mp (by decide)
    exact all char
  · intro digit
    have all : ∀ code < 103, (toDigit (Char.ofNat code)).isSome → IsDigit (Char.ofNat code) := by
      decide
    have here := all char.toNat (lt_of_toDigit digit)
    rw [Char.ofNat_toNat] at here
    exact here digit

theorem IsDigit.toDigit_eq {char : Char} (digit : IsDigit char) :
    toDigit char = some (digitValue char) := by
  rcases Option.isSome_iff_exists.mp ((isDigit_iff char).mp digit) with ⟨value, found⟩
  rw [digitValue, found, Option.getD_some]

theorem IsDigit.lt {char : Char} (digit : IsDigit char) : char.toNat < 128 := by
  have := lt_of_toDigit ((isDigit_iff char).mp digit)
  omega

theorem IsDigit.value_lt {char : Char} (digit : IsDigit char) : digitValue char < 16 := by
  have all : ∀ char ∈ "0123456789abcdefABCDEF".toList, digitValue char < 16 :=
    List.all_iff_forall_prop.mp (by decide)
  exact all char digit

theorem toNat_ofNat_digit {char : Char} (digit : IsDigit char) :
    (UInt8.ofNat (digitValue char)).toNat = digitValue char := by
  have := digit.value_lt
  exact Nat.mod_eq_of_lt (by omega)

theorem IsDigit.ne_percent {char : Char} (digit : IsDigit char) : char ≠ '%' := by
  rintro rfl
  revert digit
  decide

theorem IsDigit.ne_plus {char : Char} (digit : IsDigit char) : char ≠ '+' := by
  rintro rfl
  revert digit
  decide

/-! ## The parser on two characters -/

/-- The parser reads a plus in front of a digit as a zero. -/
def unsign (char : Char) : Char := if char = '+' then '0' else char

theorem isDigit_unsign (char : Char) : IsDigit (unsign char) ↔ char = '+' ∨ IsDigit char := by
  unfold unsign
  split_ifs with sign
  · exact iff_of_true (by decide) (.inl sign)
  · rw [or_iff_right sign]

theorem lt_of_unsign {char : Char} (digit : IsDigit (unsign char)) : char.toNat < 128 := by
  rcases (isDigit_unsign char).mp digit with rfl | digit
  · decide
  · exact digit.lt

theorem pushDigit_eq_some_iff {value : UInt8} {char : Char} {pushed : UInt8}
    (small : value.toNat < 16) (ascii : char.toNat < 128) :
    pushDigit value char.toNat.toUInt8 = some pushed ↔
      IsDigit char ∧ pushed = UInt8.ofNat (value.toNat * 16 + digitValue char) := by
  have code : Char.ofNat char.toNat.toUInt8.toNat = char := by
    rw [show char.toNat.toUInt8.toNat = char.toNat from Nat.mod_eq_of_lt (by omega),
      Char.ofNat_toNat]
  unfold pushDigit
  rw [code]
  by_cases digit : IsDigit char
  · have := digit.value_lt
    simp only [digit.toDigit_eq, Option.bind_eq_bind, Option.bind_some, digit, true_and]
    rw [if_pos (by omega), Option.some_inj, eq_comm]
  · have none : toDigit char = none := by
      rw [isDigit_iff, Option.not_isSome_iff_eq_none] at digit
      exact digit
    simp [none, digit]

theorem pushDigit_high {value byte : UInt8} (high : 128 ≤ byte.toNat) :
    pushDigit value byte = none := by
  have code : (Char.ofNat byte.toNat).toNat = byte.toNat := by
    have := byte.toNat_lt
    have valid : byte.toNat.isValidChar := .inl (by omega)
    exact congrArg Char.toNat (dif_pos valid)
  have none : toDigit (Char.ofNat byte.toNat) = none := by
    by_contra found
    have := lt_of_toDigit (Option.isSome_iff_ne_none.mpr found)
    omega
  rw [pushDigit, none]
  rfl

theorem fromStrRadix_pair {text : String} {first second : UInt8}
    (bytes : text.toUTF8.data.toList = [first, second]) :
    fromStrRadix text =
      if first = 43 then pushDigit 0 second
      else (pushDigit 0 first).bind fun value => pushDigit value second := by
  unfold fromStrRadix
  rw [bytes]
  simp only [List.foldlM_cons, List.foldlM_nil, bind_pure]
  rfl

/-- The parser has no use for a byte that is no character of its own. -/
theorem ascii_of_parsePair {first second value : UInt8}
    (parsed : parsePair [first, second] = some value) :
    first.toNat < 128 ∧ second.toNat < 128 := by
  rcases Option.bind_eq_some_iff.mp parsed with ⟨text, decoded, read⟩
  rw [fromStrRadix_pair (Utf8.fromUtf8_eq_some_iff.mp decoded)] at read
  split_ifs at read with sign
  · refine ⟨by rw [sign]; decide, ?_⟩
    by_contra high
    simp [@pushDigit_high 0 second (by omega)] at read
  · rcases Option.bind_eq_some_iff.mp read with ⟨digit, firstRead, secondRead⟩
    constructor
    · by_contra high
      simp [@pushDigit_high 0 first (by omega)] at firstRead
    · by_contra high
      simp [@pushDigit_high digit second (by omega)] at secondRead

theorem parsePair_eq_some_iff {high low : Char} {value : UInt8} (highAscii : high.toNat < 128)
    (lowAscii : low.toNat < 128) :
    parsePair [high.toNat.toUInt8, low.toNat.toUInt8] = some value ↔
      IsDigit (unsign high) ∧ IsDigit low ∧ value = byteOf (unsign high) low := by
  have bytes : (String.ofList [high, low]).toUTF8.data.toList =
      [high.toNat.toUInt8, low.toNat.toUInt8] := by
    rw [Utf8.toUTF8_toList, String.toList_ofList, Utf8.encode_ascii (by simp [*])]
    rfl
  have plus : high.toNat.toUInt8 = 43 ↔ high = '+' := by
    rw [← UInt8.toNat_inj, ← Char.toNat_inj,
      show high.toNat.toUInt8.toNat = high.toNat from Nat.mod_eq_of_lt (by omega)]
    rfl
  rw [parsePair, Utf8.fromUtf8_eq_some_iff.mpr bytes, Option.bind_some, fromStrRadix_pair bytes]
  simp only [plus, unsign, byteOf]
  split_ifs with sign
  · have zero : IsDigit '0' := by decide
    rw [pushDigit_eq_some_iff (by decide) lowAscii]
    simp only [zero, true_and]
    rfl
  · have first : ∀ digit, pushDigit 0 high.toNat.toUInt8 = some digit ↔
        IsDigit high ∧ digit = UInt8.ofNat (digitValue high) := by
      intro digit
      rw [pushDigit_eq_some_iff (by decide) highAscii]
      simp
    constructor
    · intro read
      rcases Option.bind_eq_some_iff.mp read with ⟨digit, highRead, lowRead⟩
      rcases (first digit).mp highRead with ⟨highDigit, rfl⟩
      have same := toNat_ofNat_digit highDigit
      have small := highDigit.value_lt
      rw [pushDigit_eq_some_iff (by omega) lowAscii, same] at lowRead
      exact ⟨highDigit, lowRead⟩
    · rintro ⟨highDigit, lowDigit, rfl⟩
      have same := toNat_ofNat_digit highDigit
      have small := highDigit.value_lt
      rw [(first _).mpr ⟨highDigit, rfl⟩, Option.bind_some,
        pushDigit_eq_some_iff (by omega) lowAscii, same]
      exact ⟨lowDigit, rfl⟩

/-! ## Formatting -/

theorem digitChar_spec {digit : ℕ} (small : digit < 16) :
    IsDigit (Nat.digitChar digit) ∧ Nat.digitChar digit ≠ '+' ∧
      digitValue (Nat.digitChar digit) = digit := by
  have all : ∀ digit < 16, IsDigit (Nat.digitChar digit) ∧ Nat.digitChar digit ≠ '+' ∧
      digitValue (Nat.digitChar digit) = digit := by decide
  exact all digit small

theorem digitChar_digitValue {char : Char} (digit : IsDigit char) :
    Nat.digitChar (digitValue char) = char.toLower := by
  have all : ∀ char ∈ "0123456789abcdefABCDEF".toList,
      Nat.digitChar (digitValue char) = char.toLower :=
    List.all_iff_forall_prop.mp (by decide)
  exact all char digit

/-- A byte is the byte of the digits it is written with. -/
theorem byteOf_formatByte (byte : UInt8) :
    byteOf (Nat.digitChar (byte.toNat / 16)) (Nat.digitChar (byte.toNat % 16)) = byte := by
  have := byte.toNat_lt
  rw [byteOf, (@digitChar_spec (byte.toNat / 16) (by omega)).2.2,
    (@digitChar_spec (byte.toNat % 16) (by omega)).2.2, Nat.div_add_mod' byte.toNat 16,
    UInt8.ofNat_toNat]

/-- Two digits are what their byte is written with, in lower case. -/
theorem formatByte_byteOf {high low : Char} (highDigit : IsDigit high) (lowDigit : IsDigit low) :
    formatByte (byteOf high low) = [high.toLower, low.toLower] := by
  have highSmall := highDigit.value_lt
  have lowSmall := lowDigit.value_lt
  have value : (byteOf high low).toNat = digitValue high * 16 + digitValue low :=
    Nat.mod_eq_of_lt (by omega)
  rw [formatByte, value, ← digitChar_digitValue highDigit, ← digitChar_digitValue lowDigit,
    show (digitValue high * 16 + digitValue low) / 16 = digitValue high by omega,
    show (digitValue high * 16 + digitValue low) % 16 = digitValue low by omega]

end Hexadecimal
