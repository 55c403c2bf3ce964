import Condr.Terminal.Uri
import Condr.Foundation.Lists
import Mathlib.Data.FinEnum

/-!
# Keys as text

A key is 32 bytes, stored as 64 hexadecimal digits. The pairs go through the standard parser
of a byte, so a pair may have a plus in place of its first digit.
-/

namespace Condr

open Hexadecimal (IsDigit byteOf formatByte parsePair unsign)

/-- `chunks(2)`. -/
def pairs : List UInt8 → List (List UInt8)
  | first :: second :: rest => [first, second] :: pairs rest
  | [last] => [[last]]
  | [] => []

def hexEncode (bytes : List UInt8) : String := String.ofList (bytes.flatMap formatByte)

/-- The bytes start as zeros, and each pair of the text sets the byte of its place. -/
def hexDecode (hex : String) : Except String (Vector UInt8 32) :=
  let bytes := hex.toUTF8.data.toList
  if bytes.length ≠ 64 ∨ ¬(∀ byte ∈ bytes, byte.toNat < 128) then
    .error "expected 64 hex characters"
  else
    match (pairs bytes).mapM parsePair with
    | none => .error "expected 64 hex characters"
    | some values => .ok (Vector.ofFn fun place => values.getD place 0)

/-! ## What a strict parser does -/

/-- A key's text: 64 hexadecimal digits. -/
def KeyText (chars : List Char) : Prop := chars.length = 64 ∧ ∀ char ∈ chars, IsDigit char

/-- Strict parsing: it accepts the texts of keys, and each encodes back to itself up to the
case of its letters. -/
structure ParsesStrictly (hex : String) : Prop where
  accepts : (∃ key, hexDecode hex = .ok key) ↔ KeyText hex.toList
  encodes : ∀ key, hexDecode hex = .ok key →
    (hexEncode key.toList).toList = hex.toList.map Char.toLower

/-! ## Pairs of characters -/

/-- The text with a zero for each plus that begins a pair. -/
def unsignedPairs : List Char → List Char
  | high :: low :: rest => unsign high :: low :: unsignedPairs rest
  | rest => rest

/-- The bytes of the pairs. -/
def pairBytes : List Char → List UInt8
  | high :: low :: rest => byteOf high low :: pairBytes rest
  | _ => []

theorem length_unsignedPairs (chars : List Char) : (unsignedPairs chars).length = chars.length := by
  fun_induction unsignedPairs chars with
  | case1 high low rest induction => simp [induction]
  | case2 => rfl

theorem unsignedPairs_eq_self {chars : List Char} (digits : ∀ char ∈ chars, IsDigit char) :
    unsignedPairs chars = chars := by
  fun_induction unsignedPairs chars with
  | case1 high low rest induction =>
      simp only [List.forall_mem_cons] at digits
      rw [induction digits.2.2, unsign, if_neg digits.1.ne_plus]
  | case2 => rfl

theorem length_pairBytes {count : ℕ} {chars : List Char} (length : chars.length = 2 * count) :
    (pairBytes chars).length = count := by
  induction count generalizing chars with
  | zero =>
      rw [List.length_eq_zero_iff.mp length]
      rfl
  | succ count induction =>
      match chars with
      | [] => simp at length
      | [_] => simp at length; omega
      | high :: low :: rest =>
          simp only [List.length_cons] at length
          rw [pairBytes, List.length_cons, induction (by omega)]

/-- The parser reads the pairs of a text as those of the one without its signs. -/
theorem mapM_parsePair {count : ℕ} {chars : List Char} {values : List UInt8}
    (length : chars.length = 2 * count) (ascii : ∀ char ∈ chars, char.toNat < 128) :
    (pairs (Utf8.encode chars)).mapM parsePair = some values ↔
      (∀ char ∈ unsignedPairs chars, IsDigit char) ∧ values = pairBytes (unsignedPairs chars) := by
  induction count generalizing chars values with
  | zero =>
      rw [List.length_eq_zero_iff.mp length]
      simp [pairs, unsignedPairs, pairBytes, eq_comm]
  | succ count induction =>
      match chars with
      | [] => simp at length
      | [_] => simp at length; omega
      | high :: low :: rest =>
          simp only [List.length_cons] at length
          simp only [List.forall_mem_cons] at ascii
          have behind := @induction rest
          rw [Utf8.encode_cons_ascii ascii.1, Utf8.encode_cons_ascii ascii.2.1, pairs,
            List.mapM_cons, unsignedPairs, pairBytes]
          simp only [Option.bind_eq_bind, Option.bind_eq_some_iff, Option.pure_def, Option.some_inj,
            Hexadecimal.parsePair_eq_some_iff ascii.1 ascii.2.1, List.forall_mem_cons]
          constructor
          · rintro ⟨value, ⟨highDigit, lowDigit, rfl⟩, more, read, rfl⟩
            rcases (behind (by omega) ascii.2.2).mp read with ⟨digits, rfl⟩
            exact ⟨⟨highDigit, lowDigit, digits⟩, rfl⟩
          · rintro ⟨⟨highDigit, lowDigit, digits⟩, rfl⟩
            exact ⟨_, ⟨highDigit, lowDigit, rfl⟩, _,
              (behind (by omega) ascii.2.2).mpr ⟨digits, rfl⟩, rfl⟩

theorem ascii_of_unsignedPairs {chars : List Char}
    (digits : ∀ char ∈ unsignedPairs chars, IsDigit char) : ∀ char ∈ chars, char.toNat < 128 := by
  fun_induction unsignedPairs chars with
  | case1 high low rest induction =>
      simp only [List.forall_mem_cons] at digits ⊢
      exact ⟨Hexadecimal.lt_of_unsign digits.1, digits.2.1.lt, induction digits.2.2⟩
  | case2 rest =>
      intro char contained
      exact (digits char contained).lt

/-! ## The parser -/

theorem ofFn_getD_eq_iff {values : List UInt8} {key : Vector UInt8 32}
    (length : values.length = 32) :
    (Vector.ofFn fun place : Fin 32 => values.getD place 0) = key ↔ key.toList = values := by
  have same : (Vector.ofFn fun place : Fin 32 => values.getD place 0).toList = values := by
    apply List.ext_getElem
    · simp [length]
    · intro index inside within
      simp [List.getElem?_eq_getElem within]
  constructor
  · rintro rfl
    exact same
  · intro written
    rw [← Vector.toList_inj, same, written]

theorem hexDecode_eq_ok_iff {hex : String} {key : Vector UInt8 32} :
    hexDecode hex = .ok key ↔
      KeyText (unsignedPairs hex.toList) ∧ key.toList = pairBytes (unsignedPairs hex.toList) := by
  unfold hexDecode KeyText
  simp only [Utf8.toUTF8_toList, Utf8.encode_lt_iff, length_unsignedPairs]
  by_cases ascii : ∀ char ∈ hex.toList, char.toNat < 128
  · have size : (Utf8.encode hex.toList).length = hex.toList.length := by
      rw [Utf8.encode_ascii ascii, List.length_map]
    rw [size]
    by_cases length : hex.toList.length = 64
    · rw [if_neg (not_or_intro (not_not_intro length) (not_not_intro ascii))]
      have read := @mapM_parsePair 32 hex.toList
      cases found : (pairs (Utf8.encode hex.toList)).mapM parsePair with
      | none =>
          refine iff_of_false (by simp) ?_
          rintro ⟨⟨-, digits⟩, -⟩
          have := (read length ascii).mpr ⟨digits, rfl⟩
          rw [found] at this
          cases this
      | some values =>
          rcases (read length ascii).mp found with ⟨digits, rfl⟩
          have count : (pairBytes (unsignedPairs hex.toList)).length = 32 :=
            length_pairBytes (by rw [length_unsignedPairs, length])
          simp only [Except.ok.injEq, ofFn_getD_eq_iff count, length, true_and]
          exact (and_iff_right digits).symm
    · rw [if_pos (.inl length)]
      exact iff_of_false (by simp) fun accepted => length accepted.1.1
  · rw [if_pos (.inr ascii)]
    exact iff_of_false (by simp) fun accepted => ascii (ascii_of_unsignedPairs accepted.1.2)

theorem hexDecode_accepts {hex : String} :
    (∃ key, hexDecode hex = .ok key) ↔ KeyText (unsignedPairs hex.toList) := by
  simp only [hexDecode_eq_ok_iff, exists_and_left]
  refine and_iff_left_of_imp fun accepted => ?_
  have count : (pairBytes (unsignedPairs hex.toList)).length = 32 :=
    length_pairBytes (by rw [accepted.1])
  exact ⟨⟨(pairBytes (unsignedPairs hex.toList)).toArray, by simpa using count⟩, rfl⟩

/-- A text of digits is what its bytes are written with, in lower case. -/
theorem formatByte_pairBytes {count : ℕ} {chars : List Char} (length : chars.length = 2 * count)
    (digits : ∀ char ∈ chars, IsDigit char) :
    (pairBytes chars).flatMap formatByte = chars.map Char.toLower := by
  induction count generalizing chars with
  | zero =>
      rw [List.length_eq_zero_iff.mp length]
      rfl
  | succ count induction =>
      match chars with
      | [] => simp at length
      | [_] => simp at length; omega
      | high :: low :: rest =>
          simp only [List.length_cons] at length
          simp only [List.forall_mem_cons] at digits
          rw [pairBytes, List.flatMap_cons, induction (by omega) digits.2.2,
            Hexadecimal.formatByte_byteOf digits.1 digits.2.1]
          rfl

/-- A text that bytes are written with has their digits, without signs. -/
theorem pairBytes_flatMap (bytes : List UInt8) :
    (∀ char ∈ bytes.flatMap formatByte, IsDigit char) ∧
      pairBytes (bytes.flatMap formatByte) = bytes ∧
      (bytes.flatMap formatByte).length = 2 * bytes.length := by
  induction bytes with
  | nil => exact ⟨by simp, rfl, rfl⟩
  | cons byte bytes induction =>
      have := byte.toNat_lt
      rcases induction with ⟨digits, back, length⟩
      have high := (@Hexadecimal.digitChar_spec (byte.toNat / 16) (by omega)).1
      have low := (@Hexadecimal.digitChar_spec (byte.toNat % 16) (by omega)).1
      simp only [List.flatMap_cons, formatByte, List.cons_append, List.nil_append,
        List.forall_mem_cons, pairBytes, List.length_cons]
      refine ⟨⟨high, low, digits⟩, ?_, by rw [length]; omega⟩
      rw [back, Hexadecimal.byteOf_formatByte]

theorem hexDecode_hexEncode (key : Vector UInt8 32) :
    hexDecode (hexEncode key.toList) = .ok key := by
  rcases pairBytes_flatMap key.toList with ⟨digits, back, length⟩
  rw [hexDecode_eq_ok_iff, hexEncode, String.toList_ofList, unsignedPairs_eq_self digits]
  exact ⟨⟨by rw [length]; simp, digits⟩, back.symm⟩

/-- Parsing is strict except on texts with a signed pair that are keys without their signs. -/
theorem parsesStrictly_iff (hex : String) :
    ParsesStrictly hex ↔
      ¬(unsignedPairs hex.toList ≠ hex.toList ∧ KeyText (unsignedPairs hex.toList)) := by
  constructor
  · rintro strict ⟨signed, accepted⟩
    have text := strict.accepts.mp (hexDecode_accepts.mpr accepted)
    exact signed (unsignedPairs_eq_self text.2)
  · intro otherwise
    by_cases signed : unsignedPairs hex.toList = hex.toList
    · constructor
      · rw [hexDecode_accepts, signed]
      · intro key parsed
        rcases hexDecode_eq_ok_iff.mp parsed with ⟨text, written⟩
        rw [signed] at text written
        rw [hexEncode, String.toList_ofList, written,
          @formatByte_pairBytes 32 hex.toList text.1 text.2]
    · have refused : ¬KeyText (unsignedPairs hex.toList) := fun accepted =>
        otherwise ⟨signed, accepted⟩
      constructor
      · rw [hexDecode_accepts]
        exact iff_of_false refused fun text => signed (unsignedPairs_eq_self text.2)
      · intro key parsed
        exact absurd (hexDecode_accepts.mp ⟨key, parsed⟩) refused

/-- Percent escapes and keys are read strictly on every text but those with a signed digit
that would be read without the sign, and a key that is encoded is parsed back. -/
theorem strict_unless_signed (input hex : String) (key : Vector UInt8 32) :
    (DecodesStrictly input ↔
      ¬(unsigned input.toList ≠ input.toList ∧ WellEscaped (unsigned input.toList) ∧
        ByteArray.IsValidUTF8 ⟨(unescaped (unsigned input.toList)).toArray⟩)) ∧
    (ParsesStrictly hex ↔
      ¬(unsignedPairs hex.toList ≠ hex.toList ∧ KeyText (unsignedPairs hex.toList))) ∧
    hexDecode (hexEncode key.toList) = .ok key :=
  ⟨decodesStrictly_iff input, parsesStrictly_iff hex, hexDecode_hexEncode key⟩

/-- An escape may have a plus for its first digit, and so may every pair of a key. -/
theorem signed_digits_read :
    ¬DecodesStrictly "%+f" ∧
      ¬ParsesStrictly (String.ofList ('+' :: List.replicate 63 '0')) := by
  constructor
  · rw [decodesStrictly_iff, not_not, String.toList_ofList]
    refine ⟨by decide, ?_, ?_⟩
    · have zero : WellEscaped ('%' :: '0' :: 'f' :: []) := by
        rw [wellEscaped_escape]
        exact ⟨by decide, by decide, wellEscaped_nil⟩
      exact zero
    · exact Utf8.isValidUTF8_iff.mpr ⟨"\x0f", by decide⟩
  · rw [parsesStrictly_iff, not_not, String.toList_ofList]
    refine ⟨by decide, rfl, ?_⟩
    have digits : unsignedPairs ('+' :: List.replicate 63 '0') = List.replicate 64 '0' := by
      decide
    rw [digits]
    intro char contained
    rw [List.eq_of_mem_replicate contained]
    decide

end Condr
