import Mathlib.Algebra.GroupWithZero.Nat
import Mathlib.Data.Bool.AllAny
import Mathlib.Data.List.Basic
import Mathlib.Tactic.Common

/-!
# Lossy UTF-8

`String::from_utf8_lossy`: every sequence of bytes reads as text, with the
replacement character for each maximal part of a sequence that is not UTF-8. A
character below 128 is in the text exactly where its byte is.
-/

namespace Utf8

def replacement : Char := Char.ofNat 0xfffd

/-- What a first byte calls for: the continuation bytes, the value of its own bits, and the
range of the byte after it, which excludes overlong forms and surrogates. -/
def lead (byte : ℕ) : Option (ℕ × ℕ × ℕ × ℕ) :=
  if 0xc2 ≤ byte ∧ byte ≤ 0xdf then some (1, byte - 0xc0, 0x80, 0xbf)
  else if byte = 0xe0 then some (2, 0, 0xa0, 0xbf)
  else if byte = 0xed then some (2, 0xd, 0x80, 0x9f)
  else if 0xe1 ≤ byte ∧ byte ≤ 0xef then some (2, byte - 0xe0, 0x80, 0xbf)
  else if byte = 0xf0 then some (3, 0, 0x90, 0xbf)
  else if byte = 0xf4 then some (3, 4, 0x80, 0x8f)
  else if 0xf1 ≤ byte ∧ byte ≤ 0xf3 then some (3, byte - 0xf0, 0x80, 0xbf)
  else none

/-- The character of a sequence whose first bytes have a value, and the bytes behind it. -/
def continueChar : ℕ → ℕ → List UInt8 → Char × List UInt8
  | 0, value, bytes => (Char.ofNat value, bytes)
  | _ + 1, _, [] => (replacement, [])
  | count + 1, value, byte :: bytes =>
      if 0x80 ≤ byte.toNat ∧ byte.toNat ≤ 0xbf then
        continueChar count (value * 64 + (byte.toNat - 0x80)) bytes
      else (replacement, byte :: bytes)

/-- One character, or the replacement of one maximal part, and the bytes behind it. -/
def nextChar (first : UInt8) (bytes : List UInt8) : Char × List UInt8 :=
  if first.toNat < 0x80 then (Char.ofNat first.toNat, bytes)
  else match lead first.toNat, bytes with
  | some (count + 1, value, low, high), second :: rest =>
      if low ≤ second.toNat ∧ second.toNat ≤ high then
        continueChar count (value * 64 + (second.toNat - 0x80)) rest
      else (replacement, bytes)
  | _, _ => (replacement, bytes)

/-- The characters of the first `turns` parts. -/
def decodeLossy : ℕ → List UInt8 → List Char
  | 0, _ => []
  | _, [] => []
  | turns + 1, first :: bytes =>
      let (char, rest) := nextChar first bytes
      char :: decodeLossy turns rest

/-- `from_utf8_lossy`: each part takes a byte, so there are at most as many parts. -/
def fromUtf8Lossy (bytes : List UInt8) : String :=
  String.ofList (decodeLossy bytes.length bytes)

/-! ## Slices by bytes -/

/-- The characters of the first bytes, and those behind, where a character ends there. -/
def splitBytes : ℕ → List Char → Option (List Char × List Char)
  | 0, chars => some ([], chars)
  | _ + 1, [] => none
  | count + 1, char :: chars =>
      if char.utf8Size ≤ count + 1 then
        (splitBytes (count + 1 - char.utf8Size) chars).map fun split =>
          (char :: split.1, split.2)
      else none

/-- `str::get` with a range of bytes: none where it cuts a character or leaves the text. -/
def get (text : String) (start stop : ℕ) : Option String := do
  let (_, behind) ← splitBytes start text.toList
  let (slice, _) ← splitBytes (stop - start) behind
  return String.ofList slice

theorem splitBytes_append (chars more : List Char) :
    splitBytes (String.ofList chars).utf8ByteSize (chars ++ more) = some (chars, more) := by
  induction chars with
  | nil => cases more <;> rfl
  | cons char chars induction =>
      have size : (String.ofList (char :: chars)).utf8ByteSize =
          char.utf8Size + (String.ofList chars).utf8ByteSize := by
        rw [← List.singleton_append, String.ofList_append, String.utf8ByteSize_append]
        simp
      have positive : 0 < char.utf8Size := char.utf8Size_pos
      rcases Nat.exists_eq_succ_of_ne_zero
        (show char.utf8Size + (String.ofList chars).utf8ByteSize ≠ 0 by omega) with ⟨count, same⟩
      have rest : count + 1 - char.utf8Size = (String.ofList chars).utf8ByteSize := by omega
      rw [size, same, List.cons_append, splitBytes, if_pos (by omega), rest, induction]
      rfl

/-- A slice between two texts is found by the bytes before it and its own. -/
theorem get_append (front slice back : String) :
    get (front ++ slice ++ back) front.utf8ByteSize (front.utf8ByteSize + slice.utf8ByteSize) =
      some slice := by
  have before := splitBytes_append front.toList (slice.toList ++ back.toList)
  have inside := splitBytes_append slice.toList back.toList
  simp only [String.ofList_toList] at before inside
  simp [get, before, inside]

/-! ## Strict text -/

/-- The bytes a text of these characters is written with. -/
def encode (chars : List Char) : List UInt8 := chars.flatMap String.utf8EncodeChar

@[simp] theorem encode_nil : encode [] = [] := rfl

@[simp]
theorem encode_cons (char : Char) (chars : List Char) :
    encode (char :: chars) = String.utf8EncodeChar char ++ encode chars := rfl

/-- `str::from_utf8`: none where the bytes are no text. -/
def fromUtf8 (bytes : List UInt8) : Option String := String.fromUTF8? ⟨bytes.toArray⟩

theorem toUTF8_toList (text : String) : text.toUTF8.data.toList = encode text.toList := by
  have bytes : text.toList.utf8Encode = text.toByteArray := String.utf8Encode_toList
  rw [List.utf8Encode] at bytes
  change text.toByteArray.data.toList = _
  rw [← bytes, List.data_toByteArray]
  rfl

theorem fromUtf8_eq_some_iff {bytes : List UInt8} {text : String} :
    fromUtf8 bytes = some text ↔ text.toUTF8.data.toList = bytes := by
  unfold fromUtf8 String.fromUTF8?
  split_ifs with valid
  · rw [Option.some_inj]
    constructor
    · rintro rfl
      rfl
    · rintro rfl
      rfl
  · refine iff_of_false (by simp) ?_
    rintro rfl
    exact valid text.isValidUTF8

theorem isValidUTF8_iff {bytes : List UInt8} :
    ByteArray.IsValidUTF8 ⟨bytes.toArray⟩ ↔ ∃ text : String, text.toUTF8.data.toList = bytes := by
  constructor
  · intro valid
    exact ⟨⟨⟨bytes.toArray⟩, valid⟩, rfl⟩
  · rintro ⟨text, rfl⟩
    exact text.isValidUTF8

/-- A character below 128 is its own byte, and the bytes of every other one are above. -/
theorem utf8EncodeChar_cases (char : Char) :
    char.toNat < 128 ∧ String.utf8EncodeChar char = [char.toNat.toUInt8] ∨
      128 ≤ char.toNat ∧ ∃ first rest, String.utf8EncodeChar char = first :: rest ∧
        ∀ byte ∈ first :: rest, 128 ≤ byte.toNat := by
  have high : ∀ value lead : ℕ, 128 ≤ lead → value + lead < 256 →
      128 ≤ (UInt8.ofNat (value + lead)).toNat := by
    intro value lead large fits
    rw [UInt8.toNat_ofNat', Nat.mod_eq_of_lt fits]
    omega
  unfold String.utf8EncodeChar
  change char.toNat < 128 ∧ _ ∨ 128 ≤ char.toNat ∧ _
  have value : char.val.toNat = char.toNat := rfl
  simp only [value]
  split_ifs with one two three
  · exact .inl ⟨by omega, rfl⟩
  all_goals
    refine .inr ⟨by omega, _, _, rfl, ?_⟩
    simp only [List.mem_cons, List.not_mem_nil, or_false, forall_eq_or_imp, forall_eq]
    and_intros <;> exact high _ _ (by omega) (by omega)

theorem encode_cons_ascii {char : Char} (ascii : char.toNat < 128) (chars : List Char) :
    encode (char :: chars) = char.toNat.toUInt8 :: encode chars := by
  rcases utf8EncodeChar_cases char with ⟨-, alone⟩ | ⟨large, -⟩
  · rw [encode_cons, alone, List.singleton_append]
  · omega

/-- Texts begin with the same characters below 128 as their bytes. -/
theorem encode_eq_cons {chars : List Char} {byte : UInt8} {bytes : List UInt8}
    (encoded : encode chars = byte :: bytes) (ascii : byte.toNat < 128) :
    ∃ char rest, chars = char :: rest ∧ char.toNat.toUInt8 = byte ∧ char.toNat < 128 ∧
      encode rest = bytes := by
  cases chars with
  | nil => simp at encoded
  | cons char rest =>
      rw [encode_cons] at encoded
      rcases utf8EncodeChar_cases char with ⟨small, alone⟩ | ⟨large, first, more, several, high⟩
      · rw [alone, List.singleton_append, List.cons.injEq] at encoded
        exact ⟨char, rest, rfl, encoded.1, small, encoded.2⟩
      · rw [several, List.cons_append, List.cons.injEq] at encoded
        have := high first (by simp)
        rw [encoded.1] at this
        omega

theorem encode_ascii {chars : List Char} (ascii : ∀ char ∈ chars, char.toNat < 128) :
    encode chars = chars.map fun char => char.toNat.toUInt8 := by
  induction chars with
  | nil => rfl
  | cons char rest induction =>
      rw [List.forall_mem_cons] at ascii
      rw [encode_cons_ascii ascii.1, induction ascii.2, List.map_cons]

theorem encode_lt_iff {chars : List Char} :
    (∀ byte ∈ encode chars, byte.toNat < 128) ↔ ∀ char ∈ chars, char.toNat < 128 := by
  constructor
  · intro ascii char contained
    rcases utf8EncodeChar_cases char with ⟨small, -⟩ | ⟨-, first, more, several, high⟩
    · exact small
    · have here : first ∈ encode chars :=
        List.mem_flatMap.mpr ⟨char, contained, by simp [several]⟩
      have := ascii first here
      have := high first (by simp)
      omega
  · intro ascii
    rw [encode_ascii ascii]
    rintro byte contained
    rcases List.mem_map.mp contained with ⟨char, inside, rfl⟩
    have small := ascii char inside
    exact Nat.lt_of_le_of_lt (Nat.mod_le _ _) small

/-! ## Sizes -/

theorem utf8ByteSize_join (texts : List String) :
    (String.join texts).utf8ByteSize = (texts.map String.utf8ByteSize).sum := by
  induction texts with
  | nil => rfl
  | cons text texts induction =>
      rw [String.join_cons, String.utf8ByteSize_append, induction, List.map_cons, List.sum_cons]

theorem utf8ByteSize_replicate {letter : Char} (small : (String.ofList [letter]).utf8ByteSize = 1)
    (count : ℕ) :
    (String.ofList (List.replicate count letter)).utf8ByteSize = count := by
  induction count with
  | zero => rfl
  | succ count induction =>
      rw [List.replicate_succ, ← List.singleton_append, String.ofList_append,
        String.utf8ByteSize_append, induction, small, Nat.add_comm]

end Utf8
