import Condr.Foundation.Hexadecimal

/-!
# Components of a URI

Percent escapes are read strictly: an escape is two digits, and all that is not escaped
stays. The digits go through the standard parser of a byte, which has a sign of its own, so
the decoder reads a text as it would be with a zero for each plus behind a percent.
-/

namespace Condr

open Hexadecimal (IsDigit byteOf parsePair unsign)

/-- The bytes with each escape replaced. -/
def percentBytes : List UInt8 → Option (List UInt8)
  | [] => some []
  | byte :: bytes =>
      if byte = 37 then
        match bytes with
        | high :: low :: rest => do
            let value ← parsePair [high, low]
            let decoded ← percentBytes rest
            return value :: decoded
        | _ => none
      else do
        let decoded ← percentBytes bytes
        return byte :: decoded

def percentDecode (input : String) : Option String := do
  let decoded ← percentBytes input.toUTF8.data.toList
  Utf8.fromUtf8 decoded

/-! ## What a strict decoder does -/

/-- Every percent has two hexadecimal digits behind it. -/
def WellEscaped (chars : List Char) : Prop :=
  ∀ front back, chars = front ++ '%' :: back →
    ∃ high low rest, back = high :: low :: rest ∧ IsDigit high ∧ IsDigit low

/-- The bytes of a text, with those of each escape replaced by the one it stands for. -/
def unescaped : List Char → List UInt8
  | '%' :: high :: low :: rest => byteOf high low :: unescaped rest
  | char :: rest => String.utf8EncodeChar char ++ unescaped rest
  | [] => []

/-- Strict decoding: it succeeds on well escaped texts that stand for text, and replaces the
escapes and nothing else. -/
structure DecodesStrictly (input : String) : Prop where
  succeeds : (percentDecode input).isSome ↔
    WellEscaped input.toList ∧ ByteArray.IsValidUTF8 ⟨(unescaped input.toList).toArray⟩
  replaces : ∀ text, percentDecode input = some text →
    text.toUTF8.data.toList = unescaped input.toList

/-! ## Texts by their first characters -/

variable {char high low : Char} {chars rest : List Char}

theorem wellEscaped_nil : WellEscaped [] := by
  intro front back split
  simp at split

theorem WellEscaped.tail (escaped : WellEscaped (char :: rest)) : WellEscaped rest := by
  intro front back split
  exact escaped (char :: front) back (by rw [split, List.cons_append])

theorem wellEscaped_cons (plain : char ≠ '%') : WellEscaped (char :: rest) ↔ WellEscaped rest := by
  constructor
  · exact WellEscaped.tail
  · intro escaped front back split
    cases front with
    | nil => exact absurd (List.cons.inj split).1 plain
    | cons first front => exact escaped front back (List.cons.inj split).2

theorem wellEscaped_escape :
    WellEscaped ('%' :: high :: low :: rest) ↔ IsDigit high ∧ IsDigit low ∧ WellEscaped rest := by
  constructor
  · intro escaped
    rcases escaped [] _ rfl with ⟨first, second, more, same, highDigit, lowDigit⟩
    simp only [List.cons.injEq] at same
    rw [← same.1] at highDigit
    rw [← same.2.1] at lowDigit
    refine ⟨highDigit, lowDigit, fun front back split => ?_⟩
    exact escaped ('%' :: high :: low :: front) back (by rw [split]; rfl)
  · rintro ⟨highDigit, lowDigit, escaped⟩ front back split
    cases front with
    | nil => exact ⟨high, low, rest, (List.cons.inj split).2.symm, highDigit, lowDigit⟩
    | cons first front =>
        have behind := (List.cons.inj split).2
        rw [← wellEscaped_cons lowDigit.ne_percent, ← wellEscaped_cons highDigit.ne_percent]
          at escaped
        exact escaped front back behind

/-- An escape that the text ends in is cut. -/
theorem not_wellEscaped_short (short : rest.length < 2) : ¬WellEscaped ('%' :: rest) := by
  intro escaped
  rcases escaped [] _ rfl with ⟨high, low, more, same, -, -⟩
  rw [same, List.length_cons, List.length_cons] at short
  omega

theorem unescaped_cons (plain : char ≠ '%') :
    unescaped (char :: rest) = String.utf8EncodeChar char ++ unescaped rest := by
  rw [unescaped]
  rintro high low more same
  exact absurd same plain

theorem unescaped_escape : unescaped ('%' :: high :: low :: rest) = byteOf high low :: unescaped rest := by
  rw [unescaped]

/-! ## Signs -/

/-- The text with a zero for each plus behind a percent. -/
def unsigned : List Char → List Char
  | '%' :: '+' :: rest => '%' :: '0' :: unsigned rest
  | char :: rest => char :: unsigned rest
  | [] => []

attribute [local simp] unsigned

theorem unsigned_cons (plain : char ≠ '%') : unsigned (char :: rest) = char :: unsigned rest := by
  rw [unsigned]
  rintro more same
  exact absurd same plain

theorem unsigned_percent : unsigned ('%' :: high :: rest) =
    if high = '+' then '%' :: '0' :: unsigned rest else '%' :: unsigned (high :: rest) := by
  split_ifs with sign
  · rw [sign, unsigned]
  · rw [unsigned]
    intro more _ same
    exact absurd (List.cons.inj same).1 sign

theorem length_unsigned (chars : List Char) : (unsigned chars).length = chars.length := by
  fun_induction unsigned chars with
  | case1 rest induction => simp [induction]
  | case2 char rest signed induction => simp [induction]
  | case3 => rfl

theorem exists_unsigned (char : Char) (rest : List Char) :
    ∃ more, unsigned (char :: rest) = char :: more := by
  by_cases percent : char = '%'
  · subst percent
    cases rest with
    | nil => exact ⟨[], rfl⟩
    | cons high rest =>
        rw [unsigned_percent]
        split_ifs
        · exact ⟨_, rfl⟩
        · exact ⟨_, rfl⟩
  · exact ⟨_, unsigned_cons percent⟩

/-- The first character of an escape loses its sign; behind one that is no percent the text
goes on as it would by itself. -/
theorem unsigned_escape (high : Char) (rest : List Char) :
    ∃ more, unsigned ('%' :: high :: rest) = '%' :: unsign high :: more ∧
      (high ≠ '%' → more = unsigned rest) := by
  rw [unsigned_percent]
  by_cases sign : high = '+'
  · rw [if_pos sign, unsign, if_pos sign]
    exact ⟨_, rfl, fun _ => rfl⟩
  · rw [if_neg sign, unsign, if_neg sign]
    rcases exists_unsigned high rest with ⟨more, found⟩
    refine ⟨more, by rw [found], fun plain => ?_⟩
    rw [unsigned_cons plain] at found
    exact (List.cons.inj found).2.symm

theorem unsigned_digits (highDigit : IsDigit (unsign high)) (lowDigit : IsDigit low) :
    unsigned ('%' :: high :: low :: rest) = '%' :: unsign high :: low :: unsigned rest := by
  rcases unsigned_escape high (low :: rest) with ⟨more, same, behind⟩
  have plain : high ≠ '%' := by
    rintro rfl
    exact absurd rfl highDigit.ne_percent
  rw [same, behind plain, unsigned_cons lowDigit.ne_percent]

theorem wellEscaped_unsigned :
    WellEscaped (unsigned ('%' :: high :: low :: rest)) ↔
      IsDigit (unsign high) ∧ IsDigit low ∧ WellEscaped (unsigned rest) := by
  constructor
  · intro escaped
    rcases unsigned_escape high (low :: rest) with ⟨more, same, behind⟩
    have digits := escaped
    rw [same] at digits
    rcases digits [] _ rfl with ⟨first, second, last, found, highDigit, lowDigit⟩
    simp only [List.cons.injEq] at found
    rw [← found.1] at highDigit
    have plain : high ≠ '%' := by
      rintro rfl
      exact absurd rfl highDigit.ne_percent
    rcases exists_unsigned low rest with ⟨tail, lowFirst⟩
    rw [behind plain, lowFirst, List.cons.injEq] at found
    rw [← found.2.1] at lowDigit
    rw [unsigned_digits highDigit lowDigit, wellEscaped_escape] at escaped
    exact escaped
  · rintro ⟨highDigit, lowDigit, escaped⟩
    rw [unsigned_digits highDigit lowDigit, wellEscaped_escape]
    exact ⟨highDigit, lowDigit, escaped⟩

/-! ## The decoder -/

theorem percentBytes_plain {byte : UInt8} (plain : byte ≠ 37) (bytes : List UInt8) :
    percentBytes (byte :: bytes) = (percentBytes bytes).map (byte :: ·) := by
  rw [percentBytes.eq_def]
  dsimp only
  rw [if_neg plain]
  cases percentBytes bytes <;> rfl

theorem percentBytes_append {bytes : List UInt8} (plain : ∀ byte ∈ bytes, byte ≠ 37)
    (rest : List UInt8) : percentBytes (bytes ++ rest) = (percentBytes rest).map (bytes ++ ·) := by
  induction bytes with
  | nil => simp
  | cons byte bytes induction =>
      rw [List.forall_mem_cons] at plain
      rw [List.cons_append, percentBytes_plain plain.1, induction plain.2, Option.map_map]
      rfl

theorem utf8EncodeChar_ne_percent (plain : char ≠ '%') :
    ∀ byte ∈ String.utf8EncodeChar char, byte ≠ 37 := by
  rcases Utf8.utf8EncodeChar_cases char with ⟨small, alone⟩ | ⟨-, first, more, several, high⟩
  · rw [alone]
    simp only [List.mem_singleton, forall_eq]
    intro percent
    apply plain
    have code := congrArg UInt8.toNat percent
    rw [show char.toNat.toUInt8.toNat = char.toNat from Nat.mod_eq_of_lt (by omega)] at code
    exact Char.toNat_inj.mp code
  · rw [several]
    rintro byte contained rfl
    have := high 37 contained
    revert this
    decide

theorem percentBytes_percent {bytes decoded : List UInt8} :
    percentBytes (37 :: bytes) = some decoded ↔
      ∃ first second rest value tail, bytes = first :: second :: rest ∧
        parsePair [first, second] = some value ∧ percentBytes rest = some tail ∧
        decoded = value :: tail := by
  rw [percentBytes.eq_def]
  dsimp only
  rw [if_pos rfl]
  match bytes with
  | [] => simp
  | [_] => simp
  | first :: second :: rest =>
      simp only [Option.bind_eq_bind, Option.bind_eq_some_iff, Option.pure_def, Option.some_inj]
      constructor
      · rintro ⟨value, parsed, tail, read, rfl⟩
        exact ⟨first, second, rest, value, tail, rfl, parsed, read, rfl⟩
      · rintro ⟨_, _, _, value, tail, same, parsed, read, rfl⟩
        cases same
        exact ⟨value, parsed, tail, read, rfl⟩

/-- An escape of the text is one of its bytes only where two characters below 128 make it. -/
theorem percentBytes_escape {chars : List Char} {decoded : List UInt8} :
    percentBytes (37 :: Utf8.encode chars) = some decoded ↔
      ∃ high low rest tail, chars = high :: low :: rest ∧ IsDigit (unsign high) ∧ IsDigit low ∧
        percentBytes (Utf8.encode rest) = some tail ∧
        decoded = byteOf (unsign high) low :: tail := by
  rw [percentBytes_percent]
  constructor
  · rintro ⟨first, second, bytes, value, tail, split, parsed, read, rfl⟩
    rcases Hexadecimal.ascii_of_parsePair parsed with ⟨firstAscii, secondAscii⟩
    rcases Utf8.encode_eq_cons split firstAscii with ⟨high, behind, rfl, rfl, highAscii, split⟩
    rcases Utf8.encode_eq_cons split secondAscii with ⟨low, rest, rfl, rfl, lowAscii, rfl⟩
    rcases (Hexadecimal.parsePair_eq_some_iff highAscii lowAscii).mp parsed
      with ⟨highDigit, lowDigit, rfl⟩
    exact ⟨high, low, rest, tail, rfl, highDigit, lowDigit, read, rfl⟩
  · rintro ⟨high, low, rest, tail, rfl, highDigit, lowDigit, read, rfl⟩
    have highAscii : high.toNat < 128 := Hexadecimal.lt_of_unsign highDigit
    have lowAscii : low.toNat < 128 := lowDigit.lt
    refine ⟨high.toNat.toUInt8, low.toNat.toUInt8, Utf8.encode rest, _, tail, ?_,
      (Hexadecimal.parsePair_eq_some_iff highAscii lowAscii).mpr ⟨highDigit, lowDigit, rfl⟩,
      read, rfl⟩
    rw [Utf8.encode_cons_ascii highAscii, Utf8.encode_cons_ascii lowAscii]

/-- The decoder reads every text as the one without its signs. -/
theorem percentBytes_encode (chars : List Char) (decoded : List UInt8) :
    percentBytes (Utf8.encode chars) = some decoded ↔
      WellEscaped (unsigned chars) ∧ decoded = unescaped (unsigned chars) := by
  -- an escape takes three characters, so the induction is on the length
  induction size : chars.length using Nat.strongRecOn generalizing chars decoded with
  | ind size induction =>
  match chars with
  | [] =>
      simp only [Utf8.encode_nil, percentBytes, unsigned, wellEscaped_nil, unescaped, true_and,
        Option.some_inj, eq_comm]
  | char :: rest =>
      by_cases percent : char = '%'
      · subst percent
        rw [Utf8.encode_cons_ascii (by decide)]
        change percentBytes (37 :: Utf8.encode rest) = _ ↔ _
        rw [percentBytes_escape]
        match rest with
        | [] => simp [unsigned, not_wellEscaped_short]
        | [high] =>
            refine iff_of_false (by simp) fun escaped => ?_
            rcases unsigned_escape high [] with ⟨more, same, -⟩
            have short := congrArg List.length same
            rw [length_unsigned] at short
            rw [same] at escaped
            exact not_wellEscaped_short (by
              simp only [List.length_cons, List.length_nil] at short ⊢
              omega) escaped.1
        | high :: low :: rest =>
            simp only [List.length_cons] at size
            rw [wellEscaped_unsigned]
            constructor
            · rintro ⟨_, _, _, tail, same, highDigit, lowDigit, read, rfl⟩
              cases same
              rcases (induction rest.length (by omega) rest tail rfl).mp read with ⟨escaped, rfl⟩
              refine ⟨⟨highDigit, lowDigit, escaped⟩, ?_⟩
              rw [unsigned_digits highDigit lowDigit, unescaped_escape]
            · rintro ⟨⟨highDigit, lowDigit, escaped⟩, rfl⟩
              refine ⟨high, low, rest, unescaped (unsigned rest), rfl, highDigit, lowDigit, ?_, ?_⟩
              · exact (induction rest.length (by omega) rest _ rfl).mpr ⟨escaped, rfl⟩
              · rw [unsigned_digits highDigit lowDigit, unescaped_escape]
      · have read := induction rest.length (by simp at size; omega) rest
        rw [Utf8.encode_cons, percentBytes_append (utf8EncodeChar_ne_percent percent),
          unsigned_cons percent, wellEscaped_cons percent, unescaped_cons percent,
          Option.map_eq_some_iff]
        constructor
        · rintro ⟨tail, found, rfl⟩
          rcases (read tail rfl).mp found with ⟨escaped, rfl⟩
          exact ⟨escaped, rfl⟩
        · rintro ⟨escaped, rfl⟩
          exact ⟨_, (read _ rfl).mpr ⟨escaped, rfl⟩, rfl⟩

theorem percentDecode_eq_some_iff {input text : String} :
    percentDecode input = some text ↔
      WellEscaped (unsigned input.toList) ∧
        text.toUTF8.data.toList = unescaped (unsigned input.toList) := by
  unfold percentDecode
  simp only [Option.bind_eq_bind, Option.bind_eq_some_iff, Utf8.toUTF8_toList input,
    percentBytes_encode, Utf8.fromUtf8_eq_some_iff]
  constructor
  · rintro ⟨_, ⟨escaped, rfl⟩, written⟩
    exact ⟨escaped, written⟩
  · rintro ⟨escaped, written⟩
    exact ⟨_, ⟨escaped, rfl⟩, written⟩

/-! ## Where the decoder is strict -/

/-- No escape of a well escaped text has a sign. -/
theorem unsigned_eq_self (escaped : WellEscaped chars) : unsigned chars = chars := by
  fun_induction unsigned chars with
  | case1 rest induction =>
      rcases escaped [] _ rfl with ⟨high, low, more, same, digit, -⟩
      rw [← (List.cons.inj same).1] at digit
      exact absurd rfl digit.ne_plus
  | case2 char rest signed induction => rw [induction escaped.tail]
  | case3 => rfl

theorem percentDecode_isSome_iff {input : String} :
    (percentDecode input).isSome ↔
      WellEscaped (unsigned input.toList) ∧
        ByteArray.IsValidUTF8 ⟨(unescaped (unsigned input.toList)).toArray⟩ := by
  simp only [Option.isSome_iff_exists, percentDecode_eq_some_iff, exists_and_left,
    Utf8.isValidUTF8_iff]

/-- Decoding is strict except on texts with a signed escape that are well escaped and stand
for text without their signs. -/
theorem decodesStrictly_iff (input : String) :
    DecodesStrictly input ↔
      ¬(unsigned input.toList ≠ input.toList ∧ WellEscaped (unsigned input.toList) ∧
        ByteArray.IsValidUTF8 ⟨(unescaped (unsigned input.toList)).toArray⟩) := by
  constructor
  · rintro strict ⟨signed, decodes⟩
    have escaped := (strict.succeeds.mp (percentDecode_isSome_iff.mpr decodes)).1
    exact signed (unsigned_eq_self escaped)
  · intro otherwise
    by_cases signed : unsigned input.toList = input.toList
    · constructor
      · rw [percentDecode_isSome_iff, signed]
      · intro text decoded
        have written := (percentDecode_eq_some_iff.mp decoded).2
        rwa [signed] at written
    · have fails : percentDecode input = none := by
        rw [← Option.not_isSome_iff_eq_none, percentDecode_isSome_iff]
        exact fun decodes => otherwise ⟨signed, decodes⟩
      constructor
      · rw [fails]
        refine iff_of_false (by simp) fun decodes => ?_
        exact signed (unsigned_eq_self decodes.1)
      · intro text decoded
        rw [fails] at decoded
        cases decoded

end Condr
