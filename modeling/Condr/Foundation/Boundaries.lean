import Condr.Foundation.Utf8

/-!
# Character boundaries and common ends

Where the bytes of a text may be cut, how many elements two lists have in common at either
end, and the loop that backs up from a count to one that is wanted.
-/

namespace Utf8

/-! ## Boundaries -/

/-- A byte inside the sequence of a character, not its first. -/
def continues (byte : UInt8) : Bool := 0x80 ≤ byte.toNat && byte.toNat < 0xc0

/-- `str::is_char_boundary`. -/
def isCharBoundary (bytes : List UInt8) (index : ℕ) : Bool :=
  if index = 0 then true
  else match bytes[index]? with
  | none => index = bytes.length
  | some byte => !continues byte

@[simp] theorem isCharBoundary_zero (bytes : List UInt8) : isCharBoundary bytes 0 = true := rfl

theorem isCharBoundary_length (bytes : List UInt8) :
    isCharBoundary bytes bytes.length = true := by
  unfold isCharBoundary
  split_ifs
  · rfl
  · simp

theorem continues_ofNat {value : ℕ} (small : value < 256) :
    continues (UInt8.ofNat value) = decide (128 ≤ value ∧ value < 192) := by
  rw [continues, UInt8.toNat_ofNat', Nat.mod_eq_of_lt small, Bool.decide_and]

theorem utf8EncodeChar_continues (char : Char) :
    ∃ first rest, String.utf8EncodeChar char = first :: rest ∧ continues first = false ∧
      ∀ byte ∈ rest, continues byte = true := by
  have inside : ∀ value, continues (UInt8.ofNat (value % 64 + 128)) = true := by
    intro value
    rw [continues_ofNat (by omega), decide_eq_true_eq]
    omega
  have starts : ∀ value, value < 128 ∨ 192 ≤ value ∧ value < 256 →
      continues (UInt8.ofNat value) = false := by
    intro value outside
    rw [continues_ofNat (by omega), decide_eq_false_iff_not]
    omega
  have bounded : char.val.toNat < 0x110000 := by
    rcases char.valid with small | ⟨-, large⟩
    · exact Nat.lt_trans small (by omega)
    · exact large
  unfold String.utf8EncodeChar
  dsimp only
  split_ifs with one two three
  · exact ⟨_, _, rfl, starts _ (by omega), by simp⟩
  all_goals
    refine ⟨_, _, rfl, starts _ (by omega), ?_⟩
    simp only [List.mem_cons, List.not_mem_nil, or_false, forall_eq_or_imp, forall_eq]
    and_intros <;> exact inside _

theorem encode_append (front back : List Char) :
    encode (front ++ back) = encode front ++ encode back :=
  List.flatMap_append

theorem encode_injective {left right : List Char} (same : encode left = encode right) :
    left = right := by
  have read : ∀ chars : List Char, fromUtf8 (encode chars) = some (String.ofList chars) := by
    intro chars
    rw [fromUtf8_eq_some_iff, toUTF8_toList, String.toList_ofList]
  have texts := (read left).symm.trans ((congrArg fromUtf8 same).trans (read right))
  rw [Option.some_inj] at texts
  exact String.ofList_injective texts

theorem length_encode (text : String) : (encode text.toList).length = text.utf8ByteSize := by
  rw [← toUTF8_toList]
  rfl

/-- The bytes are cut between two characters. -/
theorem isCharBoundary_encode_iff {chars : List Char} {index : ℕ} :
    isCharBoundary (encode chars) index = true ↔
      ∃ front back, chars = front ++ back ∧ (encode front).length = index := by
  constructor
  · intro boundary
    induction chars generalizing index with
    | nil =>
        refine ⟨[], [], rfl, ?_⟩
        unfold isCharBoundary at boundary
        split_ifs at boundary with start
        · exact start.symm
        · exact (of_decide_eq_true boundary).symm
    | cons char chars induction =>
        by_cases start : index = 0
        · exact ⟨[], char :: chars, rfl, start.symm⟩
        rcases utf8EncodeChar_continues char with ⟨first, rest, bytes, -, inside⟩
        rw [encode_cons, bytes] at boundary
        by_cases within : index < (first :: rest).length
        · -- an index within the character reads a byte that continues it
          exfalso
          rcases Nat.exists_eq_succ_of_ne_zero start with ⟨before, rfl⟩
          have shorter : before < rest.length := by simpa using within
          have found : (first :: rest ++ encode chars)[before + 1]? = some rest[before] := by
            rw [List.getElem?_append_left within, List.getElem?_cons_succ,
              List.getElem?_eq_getElem shorter]
          simp only [isCharBoundary, Nat.succ_eq_add_one, start, if_false, found] at boundary
          rw [inside _ (List.getElem_mem shorter)] at boundary
          cases boundary
        · have later : isCharBoundary (encode chars) (index - (first :: rest).length) = true := by
            unfold isCharBoundary at boundary ⊢
            rw [if_neg start, List.getElem?_append_right (by omega)] at boundary
            split_ifs
            · rfl
            cases found : (encode chars)[index - (first :: rest).length]? with
            | none =>
                simp only [found, List.length_append, decide_eq_true_eq] at boundary ⊢
                omega
            | some byte => simpa only [found] using boundary
          rcases induction later with ⟨front, back, rfl, length⟩
          refine ⟨char :: front, back, rfl, ?_⟩
          rw [encode_cons, bytes, List.length_append, length]
          omega
  · rintro ⟨front, back, rfl, rfl⟩
    rw [encode_append]
    unfold isCharBoundary
    split_ifs with start
    · rfl
    rw [List.getElem?_append_right (Nat.le_refl _), Nat.sub_self]
    cases back with
    | nil => simp
    | cons char back =>
        rcases utf8EncodeChar_continues char with ⟨first, rest, bytes, starts, -⟩
        simp [bytes, starts]

end Utf8

/-! ## Common ends -/

namespace Lists

variable {α : Type*}

/-- How many elements from the front are the same. -/
def common [DecidableEq α] (left right : List α) : ℕ :=
  ((left.zip right).takeWhile fun pair => pair.1 = pair.2).length

theorem le_common_iff [DecidableEq α] {left right : List α} {count : ℕ} :
    count ≤ common left right ↔
      count ≤ left.length ∧ count ≤ right.length ∧ left.take count = right.take count := by
  induction left generalizing right count with
  | nil =>
      simp only [common, List.zip_nil_left, List.takeWhile_nil, List.length_nil]
      constructor
      · intro none
        obtain rfl : count = 0 := by omega
        simp
      · exact fun within => within.1
  | cons first left induction =>
      cases right with
      | nil =>
          simp only [common, List.zip_nil_right, List.takeWhile_nil, List.length_nil]
          constructor
          · intro none
            obtain rfl : count = 0 := by omega
            simp
          · exact fun within => within.2.1
      | cons second right =>
          cases count with
          | zero => simp
          | succ count =>
              have rest := @induction right count
              unfold common at rest ⊢
              simp only [List.zip_cons_cons, List.takeWhile_cons, List.length_cons,
                List.take_succ_cons, List.cons.injEq, Nat.add_le_add_iff_right]
              by_cases same : first = second
              · simp only [same, decide_true, if_true, List.length_cons,
                  Nat.add_le_add_iff_right, true_and]
                exact rest
              · simp [same]

theorem le_takeWhile_take_iff {holds : α → Bool} {list : List α} {room count : ℕ} :
    count ≤ ((list.take room).takeWhile holds).length ↔
      count ≤ room ∧ count ≤ (list.takeWhile holds).length := by
  induction list generalizing room count with
  | nil =>
      simp only [List.take_nil, List.takeWhile_nil, List.length_nil]
      omega
  | cons first list induction =>
      cases room with
      | zero => simp only [List.take_zero, List.takeWhile_nil, List.length_nil]; omega
      | succ room =>
          simp only [List.take_succ_cons, List.takeWhile_cons]
          cases holds first with
          | false => simp only [Bool.false_eq_true, if_false, List.length_nil]; omega
          | true =>
              cases count with
              | zero => simp
              | succ count => simpa using @induction room count

end Lists

/-! ## Backing up -/

/-- A subtraction on `usize`: none below zero. -/
def checkedSub (left right : ℕ) : Option ℕ := if right ≤ left then some (left - right) else none

theorem checkedSub_of_le {left right : ℕ} (less : right ≤ left) :
    checkedSub left right = some (left - right) :=
  if_pos less

/-- `while !wanted(index) { index -= 1 }`: none where a test fails or the index would pass
below zero. -/
def backUp (wanted : ℕ → Option Bool) : ℕ → Option ℕ
  | 0 => do if ← wanted 0 then some 0 else none
  | index + 1 => do if ← wanted (index + 1) then some (index + 1) else backUp wanted index

/-- The loop stops at the greatest index that is wanted, where zero is. -/
theorem backUp_spec {wanted : ℕ → Option Bool} {good : ℕ → Bool} {index : ℕ}
    (tests : ∀ other ≤ index, wanted other = some (good other)) (zero : good 0 = true) :
    ∃ result ≤ index, backUp wanted index = some result ∧ good result = true ∧
      ∀ other ≤ index, good other = true → other ≤ result := by
  induction index with
  | zero => exact ⟨0, Nat.le_refl _, by simp [backUp, tests 0, zero], zero, fun other less _ => less⟩
  | succ index induction =>
      by_cases here : good (index + 1) = true
      · exact ⟨index + 1, Nat.le_refl _, by simp [backUp, tests _ (Nat.le_refl _), here], here,
          fun other less _ => less⟩
      · rcases induction fun other less => tests other (by omega) with
          ⟨result, less, stops, wanted, greatest⟩
        refine ⟨result, by omega, by simp [backUp, tests _ (Nat.le_refl _), here, stops], wanted, ?_⟩
        intro other within isGood
        apply greatest other _ isGood
        rcases Nat.lt_or_eq_of_le within with less | same
        · omega
        · exact absurd (same ▸ isGood) here
