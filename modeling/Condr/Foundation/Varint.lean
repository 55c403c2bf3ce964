import Condr.Foundation.Protobuf

/-!
# Reading varints

A varint of 64 bits is read from at most ten bytes, padded forms included. The value a
reader gets has one shortest form, which is the one that is written.
-/

namespace Protobuf

/-- The digits of a value and how many bytes they take: none where the bytes end inside it, or
where the last digit that is allowed leaves no more than one bit. -/
def decodeDigits : ℕ → List UInt8 → Option (ℕ × ℕ)
  | 0, _ => none
  | _ + 1, [] => none
  | 1, byte :: _ => if byte.toNat < 2 then some (byte.toNat, 1) else none
  | steps + 2, byte :: rest =>
      if byte.toNat < 128 then some (byte.toNat, 1)
      else (decodeDigits (steps + 1) rest).map fun decoded =>
        (byte.toNat - 128 + 128 * decoded.1, decoded.2 + 1)

/-- `decode_varint`: the value, and the bytes it took. -/
def decodeVarint (bytes : List UInt8) : Option (ℕ × ℕ) := decodeDigits 10 bytes

/-- A value that `steps` digits hold. -/
def digitsBound (steps : ℕ) : ℕ := 2 * 128 ^ (steps - 1)

theorem decodeDigits_varintDigits {steps value : ℕ} (positive : 0 < steps)
    (small : value < digitsBound steps) (rest : List UInt8) :
    decodeDigits steps (varintDigits steps value ++ rest) =
      some (value, (varintDigits steps value).length) := by
  induction steps generalizing value with
  | zero => exact absurd positive (Nat.lt_irrefl 0)
  | succ steps induction =>
      cases steps with
      | zero =>
          have two : value < 2 := by simpa [digitsBound] using small
          have byte : (UInt8.ofNat value).toNat = value := by
            rw [UInt8.toNat_ofNat', Nat.mod_eq_of_lt (by omega)]
          rw [varintDigits, if_pos (by omega), List.singleton_append, decodeDigits, byte,
            if_pos two]
          rfl
      | succ steps =>
          rw [varintDigits]
          split_ifs with last
          · have byte : (UInt8.ofNat value).toNat = value := by
              rw [UInt8.toNat_ofNat', Nat.mod_eq_of_lt (by omega)]
            rw [List.singleton_append, decodeDigits, byte, if_pos last]
            rfl
          · have byte : (UInt8.ofNat (value % 128 + 128)).toNat = value % 128 + 128 := by
              rw [UInt8.toNat_ofNat', Nat.mod_eq_of_lt (by omega)]
            have less : value / 128 < digitsBound (steps + 1) := by
              apply Nat.div_lt_of_lt_mul
              rw [digitsBound, Nat.add_sub_cancel] at small ⊢
              rw [pow_succ] at small
              omega
            rw [List.cons_append, decodeDigits, byte, if_neg (by omega),
              induction (Nat.succ_pos _) less, Option.map_some, List.length_cons]
            congr 2
            omega

/-- What is written is read back. -/
theorem decodeVarint_varint {value : ℕ} (small : value < 2 ^ 64) (rest : List UInt8) :
    decodeVarint (varint value ++ rest) = some (value, (varint value).length) := by
  apply decodeDigits_varintDigits (by decide)
  have bound : digitsBound 10 = 2 ^ 64 := by decide
  rwa [bound]

/-- No form of a value is shorter than the written one, and one as short is it. -/
theorem decodeDigits_spec {steps value used : ℕ} {bytes : List UInt8}
    (decoded : decodeDigits steps bytes = some (value, used)) :
    value < digitsBound steps ∧ used ≤ bytes.length ∧ used ≤ steps ∧
      (varintDigits steps value).length ≤ used ∧
      (used = (varintDigits steps value).length → bytes.take used = varintDigits steps value) := by
  induction steps generalizing value used bytes with
  | zero => cases decoded
  | succ steps induction =>
      cases bytes with
      | nil => cases steps <;> cases decoded
      | cons byte rest =>
          have whole : UInt8.ofNat byte.toNat = byte := UInt8.ofNat_toNat
          cases steps with
          | zero =>
              rw [decodeDigits] at decoded
              split_ifs at decoded with two
              obtain ⟨rfl, rfl⟩ : byte.toNat = value ∧ 1 = used := by simpa using decoded
              rw [varintDigits, if_pos (by omega), whole]
              exact ⟨by simpa [digitsBound] using two, by simp, Nat.le_refl 1, Nat.le_refl 1,
                fun _ => rfl⟩
          | succ steps =>
              rw [decodeDigits] at decoded
              split_ifs at decoded with last
              · obtain ⟨rfl, rfl⟩ : byte.toNat = value ∧ 1 = used := by simpa using decoded
                rw [varintDigits, if_pos last, whole]
                refine ⟨?_, by simp, by omega, Nat.le_refl 1, fun _ => rfl⟩
                have := Nat.pow_pos (n := steps) (show 0 < 128 by decide)
                rw [digitsBound, Nat.add_sub_cancel, pow_succ]
                omega
              · rcases Option.map_eq_some_iff.mp decoded with ⟨⟨high, taken⟩, later, same⟩
                obtain ⟨rfl, rfl⟩ : byte.toNat - 128 + 128 * high = value ∧ taken + 1 = used := by
                  simpa using same
                rcases induction later with ⟨bound, inBytes, inSteps, shortest, unique⟩
                have byteSmall := byte.toNat_lt
                have digit : (byte.toNat - 128 + 128 * high) % 128 = byte.toNat - 128 := by omega
                have quotient : (byte.toNat - 128 + 128 * high) / 128 = high := by omega
                refine ⟨?_, by simpa using inBytes, by omega, ?_, ?_⟩
                · rw [digitsBound, Nat.add_sub_cancel] at bound ⊢
                  rw [pow_succ]
                  omega
                · rw [varintDigits]
                  split_ifs
                  · simp
                  · rw [quotient, List.length_cons]
                    omega
                · intro exact
                  rw [varintDigits] at exact ⊢
                  split_ifs at exact ⊢ with small
                  · -- a digit more than the value needs is not its shortest form
                    exfalso
                    rw [List.length_singleton] at exact
                    have zero : taken = 0 := by omega
                    rw [zero] at shortest
                    have positive : 0 < (varintDigits (steps + 1) high).length := by
                      rw [varintDigits]
                      split_ifs <;> simp
                    omega
                  · rw [quotient, List.length_cons] at exact
                    have high128 : 128 ≤ byte.toNat := by omega
                    rw [List.take_succ_cons, unique (by omega), quotient, digit,
                      Nat.sub_add_cancel high128, whole]

theorem decodeVarint_spec {value used : ℕ} {bytes : List UInt8}
    (decoded : decodeVarint bytes = some (value, used)) :
    value < 2 ^ 64 ∧ used ≤ bytes.length ∧ used ≤ 10 ∧ (varint value).length ≤ used ∧
      (used = (varint value).length → bytes.take used = varint value) := by
  have bound : digitsBound 10 = 2 ^ 64 := by decide
  rw [← bound]
  exact decodeDigits_spec decoded

/-- Bytes that say another one follows only shift what is read behind them. -/
theorem decodeDigits_append {front : List UInt8} (continued : ∀ byte ∈ front, 128 ≤ byte.toNat)
    (steps : ℕ) (rest : List UInt8) :
    (decodeDigits steps (front ++ rest)).map Prod.snd =
      (decodeDigits (steps - front.length) rest).map fun decoded => decoded.2 + front.length := by
  induction front generalizing steps with
  | nil => rfl
  | cons byte front induction =>
      rcases List.forall_mem_cons.mp continued with ⟨high, later⟩
      match steps with
      | 0 =>
          rw [Nat.zero_sub]
          rfl
      | 1 =>
          have nothing : 1 - (byte :: front).length = 0 := by simp
          have refused : decodeDigits 1 (byte :: (front ++ rest)) = none := if_neg (by omega)
          rw [nothing, List.cons_append, refused]
          rfl
      | steps + 2 =>
          have less : steps + 2 - (byte :: front).length = steps + 1 - front.length := by
            rw [List.length_cons]
            omega
          have shifted := induction later (steps + 1)
          rw [List.cons_append, decodeDigits, if_neg (by omega), less, Option.map_map]
          calc
            Option.map _ (decodeDigits (steps + 1) (front ++ rest)) =
                ((decodeDigits (steps + 1) (front ++ rest)).map Prod.snd).map (· + 1) :=
              (Option.map_map _ _ _).symm
            _ = _ := by
              rw [shifted, Option.map_map]
              rfl

/-- The first byte is the whole varint where it does not say that another one follows. -/
theorem used_of_last {steps value used : ℕ} {byte : UInt8} {rest : List UInt8}
    (last : byte.toNat < 128) (decoded : decodeDigits steps (byte :: rest) = some (value, used)) :
    used = 1 := by
  match steps with
  | 0 => cases decoded
  | 1 =>
      rw [decodeDigits] at decoded
      split_ifs at decoded
      exact (Prod.mk.inj (Option.some.inj decoded)).2.symm
  | steps + 2 =>
      rw [decodeDigits, if_pos last] at decoded
      exact (Prod.mk.inj (Option.some.inj decoded)).2.symm

/-- Behind bytes that say another one follows, the rest of the varint is read. -/
theorem decodeVarint_append {front rest : List UInt8} {value used : ℕ}
    (continued : ∀ byte ∈ front, 128 ≤ byte.toNat)
    (decoded : decodeVarint (front ++ rest) = some (value, used)) :
    ∃ high taken, decodeDigits (10 - front.length) rest = some (high, taken) ∧
      taken + front.length = used := by
  have shifted := decodeDigits_append continued 10 rest
  change (decodeVarint (front ++ rest)).map Prod.snd = _ at shifted
  rw [decoded] at shifted
  rcases Option.map_eq_some_iff.mp shifted.symm with ⟨⟨high, taken⟩, reads, same⟩
  exact ⟨high, taken, reads, same⟩

end Protobuf
