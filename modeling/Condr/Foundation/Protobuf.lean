import Mathlib.Algebra.BigOperators.Group.List.Basic
import Mathlib.Tactic.Common
import Mathlib.Tactic.Ring
import Mathlib.Algebra.GroupWithZero.Nat

/-!
# The protobuf encoding

Messages as lists of fields, their bytes, and how long they are. A nested message
is the bytes of its own fields. The field helpers follow proto3: a field without
explicit presence is left out when it has its default value.
-/

namespace Protobuf

/-! ## Varints -/

/-- At most `steps` digits to the base 128, least significant first; all but the last have
their high bit set. -/
def varintDigits : ℕ → ℕ → List UInt8
  | 0, _ => []
  | steps + 1, value =>
      if value < 128 then [UInt8.ofNat value]
      else UInt8.ofNat (value % 128 + 128) :: varintDigits steps (value / 128)

/-- A varint of 64 bits. -/
def varint (value : ℕ) : List UInt8 :=
  varintDigits 10 value

theorem length_varintDigits_le (steps value : ℕ) : (varintDigits steps value).length ≤ steps := by
  induction steps generalizing value with
  | zero => simp [varintDigits]
  | succ steps ih =>
      simp only [varintDigits]
      split
      · simp
      · simpa using ih (value / 128)

theorem length_varintDigits_le_of_lt {steps value bytes : ℕ} (positive : 0 < bytes)
    (small : value < 128 ^ bytes) : (varintDigits steps value).length ≤ bytes := by
  induction steps generalizing value bytes with
  | zero => simp [varintDigits]
  | succ steps ih =>
      simp only [varintDigits]
      split
      · exact positive
      · rename_i large
        rcases bytes with _ | _ | bytes
        · omega
        · omega
        · have shorter : value / 128 < 128 ^ (bytes + 1) :=
            Nat.div_lt_of_lt_mul (by rwa [← pow_succ'])
          simpa using ih (Nat.succ_pos _) shorter

theorem length_varint_le (value : ℕ) : (varint value).length ≤ 10 :=
  length_varintDigits_le 10 value

/-- A value below `128 ^ n` takes at most `n` bytes. -/
theorem length_varint_le_of_lt {value bytes : ℕ} (positive : 0 < bytes)
    (small : value < 128 ^ bytes) : (varint value).length ≤ bytes :=
  length_varintDigits_le_of_lt positive small

theorem length_varint_pos (value : ℕ) : 0 < (varint value).length := by
  simp only [varint, varintDigits]
  split <;> simp

/-! ## Fields -/

/-- A field of a message, by wire type. -/
inductive Field where
  | varint (number value : ℕ)
  | fixed32 (number bits : ℕ)
  | bytes (number : ℕ) (payload : List UInt8)

def Field.encode : Field → List UInt8
  | varint number value => Protobuf.varint (number * 8) ++ Protobuf.varint value
  | fixed32 number bits =>
      Protobuf.varint (number * 8 + 5) ++
        [UInt8.ofNat bits, UInt8.ofNat (bits / 256), UInt8.ofNat (bits / 65536),
          UInt8.ofNat (bits / 16777216)]
  | bytes number payload =>
      Protobuf.varint (number * 8 + 2) ++ Protobuf.varint payload.length ++ payload

/-- The bytes of a message. -/
def encode (fields : List Field) : List UInt8 :=
  fields.flatMap Field.encode

@[simp]
theorem encode_nil : encode [] = [] := rfl

@[simp]
theorem encode_append (front back : List Field) :
    encode (front ++ back) = encode front ++ encode back := by
  simp [encode]

/-- `encoded_len`. -/
def encodedLen (fields : List Field) : ℕ :=
  (encode fields).length

@[simp]
theorem encodedLen_nil : encodedLen [] = 0 := rfl

@[simp]
theorem encodedLen_append (front back : List Field) :
    encodedLen (front ++ back) = encodedLen front + encodedLen back := by
  simp [encodedLen]

/-- The length of a field that holds bytes. -/
def bytesLen (number length : ℕ) : ℕ :=
  (varint (number * 8 + 2)).length + (varint length).length + length

theorem encodedLen_bytes (number : ℕ) (payload : List UInt8) :
    encodedLen [.bytes number payload] = bytesLen number payload.length := by
  simp [encodedLen, encode, Field.encode, bytesLen, Nat.add_assoc]

/-! ## The kinds of field -/

def utf8 (text : String) : List UInt8 :=
  text.toUTF8.data.toList

theorem length_utf8 (text : String) : (utf8 text).length = text.utf8ByteSize := by
  simp only [utf8, Array.length_toList]
  rfl

/-- An integer or enum field. -/
def uint (number value : ℕ) : List Field :=
  if value = 0 then [] else [.varint number value]

/-- A signed field: the two's complement of 64 bits. -/
def int (number : ℕ) (value : ℤ) : List Field :=
  uint number (value % 2 ^ 64).toNat

def flag (number : ℕ) (value : Bool) : List Field :=
  uint number value.toNat

def float (number bits : ℕ) : List Field :=
  if bits = 0 then [] else [.fixed32 number bits]

def string (number : ℕ) (text : String) : List Field :=
  if text.isEmpty then [] else [.bytes number (utf8 text)]

def bytes (number : ℕ) (payload : List UInt8) : List Field :=
  if payload.isEmpty then [] else [.bytes number payload]

/-- A string with explicit presence. -/
def optionalString (number : ℕ) (text : Option String) : List Field :=
  text.toList.map fun text => .bytes number (utf8 text)

/-- An integer with explicit presence, or a member of a oneof. -/
def memberUint (number value : ℕ) : List Field :=
  [.varint number value]

/-- An integer with explicit presence. -/
def optionalUint (number : ℕ) (value : Option ℕ) : List Field :=
  value.toList.flatMap (memberUint number)

def memberString (number : ℕ) (text : String) : List Field :=
  [.bytes number (utf8 text)]

/-- A message that is set, or a member of a oneof. -/
def message (number : ℕ) (fields : List Field) : List Field :=
  [.bytes number (encode fields)]

def optionalMessage (number : ℕ) (fields : Option (List Field)) : List Field :=
  fields.toList.flatMap (message number)

def repeatedMessage (number : ℕ) (messages : List (List Field)) : List Field :=
  messages.flatMap (message number)

def repeatedString (number : ℕ) (texts : List String) : List Field :=
  texts.map fun text => .bytes number (utf8 text)

/-- A repeated integer field is packed. -/
def packed (number : ℕ) (values : List ℕ) : List Field :=
  if values.isEmpty then [] else [.bytes number (values.flatMap varint)]

/-! ## Lengths -/

theorem encodedLen_message (number : ℕ) (fields : List Field) :
    encodedLen (message number fields) = bytesLen number (encodedLen fields) :=
  encodedLen_bytes number (encode fields)

theorem encodedLen_memberString (number : ℕ) (text : String) :
    encodedLen (memberString number text) = bytesLen number text.utf8ByteSize := by
  rw [memberString, encodedLen_bytes, length_utf8]

/-- A field number below 16 takes one byte. -/
theorem length_tag {number : ℕ} (small : number < 16) (kind : ℕ) (known : kind < 8) :
    (varint (number * 8 + kind)).length = 1 := by
  have := length_varint_le_of_lt Nat.one_pos (show number * 8 + kind < 128 ^ 1 by omega)
  have := length_varint_pos (number * 8 + kind)
  omega

theorem bytesLen_eq {number : ℕ} (small : number < 16) (length : ℕ) :
    bytesLen number length = 1 + (varint length).length + length := by
  rw [bytesLen, length_tag small 2 (by omega)]

theorem bytesLen_le (number length : ℕ) : bytesLen number length ≤ length + 20 := by
  have tag := length_varint_le (number * 8 + 2)
  have size := length_varint_le length
  unfold bytesLen
  omega

theorem le_bytesLen (number length : ℕ) : length + 2 ≤ bytesLen number length := by
  have tag := length_varint_pos (number * 8 + 2)
  have size := length_varint_pos length
  unfold bytesLen
  omega

theorem encodedLen_repeatedMessage (number : ℕ) (messages : List (List Field)) :
    encodedLen (repeatedMessage number messages) =
      (messages.map fun fields => bytesLen number (encodedLen fields)).sum := by
  induction messages with
  | nil => rfl
  | cons fields messages ih =>
      rw [repeatedMessage, List.flatMap_cons, encodedLen_append, encodedLen_message,
        List.map_cons, List.sum_cons, ← ih]
      rfl

/-- The length of an integer field. -/
def uintLen (number value : ℕ) : ℕ :=
  if value = 0 then 0 else (varint (number * 8)).length + (varint value).length

/-- The length of a text field, from the size of the text. -/
def stringLen (number size : ℕ) : ℕ :=
  if size = 0 then 0 else bytesLen number size

theorem encodedLen_memberUint (number value : ℕ) :
    encodedLen (memberUint number value) =
      (varint (number * 8)).length + (varint value).length := by
  simp [encodedLen, encode, memberUint, Field.encode]

@[simp]
theorem encodedLen_uint (number value : ℕ) :
    encodedLen (uint number value) = uintLen number value := by
  unfold uint uintLen
  split_ifs
  · rfl
  · exact encodedLen_memberUint number value

@[simp]
theorem encodedLen_flag (number : ℕ) (value : Bool) :
    encodedLen (flag number value) = uintLen number value.toNat :=
  encodedLen_uint number value.toNat

@[simp]
theorem encodedLen_int (number : ℕ) (value : ℤ) :
    encodedLen (int number value) = uintLen number (value % 2 ^ 64).toNat :=
  encodedLen_uint number _

@[simp]
theorem encodedLen_string (number : ℕ) (text : String) :
    encodedLen (string number text) = stringLen number text.utf8ByteSize := by
  by_cases blank : text = ""
  · simp [string, stringLen, blank]
  · have present : text.isEmpty = false := by simpa using blank
    have positive : text.utf8ByteSize ≠ 0 := by simpa using blank
    rw [string, present, if_neg Bool.false_ne_true, stringLen, if_neg positive, encodedLen_bytes,
      length_utf8]

@[simp]
theorem encodedLen_optionalString (number : ℕ) (text : Option String) :
    encodedLen (optionalString number text) =
      (text.map fun text => bytesLen number text.utf8ByteSize).getD 0 := by
  cases text with
  | none => rfl
  | some text => exact encodedLen_memberString number text

@[simp]
theorem encodedLen_optionalMessage (number : ℕ) (fields : Option (List Field)) :
    encodedLen (optionalMessage number fields) =
      (fields.map fun fields => bytesLen number (encodedLen fields)).getD 0 := by
  cases fields with
  | none => rfl
  | some fields => simpa [optionalMessage] using encodedLen_message number fields

theorem encodedLen_repeatedString (number : ℕ) (texts : List String) :
    encodedLen (repeatedString number texts) =
      (texts.map fun text => bytesLen number text.utf8ByteSize).sum := by
  induction texts with
  | nil => rfl
  | cons text texts ih =>
      rw [List.map_cons, List.sum_cons, ← ih, ← encodedLen_memberString, ← encodedLen_append]
      rfl

theorem uintLen_le_of_lt {number value digits : ℕ} (small : number < 16) (positive : 0 < digits)
    (fits : value < 128 ^ digits) : uintLen number value ≤ digits + 1 := by
  have tag := length_tag small 0 (by omega)
  have size := length_varint_le_of_lt positive fits
  unfold uintLen
  split_ifs
  · omega
  · rw [Nat.add_zero] at tag
    omega

theorem uintLen_le (number value : ℕ) (small : number < 16) :
    uintLen number value ≤ 11 := by
  have tag := length_tag small 0 (by omega)
  have size := length_varint_le value
  unfold uintLen
  split_ifs
  · omega
  · rw [Nat.add_zero] at tag
    omega

theorem bytesLen_le_add (number length : ℕ) (small : number < 16) :
    bytesLen number length ≤ length + 11 := by
  have size := length_varint_le length
  rw [bytesLen_eq small]
  omega

theorem stringLen_le (number size : ℕ) (small : number < 16) :
    stringLen number size ≤ size + 11 := by
  unfold stringLen
  split_ifs
  · exact Nat.zero_le _
  · exact bytesLen_le_add number size small

theorem le_stringLen (number size : ℕ) : size ≤ stringLen number size := by
  unfold stringLen
  split_ifs with empty
  · exact Nat.le_of_eq empty
  · exact Nat.le_of_add_right_le (le_bytesLen number size)

/-- A text field is little longer than the text. -/
theorem stringLen_spec (number size : ℕ) (small : number < 16) :
    size ≤ stringLen number size ∧ stringLen number size ≤ size + 11 :=
  ⟨le_stringLen number size, stringLen_le number size small⟩

theorem bytesLen_spec (number length : ℕ) (small : number < 16) :
    length + 2 ≤ bytesLen number length ∧ bytesLen number length ≤ length + 11 :=
  ⟨le_bytesLen number length, bytesLen_le_add number length small⟩

theorem encodedLen_bytes_le {number : ℕ} (small : number < 16) (payload : List UInt8) :
    encodedLen (bytes number payload) ≤
      1 + (varint payload.length).length + payload.length := by
  unfold bytes
  split_ifs
  · simp
  · rw [encodedLen_bytes, bytesLen_eq small]

theorem encodedLen_packed_le (number : ℕ) (values : List UInt32)
    (small : number < 16) :
    encodedLen (packed number (values.map UInt32.toNat)) ≤
      5 * values.length + 11 := by
  have each : ((values.map UInt32.toNat).flatMap varint).length ≤ 5 * values.length := by
    induction values with
    | nil => exact Nat.le_refl 0
    | cons value values induction =>
        have short : (varint value.toNat).length ≤ 5 :=
          length_varint_le_of_lt (Nat.succ_pos 4)
            (value.toNat_lt.trans (by decide))
        rw [List.map_cons, List.flatMap_cons, List.length_append, List.length_cons]
        omega
  unfold packed
  split_ifs
  · exact Nat.zero_le _
  · rw [encodedLen_bytes]
    exact (bytesLen_le_add number _ small).trans (by omega)

end Protobuf
