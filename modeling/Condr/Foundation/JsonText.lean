import Condr.Foundation.Utf8

/-!
# Texts in JSON

A text in quotes, with the characters escaped that may not stand in one. What is written holds no
control character below the space, and is at most twice as long as a text without any.
-/

namespace JsonText

/-- `char::is_control`. -/
def isControl (char : Char) : Bool :=
  char.toNat < 32 || (127 ≤ char.toNat && char.toNat < 160)

def escapeChar (char : Char) : List Char :=
  if char = '"' then ['\\', '"']
  else if char = '\\' then ['\\', '\\']
  else if char = '\x08' then ['\\', 'b']
  else if char = '\t' then ['\\', 't']
  else if char = '\n' then ['\\', 'n']
  else if char = '\x0c' then ['\\', 'f']
  else if char = '\r' then ['\\', 'r']
  else if char.toNat < 32 then
    ['\\', 'u', '0', '0', Nat.digitChar (char.toNat / 16), Nat.digitChar (char.toNat % 16)]
  else [char]

def quote (text : List Char) : List Char := '"' :: text.flatMap escapeChar ++ ['"']

/-- The bytes of a text. -/
def bytesOf (text : List Char) : ℕ := (Utf8.encode text).length

@[simp]
theorem bytesOf_append (front back : List Char) :
    bytesOf (front ++ back) = bytesOf front + bytesOf back := by
  simp [bytesOf, Utf8.encode]

@[simp]
theorem bytesOf_nil : bytesOf [] = 0 := rfl

theorem bytesOf_cons (char : Char) (text : List Char) :
    bytesOf (char :: text) = bytesOf [char] + bytesOf text :=
  bytesOf_append [char] text

theorem bytesOf_pos (char : Char) : 0 < bytesOf [char] := by
  rcases Utf8.utf8EncodeChar_cases char with ⟨-, alone⟩ | ⟨-, first, rest, several, -⟩
  · simp [bytesOf, alone]
  · simp [bytesOf, several]

theorem bytesOf_ascii {text : List Char} (ascii : ∀ char ∈ text, char.toNat < 128) :
    bytesOf text = text.length := by
  rw [bytesOf, Utf8.encode_ascii ascii, List.length_map]

/-- Only control characters are escaped as numbers, and these are all of those below the space. -/
theorem escapeChar_cases (char : Char) :
    escapeChar char = [char] ∧ 32 ≤ char.toNat ∨
      (isControl char = true ∨ (escapeChar char).length = 2) ∧
        ∀ written ∈ escapeChar char, 32 ≤ written.toNat ∧ written.toNat < 128 := by
  have digit : ∀ value < 16, 32 ≤ (Nat.digitChar value).toNat ∧
      (Nat.digitChar value).toNat < 128 := by decide
  unfold escapeChar
  split_ifs with quotes slash back tab line form carriage low
  · exact .inr ⟨.inr rfl, List.all_iff_forall_prop.mp (by decide)⟩
  · exact .inr ⟨.inr rfl, List.all_iff_forall_prop.mp (by decide)⟩
  · exact .inr ⟨.inr rfl, List.all_iff_forall_prop.mp (by decide)⟩
  · exact .inr ⟨.inr rfl, List.all_iff_forall_prop.mp (by decide)⟩
  · exact .inr ⟨.inr rfl, List.all_iff_forall_prop.mp (by decide)⟩
  · exact .inr ⟨.inr rfl, List.all_iff_forall_prop.mp (by decide)⟩
  · exact .inr ⟨.inr rfl, List.all_iff_forall_prop.mp (by decide)⟩
  · refine .inr ⟨.inl (by simp [isControl, low]), ?_⟩
    have high := digit (char.toNat / 16) (by omega)
    have rest := digit (char.toNat % 16) (by omega)
    simp only [List.mem_cons, List.not_mem_nil, or_false, forall_eq_or_imp, forall_eq]
    exact ⟨by decide, by decide, by decide, by decide, high, rest⟩
  · exact .inl ⟨rfl, by omega⟩

/-- No character is below the space. -/
def Printed (text : List Char) : Prop := ∀ char ∈ text, 32 ≤ char.toNat

theorem printed_nil : Printed [] := by
  intro char contained
  cases contained

theorem printed_append {front back : List Char} :
    Printed (front ++ back) ↔ Printed front ∧ Printed back :=
  List.forall_mem_append

theorem printed_cons {char : Char} {text : List Char} :
    Printed (char :: text) ↔ 32 ≤ char.toNat ∧ Printed text :=
  List.forall_mem_cons

theorem printed_quote (text : List Char) : Printed (quote text) := by
  have escaped : Printed (text.flatMap escapeChar) := by
    intro written contained
    rcases List.mem_flatMap.mp contained with ⟨char, -, inside⟩
    rcases escapeChar_cases char with ⟨alone, high⟩ | ⟨-, all⟩
    · rw [alone, List.mem_singleton] at inside
      rwa [inside]
    · exact (all written inside).1
  rw [quote, List.cons_append, printed_cons, printed_append]
  exact ⟨by decide, escaped, List.all_iff_forall_prop.mp (by decide)⟩

theorem bytesOf_escapeChar_le {char : Char} (plain : isControl char = false) :
    bytesOf (escapeChar char) ≤ 2 * bytesOf [char] := by
  rcases escapeChar_cases char with ⟨alone, -⟩ | ⟨control | two, all⟩
  · rw [alone]
    omega
  · rw [control] at plain
    cases plain
  · rw [bytesOf_ascii fun written inside => (all written inside).2, two]
    have positive := bytesOf_pos char
    omega

theorem bytesOf_quote_le {text : List Char} (plain : ∀ char ∈ text, isControl char = false) :
    bytesOf (quote text) ≤ 2 * bytesOf text + 2 := by
  have escaped : bytesOf (text.flatMap escapeChar) ≤ 2 * bytesOf text := by
    induction text with
    | nil => simp
    | cons char rest ih =>
        rw [List.forall_mem_cons] at plain
        rw [List.flatMap_cons, bytesOf_append, bytesOf_cons char rest]
        have first := bytesOf_escapeChar_le plain.1
        have more := ih plain.2
        omega
  have quotes : bytesOf ['"'] = 1 := by decide
  rw [quote, bytesOf_append, bytesOf_cons, quotes]
  omega

/-- The bytes of characters from the space on are not below it. -/
theorem le_of_mem_encode {text : List Char} (printed : Printed text) {byte : UInt8}
    (contained : byte ∈ Utf8.encode text) : 32 ≤ byte.toNat := by
  rcases List.mem_flatMap.mp contained with ⟨char, inside, here⟩
  have large := printed char inside
  rcases Utf8.utf8EncodeChar_cases char with ⟨small, alone⟩ | ⟨-, first, rest, several, above⟩
  · rw [alone, List.mem_singleton] at here
    rw [here]
    change 32 ≤ char.toNat % 256
    omega
  · rw [several] at here
    have := above byte here
    omega

end JsonText
