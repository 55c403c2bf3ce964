import Mathlib.Data.List.Basic
import Mathlib.Tactic.Common

/-!
# A byte transport

Bytes that arrive in order and in fragments of any size. A read takes what it can of the
first fragment, waits where nothing has arrived, and takes nothing at the end.
-/

namespace Transport

/-- What has arrived and was not read. Nothing more arrives once the transport has ended. -/
structure Socket where
  fragments : List (List UInt8)
  ended : Bool

namespace Socket

def bytes (socket : Socket) : List UInt8 := socket.fragments.flatten

end Socket

/-- How a call on the transport ends, if it does not wait for more bytes. -/
inductive Outcome (α : Type*)
  | blocked
  | failed
  | done (value : α) (rest : Socket)

namespace Outcome

variable {α β : Type*}

def bind (outcome : Outcome α) (next : α → Socket → Outcome β) : Outcome β :=
  match outcome with
  | blocked => blocked
  | failed => failed
  | done value rest => next value rest

@[simp] theorem bind_blocked (next : α → Socket → Outcome β) : blocked.bind next = blocked := rfl

@[simp] theorem bind_failed (next : α → Socket → Outcome β) : failed.bind next = failed := rfl

@[simp]
theorem bind_done (value : α) (rest : Socket) (next : α → Socket → Outcome β) :
    (done value rest).bind next = next value rest := rfl

end Outcome

/-- One read into a buffer of a size; zero bytes at the end. -/
def readFragments (size : ℕ) (ended : Bool) : List (List UInt8) → Outcome (List UInt8)
  | [] => if ended then .done [] ⟨[], ended⟩ else .blocked
  | [] :: rest => readFragments size ended rest
  | (byte :: fragment) :: rest =>
      .done ((byte :: fragment).take size) ⟨(byte :: fragment).drop size :: rest, ended⟩

def read (size : ℕ) (socket : Socket) : Outcome (List UInt8) :=
  readFragments size socket.ended socket.fragments

/-- Reads until the buffer is full, which fails at the end: a read that does not wait takes a
byte, so there are at most as many reads as bytes. -/
def readTurns : ℕ → ℕ → Socket → Outcome (List UInt8)
  | _, 0, socket => .done [] socket
  | 0, _ + 1, _ => .failed
  | turns + 1, size + 1, socket =>
      (read (size + 1) socket).bind fun bytes rest =>
        if bytes = [] then .failed
        else (readTurns turns (size + 1 - bytes.length) rest).bind fun more rest =>
          .done (bytes ++ more) rest

/-- `read_exact`. -/
def readExact (size : ℕ) (socket : Socket) : Outcome (List UInt8) := readTurns size size socket

/-- A read takes bytes from the front, waits, or is at the end. -/
theorem read_cases {size : ℕ} (positive : 0 < size) (socket : Socket) :
    (socket.bytes = [] ∧ socket.ended = true ∧ ∃ rest : Socket, read size socket = .done [] rest ∧
      rest.bytes = [] ∧ rest.ended = true) ∨
    (socket.bytes = [] ∧ socket.ended = false ∧ read size socket = .blocked) ∨
    ∃ taken rest, read size socket = .done taken rest ∧ taken ≠ [] ∧ taken.length ≤ size ∧
      socket.bytes = taken ++ rest.bytes ∧ rest.ended = socket.ended := by
  rcases socket with ⟨fragments, ended⟩
  unfold read
  dsimp only
  induction fragments with
  | nil =>
      cases ended with
      | false => exact .inr (.inl ⟨rfl, rfl, rfl⟩)
      | true => exact .inl ⟨rfl, rfl, ⟨[], true⟩, rfl, rfl, rfl⟩
  | cons fragment rest induction =>
      cases fragment with
      | nil => simpa [readFragments, Socket.bytes] using induction
      | cons byte fragment =>
          refine .inr (.inr ⟨_, _, rfl, ?_, List.length_take_le _ _, ?_, rfl⟩)
          · cases size with
            | zero => exact absurd positive (Nat.lt_irrefl 0)
            | succ size => exact List.cons_ne_nil _ _
          · rw [Socket.bytes, Socket.bytes, List.flatten_cons, List.flatten_cons,
              ← List.append_assoc, List.take_append_drop]

theorem readTurns_spec {turns size : ℕ} (enough : size ≤ turns) (socket : Socket) :
    (size ≤ socket.bytes.length ∧ ∃ rest, readTurns turns size socket =
        .done (socket.bytes.take size) rest ∧ rest.bytes = socket.bytes.drop size ∧
          rest.ended = socket.ended) ∨
    socket.bytes.length < size ∧
      readTurns turns size socket = if socket.ended then .failed else .blocked := by
  induction turns generalizing size socket with
  | zero =>
      obtain rfl : size = 0 := by omega
      exact .inl ⟨Nat.zero_le _, socket, rfl, rfl, rfl⟩
  | succ turns induction =>
      cases size with
      | zero => exact .inl ⟨Nat.zero_le _, socket, rfl, rfl, rfl⟩
      | succ size =>
          unfold readTurns
          rcases read_cases (Nat.succ_pos size) socket with
            ⟨none, ended, rest, reads, -, -⟩ | ⟨none, waits, reads⟩ |
              ⟨taken, rest, reads, some, small, split, ended⟩
          · right
            rw [reads, none, ended]
            exact ⟨Nat.succ_pos size, rfl⟩
          · right
            rw [reads, none, waits]
            exact ⟨Nat.succ_pos size, rfl⟩
          · have positive := List.length_pos_iff.mpr some
            have length := congrArg List.length split
            rw [List.length_append] at length
            rw [reads, Outcome.bind_done, if_neg some]
            rcases @induction (size + 1 - taken.length) (by omega) rest with
              ⟨fits, last, readsRest, lastBytes, lastEnded⟩ | ⟨short, fails⟩
            · left
              refine ⟨by omega, last, ?_, ?_, lastEnded.trans ended⟩
              · rw [readsRest, Outcome.bind_done, split, List.take_append,
                  List.take_of_length_le small]
              · rw [lastBytes, split, List.drop_append, List.drop_eq_nil_of_le small,
                  List.nil_append]
            · right
              refine ⟨by omega, ?_⟩
              rw [fails, ended]
              cases socket.ended <;> rfl

/-- A full read takes exactly its bytes, and waits or fails where there are fewer. -/
theorem readExact_spec (size : ℕ) (socket : Socket) :
    (size ≤ socket.bytes.length ∧ ∃ rest, readExact size socket =
        .done (socket.bytes.take size) rest ∧ rest.bytes = socket.bytes.drop size ∧
          rest.ended = socket.ended) ∨
    socket.bytes.length < size ∧
      readExact size socket = if socket.ended then .failed else .blocked :=
  readTurns_spec (Nat.le_refl size) socket

/-- The bytes at the front are read where they are all there. -/
theorem readExact_append {socket : Socket} {front back : List UInt8}
    (split : socket.bytes = front ++ back) :
    ∃ rest, readExact front.length socket = .done front rest ∧ rest.bytes = back ∧
      rest.ended = socket.ended := by
  rcases readExact_spec front.length socket with ⟨-, rest, reads, bytes, ended⟩ | ⟨short, -⟩
  · refine ⟨rest, ?_, ?_, ended⟩
    · rw [reads, split, List.take_left]
    · rw [bytes, split, List.drop_left]
  · rw [split, List.length_append] at short
    omega

end Transport
