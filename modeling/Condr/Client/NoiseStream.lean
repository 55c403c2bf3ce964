import Condr.Foundation.Chunks
import Condr.Foundation.Transition
import Condr.Foundation.Transport

/-!
# An encrypted byte stream

After the handshake every byte travels inside records: a length in two bytes, then the
ciphertext. What is written is collected until it fills a record or is flushed, and what is
read is handed on from the last record that was decrypted.
-/

namespace Condr.NoiseStream

open Transport

def tagLen : ℕ := 16

def maxRecord : ℕ := 65535

def maxPlaintext : ℕ := maxRecord - tagLen

/-- One direction of a finished handshake: what one end encrypts as its `n`-th message the
other decrypts as its `n`-th. -/
structure Cipher where
  encrypt : ℕ → List UInt8 → List UInt8
  decrypt : ℕ → List UInt8 → Option (List UInt8)
  length_encrypt : ∀ nonce plaintext,
    (encrypt nonce plaintext).length = plaintext.length + tagLen
  decrypt_encrypt : ∀ nonce plaintext, decrypt nonce (encrypt nonce plaintext) = some plaintext

/-! ## Writing -/

structure Writer where
  pending : List UInt8
  nonce : ℕ

/-- A record behind its length, as it goes to the socket. -/
def frame (record : List UInt8) : List UInt8 :=
  [UInt8.ofNat (record.length / 256), UInt8.ofNat record.length] ++ record

def sendRecord (cipher : Cipher) (writer : Writer) (plaintext : List UInt8) :
    Writer × List (List UInt8) :=
  ({ writer with nonce := writer.nonce + 1 }, [cipher.encrypt writer.nonce plaintext])

def sendPending (cipher : Cipher) (writer : Writer) : Writer × List (List UInt8) :=
  sendRecord cipher { writer with pending := [] } writer.pending

def sendRecords (cipher : Cipher) : Writer → List (List UInt8) → Writer × List (List UInt8)
  | writer, [] => (writer, [])
  | writer, plaintext :: rest =>
      let (writer, sent) := sendRecord cipher writer plaintext
      let (writer, later) := sendRecords cipher writer rest
      (writer, sent ++ later)

/-- `as_chunks`: the full records of a buffer, and what is left of it. -/
def asChunks (size : ℕ) (buffer : List UInt8) : List (List UInt8) × List UInt8 :=
  ((List.range (buffer.length / size)).map (Chunks.chunk size buffer),
    buffer.drop (buffer.length / size * size))

/-- Fills up what is pending, and sends it when it is a full record: the writer, what is left
of the buffer, and the record. -/
def topUp (cipher : Cipher) (writer : Writer) (buffer : List UInt8) :
    Writer × List UInt8 × List (List UInt8) :=
  if writer.pending = [] then (writer, buffer, [])
  else
    let count := min buffer.length (maxPlaintext - writer.pending.length)
    let writer := { writer with pending := writer.pending ++ buffer.take count }
    if writer.pending.length = maxPlaintext then
      let (writer, sent) := sendPending cipher writer
      (writer, buffer.drop count, sent)
    else (writer, buffer.drop count, [])

/-- The writer after a write, and the records that go to the socket. -/
def write (cipher : Cipher) (writer : Writer) (buffer : List UInt8) :
    Writer × List (List UInt8) :=
  let (writer, remaining, first) := topUp cipher writer buffer
  let (records, remainder) := asChunks maxPlaintext remaining
  let (writer, later) := sendRecords cipher writer records
  ({ writer with pending := writer.pending ++ remainder }, first ++ later)

def flush (cipher : Cipher) (writer : Writer) : Writer × List (List UInt8) :=
  if writer.pending = [] then (writer, []) else sendPending cipher writer

/-! ## Reading -/

structure Reader where
  plaintext : List UInt8
  consumed : ℕ
  nonce : ℕ

/-- `read_record`: none at a clean end of the stream. -/
def readRecord (socket : Socket) : Outcome (Option (List UInt8)) :=
  (read 1 socket).bind fun first rest =>
    match first with
    | [] => .done none rest
    | high :: _ =>
        (readExact 1 rest).bind fun second rest =>
          let length := high.toNat * 256 + (second.headD 0).toNat
          if length < tagLen then .failed
          else (readExact length rest).bind fun record rest => .done (some record) rest

/-- Decrypts records until there is something to hand on; false at the end of the stream.
Each record takes bytes, so no more turns are needed than bytes have arrived. -/
def fill (cipher : Cipher) : ℕ → Reader → Socket → Outcome (Reader × Bool)
  | turns, reader, socket =>
      if reader.consumed ≠ reader.plaintext.length then .done (reader, true) socket
      else match turns with
      | 0 => .failed
      | turns + 1 =>
          (readRecord socket).bind fun record rest =>
            match record with
            | none => .done (reader, false) rest
            | some record =>
                match cipher.decrypt reader.nonce record with
                | none => .failed
                | some plaintext => fill cipher turns ⟨plaintext, 0, reader.nonce + 1⟩ rest

/-- A read into a buffer of a size: the reader after it, and the bytes. -/
def readStream (cipher : Cipher) (size : ℕ) (reader : Reader) (socket : Socket) :
    Outcome (Reader × List UInt8) :=
  (fill cipher (socket.bytes.length + 1) reader socket).bind fun (reader, filled) rest =>
    if filled then
      let available := reader.plaintext.drop reader.consumed
      let length := min available.length size
      .done ({ reader with consumed := reader.consumed + length }, available.take length) rest
    else .done (reader, []) rest

/-! ## The stream between two ends -/

structure Stream where
  writer : Writer
  /-- Bytes the socket took and has not delivered. -/
  wire : List UInt8
  /-- The writing end is gone. -/
  closed : Bool
  socket : Socket
  reader : Reader
  /-- Every record sent so far. -/
  sent : List (List UInt8)
  written : List UInt8
  /-- What was written before the last flush. -/
  flushed : List UInt8
  received : List UInt8

def Stream.start : Stream where
  writer := ⟨[], 0⟩
  wire := []
  closed := false
  socket := ⟨[], false⟩
  reader := ⟨[], 0, 0⟩
  sent := []
  written := []
  flushed := []
  received := []

inductive Label
  | write (buffer : List UInt8)
  | flush
  | deliver (count : ℕ)
  | close
  | finish
  | read (size : ℕ)

inductive Step (cipher : Cipher) : Stream → Label → Stream → Prop
  | write {stream : Stream} {buffer : List UInt8} (isOpen : stream.closed = false) :
      Step cipher stream (.write buffer) { stream with
        writer := (write cipher stream.writer buffer).1
        wire := stream.wire ++ (write cipher stream.writer buffer).2.flatMap frame
        sent := stream.sent ++ (write cipher stream.writer buffer).2
        written := stream.written ++ buffer }
  | flush {stream : Stream} (isOpen : stream.closed = false) :
      Step cipher stream .flush { stream with
        writer := (flush cipher stream.writer).1
        wire := stream.wire ++ (flush cipher stream.writer).2.flatMap frame
        sent := stream.sent ++ (flush cipher stream.writer).2
        flushed := stream.written }
  /-- The transport delivers the next bytes as one fragment. -/
  | deliver {stream : Stream} {count : ℕ} :
      Step cipher stream (.deliver count) { stream with
        wire := stream.wire.drop count
        socket := { stream.socket with
          fragments := stream.socket.fragments ++ [stream.wire.take count] } }
  | close {stream : Stream} : Step cipher stream .close { stream with closed := true }
  /-- The end is seen behind the last byte. -/
  | finish {stream : Stream} (closed : stream.closed = true) (drained : stream.wire = []) :
      Step cipher stream .finish { stream with socket := { stream.socket with ended := true } }
  | read {stream : Stream} {size : ℕ} {reader : Reader} {bytes : List UInt8} {rest : Socket}
      (positive : 0 < size)
      (reads : readStream cipher size stream.reader stream.socket = .done (reader, bytes) rest) :
      Step cipher stream (.read size) { stream with
        socket := rest
        reader := reader
        received := stream.received ++ bytes }

def system (cipher : Cipher) : Transition.System Stream Label where
  initial := fun stream => stream = Stream.start
  step := Step cipher

/-- The transport has delivered every byte, and no read finds another one. -/
def Stream.Drained (cipher : Cipher) (stream : Stream) : Prop :=
  stream.wire = [] ∧ ∀ size reader bytes rest, 0 < size →
    readStream cipher size stream.reader stream.socket = .done (reader, bytes) rest → bytes = []

/-- A step as it is taken, where it can be. -/
def perform (cipher : Cipher) (stream : Stream) : Label → Option Stream
  | .write buffer =>
      if stream.closed then none
      else some { stream with
        writer := (write cipher stream.writer buffer).1
        wire := stream.wire ++ (write cipher stream.writer buffer).2.flatMap frame
        sent := stream.sent ++ (write cipher stream.writer buffer).2
        written := stream.written ++ buffer }
  | .flush =>
      if stream.closed then none
      else some { stream with
        writer := (flush cipher stream.writer).1
        wire := stream.wire ++ (flush cipher stream.writer).2.flatMap frame
        sent := stream.sent ++ (flush cipher stream.writer).2
        flushed := stream.written }
  | .deliver count => some { stream with
      wire := stream.wire.drop count
      socket := { stream.socket with
        fragments := stream.socket.fragments ++ [stream.wire.take count] } }
  | .close => some { stream with closed := true }
  | .finish =>
      if stream.closed = true ∧ stream.wire = [] then
        some { stream with socket := { stream.socket with ended := true } }
      else none
  | .read size =>
      if size = 0 then none
      else match readStream cipher size stream.reader stream.socket with
      | .done (reader, bytes) rest => some { stream with
          socket := rest
          reader := reader
          received := stream.received ++ bytes }
      | .blocked | .failed => none

theorem step_of_perform {cipher : Cipher} (stream : Stream) (label : Label) (next : Stream)
    (performed : perform cipher stream label = some next) : Step cipher stream label next := by
  cases label with
  | write buffer =>
      simp only [perform] at performed
      split_ifs at performed with closed
      cases performed
      exact .write (Bool.eq_false_iff.mpr closed)
  | flush =>
      simp only [perform] at performed
      split_ifs at performed with closed
      cases performed
      exact .flush (Bool.eq_false_iff.mpr closed)
  | deliver count =>
      cases performed
      exact .deliver
  | close =>
      cases performed
      exact .close
  | finish =>
      simp only [perform] at performed
      split_ifs at performed with ready
      cases performed
      exact .finish ready.1 ready.2
  | read size =>
      simp only [perform] at performed
      split_ifs at performed with zero
      cases reads : readStream cipher size stream.reader stream.socket with
      | blocked => simp [reads] at performed
      | failed => simp [reads] at performed
      | done value rest =>
          simp only [reads, Option.some.injEq] at performed
          subst performed
          exact .read (Nat.pos_of_ne_zero zero) reads

/-! ## What a writer sends -/

/-- The bytes of consecutive messages, from a nonce on. -/
def encodeAll (cipher : Cipher) : ℕ → List (List UInt8) → List UInt8
  | _, [] => []
  | nonce, plaintext :: rest =>
      frame (cipher.encrypt nonce plaintext) ++ encodeAll cipher (nonce + 1) rest

theorem encodeAll_append (cipher : Cipher) (nonce : ℕ) (front back : List (List UInt8)) :
    encodeAll cipher nonce (front ++ back) =
      encodeAll cipher nonce front ++ encodeAll cipher (nonce + front.length) back := by
  induction front generalizing nonce with
  | nil => rfl
  | cons plaintext front induction =>
      rw [List.cons_append, encodeAll, encodeAll, induction, List.append_assoc,
        List.length_cons, Nat.add_assoc, Nat.add_comm 1]

/-- The records are those of some messages, which are the bytes that are no longer pending. -/
structure Sends (cipher : Cipher) (before : Writer) (bytes : List UInt8) (after : Writer)
    (records plaintexts : List (List UInt8)) : Prop where
  raw : records.flatMap frame = encodeAll cipher before.nonce plaintexts
  nonce : after.nonce = before.nonce + plaintexts.length
  split : before.pending ++ bytes = plaintexts.flatten ++ after.pending
  small : ∀ plaintext ∈ plaintexts, plaintext.length ≤ maxPlaintext
  limit : ∀ record ∈ records, record.length ≤ maxRecord

theorem Sends.nil (cipher : Cipher) (writer : Writer) : Sends cipher writer [] writer [] [] :=
  ⟨rfl, rfl, by simp, by simp, by simp⟩

/-- Bytes that only stay pending. -/
theorem Sends.pend (cipher : Cipher) (writer : Writer) (bytes : List UInt8) :
    Sends cipher writer bytes { writer with pending := writer.pending ++ bytes } [] [] :=
  ⟨rfl, rfl, by simp, by simp, by simp⟩

theorem Sends.append {cipher : Cipher} {first middle last : Writer} {front back : List UInt8}
    {records moreRecords plaintexts morePlaintexts : List (List UInt8)}
    (sends : Sends cipher first front middle records plaintexts)
    (more : Sends cipher middle back last moreRecords morePlaintexts) :
    Sends cipher first (front ++ back) last (records ++ moreRecords)
      (plaintexts ++ morePlaintexts) where
  raw := by
    rw [List.flatMap_append, sends.raw, more.raw, encodeAll_append, sends.nonce]
  nonce := by
    rw [more.nonce, sends.nonce, List.length_append, Nat.add_assoc]
  split := by
    rw [← List.append_assoc, sends.split, List.append_assoc, more.split, List.flatten_append,
      List.append_assoc]
  small := by
    intro plaintext contained
    exact (List.mem_append.mp contained).elim (sends.small plaintext) (more.small plaintext)
  limit := by
    intro record contained
    exact (List.mem_append.mp contained).elim (sends.limit record) (more.limit record)

theorem sends_record {cipher : Cipher} {writer : Writer} {plaintext : List UInt8}
    (none : writer.pending = []) (small : plaintext.length ≤ maxPlaintext) :
    Sends cipher writer plaintext (sendRecord cipher writer plaintext).1
      (sendRecord cipher writer plaintext).2 [plaintext] where
  raw := by simp [sendRecord, encodeAll]
  nonce := rfl
  split := by simp [sendRecord, none]
  small := by
    intro other contained
    rwa [List.mem_singleton.mp contained]
  limit := by
    intro record contained
    rw [sendRecord, List.mem_singleton] at contained
    rw [contained, cipher.length_encrypt]
    have room : maxPlaintext + tagLen = maxRecord := rfl
    omega

theorem sends_pending {cipher : Cipher} {writer : Writer}
    (small : writer.pending.length ≤ maxPlaintext) :
    Sends cipher writer [] (sendPending cipher writer).1 (sendPending cipher writer).2
      [writer.pending] := by
  have sends := @sends_record cipher { writer with pending := [] } writer.pending rfl small
  exact ⟨sends.raw, sends.nonce, by simp [sendPending, sendRecord], sends.small,
    sends.limit⟩

theorem sends_records {cipher : Cipher} {writer : Writer} {plaintexts : List (List UInt8)}
    (none : writer.pending = [])
    (small : ∀ plaintext ∈ plaintexts, plaintext.length ≤ maxPlaintext) :
    Sends cipher writer plaintexts.flatten (sendRecords cipher writer plaintexts).1
      (sendRecords cipher writer plaintexts).2 plaintexts ∧
      (sendRecords cipher writer plaintexts).1.pending = [] := by
  induction plaintexts generalizing writer with
  | nil => exact ⟨Sends.nil cipher writer, none⟩
  | cons plaintext rest induction =>
      rw [List.forall_mem_cons] at small
      have first := @sends_record cipher writer plaintext none small.1
      rcases @induction (sendRecord cipher writer plaintext).1 none small.2 with ⟨later, nothing⟩
      exact ⟨first.append later, nothing⟩

theorem asChunks_spec {size : ℕ} (positive : 0 < size) (buffer : List UInt8) :
    buffer = (asChunks size buffer).1.flatten ++ (asChunks size buffer).2 ∧
      (∀ chunk ∈ (asChunks size buffer).1, chunk.length ≤ size) ∧
      (asChunks size buffer).2.length < size := by
  refine ⟨?_, ?_, ?_⟩
  · rw [asChunks, Chunks.flatten_front, List.take_append_drop]
  · intro chunk contained
    rcases List.mem_map.mp contained with ⟨index, -, rfl⟩
    exact Chunks.length_chunk_le
  · rw [asChunks, List.length_drop]
    have := Nat.div_add_mod' buffer.length size
    have := Nat.mod_lt buffer.length positive
    omega

theorem maxPlaintext_pos : 0 < maxPlaintext := by decide

/-- Full records and a remainder, where nothing is pending. -/
theorem sends_chunks {cipher : Cipher} {writer : Writer} (none : writer.pending = [])
    (buffer : List UInt8) :
    ∃ plaintexts, Sends cipher writer buffer
        { (sendRecords cipher writer (asChunks maxPlaintext buffer).1).1 with
          pending := (sendRecords cipher writer (asChunks maxPlaintext buffer).1).1.pending ++
            (asChunks maxPlaintext buffer).2 }
        (sendRecords cipher writer (asChunks maxPlaintext buffer).1).2 plaintexts ∧
      ((sendRecords cipher writer (asChunks maxPlaintext buffer).1).1.pending ++
        (asChunks maxPlaintext buffer).2).length < maxPlaintext := by
  rcases asChunks_spec maxPlaintext_pos buffer with ⟨split, small, less⟩
  rcases sends_records none small with ⟨sends, nothing⟩
  have whole := sends.append (Sends.pend cipher _ (asChunks maxPlaintext buffer).2)
  rw [← split, List.append_nil, List.append_nil] at whole
  refine ⟨_, whole, ?_⟩
  rw [nothing, List.nil_append]
  exact less

theorem asChunks_nil (size : ℕ) : asChunks size [] = ([], []) := by
  simp [asChunks]

theorem topUp_spec {cipher : Cipher} {writer : Writer}
    (less : writer.pending.length < maxPlaintext) (buffer : List UInt8) :
    ∃ front plaintexts, buffer = front ++ (topUp cipher writer buffer).2.1 ∧
      Sends cipher writer front (topUp cipher writer buffer).1 (topUp cipher writer buffer).2.2
        plaintexts ∧
      ((topUp cipher writer buffer).1.pending = [] ∨
        (topUp cipher writer buffer).2.1 = [] ∧
          (topUp cipher writer buffer).1.pending.length < maxPlaintext) := by
  unfold topUp
  by_cases none : writer.pending = []
  · rw [if_pos none]
    exact ⟨[], [], rfl, Sends.nil cipher writer, .inl none⟩
  rw [if_neg none]
  have pends := Sends.pend cipher writer
    (buffer.take (min buffer.length (maxPlaintext - writer.pending.length)))
  by_cases full : (writer.pending ++
      buffer.take (min buffer.length (maxPlaintext - writer.pending.length))).length = maxPlaintext
  · rw [if_pos full]
    have whole := pends.append (sends_pending (Nat.le_of_eq full))
    rw [List.append_nil] at whole
    exact ⟨_, _, (List.take_append_drop _ _).symm, whole, .inl rfl⟩
  · -- the buffer did not fill the record, so nothing is left of it
    rw [if_neg full]
    rw [List.length_append, List.length_take] at full
    refine ⟨_, _, (List.take_append_drop _ _).symm, pends, .inr ⟨?_, ?_⟩⟩
    · exact List.drop_eq_nil_of_le (by omega)
    · rw [List.length_append, List.length_take]
      omega

/-- A write sends or keeps every byte, and keeps less than a record. -/
theorem write_spec {cipher : Cipher} {writer : Writer}
    (less : writer.pending.length < maxPlaintext) (buffer : List UInt8) :
    ∃ plaintexts, Sends cipher writer buffer (write cipher writer buffer).1
        (write cipher writer buffer).2 plaintexts ∧
      (write cipher writer buffer).1.pending.length < maxPlaintext := by
  rcases @topUp_spec cipher writer less buffer with ⟨front, first, split, tops, none | ⟨none, small⟩⟩
  · rcases @sends_chunks cipher _ none (topUp cipher writer buffer).2.1 with
      ⟨plaintexts, later, small⟩
    have whole := tops.append later
    rw [← split] at whole
    exact ⟨_, whole, small⟩
  · rw [none, List.append_nil] at split
    subst split
    unfold write
    simp only [none, asChunks_nil, sendRecords, List.append_nil]
    exact ⟨_, tops, small⟩

theorem flush_spec {cipher : Cipher} {writer : Writer}
    (less : writer.pending.length < maxPlaintext) :
    ∃ plaintexts, Sends cipher writer [] (flush cipher writer).1 (flush cipher writer).2
        plaintexts ∧ (flush cipher writer).1.pending = [] := by
  unfold flush
  split_ifs with none
  · exact ⟨[], Sends.nil cipher writer, none⟩
  · exact ⟨_, sends_pending (Nat.le_of_lt less), rfl⟩

/-! ## What a reader gets -/

def Reader.left (reader : Reader) : List UInt8 := reader.plaintext.drop reader.consumed

theorem Reader.left_eq_nil_iff {reader : Reader}
    (within : reader.consumed ≤ reader.plaintext.length) :
    reader.left = [] ↔ reader.consumed = reader.plaintext.length := by
  rw [Reader.left, List.drop_eq_nil_iff]
  omega

/-- The messages that the reader has not taken are what is on the way to it. -/
structure Transit (cipher : Cipher) (reader : Reader) (socket : Socket) (wire : List UInt8)
    (flight : List (List UInt8)) : Prop where
  raw : socket.bytes ++ wire = encodeAll cipher reader.nonce flight
  small : ∀ plaintext ∈ flight, plaintext.length ≤ maxPlaintext
  within : reader.consumed ≤ reader.plaintext.length
  ended : socket.ended = true → wire = []

theorem frame_length {record : List UInt8} (limit : record.length ≤ maxRecord) :
    (UInt8.ofNat (record.length / 256)).toNat * 256 + (UInt8.ofNat record.length).toNat =
      record.length := by
  rw [UInt8.toNat_ofNat', UInt8.toNat_ofNat']
  have : record.length ≤ 65535 := limit
  omega

/-- Nothing has arrived: the read waits or sees the end. -/
theorem readRecord_nil {socket : Socket} (empty : socket.bytes = []) :
    (socket.ended = false ∧ readRecord socket = .blocked) ∨
      socket.ended = true ∧ ∃ rest, readRecord socket = .done none rest ∧ rest.bytes = [] ∧
        rest.ended = true := by
  unfold readRecord
  rcases read_cases Nat.one_pos socket with
    ⟨-, ended, rest, reads, bytes, restEnded⟩ | ⟨-, waits, reads⟩ | ⟨taken, rest, -, some, -, split, -⟩
  · rw [reads]
    exact .inr ⟨ended, rest, rfl, bytes, restEnded⟩
  · rw [reads]
    exact .inl ⟨waits, rfl⟩
  · rw [empty] at split
    exact absurd (List.append_eq_nil_iff.mp split.symm).1 some

/-- A record is read when all of it has arrived, and the read waits for it before. -/
theorem readRecord_frame {socket : Socket} {wire record back : List UInt8}
    (tagged : tagLen ≤ record.length) (limit : record.length ≤ maxRecord)
    (split : socket.bytes ++ wire = frame record ++ back) (open' : socket.ended = true → wire = []) :
    (socket.ended = false ∧ wire ≠ [] ∧ readRecord socket = .blocked) ∨
      ∃ rest, readRecord socket = .done (some record) rest ∧ rest.bytes ++ wire = back ∧
        rest.ended = socket.ended ∧ rest.bytes.length < socket.bytes.length := by
  have short : socket.bytes.length < (frame record).length → socket.ended = false ∧ wire ≠ [] := by
    intro less
    have waits : wire ≠ [] := by
      rintro rfl
      have length := congrArg List.length split
      rw [List.length_append, List.length_append] at length
      simp only [List.length_nil] at length
      omega
    exact ⟨Bool.eq_false_iff.mpr fun ended => waits (open' ended), waits⟩
  have frameLength : (frame record).length = record.length + 2 := by
    rw [frame, List.length_append, Nat.add_comm]
    rfl
  unfold readRecord
  rcases read_cases Nat.one_pos socket with
    ⟨empty, ended, -⟩ | ⟨empty, waits, reads⟩ | ⟨taken, afterFirst, reads, some, one, first, ended⟩
  · rcases short (by rw [empty, frameLength]; exact Nat.succ_pos _) with ⟨waits, -⟩
    rw [ended] at waits
    cases waits
  · rcases short (by rw [empty, frameLength]; exact Nat.succ_pos _) with ⟨-, left⟩
    rw [reads]
    exact .inl ⟨waits, left, rfl⟩
  obtain ⟨high, rfl⟩ : ∃ high, taken = [high] := by
    rcases taken with _ | ⟨high, _ | ⟨second, taken⟩⟩
    · exact absurd rfl some
    · exact ⟨high, rfl⟩
    · simp at one
  rw [first, frame] at split
  simp only [List.cons_append, List.nil_append, List.cons.injEq] at split
  rcases split with ⟨rfl, split⟩
  rw [reads, Outcome.bind_done]
  dsimp only
  have firstLength := congrArg List.length first
  simp only [List.length_append, List.length_singleton] at firstLength
  rcases readExact_spec 1 afterFirst with ⟨fits, afterSecond, readsSecond, second, endedSecond⟩ |
    ⟨less, waits⟩
  · rcases bytes : afterFirst.bytes with _ | ⟨low, arrived⟩
    · rw [bytes] at fits
      simp at fits
    rw [bytes] at split second readsSecond
    simp only [List.cons_append, List.cons.injEq] at split
    rcases split with ⟨rfl, split⟩
    simp only [List.drop_succ_cons, List.drop_zero] at second
    simp only [List.take_succ_cons, List.take_zero] at readsSecond
    rw [readsSecond, Outcome.bind_done, List.headD_cons, frame_length limit, if_neg (by omega)]
    rw [bytes] at firstLength
    rcases readExact_spec record.length afterSecond with
      ⟨inside, rest, readsRecord, left, endedRest⟩ | ⟨less, waits⟩
    · right
      rw [second] at inside readsRecord left
      have taken := congrArg (List.take record.length) split
      have dropped := congrArg (List.drop record.length) split
      rw [List.take_append_of_le_length inside, List.take_left] at taken
      rw [List.drop_append_of_le_length inside, List.drop_left] at dropped
      rw [taken] at readsRecord
      rw [readsRecord]
      refine ⟨rest, rfl, by rw [left, dropped], by rw [endedRest, endedSecond, ended], ?_⟩
      rw [left, List.length_drop]
      simp only [List.length_cons] at firstLength
      omega
    · left
      rw [second] at less
      simp only [List.length_cons] at firstLength
      rcases short (by omega) with ⟨waiting, left⟩
      rw [waits, endedSecond, ended, waiting]
      exact ⟨rfl, left, rfl⟩
  · left
    rcases short (by omega) with ⟨waiting, left⟩
    rw [waits, ended, waiting]
    exact ⟨rfl, left, rfl⟩

end Condr.NoiseStream
