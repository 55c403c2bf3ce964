import Condr.Client.NoiseStream

/-!
# The encrypted stream is a byte stream

Whatever the fragments, the bytes that are read are the first of those that were written,
and all that were flushed once everything that was sent is read.
-/

namespace Condr.NoiseStream

open Transport

/-! ## Reading from the transit -/

/-- What is read and what is on the way stays the same while records are decrypted. -/
structure Advances (before after : Reader) (flight rest : List (List UInt8)) : Prop where
  bytes : before.left ++ flight.flatten = after.left ++ rest.flatten
  nonce : before.nonce + flight.length = after.nonce + rest.length

theorem fill_spec {cipher : Cipher} {turns : ℕ} {reader : Reader} {socket : Socket}
    {wire : List UInt8} {flight : List (List UInt8)} (enough : socket.bytes.length < turns)
    (transit : Transit cipher reader socket wire flight) :
    (fill cipher turns reader socket = .blocked ∧ socket.ended = false ∧
      (wire = [] → reader.left ++ flight.flatten = [])) ∨
    ∃ after filled rest later, fill cipher turns reader socket = .done (after, filled) rest ∧
      Transit cipher after rest wire later ∧ rest.ended = socket.ended ∧
      Advances reader after flight later ∧ (filled = true → after.left ≠ []) ∧
      (filled = false → socket.ended = true ∧ rest.bytes = [] ∧ later = [] ∧ after.left = []) := by
  induction turns generalizing reader socket flight with
  | zero => exact absurd enough (Nat.not_lt_zero _)
  | succ turns induction =>
      unfold fill
      by_cases left : reader.consumed ≠ reader.plaintext.length
      · rw [if_pos left]
        refine .inr ⟨reader, true, socket, flight, rfl, transit, rfl, ⟨rfl, rfl⟩, fun _ => ?_, nofun⟩
        exact fun nothing => left ((Reader.left_eq_nil_iff transit.within).mp nothing)
      rw [if_neg left]
      have nothing := (Reader.left_eq_nil_iff transit.within).mpr (not_not.mp left)
      dsimp only
      cases flight with
      | nil =>
          have empty := List.append_eq_nil_iff.mp transit.raw
          rcases readRecord_nil empty.1 with ⟨waits, reads⟩ | ⟨ended, rest, reads, bytes, restEnded⟩
          · rw [reads]
            exact .inl ⟨rfl, waits, fun _ => by rw [nothing]; rfl⟩
          · rw [reads]
            refine .inr ⟨reader, false, rest, [], rfl, ⟨?_, transit.small, transit.within, ?_⟩,
              restEnded.trans ended.symm, ⟨rfl, rfl⟩, nofun, fun _ => ⟨ended, bytes, rfl, nothing⟩⟩
            · rw [bytes, empty.2]
              rfl
            · exact fun _ => empty.2
      | cons plaintext flight =>
          have small := List.forall_mem_cons.mp transit.small
          have length := cipher.length_encrypt reader.nonce plaintext
          have room : maxPlaintext + tagLen = maxRecord := rfl
          rcases readRecord_frame (by omega) (by omega) transit.raw transit.ended with
            ⟨waits, arriving, reads⟩ | ⟨rest, reads, raw, ended, less⟩
          · rw [reads]
            exact .inl ⟨rfl, waits, fun drained => absurd drained arriving⟩
          rw [reads, Outcome.bind_done]
          dsimp only
          rw [cipher.decrypt_encrypt]
          dsimp only
          have moved : Transit cipher ⟨plaintext, 0, reader.nonce + 1⟩ rest wire flight :=
            ⟨raw, small.2, Nat.zero_le _, fun isEnded => transit.ended (ended ▸ isEnded)⟩
          have advances : Advances reader ⟨plaintext, 0, reader.nonce + 1⟩ (plaintext :: flight)
              flight := by
            refine ⟨?_, ?_⟩
            · rw [nothing, List.flatten_cons]
              rfl
            · rw [List.length_cons]
              dsimp only
              omega
          rcases induction (by omega) moved with ⟨blocks, waits, none⟩ |
            ⟨after, filled, last, later, fills, arrives, lastEnded, more, some, atEnd⟩
          · left
            refine ⟨blocks, ended ▸ waits, fun drained => ?_⟩
            rw [advances.bytes]
            exact none drained
          · right
            refine ⟨after, filled, last, later, fills, arrives, lastEnded.trans ended,
              ⟨advances.bytes.trans more.bytes, advances.nonce.trans more.nonce⟩, some, ?_⟩
            intro notFilled
            rw [← ended]
            exact atEnd notFilled

/-- A read never fails: it waits, hands on the next bytes, or hands on none at the end. -/
theorem readStream_spec {cipher : Cipher} {size : ℕ} (positive : 0 < size) {reader : Reader}
    {socket : Socket} {wire : List UInt8} {flight : List (List UInt8)}
    (transit : Transit cipher reader socket wire flight) :
    (readStream cipher size reader socket = .blocked ∧ socket.ended = false ∧
      (wire = [] → reader.left ++ flight.flatten = [])) ∨
    ∃ after bytes rest later, readStream cipher size reader socket = .done (after, bytes) rest ∧
      Transit cipher after rest wire later ∧ rest.ended = socket.ended ∧
      reader.left ++ flight.flatten = bytes ++ after.left ++ later.flatten ∧
      reader.nonce + flight.length = after.nonce + later.length ∧
      (bytes = [] → socket.ended = true ∧ rest.bytes = [] ∧ later = [] ∧ after.left = []) := by
  unfold readStream
  rcases fill_spec (Nat.lt_succ_self _) transit with ⟨blocks, waits, none⟩ |
    ⟨after, filled, rest, later, fills, arrives, ended, advances, some, atEnd⟩
  · rw [blocks]
    exact .inl ⟨rfl, waits, none⟩
  right
  rw [fills, Outcome.bind_done]
  dsimp only
  cases filled with
  | false =>
      rw [if_neg Bool.false_ne_true]
      refine ⟨after, [], rest, later, rfl, arrives, ended, ?_, advances.nonce, fun _ => atEnd rfl⟩
      rw [advances.bytes, List.nil_append]
  | true =>
      rw [if_pos rfl]
      have available := some rfl
      refine ⟨_, _, rest, later, rfl, ⟨arrives.raw, arrives.small, ?_, arrives.ended⟩, ended, ?_,
        advances.nonce, ?_⟩
      · have within := arrives.within
        rw [List.length_drop]
        dsimp only
        omega
      · rw [advances.bytes]
        congr 1
        rw [Reader.left, Reader.left, ← List.drop_drop, List.take_append_drop]
      · intro nothing
        exfalso
        have length := congrArg List.length nothing
        have positiveLeft := List.length_pos_iff.mpr available
        rw [Reader.left] at positiveLeft
        rw [List.length_take, List.length_nil] at length
        omega

/-! ## Every run -/

structure Invariant (cipher : Cipher) (stream : Stream) : Prop where
  flight : ∃ flight, Transit cipher stream.reader stream.socket stream.wire flight ∧
    stream.writer.nonce = stream.reader.nonce + flight.length ∧
    stream.written =
      stream.received ++ (stream.reader.left ++ flight.flatten) ++ stream.writer.pending
  pending : stream.writer.pending.length < maxPlaintext
  sent : ∀ record ∈ stream.sent, record.length ≤ maxRecord
  flushed : ∃ later, stream.written = stream.flushed ++ later ∧
    stream.writer.pending.length ≤ later.length
  closed : stream.socket.ended = true → stream.closed = true

theorem invariant_start (cipher : Cipher) : Invariant cipher Stream.start where
  flight := ⟨[], ⟨rfl, by simp, Nat.le_refl 0, nofun⟩, rfl, rfl⟩
  pending := maxPlaintext_pos
  sent := by simp [Stream.start]
  flushed := ⟨[], rfl, Nat.le_refl 0⟩
  closed := nofun

/-- What the writer sends joins what is on the way. -/
theorem Transit.send {cipher : Cipher} {reader : Reader} {socket : Socket} {wire : List UInt8}
    {flight records plaintexts : List (List UInt8)} {before after : Writer} {bytes : List UInt8}
    (transit : Transit cipher reader socket wire flight)
    (sends : Sends cipher before bytes after records plaintexts)
    (nonce : before.nonce = reader.nonce + flight.length) (running : socket.ended = false) :
    Transit cipher reader socket (wire ++ records.flatMap frame) (flight ++ plaintexts) where
  raw := by
    rw [← List.append_assoc, transit.raw, sends.raw, nonce, encodeAll_append]
  small := by
    intro plaintext contained
    exact (List.mem_append.mp contained).elim (transit.small plaintext) (sends.small plaintext)
  within := transit.within
  ended := by
    rw [running]
    nofun

theorem Invariant.running {cipher : Cipher} {stream : Stream} (invariant : Invariant cipher stream)
    (isOpen : stream.closed = false) : stream.socket.ended = false := by
  rw [Bool.eq_false_iff]
  intro ended
  rw [invariant.closed ended] at isOpen
  cases isOpen

theorem invariant_step {cipher : Cipher} {stream next : Stream} {label : Label}
    (invariant : Invariant cipher stream) (step : Step cipher stream label next) :
    Invariant cipher next := by
  rcases invariant.flight with ⟨flight, transit, nonce, written⟩
  rcases invariant.flushed with ⟨later, sinceFlush, behind⟩
  cases step with
  | @write buffer isOpen =>
      rcases @write_spec cipher _ invariant.pending buffer with ⟨plaintexts, sends, less⟩
      refine ⟨⟨flight ++ plaintexts, transit.send sends nonce (invariant.running isOpen), ?_, ?_⟩,
        less, ?_, ⟨later ++ buffer, ?_, ?_⟩, invariant.closed⟩
      · dsimp only
        rw [sends.nonce, nonce, List.length_append, Nat.add_assoc]
      · dsimp only
        rw [written, List.append_assoc, sends.split]
        simp only [List.flatten_append, List.append_assoc]
      · intro record contained
        exact (List.mem_append.mp contained).elim (invariant.sent record) (sends.limit record)
      · dsimp only
        rw [sinceFlush, List.append_assoc]
      · have length := congrArg List.length sends.split
        rw [List.length_append, List.length_append] at length
        rw [List.length_append]
        dsimp only
        omega
  | flush isOpen =>
      rcases @flush_spec cipher _ invariant.pending with ⟨plaintexts, sends, none⟩
      refine ⟨⟨flight ++ plaintexts, transit.send sends nonce (invariant.running isOpen), ?_, ?_⟩,
        ?_, ?_, ⟨[], (List.append_nil _).symm, ?_⟩, invariant.closed⟩
      · dsimp only
        rw [sends.nonce, nonce, List.length_append, Nat.add_assoc]
      · have split := sends.split
        rw [List.append_nil] at split
        dsimp only
        rw [written, split]
        simp only [List.flatten_append, List.append_assoc]
      · dsimp only
        rw [none]
        exact maxPlaintext_pos
      · intro record contained
        exact (List.mem_append.mp contained).elim (invariant.sent record) (sends.limit record)
      · exact Nat.le_of_eq (congrArg List.length none)
  | @deliver count =>
      refine ⟨⟨flight, ⟨?_, transit.small, transit.within, ?_⟩, nonce, written⟩,
        invariant.pending, invariant.sent, ⟨later, sinceFlush, behind⟩, invariant.closed⟩
      · rw [← transit.raw]
        simp [Socket.bytes]
      · intro ended
        dsimp only
        rw [transit.ended ended, List.drop_nil]
  | close =>
      exact ⟨⟨flight, transit, nonce, written⟩, invariant.pending, invariant.sent,
        ⟨later, sinceFlush, behind⟩, fun _ => rfl⟩
  | finish closed drained =>
      exact ⟨⟨flight, ⟨transit.raw, transit.small, transit.within, fun _ => drained⟩, nonce, written⟩,
        invariant.pending, invariant.sent, ⟨later, sinceFlush, behind⟩, fun _ => closed⟩
  | @read size reader bytes rest positive reads =>
      rcases readStream_spec positive transit with ⟨blocks, -⟩ |
        ⟨after, taken, left, more, happens, arrives, ended, same, advances, -⟩
      · rw [reads] at blocks
        cases blocks
      rw [reads, Outcome.done.injEq, Prod.mk.injEq] at happens
      rcases happens with ⟨⟨rfl, rfl⟩, rfl⟩
      refine ⟨⟨more, arrives, nonce.trans advances, ?_⟩, invariant.pending, invariant.sent,
        ⟨later, sinceFlush, behind⟩, fun isEnded => invariant.closed (ended ▸ isEnded)⟩
      dsimp only
      rw [written, same]
      simp only [List.append_assoc]

theorem invariant_reachable {cipher : Cipher} {stream : Stream}
    (reached : (system cipher).Reachable stream) : Invariant cipher stream :=
  reached.invariant (Invariant cipher) (by rintro _ rfl; exact invariant_start cipher)
    (fun _ _ _ invariant step => invariant_step invariant step)

/-- What is left to read is what was written and is not pending. -/
theorem Invariant.split {cipher : Cipher} {stream : Stream} (invariant : Invariant cipher stream) :
    ∃ flight, Transit cipher stream.reader stream.socket stream.wire flight ∧
      (stream.reader.left ++ flight.flatten = [] ↔
        stream.written = stream.received ++ stream.writer.pending) := by
  rcases invariant.flight with ⟨flight, transit, -, written⟩
  refine ⟨flight, transit, ?_⟩
  rw [written]
  constructor
  · intro none
    rw [none, List.append_nil]
  · intro same
    have length := congrArg List.length same
    simp only [List.length_append] at length
    rw [← List.length_eq_zero_iff, List.length_append]
    omega

/-- What a read in a reachable state can do. -/
theorem Invariant.reads {cipher : Cipher} {stream : Stream} (invariant : Invariant cipher stream)
    {size : ℕ} (positive : 0 < size) :
    (readStream cipher size stream.reader stream.socket = .blocked ∧
      stream.socket.ended = false ∧
      (stream.wire = [] → stream.written = stream.received ++ stream.writer.pending)) ∨
    ∃ reader bytes rest,
      readStream cipher size stream.reader stream.socket = .done (reader, bytes) rest ∧
      (stream.written = stream.received ++ stream.writer.pending → bytes = []) ∧
      (bytes = [] → stream.socket.ended = true ∧ stream.wire = [] ∧
        stream.written = stream.received ++ stream.writer.pending) := by
  rcases invariant.split with ⟨flight, transit, nothing⟩
  rcases readStream_spec positive transit with ⟨blocks, waits, none⟩ |
    ⟨reader, bytes, rest, later, reads, -, -, same, -, atEnd⟩
  · exact .inl ⟨blocks, waits, fun delivered => nothing.mp (none delivered)⟩
  right
  refine ⟨reader, bytes, rest, reads, ?_, ?_⟩
  · intro all
    rw [nothing.mpr all, List.append_assoc] at same
    exact (List.append_eq_nil_iff.mp same.symm).1
  · intro none
    rcases atEnd none with ⟨ended, -, noLater, noLeft⟩
    refine ⟨ended, transit.ended ended, nothing.mp ?_⟩
    rw [same, none, noLater, noLeft]
    rfl

/-- A delivered stream is drained when all that was sent is read. -/
theorem Invariant.drained_iff {cipher : Cipher} {stream : Stream}
    (invariant : Invariant cipher stream) (delivered : stream.wire = []) :
    stream.Drained cipher ↔ stream.written = stream.received ++ stream.writer.pending := by
  constructor
  · intro drained
    rcases invariant.reads Nat.one_pos with ⟨-, -, all⟩ | ⟨reader, bytes, rest, reads, -, atEnd⟩
    · exact all delivered
    · exact (atEnd (drained.2 _ _ _ _ Nat.one_pos reads)).2.2
  · intro all
    refine ⟨delivered, ?_⟩
    intro size reader bytes rest positive reads
    rcases invariant.reads positive with ⟨blocks, -⟩ | ⟨_, _, _, happens, none, -⟩
    · rw [reads] at blocks
      cases blocks
    · rw [reads, Outcome.done.injEq, Prod.mk.injEq] at happens
      rcases happens with ⟨⟨-, rfl⟩, -⟩
      exact none all

/-- Nothing flushed is missing when everything that was sent is read. -/
theorem Invariant.flushed_read {cipher : Cipher} {stream : Stream}
    (invariant : Invariant cipher stream)
    (all : stream.written = stream.received ++ stream.writer.pending) :
    stream.flushed <+: stream.received := by
  rcases invariant.flushed with ⟨later, sinceFlush, behind⟩
  rw [all] at sinceFlush
  have length := congrArg List.length sinceFlush
  rw [List.length_append, List.length_append] at length
  exact List.prefix_of_prefix_length_le
    (show stream.flushed <+: stream.received ++ stream.writer.pending from ⟨later, sinceFlush.symm⟩)
    (List.prefix_append stream.received stream.writer.pending) (by omega)

/-- Reads of any size drain what was delivered. -/
theorem reads_drain {cipher : Cipher} {size : ℕ} (positive : 0 < size) {stream : Stream}
    (reached : (system cipher).Reachable stream) (delivered : stream.wire = []) :
    ∃ count last, Transition.System.runLabels (perform cipher) stream
        (List.replicate count (.read size)) = some last ∧ last.Drained cipher ∧
      last.flushed = stream.flushed := by
  generalize left : stream.written.length - stream.received.length = bound
  induction bound using Nat.strongRecOn generalizing stream with
  | ind bound induction =>
      have invariant := invariant_reachable reached
      by_cases all : stream.written = stream.received ++ stream.writer.pending
      · exact ⟨0, stream, rfl, (invariant.drained_iff delivered).mpr all, rfl⟩
      rcases invariant.reads positive with ⟨-, -, read⟩ | ⟨reader, bytes, rest, reads, -, atEnd⟩
      · exact absurd (read delivered) all
      have more : 0 < bytes.length := by
        refine List.length_pos_iff.mpr fun none => ?_
        exact all (atEnd none).2.2
      have performed : perform cipher stream (.read size) = some { stream with
          socket := rest
          reader := reader
          received := stream.received ++ bytes } := by
        simp only [perform]
        rw [if_neg (Nat.ne_of_gt positive), reads]
      have next := reached.next (step_of_perform _ _ _ performed)
      have within := (invariant_reachable next).flight
      rcases within with ⟨flight, -, -, written⟩
      have longer := congrArg List.length written
      simp only [List.length_append] at longer
      rcases induction _ (by simp only [List.length_append]; omega) next delivered rfl with
        ⟨count, last, runs, drained, same⟩
      refine ⟨count + 1, last, ?_, drained, same⟩
      rw [List.replicate_succ, Transition.System.runLabels, List.foldlM_cons, performed]
      exact runs

/-- Written, flushed and read bytes in every state of every run, what a read there does, and how
the stream is drained from there. -/
theorem stream_reads_written (cipher : Cipher) {stream : Stream}
    (reached : (system cipher).Reachable stream) :
    stream.received <+: stream.written ∧
      (stream.Drained cipher → stream.flushed <+: stream.received ∧
        (stream.written = stream.flushed → stream.received = stream.flushed)) ∧
      (∀ record ∈ stream.sent, record.length ≤ maxRecord) ∧
      stream.writer.pending.length < maxPlaintext ∧
      ∀ size, 0 < size → readStream cipher size stream.reader stream.socket ≠ .failed ∧
        (readStream cipher size stream.reader stream.socket = .blocked →
          stream.socket.ended = false ∧
          (stream.wire = [] → stream.written = stream.received ++ stream.writer.pending)) ∧
        (∀ reader rest, readStream cipher size stream.reader stream.socket =
          .done (reader, []) rest → stream.socket.ended = true ∧ stream.wire = [] ∧
            stream.written = stream.received ++ stream.writer.pending) ∧
        ∃ count last, Transition.System.runLabels (perform cipher) stream
            (.deliver stream.wire.length :: List.replicate count (.read size)) = some last ∧
          last.Drained cipher ∧ stream.flushed <+: last.received := by
  have invariant := invariant_reachable reached
  rcases invariant.flight with ⟨flight, -, -, written⟩
  refine ⟨⟨_, by rw [written, List.append_assoc]⟩, ?_, invariant.sent, invariant.pending, ?_⟩
  · intro drained
    have all := (invariant.drained_iff drained.1).mp drained
    have first := invariant.flushed_read all
    refine ⟨first, fun same => ?_⟩
    rw [all] at same
    have equal := congrArg List.length same
    rw [List.length_append] at equal
    exact (first.eq_of_length (by have := first.length_le; omega)).symm
  intro size positive
  refine and_assoc.mp (and_assoc.mp ⟨?_, ?_⟩)
  · rcases invariant.reads positive with ⟨blocks, waits, all⟩ |
      ⟨reader, bytes, rest, reads, -, atEnd⟩
    · rw [blocks]
      exact ⟨⟨nofun, fun _ => ⟨waits, all⟩⟩, nofun⟩
    · rw [reads]
      refine ⟨⟨nofun, nofun⟩, ?_⟩
      intro other last happens
      rw [Outcome.done.injEq, Prod.mk.injEq] at happens
      exact atEnd happens.1.2
  · -- the wire is empty once its whole length is delivered
    have arrived := reached.next
      (show (system cipher).step stream (.deliver stream.wire.length) _ from .deliver)
    rcases reads_drain positive arrived (List.drop_length (l := stream.wire)) with
      ⟨count, last, runs, drained, same⟩
    refine ⟨count, last, runs, drained, ?_⟩
    have kept := invariant_reachable (arrived.of_runLabels step_of_perform runs)
    have read := kept.flushed_read ((kept.drained_iff drained.1).mp drained)
    rw [same] at read
    exact read

/-! ## Runs -/

/-- A tag that is always the same. -/
def plainCipher : Cipher where
  encrypt := fun _ plaintext => plaintext ++ List.replicate tagLen 0
  decrypt := fun _ record => some (record.take (record.length - tagLen))
  length_encrypt := by simp
  decrypt_encrypt := by simp

/-- Three bytes that are flushed twice, arrive in pieces and are read one by one, with one
more byte that is not flushed. -/
theorem stream_reads_written_flushed :
    ∃ stream : Stream, stream.Drained plainCipher ∧ stream.received = [7, 8, 9] ∧
      stream.written = [7, 8, 9, 10] ∧ stream.received <+: stream.written ∧
      (stream.Drained plainCipher → stream.flushed <+: stream.received ∧
        (stream.written = stream.flushed → stream.received = stream.flushed)) ∧
      (∀ record ∈ stream.sent, record.length ≤ maxRecord) ∧
      stream.writer.pending.length < maxPlaintext ∧
      ∀ size, 0 < size → readStream plainCipher size stream.reader stream.socket ≠ .failed ∧
        (readStream plainCipher size stream.reader stream.socket = .blocked →
          stream.socket.ended = false ∧
          (stream.wire = [] → stream.written = stream.received ++ stream.writer.pending)) ∧
        (∀ reader rest, readStream plainCipher size stream.reader stream.socket =
          .done (reader, []) rest → stream.socket.ended = true ∧ stream.wire = [] ∧
            stream.written = stream.received ++ stream.writer.pending) ∧
        ∃ count last, Transition.System.runLabels (perform plainCipher) stream
            (.deliver stream.wire.length :: List.replicate count (.read size)) = some last ∧
          last.Drained plainCipher ∧ stream.flushed <+: last.received := by
  have runs : (Transition.System.runLabels (perform plainCipher) Stream.start
      [.write [7, 8], .flush, .deliver 3, .deliver 17, .read 1, .write [9], .flush, .deliver 19,
        .read 1, .read 1, .write [10]]).map
      (fun stream => (stream.wire, stream.received, stream.written, stream.writer.pending)) =
        some ([], [7, 8, 9], [7, 8, 9, 10], [10]) := by
    decide +kernel
  rcases Option.map_eq_some_iff.mp runs with ⟨stream, runs, values⟩
  simp only [Prod.mk.injEq] at values
  rcases values with ⟨delivered, received, written, pending⟩
  have reached : (system plainCipher).Reachable stream :=
    .of_runLabels step_of_perform (.start rfl) runs
  refine ⟨stream, ?_, received, written, stream_reads_written plainCipher reached⟩
  apply ((invariant_reachable reached).drained_iff delivered).mpr
  rw [received, written, pending]
  rfl

/-- A buffer of exactly a record is sent at once. -/
theorem write_full (cipher : Cipher) {buffer : List UInt8}
    (length : buffer.length = maxPlaintext) :
    write cipher ⟨[], 0⟩ buffer = (⟨[], 1⟩, [cipher.encrypt 0 buffer]) := by
  have chunks : asChunks maxPlaintext buffer = ([buffer], []) := by
    rw [asChunks, length, Nat.div_self maxPlaintext_pos, Nat.one_mul, ← length, List.drop_length]
    simp [Chunks.chunk]
  rw [write, topUp, if_pos rfl]
  dsimp only
  rw [chunks]
  rfl

/-- A single message is read whole where the buffer has room for it. -/
theorem readStream_single {cipher : Cipher} {size : ℕ} {plaintext : List UInt8}
    (positive : 0 < plaintext.length) (small : plaintext.length ≤ maxPlaintext)
    (fits : plaintext.length ≤ size) {socket : Socket}
    (bytes : socket.bytes = frame (cipher.encrypt 0 plaintext)) :
    ∃ rest, readStream cipher size ⟨[], 0, 0⟩ socket =
      .done (⟨plaintext, plaintext.length, 1⟩, plaintext) rest ∧ rest.bytes = [] := by
  have length := cipher.length_encrypt 0 plaintext
  have room : maxPlaintext + tagLen = maxRecord := rfl
  rcases @readRecord_frame socket [] (cipher.encrypt 0 plaintext) [] (by omega) (by omega)
    (by rw [bytes]) (fun _ => rfl) with ⟨-, arriving, -⟩ | ⟨rest, reads, none, -, -⟩
  · exact absurd rfl arriving
  rw [List.append_nil] at none
  refine ⟨rest, ?_, none⟩
  have filled : fill cipher (socket.bytes.length + 1) ⟨[], 0, 0⟩ socket =
      .done (⟨plaintext, 0, 1⟩, true) rest := by
    unfold fill
    rw [if_neg (by simp), reads]
    dsimp only [Outcome.bind_done]
    rw [cipher.decrypt_encrypt]
    dsimp only
    unfold fill
    rw [if_pos (by dsimp only; omega)]
  rw [readStream, filled, Outcome.bind_done]
  dsimp only
  rw [if_pos rfl, List.drop_zero, Nat.min_eq_left fits, List.take_length, Nat.zero_add]

/-- A full record is sent without a flush. -/
theorem unflushed_record_arrives :
    ¬ ∀ (cipher : Cipher) (stream : Stream), (system cipher).Reachable stream →
      stream.Drained cipher → stream.received = stream.flushed := by
  intro claim
  obtain ⟨buffer, length⟩ : ∃ buffer : List UInt8, buffer.length = maxPlaintext :=
    ⟨List.replicate maxPlaintext 0, List.length_replicate⟩
  have full : write plainCipher Stream.start.writer buffer = _ := write_full plainCipher length
  have written := (Transition.System.Reachable.start rfl).next
    (show (system plainCipher).step Stream.start (.write buffer) _ from .write rfl)
  rw [full] at written
  have delivered := written.next (show (system plainCipher).step _
    (.deliver (frame (plainCipher.encrypt 0 buffer)).length) _ from .deliver)
  have arrived : Socket.bytes ⟨[] ++ [frame (plainCipher.encrypt 0 buffer)], false⟩ =
      frame (plainCipher.encrypt 0 buffer) := by
    simp [Socket.bytes]
  have whole : [] ++ [plainCipher.encrypt 0 buffer].flatMap frame =
      frame (plainCipher.encrypt 0 buffer) := by
    simp
  simp only [Stream.start, whole, List.take_length, List.drop_length] at delivered
  rcases @readStream_single plainCipher maxPlaintext buffer
    (by rw [length]; exact maxPlaintext_pos) (Nat.le_of_eq length) (Nat.le_of_eq length) _ arrived
    with ⟨rest, reads, none⟩
  have read := delivered.next (show (system plainCipher).step _ (.read maxPlaintext) _ from
    .read maxPlaintext_pos reads)
  have drained := ((invariant_reachable read).drained_iff rfl).mpr (List.append_nil _).symm
  have same := claim plainCipher _ read drained
  dsimp only at same
  rw [List.nil_append] at same
  rw [same] at length
  exact absurd length (Nat.ne_of_lt maxPlaintext_pos)

end Condr.NoiseStream
