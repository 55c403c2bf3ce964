import Condr.Foundation.Transport
import Condr.Foundation.Varint
import Condr.Protocol.ClientMessageRoundTrip
import Condr.Server.BootstrapSize

/-!
# The frames of a Client's messages

A message is its body behind a varint length. A reader takes the length one byte at a time, so
that nothing past the frame is consumed, and refuses one above its limit before it allocates a
body. Only an image may use the larger allowance, and a body above the normal limit is checked
to be that one field before it is decoded.
-/

namespace Condr.Framing

open ClientWriter (maxFrameSize maxFramePrefix)
open Protobuf (varint decodeVarint decodeVarint_append decodeVarint_spec decodeVarint_varint
  encodedLen length_varint_le uint uintLen_le used_of_last)
open Transport (Socket Outcome readExact)

def maxClipboardImageBytes : ℕ := 16 * 1024 * 1024

def maxImageFrameSize : ℕ := maxClipboardImageBytes + 1024

/-- `PASTE_IMAGE`: the tag of field 9, a length-delimited one. -/
def pasteImageTag : UInt8 := 9 * 8 + 2

/-- What the generated code writes for a Client's message, and reads from bytes. An image is
written as its one field, and a field is not read whose length is more than what follows. -/
structure ClientProst where
  encode : Pb.ClientMessage → List UInt8
  decode : List UInt8 → Except String Pb.ClientMessage
  invalidVarint : String
  images : ∀ image, ∃ payload : List UInt8, encode ⟨some (.pasteImage image)⟩ =
    pasteImageTag :: (varint payload.length ++ payload)
  truncated : ∀ (rest : List UInt8) (length used : ℕ), decodeVarint rest = some (length, used) →
    rest.length < used + length → ∃ text, decode (pasteImageTag :: rest) = .error text

/-! ## Writing -/

def frameLimit : ClientMessage → ℕ
  | .pasteImage .. => maxImageFrameSize
  | _ => maxFrameSize

def codec (text : String) : String := "protocol codec error: " ++ text

def oversized (claimed limit : ℕ) : String :=
  "frame size " ++ toString claimed ++ " exceeds maximum " ++ toString limit

/-- `write_client_message`: the bytes that are written. -/
def writeClientMessage (prost : ClientProst) (order : HashOrder) (message : ClientMessage) :
    Except String (List UInt8) := do
  let wire ← (message.toWire order).mapError codec
  frameBody (prost.encode wire) (frameLimit message)

/-! ## Reading -/

/-- A sum of two `usize`s, as a release build computes it. -/
def usizeAdd (left right : ℕ) : ℕ := (left + right) % 2 ^ 64

/-- `length_delimiter_len`. -/
def lengthDelimiterLen (length : ℕ) : ℕ := (varint length).length

/-- What a body that is one field takes: a tag, a length and so many bytes. -/
def fieldSize (length : ℕ) : ℕ := usizeAdd (usizeAdd 1 (lengthDelimiterLen length)) length

def admitClientFrame (body : List UInt8) : Except String Unit :=
  if body.length ≤ maxFrameSize then .ok ()
  else
    match body with
    | [] => .error (oversized body.length maxFrameSize)
    | tag :: rest =>
        match decodeVarint rest with
        | none => .error (oversized body.length maxFrameSize)
        | some (length, _) =>
            if tag ≠ pasteImageTag ∨ fieldSize length ≠ body.length then
              .error (oversized body.length maxFrameSize)
            else .ok ()

/-- `ClientMessage::decode`. -/
def decodeClientFrame (prost : ClientProst) (body : List UInt8) : Except String ClientMessage := do
  let wire ← (prost.decode body).mapError codec
  wire.toDomain.mapError fun error => codec error.display

/-- The length of a frame after some of its bytes, each of which says another one follows. -/
def readFrameLengthFrom (invalidVarint : String) :
    ℕ → List UInt8 → Socket → Outcome (Except String ℕ)
  | 0, _, socket => .done (.error (codec "frame length is not a varint")) socket
  | turns + 1, front, socket =>
      (readExact 1 socket).bind fun byte rest =>
        if byte.all fun digit => digit.toNat < 128 then
          match decodeVarint (front ++ byte) with
          | some (length, _) => .done (.ok length) rest
          | none => .done (.error (codec invalidVarint)) rest
        else readFrameLengthFrom invalidVarint turns (front ++ byte) rest

def readFrameLength (invalidVarint : String) (socket : Socket) : Outcome (Except String ℕ) :=
  readFrameLengthFrom invalidVarint maxFramePrefix [] socket

/-- The message of a body that was read whole. -/
def acceptBody (prost : ClientProst) (claimed : ℕ) (body : List UInt8) :
    Except String (ClientMessage × ℕ) := do
  admitClientFrame body
  let message ← decodeClientFrame prost body
  .ok (message, claimed)

def readBody (prost : ClientProst) (claimed : ℕ) (socket : Socket) :
    Outcome (Except String (ClientMessage × ℕ)) :=
  (readExact claimed socket).bind fun body rest => .done (acceptBody prost claimed body) rest

/-- A read, and how many bytes it allocated for the body. -/
structure Attempt where
  allocated : ℕ
  outcome : Outcome (Except String (ClientMessage × ℕ))

/-- `read_message_with_limit`. -/
def readMessageWithLimit (prost : ClientProst) (limit : ℕ) (socket : Socket) : Attempt :=
  match readFrameLength prost.invalidVarint socket with
  | .blocked => ⟨0, .blocked⟩
  | .failed => ⟨0, .failed⟩
  | .done (.error text) rest => ⟨0, .done (.error text) rest⟩
  | .done (.ok claimed) rest =>
      if limit < claimed then ⟨0, .done (.error (oversized claimed limit)) rest⟩
      else ⟨claimed, readBody prost claimed rest⟩

/-- So many messages, one after the other. -/
def readMessages (prost : ClientProst) (limit : ℕ) :
    ℕ → Socket → Outcome (Except String (List ClientMessage))
  | 0, socket => .done (.ok []) socket
  | count + 1, socket =>
      (readMessageWithLimit prost limit socket).outcome.bind fun read rest =>
        match read with
        | .error text => .done (.error text) rest
        | .ok (message, _) =>
            (readMessages prost limit count rest).bind fun later rest =>
              .done (later.map (message :: ·)) rest

/-! ## Sizes -/

variable {prost : ClientProst} {socket : Socket} {limit : ℕ}

theorem lengthDelimiterLen_le (length : ℕ) : lengthDelimiterLen length ≤ 10 :=
  length_varint_le length

theorem fieldSize_eq {length : ℕ} (small : length + 11 < 2 ^ 64) :
    fieldSize length = 1 + lengthDelimiterLen length + length := by
  have delimiter := lengthDelimiterLen_le length
  unfold fieldSize usizeAdd
  omega

/-- Where the sum wraps it is small. -/
theorem fieldSize_le {length : ℕ} (wraps : 2 ^ 64 ≤ length + 11) (small : length < 2 ^ 64) :
    fieldSize length ≤ 10 ∨ fieldSize length = 1 + lengthDelimiterLen length + length := by
  have delimiter := lengthDelimiterLen_le length
  unfold fieldSize usizeAdd
  omega

/-- A body above the normal limit is admitted where its first field would span it, but for the
form of its length. -/
theorem admitClientFrame_large {body : List UInt8} (large : maxFrameSize < body.length)
    (admitted : admitClientFrame body = .ok ()) :
    ∃ rest length used, body = pasteImageTag :: rest ∧ decodeVarint rest = some (length, used) ∧
      body.length = 1 + lengthDelimiterLen length + length := by
  unfold admitClientFrame at admitted
  rw [if_neg (Nat.not_le.mpr large)] at admitted
  cases body with
  | nil => cases admitted
  | cons tag rest =>
      dsimp only at admitted
      cases decoded : decodeVarint rest with
      | none =>
          rw [decoded] at admitted
          cases admitted
      | some read =>
          rcases read with ⟨length, used⟩
          rw [decoded] at admitted
          dsimp only at admitted
          split_ifs at admitted with refused
          rw [not_or, not_not, not_not] at refused
          rcases refused with ⟨rfl, spans⟩
          refine ⟨rest, length, used, rfl, decoded, ?_⟩
          rw [← spans]
          have room : 10 < maxFrameSize := by decide
          rcases Nat.lt_or_ge (length + 11) (2 ^ 64) with exact | wraps
          · exact fieldSize_eq exact
          · have small := (decodeVarint_spec decoded).1
            rcases fieldSize_le wraps small with tiny | exact
            · omega
            · exact exact

/-- One field that spans the body is admitted, whatever its size. -/
theorem admitClientFrame_field {payload : List UInt8} (small : payload.length + 11 < 2 ^ 64) :
    admitClientFrame (pasteImageTag :: (varint payload.length ++ payload)) = .ok () := by
  have spans : fieldSize payload.length =
      (pasteImageTag :: (varint payload.length ++ payload)).length := by
    rw [fieldSize_eq small, List.length_cons, List.length_append, lengthDelimiterLen]
    omega
  unfold admitClientFrame
  split_ifs
  · rfl
  · dsimp only
    rw [decodeVarint_varint (by omega)]
    dsimp only
    rw [if_neg]
    rw [not_or, not_not, not_not]
    exact ⟨rfl, spans⟩

theorem acceptBody_eq_ok {claimed size : ℕ} {body : List UInt8} {message : ClientMessage} :
    acceptBody prost claimed body = .ok (message, size) ↔
      admitClientFrame body = .ok () ∧ decodeClientFrame prost body = .ok message ∧
        size = claimed := by
  simp only [acceptBody, Lists.bind_eq_ok, Except.ok.injEq, Prod.mk.injEq]
  constructor
  · rintro ⟨_, admitted, taken, decoded, rfl, rfl⟩
    exact ⟨admitted, decoded, rfl⟩
  · rintro ⟨admitted, decoded, rfl⟩
    exact ⟨(), admitted, message, decoded, rfl, rfl⟩

/-- A body that is decoded too has its length in the shortest form. -/
theorem accepted_large {body : List UInt8} {message : ClientMessage}
    (large : maxFrameSize < body.length) (admitted : admitClientFrame body = .ok ())
    (decoded : decodeClientFrame prost body = .ok message) :
    ∃ payload : List UInt8, body = pasteImageTag :: (varint payload.length ++ payload) := by
  rcases admitClientFrame_large large admitted with ⟨rest, length, used, rfl, reads, spans⟩
  rcases decodeVarint_spec reads with ⟨small, inside, -, shortest, unique⟩
  rw [List.length_cons, lengthDelimiterLen] at spans
  rcases Nat.lt_or_ge rest.length (used + length) with short | long
  · rcases prost.truncated rest length used reads short with ⟨text, refused⟩
    rw [decodeClientFrame, refused] at decoded
    cases decoded
  · have canonical : used = (varint length).length := by omega
    have payload : (rest.drop used).length = length := by
      rw [List.length_drop]
      omega
    refine ⟨rest.drop used, ?_⟩
    rw [payload, ← unique canonical, List.take_append_drop]

/-! ## The length -/

/-- The bytes before the last one of a length say that another one follows. -/
theorem used_of_continued {front : List UInt8} {byte : UInt8} {length used : ℕ}
    (continued : ∀ digit ∈ front, 128 ≤ digit.toNat) (last : byte.toNat < 128)
    (decoded : decodeVarint (front ++ [byte]) = some (length, used)) :
    used = front.length + 1 := by
  rcases decodeVarint_append continued decoded with ⟨high, taken, reads, rfl⟩
  rw [used_of_last last reads, Nat.add_comm]

theorem readOne (socket : Socket) :
    (∃ byte rest, readExact 1 socket = .done [byte] rest ∧ socket.bytes = byte :: rest.bytes) ∨
    socket.bytes = [] ∧ (readExact 1 socket = .failed ∨ readExact 1 socket = .blocked) := by
  rcases Transport.readExact_spec 1 socket with ⟨arrived, rest, reads, left, -⟩ | ⟨short, reads⟩
  · left
    cases bytes : socket.bytes with
    | nil =>
        rw [bytes] at arrived
        cases arrived
    | cons byte later =>
        rw [bytes] at reads left
        exact ⟨byte, rest, reads, by rw [left]; rfl⟩
  · right
    refine ⟨List.length_eq_zero_iff.mp (by omega), ?_⟩
    rw [reads]
    cases socket.ended
    · exact .inr rfl
    · exact .inl rfl

/-- A read length is of exactly the bytes that were taken. -/
theorem readFrameLengthFrom_cases (invalidVarint : String) {turns : ℕ} {front : List UInt8}
    (continued : ∀ digit ∈ front, 128 ≤ digit.toNat) (socket : Socket) :
    (∃ result taken rest, readFrameLengthFrom invalidVarint turns front socket =
        .done result rest ∧ socket.bytes = taken ++ rest.bytes ∧ taken.length ≤ turns ∧
        ∀ length, result = .ok length →
          decodeVarint (front ++ taken) = some (length, (front ++ taken).length)) ∨
    readFrameLengthFrom invalidVarint turns front socket = .failed ∨
    readFrameLengthFrom invalidVarint turns front socket = .blocked := by
  induction turns generalizing front socket with
  | zero => exact .inl ⟨_, [], socket, rfl, rfl, Nat.le_refl 0, nofun⟩
  | succ turns induction =>
      unfold readFrameLengthFrom
      rcases readOne socket with ⟨byte, rest, reads, bytes⟩ | ⟨-, reads | reads⟩
      · rw [reads, Outcome.bind_done]
        simp only [List.all_cons, List.all_nil, Bool.and_true, decide_eq_true_eq]
        split_ifs with last
        · left
          cases decoded : decodeVarint (front ++ [byte]) with
          | none => exact ⟨_, [byte], rest, rfl, bytes, by simp, nofun⟩
          | some read =>
              rcases read with ⟨length, used⟩
              refine ⟨_, [byte], rest, rfl, bytes, by simp, ?_⟩
              rintro value ⟨⟩
              have whole := used_of_continued continued last decoded
              rw [decoded, whole, List.length_append, List.length_singleton]
        · have more : ∀ digit ∈ front ++ [byte], 128 ≤ digit.toNat := by
            intro digit member
            rcases List.mem_append.mp member with earlier | here
            · exact continued digit earlier
            · rw [List.mem_singleton.mp here]
              omega
          rcases induction more rest with ⟨result, taken, last, done, split, few, exact⟩ | waits
          · left
            refine ⟨result, byte :: taken, last, done, ?_, Nat.succ_le_succ few, ?_⟩
            · rw [bytes, split, List.cons_append]
            · intro length ok
              have read := exact length ok
              rwa [List.append_assoc, List.singleton_append] at read
          · exact .inr waits
      · rw [reads]
        exact .inr (.inl rfl)
      · rw [reads]
        exact .inr (.inr rfl)

theorem readFrameLength_cases (invalidVarint : String) (socket : Socket) :
    (∃ result front rest, readFrameLength invalidVarint socket = .done result rest ∧
        socket.bytes = front ++ rest.bytes ∧ front.length ≤ maxFramePrefix ∧
        ∀ length, result = .ok length → decodeVarint front = some (length, front.length)) ∨
    readFrameLength invalidVarint socket = .failed ∨
    readFrameLength invalidVarint socket = .blocked := by
  have cases := @readFrameLengthFrom_cases invalidVarint maxFramePrefix [] nofun socket
  simpa only [List.nil_append] using! cases

/-- A length that has arrived is read, and nothing behind it. -/
theorem readFrameLengthFrom_append (invalidVarint : String) {turns : ℕ}
    {front taken back : List UInt8} {length : ℕ} {socket : Socket}
    (continued : ∀ digit ∈ front, 128 ≤ digit.toNat) (turn : front.length + turns = 10)
    (decoded : decodeVarint (front ++ taken) = some (length, (front ++ taken).length))
    (bytes : socket.bytes = taken ++ back) :
    ∃ rest, readFrameLengthFrom invalidVarint turns front socket = .done (.ok length) rest ∧
      rest.bytes = back := by
  induction turns generalizing front taken socket with
  | zero =>
      rcases decodeVarint_append continued decoded with ⟨high, used, later, -⟩
      rw [show 10 - front.length = 0 by omega] at later
      cases later
  | succ turns induction =>
      rcases decodeVarint_append continued decoded with ⟨high, used, later, whole⟩
      cases taken with
      | nil =>
          rw [show 10 - front.length = turns + 1 by omega] at later
          cases turns <;> cases later
      | cons byte taken =>
          rcases readOne socket with ⟨first, rest, reads, split⟩ | ⟨empty, -⟩
          · rw [bytes, List.cons_append] at split
            rcases List.cons.inj split with ⟨rfl, left⟩
            unfold readFrameLengthFrom
            rw [reads, Outcome.bind_done]
            simp only [List.all_cons, List.all_nil, Bool.and_true, decide_eq_true_eq]
            split_ifs with last
            · -- the length ends here, so nothing of it is left
              have one := used_of_last last later
              rw [List.length_append, List.length_cons] at whole
              rcases List.length_eq_zero_iff.mp (show taken.length = 0 by omega) with rfl
              rw [decoded]
              exact ⟨rest, rfl, left.symm⟩
            · have more : ∀ digit ∈ front ++ [byte], 128 ≤ digit.toNat := by
                intro digit member
                rcases List.mem_append.mp member with earlier | here
                · exact continued digit earlier
                · rw [List.mem_singleton.mp here]
                  omega
              apply induction more _ _ left.symm
              · rw [List.length_append, List.length_singleton]
                omega
              · rwa [List.append_assoc, List.singleton_append]
          · rw [bytes] at empty
            cases empty

theorem readFrameLength_append (invalidVarint : String) {front back : List UInt8} {length : ℕ}
    {socket : Socket} (decoded : decodeVarint front = some (length, front.length))
    (bytes : socket.bytes = front ++ back) :
    ∃ rest, readFrameLength invalidVarint socket = .done (.ok length) rest ∧ rest.bytes = back :=
  readFrameLengthFrom_append invalidVarint nofun rfl decoded bytes

/-! ## One frame -/

/-- A read takes at most one frame, and allocates and accepts no body above its limit; an accepted
body above the normal limit is one image that spans it. -/
theorem readMessageWithLimit_done {result : Except String (ClientMessage × ℕ)} {rest : Socket}
    (done : (readMessageWithLimit prost limit socket).outcome = .done result rest) :
    ∃ front body, socket.bytes = front ++ (body ++ rest.bytes) ∧ front.length ≤ maxFramePrefix ∧
      body.length ≤ limit ∧
      (body ≠ [] → decodeVarint front = some (body.length, front.length)) ∧
      ∀ message size, result = .ok (message, size) →
        decodeVarint front = some (body.length, front.length) ∧ size = body.length ∧
          (maxFrameSize < body.length → ∃ payload : List UInt8,
            body = pasteImageTag :: (varint payload.length ++ payload)) := by
  unfold readMessageWithLimit at done
  rcases readFrameLength_cases prost.invalidVarint socket with
    ⟨length, front, left, reads, bytes, few, exact⟩ | reads | reads
  · rw [reads] at done
    cases length with
    | error text =>
        cases done
        refine ⟨front, [], bytes, few, Nat.zero_le limit, fun some => absurd rfl some, ?_⟩
        intro message size accepted
        cases accepted
    | ok claimed =>
        have digits := exact claimed rfl
        dsimp only at done
        split_ifs at done with large
        · cases done
          refine ⟨front, [], bytes, few, Nat.zero_le limit, fun some => absurd rfl some, ?_⟩
          intro message size accepted
          cases accepted
        · dsimp only at done
          rcases Transport.readExact_spec claimed left with
            ⟨arrived, last, body, after, -⟩ | ⟨-, body⟩
          · rw [readBody, body, Outcome.bind_done] at done
            rcases Outcome.done.inj done with ⟨taken, rfl⟩
            have size : (left.bytes.take claimed).length = claimed :=
              List.length_take_of_le arrived
            refine ⟨front, left.bytes.take claimed, ?_, few, ?_, ?_, ?_⟩
            · rw [bytes, after, List.take_append_drop]
            · omega
            · rw [size]
              exact fun _ => digits
            · intro message accepted ok
              rcases acceptBody_eq_ok.mp (taken.trans ok) with ⟨admitted, decoded, rfl⟩
              rw [size]
              exact ⟨digits, rfl, fun large => accepted_large (by rwa [size]) admitted decoded⟩
          · rw [readBody, body] at done
            cases ended : left.ended <;> rw [ended] at done <;> cases done
  · rw [reads] at done
    cases done
  · rw [reads] at done
    cases done

theorem allocated_le : (readMessageWithLimit prost limit socket).allocated ≤ limit := by
  unfold readMessageWithLimit
  split
  · exact Nat.zero_le limit
  · exact Nat.zero_le limit
  · exact Nat.zero_le limit
  · split_ifs with large
    · exact Nat.zero_le limit
    · exact Nat.le_of_not_lt large

variable (prost) in
/-- A read ends where a whole frame has arrived, with its body. -/
theorem readMessageWithLimit_append {front body back : List UInt8}
    (decoded : decodeVarint front = some (body.length, front.length)) (small : body.length ≤ limit)
    (bytes : socket.bytes = front ++ (body ++ back)) :
    ∃ rest, (readMessageWithLimit prost limit socket).outcome =
        .done (acceptBody prost body.length body) rest ∧
      rest.bytes = back := by
  rcases readFrameLength_append prost.invalidVarint decoded bytes with ⟨left, reads, leftBytes⟩
  rcases Transport.readExact_append leftBytes with ⟨rest, readsBody, restBytes, -⟩
  refine ⟨rest, ?_, restBytes⟩
  unfold readMessageWithLimit
  rw [reads]
  dsimp only
  rw [if_neg (Nat.not_lt.mpr small), readBody, readsBody]
  rfl

/-! ## Every message -/

variable {order : HashOrder} {message : ClientMessage} {frame : List UInt8}

theorem writeClientMessage_eq_ok :
    writeClientMessage prost order message = .ok frame ↔
      ∃ wire, message.toWire order = .ok wire ∧
        (prost.encode wire).length ≤ frameLimit message ∧
        frame = varint (prost.encode wire).length ++ prost.encode wire := by
  cases converts : message.toWire order with
  | error text => simp [writeClientMessage, converts, Except.mapError, bind, Except.bind]
  | ok wire =>
      simp [writeClientMessage, converts, Except.mapError, bind, Except.bind, frameBody_eq_ok]

theorem frameLimit_le (message : ClientMessage) : frameLimit message ≤ maxImageFrameSize := by
  have less : maxFrameSize ≤ maxImageFrameSize := by decide
  cases message with
  | pasteImage => exact Nat.le_refl maxImageFrameSize
  | _ => exact less

/-- What a Client writes under its own limit is admitted. -/
theorem admitClientFrame_written {wire : Pb.ClientMessage}
    (encoded : message.toWire order = .ok wire)
    (small : (prost.encode wire).length ≤ frameLimit message) :
    admitClientFrame (prost.encode wire) = .ok () := by
  have room : maxImageFrameSize + 11 < 2 ^ 64 := by decide
  have bounded := frameLimit_le message
  cases message with
  | pasteImage serverId sessionId paneId format bytes =>
      rcases ClientMessage.toWire_eq_ok.mp encoded with ⟨member, converted, rfl⟩
      rcases Except.ok.inj converted with rfl
      rcases prost.images _ with ⟨payload, written⟩
      rw [written] at small ⊢
      apply admitClientFrame_field
      rw [List.length_cons, List.length_append] at small
      omega
  | _ => exact if_pos small

/-- A message that is written is read back, and nothing behind its frame is taken. -/
theorem readMessageWithLimit_written (written : writeClientMessage prost order message = .ok frame)
    (inRange : message.InRange) (relative : message.Relative) (served : message.Served)
    (faithful : ∀ wire, message.toWire order = .ok wire →
      prost.decode (prost.encode wire) = .ok wire) {back : List UInt8}
    (bytes : socket.bytes = frame ++ back) :
    ∃ size rest, (readMessageWithLimit prost maxImageFrameSize socket).outcome =
      .done (.ok (message, size)) rest ∧ rest.bytes = back := by
  rcases writeClientMessage_eq_ok.mp written with ⟨wire, encoded, small, rfl⟩
  have bounded := small.trans (frameLimit_le message)
  have room : maxImageFrameSize < 2 ^ 64 := by decide
  have digits := decodeVarint_varint (Nat.lt_of_le_of_lt bounded room) []
  rw [List.append_nil] at digits
  rw [List.append_assoc] at bytes
  rcases readMessageWithLimit_append prost digits bounded bytes with ⟨rest, done, left⟩
  have decoded : decodeClientFrame prost (prost.encode wire) = .ok message := by
    rw [decodeClientFrame, faithful wire encoded]
    change wire.toDomain.mapError _ = _
    rw [ClientMessage.toDomain_toWire encoded inRange relative served]
    rfl
  have accepted : acceptBody prost (prost.encode wire).length (prost.encode wire) =
      .ok (message, (prost.encode wire).length) :=
    acceptBody_eq_ok.mpr ⟨admitClientFrame_written encoded small, decoded, rfl⟩
  refine ⟨(prost.encode wire).length, rest, ?_, left⟩
  rw [done, accepted]

theorem readMessages_written {messages : List ClientMessage} {frames : List (List UInt8)}
    {more : List UInt8}
    (written : List.Forall₂ (fun message frame => ∃ order,
      writeClientMessage prost order message = .ok frame) messages frames)
    (served : ∀ message ∈ messages, message.InRange ∧ message.Relative ∧ message.Served)
    (faithful : ∀ message ∈ messages, ∀ order wire, message.toWire order = .ok wire →
      prost.decode (prost.encode wire) = .ok wire)
    (bytes : socket.bytes = frames.flatten ++ more) :
    ∃ rest, readMessages prost maxImageFrameSize messages.length socket =
      .done (.ok messages) rest ∧ rest.bytes = more := by
  induction written generalizing socket with
  | nil => exact ⟨socket, rfl, bytes⟩
  | @cons message frame messages frames first others induction =>
      rcases first with ⟨order, first⟩
      rcases List.forall_mem_cons.mp served with ⟨⟨inRange, relative, admitted⟩, servedOthers⟩
      rcases List.forall_mem_cons.mp faithful with ⟨here, faithfulOthers⟩
      rw [List.flatten_cons, List.append_assoc] at bytes
      rcases readMessageWithLimit_written first inRange relative admitted (here order) bytes with
        ⟨size, rest, done, left⟩
      rcases induction servedOthers faithfulOthers left with ⟨last, later, empty⟩
      refine ⟨last, ?_, empty⟩
      rw [List.length_cons, readMessages, done, Outcome.bind_done]
      dsimp only
      rw [later]
      rfl

/-- Frames delimit themselves: what a Client writes is read back, message by message and with
exactly its bytes. A read takes at most one frame, waits or fails only where no whole frame is
there, and admits a body above the normal limit only where it is one image that spans it. -/
theorem client_frames_delimit (prost : ClientProst) :
    (∀ (messages : List ClientMessage) (frames : List (List UInt8)) (more : List UInt8)
      (socket : Socket),
      List.Forall₂ (fun message frame => ∃ order,
        writeClientMessage prost order message = .ok frame) messages frames →
      (∀ message ∈ messages, message.InRange ∧ message.Relative ∧ message.Served) →
      (∀ message ∈ messages, ∀ order wire, message.toWire order = .ok wire →
        prost.decode (prost.encode wire) = .ok wire) →
      socket.bytes = frames.flatten ++ more →
        ∃ rest, readMessages prost maxImageFrameSize messages.length socket =
          .done (.ok messages) rest ∧ rest.bytes = more) ∧
    (∀ (limit : ℕ) (socket : Socket),
      (readMessageWithLimit prost limit socket).allocated ≤ limit ∧
      (∀ result rest, (readMessageWithLimit prost limit socket).outcome = .done result rest →
        ∃ front body, socket.bytes = front ++ (body ++ rest.bytes) ∧
          front.length ≤ maxFramePrefix ∧ body.length ≤ limit ∧
          (body ≠ [] → decodeVarint front = some (body.length, front.length)) ∧
          ∀ message size, result = .ok (message, size) →
            decodeVarint front = some (body.length, front.length) ∧ size = body.length ∧
              (maxFrameSize < body.length → ∃ payload : List UInt8,
                body = pasteImageTag :: (varint payload.length ++ payload))) ∧
      ∀ front body back, decodeVarint front = some (body.length, front.length) →
        body.length ≤ limit → socket.bytes = front ++ (body ++ back) →
          ∃ result rest, (readMessageWithLimit prost limit socket).outcome = .done result rest ∧
            rest.bytes = back) ∧
    ∀ length, length + 11 < 2 ^ 64 → fieldSize length = 1 + lengthDelimiterLen length + length := by
  refine ⟨?_, ?_, fun length => fieldSize_eq⟩
  · intro messages frames more socket written served faithful bytes
    exact readMessages_written written served faithful bytes
  · intro limit socket
    refine ⟨allocated_le, fun result rest => readMessageWithLimit_done, ?_⟩
    intro front body back decoded small bytes
    rcases readMessageWithLimit_append prost decoded small bytes with ⟨rest, done, left⟩
    exact ⟨_, rest, done, left⟩

/-- The one field that an image is. -/
def imageBody (image : Pb.PasteImage) : List UInt8 :=
  Protobuf.encode (Protobuf.message 9
    (uint 1 image.serverId ++ uint 2 image.sessionId ++
      uint 3 image.paneId ++ Protobuf.int 4 image.format ++ Protobuf.bytes 5 image.bytes))

theorem imageBody_spec (image : Pb.PasteImage) :
    ∃ payload : List UInt8, imageBody image = pasteImageTag :: (varint payload.length ++ payload) ∧
      image.bytes.length ≤ payload.length ∧ payload.length ≤ image.bytes.length + 55 := by
  have field : image.bytes.length ≤ encodedLen (Protobuf.bytes 5 image.bytes) ∧
      encodedLen (Protobuf.bytes 5 image.bytes) ≤ image.bytes.length + 11 := by
    unfold Protobuf.bytes
    split_ifs with empty
    · simp [List.isEmpty_iff.mp empty]
    · rw [Protobuf.encodedLen_bytes]
      exact ⟨Nat.le_of_add_right_le (Protobuf.le_bytesLen 5 _),
        Protobuf.bytesLen_le_add _ _ (by decide)⟩
  have server := uintLen_le 1 image.serverId (by decide)
  have session := uintLen_le 2 image.sessionId (by decide)
  have pane := uintLen_le 3 image.paneId (by decide)
  have format := uintLen_le 4 (image.format % 2 ^ 64).toNat (by decide)
  refine ⟨Protobuf.encode (uint 1 image.serverId ++ uint 2 image.sessionId ++
    uint 3 image.paneId ++ Protobuf.int 4 image.format ++ Protobuf.bytes 5 image.bytes),
    List.append_nil _, ?_, ?_⟩
  all_goals
    rw [← encodedLen]
    simp only [Protobuf.encodedLen_append, Protobuf.encodedLen_uint, Protobuf.encodedLen_int]
    omega

/-- Generated code as far as one message and images go. -/
def prostOf (member : Pb.ClientMessageMember) (bytes : List UInt8) (image : Pb.PasteImage)
    (small : image.bytes.length ≤ maxClipboardImageBytes) : ClientProst where
  encode wire :=
    match wire with
    | ⟨some (.pasteImage image)⟩ => imageBody image
    | _ => bytes
  decode read :=
    if read = bytes ∧ read.head? ≠ some pasteImageTag then .ok ⟨some member⟩
    else if read = imageBody image then .ok ⟨some (.pasteImage image)⟩
    else .error "failed to decode Protobuf message"
  invalidVarint := "failed to decode Protobuf message: invalid varint"
  images image := by
    rcases imageBody_spec image with ⟨payload, body, -⟩
    exact ⟨payload, body⟩
  truncated rest length used decoded short := by
    rcases imageBody_spec image with ⟨payload, body, -, most⟩
    refine ⟨_, (if_neg fun same => same.2 rfl).trans (if_neg ?_)⟩
    intro same
    cases (List.cons.inj (same.trans body)).2
    unfold maxClipboardImageBytes at small
    rw [decodeVarint_varint (by omega)] at decoded
    cases decoded
    simp at short

def imageOf (bytes : List UInt8) : Pb.PasteImage where
  serverId := 1
  sessionId := 1
  paneId := 7
  format := ClipboardImageFormat.png.toWire
  bytes := bytes

theorem write_image {prost : ClientProst} {bytes : List UInt8} (order : HashOrder)
    (encodes : prost.encode ⟨some (.pasteImage (imageOf bytes))⟩ = imageBody (imageOf bytes))
    (small : bytes.length ≤ maxClipboardImageBytes) :
    writeClientMessage prost order (.pasteImage ⟨1⟩ ⟨1⟩ ⟨7⟩ .png bytes) =
      .ok (varint (imageBody (imageOf bytes)).length ++ imageBody (imageOf bytes)) := by
  rcases imageBody_spec (imageOf bytes) with ⟨payload, body, -, most⟩
  have digits := length_varint_le payload.length
  have size : (imageOf bytes).bytes.length = bytes.length := rfl
  rw [← encodes]
  refine frameBody_eq_ok.mpr ⟨?_, rfl⟩
  change (prost.encode ⟨some (.pasteImage (imageOf bytes))⟩).length ≤ maxImageFrameSize
  rw [encodes, body, List.length_cons, List.length_append]
  unfold maxImageFrameSize
  omega

theorem decode_image {member : Pb.ClientMessageMember} {other : List UInt8} {image : Pb.PasteImage}
    (small : image.bytes.length ≤ maxClipboardImageBytes) :
    (prostOf member other image small).decode (imageBody image) =
      .ok ⟨some (.pasteImage image)⟩ := by
  rcases imageBody_spec image with ⟨payload, body, -⟩
  refine (if_neg ?_).trans (if_pos rfl)
  rintro ⟨-, plain⟩
  rw [body] at plain
  exact plain rfl

/-- An image that is more than other messages may hold. -/
def screenshot : List UInt8 := List.replicate maxFrameSize 137

theorem small_screenshot : screenshot.length ≤ maxClipboardImageBytes := by
  rw [screenshot, List.length_replicate]
  decide

/-- A client that pastes an image and detaches, with fragments that end within a frame and a byte
behind it. -/
theorem client_frames_delimit_image :
    maxFrameSize < (imageBody (imageOf screenshot)).length ∧
      ∃ rest, readMessages (prostOf .detach [0xa2, 1, 0] (imageOf screenshot) small_screenshot)
          maxImageFrameSize 2
          ⟨[varint (imageBody (imageOf screenshot)).length,
            imageBody (imageOf screenshot) ++ [3, 0xa2], [1, 0, 9]], false⟩ =
        .done (.ok [.pasteImage ⟨1⟩ ⟨1⟩ ⟨7⟩ .png screenshot, .detach]) rest ∧
          rest.bytes = [9] := by
  refine ⟨?_, ?_⟩
  · rcases imageBody_spec (imageOf screenshot) with ⟨payload, body, least, -⟩
    have size : (imageOf screenshot).bytes.length = maxFrameSize := List.length_replicate
    rw [body, List.length_cons, List.length_append]
    omega
  · have order : HashOrder := ⟨Finset.toList, Finset.nodup_toList, Finset.toList_toFinset⟩
    apply (client_frames_delimit
      (prostOf .detach [0xa2, 1, 0] (imageOf screenshot) small_screenshot)).1
      [.pasteImage ⟨1⟩ ⟨1⟩ ⟨7⟩ .png screenshot, .detach]
      [varint (imageBody (imageOf screenshot)).length ++ imageBody (imageOf screenshot),
        [3, 0xa2, 1, 0]] [9]
    · exact .cons ⟨order, write_image order rfl small_screenshot⟩ (.cons ⟨order, rfl⟩ .nil)
    · intro message member
      rcases List.mem_pair.mp member with rfl | rfl <;> exact ⟨trivial, trivial, trivial⟩
    · intro message member order wire encoded
      rcases List.mem_pair.mp member with rfl | rfl
      · rcases Except.ok.inj encoded with rfl
        exact decode_image small_screenshot
      · rcases Except.ok.inj encoded with rfl
        rfl
    · simp [Socket.bytes]

/-- The bytes of a request for the hooks of an Agent of another kind. -/
def otherHooksBytes : List UInt8 := [0x72, 12, 8, 1, 16, 1, 0x1a, 6, 0x32, 4, 8, 11, 16, 3]

/-- Asking about the hooks of an Agent of another kind is written, and not read back. -/
theorem written_message_not_read :
    ¬∀ (prost : ClientProst) (order : HashOrder) (message : ClientMessage) (frame : List UInt8)
      (socket : Socket), writeClientMessage prost order message = .ok frame →
        (∀ order wire, message.toWire order = .ok wire →
          prost.decode (prost.encode wire) = .ok wire) →
        socket.bytes = frame →
          ∃ rest, readMessages prost maxImageFrameSize 1 socket = .done (.ok [message]) rest := by
  intro comesBack
  have order : HashOrder := ⟨Finset.toList, Finset.nodup_toList, Finset.toList_toFinset⟩
  rcases comesBack
    (prostOf (.agent ⟨1, 1, some ⟨some (.hooks ⟨AgentKind.other.toWire, 3⟩)⟩⟩) otherHooksBytes
      (imageOf []) (Nat.zero_le _))
    order (.agent ⟨1⟩ ⟨1⟩ (.hooks .other .status)) (14 :: otherHooksBytes)
    ⟨[14 :: otherHooksBytes], false⟩ rfl
    (by
      intro order wire encoded
      rcases Except.ok.inj encoded with rfl
      rfl)
    rfl with ⟨rest, reads⟩
  cases reads

end Condr.Framing
