import Condr.Client.VisualSlot
import Condr.Server.TerminalFraming

/-!
# Assembling terminal frames from chunks

The reader of a connection collects the chunks of one record at a time. What the Server framed
comes back: batches as they are, and a record with its last chunk.
-/

namespace Condr

open ClientWriter (maxFrameSize)

/-- One terminal frame record arriving in chunks, until its last chunk. -/
structure TerminalFrameChunkAssembly where
  serverId : ServerId
  sessionId : SessionId
  paneId : PaneId
  revision : ℕ
  nextChunkIndex : ℕ
  chunkCount : ℕ
  payload : List UInt8
  /-- The rest is checked for order and dropped. -/
  discard : Bool
deriving DecidableEq

def TerminalFrameChunkAssembly.start (chunk : TerminalFrameChunk) : TerminalFrameChunkAssembly where
  serverId := chunk.serverId
  sessionId := chunk.sessionId
  paneId := chunk.paneId
  revision := chunk.revision
  nextChunkIndex := 0
  chunkCount := chunk.chunkCount
  payload := []
  discard := false

/-- Adds a chunk to the record it belongs to; the record, once it is complete. An allocation
that fails is left out. -/
def assembleTerminalFrameChunk (codec : PaneCodec) (watched : Option (List PaneId))
    (assembly : Option TerminalFrameChunkAssembly) (chunk : TerminalFrameChunk) :
    Option TerminalFrameChunkAssembly × Except String (Option (PaneTerminalFrame String)) :=
  if chunk.chunkCount = 0 ∨ chunk.chunkCount ≤ chunk.chunkIndex then
    (assembly, .error "terminal frame chunk has an invalid range")
  else if chunk.payload.isEmpty ∨ maxChunkPayloadSize < chunk.payload.length then
    (assembly, .error "terminal frame chunk has an invalid payload size")
  else
    let state := assembly.getD (.start chunk)
    if state.serverId ≠ chunk.serverId ∨ state.sessionId ≠ chunk.sessionId ∨
        state.paneId ≠ chunk.paneId ∨ state.revision ≠ chunk.revision ∨
        state.chunkCount ≠ chunk.chunkCount ∨ state.nextChunkIndex ≠ chunk.chunkIndex then
      (some state, .error "terminal frame chunks are not one contiguous record")
    else
      let state :=
        if watched.any (!·.contains chunk.paneId) then { state with discard := true, payload := [] }
        else state
      if state.discard then
        let state := { state with nextChunkIndex := state.nextChunkIndex + 1 }
        (if state.nextChunkIndex = state.chunkCount then none else some state, .ok none)
      else
        match checkedAdd state.payload.length chunk.payload.length with
        | none => (some state, .error "terminal frame record size overflowed usize")
        | some nextSize =>
            if maxChunkedRecordSize < nextSize then
              (some state, .error "terminal frame record exceeds the protocol limit")
            else
              let state := { state with
                payload := state.payload ++ chunk.payload
                nextChunkIndex := state.nextChunkIndex + 1 }
              if state.nextChunkIndex ≠ state.chunkCount then (some state, .ok none)
              else
                (none, do
                  match ← decodePaneTerminalFrame codec state.payload with
                  | none => .error "terminal frame from a newer protocol"
                  | some pane =>
                      if pane.paneId ≠ state.paneId ∨ pane.frame.revision ≠ state.revision then
                        .error "terminal frame chunk metadata does not match its payload"
                      else .ok (some pane))

def Pb.TerminalFrameChunk.toDomain (chunk : Pb.TerminalFrameChunk) : Condr.TerminalFrameChunk where
  serverId := ⟨chunk.serverId⟩
  sessionId := ⟨chunk.sessionId⟩
  paneId := ⟨chunk.paneId⟩
  revision := chunk.revision
  chunkIndex := chunk.chunkIndex
  chunkCount := chunk.chunkCount
  payload := chunk.payload

/-- What the reader takes from a terminal message. A batch amid a record is an error. -/
def readTerminalMessage (codec : PaneCodec) (watched : Option (List PaneId))
    (assembly : Option TerminalFrameChunkAssembly) :
    Pb.TerminalMessage →
      Option TerminalFrameChunkAssembly × Except String (List (PaneTerminalFrame String))
  | .terminalFrame batch =>
      match batch.panes.mapM Pb.PaneTerminalFrame.toDomain with
      | .error fault => (assembly, .error fault.text)
      | .ok panes =>
          if assembly.isSome then (none, .error "terminal frame batch within a record")
          else (none, .ok panes)
  | .terminalFrameChunk chunk =>
      let (assembly, outcome) := assembleTerminalFrameChunk codec watched assembly chunk.toDomain
      (assembly, outcome.map Option.toList)

/-- The frames of one message after the other, and the record that is still open. -/
def readTerminalMessages (codec : PaneCodec) (watched : Option (List PaneId)) :
    Option TerminalFrameChunkAssembly → List Pb.TerminalMessage →
      Except String (Option TerminalFrameChunkAssembly × List (PaneTerminalFrame String))
  | assembly, [] => .ok (assembly, [])
  | assembly, message :: messages => do
      let (assembly, outcome) := readTerminalMessage codec watched assembly message
      let panes ← outcome
      let (assembly, others) ← readTerminalMessages codec watched assembly messages
      .ok (assembly, panes ++ others)

/-! ## What comes back -/

/-- What the wire form of a Pane's frame stands for. -/
def PaneTerminalFrame.Decodes (memory : Memory) (pane : PaneTerminalFrame SmolStr)
    (text : PaneTerminalFrame String) : Prop :=
  (pane.toWire memory).toDomain = .ok text

/-- The generated code reads back the frame that it writes. -/
def PaneCodec.Reads (codec : PaneCodec) (memory : Memory) (pane : PaneTerminalFrame SmolStr) :
    Prop :=
  codec.decodePane (codec.encodePane (pane.toWire memory)) = .ok (pane.toWire memory)

theorem revision_of_toDomain_view {message : Pb.TerminalView} {view : TerminalView String}
    (decodes : message.toDomain = .ok view) : view.revision = message.revision := by
  simp only [Pb.TerminalView.toDomain, Lists.bind_eq_ok] at decodes
  rcases decodes with ⟨_, -, _, -, decodes⟩
  split_ifs at decodes
  · cases decodes
  · simp only [Lists.bind_eq_ok] at decodes
    rcases decodes with ⟨_, -, _, -, _, -, _, -, _, -, _, -, _, -, _, -, same⟩
    cases Except.ok.inj same
    rfl

theorem revision_of_toDomain_delta {message : Pb.TerminalViewDelta}
    {delta : TerminalViewDelta String} (decodes : message.toDomain = .ok delta) :
    delta.revision = message.revision := by
  simp only [Pb.TerminalViewDelta.toDomain] at decodes
  split_ifs at decodes
  · cases decodes
  · simp only [Lists.bind_eq_ok] at decodes
    rcases decodes with ⟨_, -, _, -, _, -, _, -, _, -, _, -, _, -, _, -, _, -, same⟩
    cases Except.ok.inj same
    rfl

variable {codec : PaneCodec} {memory : Memory} {serverId : ServerId} {sessionId : SessionId}
  {pane : PaneTerminalFrame SmolStr} {text : PaneTerminalFrame String}

/-- A frame that comes back has the Pane and the revision of its chunks. -/
theorem PaneTerminalFrame.Decodes.matches (decodes : pane.Decodes memory text) :
    text.paneId = pane.paneId ∧ text.frame.revision = pane.frame.revision := by
  rcases pane with ⟨paneId, frame⟩
  simp only [PaneTerminalFrame.Decodes, PaneTerminalFrame.toWire, Pb.PaneTerminalFrame.toDomain,
    Pb.TerminalViewFrame.toDomain, required, member, fromWire, Except.mapError, Lists.ok_bind,
    Lists.bind_eq_ok] at decodes
  rcases decodes with ⟨decoded, reads, same⟩
  cases Except.ok.inj same
  refine ⟨rfl, ?_⟩
  cases frame with
  | full view =>
      change (view.toWire memory).toDomain.map TerminalViewFrame.full = .ok decoded at reads
      cases outcome : (view.toWire memory).toDomain with
      | error fault =>
          rw [outcome] at reads
          cases reads
      | ok result =>
          rw [outcome] at reads
          cases Except.ok.inj reads
          exact revision_of_toDomain_view outcome
  | delta update =>
      change (update.toWire memory).toDomain.map TerminalViewFrame.delta = .ok decoded at reads
      cases outcome : (update.toWire memory).toDomain with
      | error fault =>
          rw [outcome] at reads
          cases reads
      | ok result =>
          rw [outcome] at reads
          cases Except.ok.inj reads
          exact revision_of_toDomain_delta outcome

/-! ## The chunks of one record -/

/-- The record behind so many of its chunks. -/
def openRecord (codec : PaneCodec) (memory : Memory) (serverId : ServerId) (sessionId : SessionId)
    (pane : PaneTerminalFrame SmolStr) (pieces : ℕ) : TerminalFrameChunkAssembly where
  serverId := serverId
  sessionId := sessionId
  paneId := pane.paneId
  revision := pane.frame.revision
  nextChunkIndex := pieces
  chunkCount := pane.chunkCount codec memory
  payload := (pane.payload codec memory).take (pieces * maxChunkPayloadSize)
  discard := false

def openRecord? (codec : PaneCodec) (memory : Memory) (serverId : ServerId) (sessionId : SessionId)
    (pane : PaneTerminalFrame SmolStr) : ℕ → Option TerminalFrameChunkAssembly
  | 0 => none
  | pieces + 1 => some (openRecord codec memory serverId sessionId pane (pieces + 1))

theorem getD_openRecord (pieces : ℕ) :
    (openRecord? codec memory serverId sessionId pane pieces).getD
        (.start (terminalChunk codec memory serverId sessionId pane pieces)) =
      openRecord codec memory serverId sessionId pane pieces := by
  cases pieces with
  | zero =>
      simp only [openRecord?, openRecord, TerminalFrameChunkAssembly.start, terminalChunk,
        Option.getD_none, Nat.zero_mul, List.take_zero]
  | succ pieces => rfl

/-- The client takes the frames of the Pane. -/
def Watches (watched : Option (List PaneId)) (paneId : PaneId) : Prop :=
  ∀ panes, watched = some panes → paneId ∈ panes

variable {watched : Option (List PaneId)}

theorem Watches.any_eq_false {paneId : PaneId} (watches : Watches watched paneId) :
    (watched.any (!·.contains paneId)) = false := by
  cases watched with
  | none => rfl
  | some panes => simp [watches panes rfl]

theorem decodePaneTerminalFrame_payload (reads : codec.Reads memory pane)
    (decodes : pane.Decodes memory text)
    (limit : (pane.payload codec memory).length ≤ maxChunkedRecordSize) :
    decodePaneTerminalFrame codec (pane.payload codec memory) = .ok (some text) := by
  have back : codec.decodePane (pane.payload codec memory) = .ok (pane.toWire memory) := reads
  have same : (pane.toWire memory).toDomain = .ok text := decodes
  rw [decodePaneTerminalFrame, if_neg (not_lt.mpr limit), back]
  simp only [Except.mapError, Lists.ok_bind, same]

/-- A chunk that is in its place, of a record that is wanted. -/
structure TerminalFrameChunkAssembly.Takes (state : TerminalFrameChunkAssembly)
    (chunk : TerminalFrameChunk) : Prop where
  range : chunk.chunkIndex < chunk.chunkCount
  some : chunk.payload ≠ []
  short : chunk.payload.length ≤ maxChunkPayloadSize
  serverId : state.serverId = chunk.serverId
  sessionId : state.sessionId = chunk.sessionId
  paneId : state.paneId = chunk.paneId
  revision : state.revision = chunk.revision
  chunkCount : state.chunkCount = chunk.chunkCount
  chunkIndex : state.nextChunkIndex = chunk.chunkIndex
  wanted : state.discard = false
  limit : (state.payload ++ chunk.payload).length ≤ maxChunkedRecordSize

theorem assembleTerminalFrameChunk_of_takes {assembly : Option TerminalFrameChunkAssembly}
    {state : TerminalFrameChunkAssembly} {chunk : TerminalFrameChunk}
    (opens : assembly.getD (.start chunk) = state) (takes : state.Takes chunk)
    (watches : Watches watched chunk.paneId) :
    assembleTerminalFrameChunk codec watched assembly chunk =
      if state.nextChunkIndex + 1 = state.chunkCount then
        (none, do
          match ← decodePaneTerminalFrame codec (state.payload ++ chunk.payload) with
          | none => .error "terminal frame from a newer protocol"
          | some pane =>
              if pane.paneId ≠ state.paneId ∨ pane.frame.revision ≠ state.revision then
                .error "terminal frame chunk metadata does not match its payload"
              else .ok (some pane))
      else
        (some { state with
          payload := state.payload ++ chunk.payload
          nextChunkIndex := state.nextChunkIndex + 1 }, .ok none) := by
  have range : ¬(chunk.chunkCount = 0 ∨ chunk.chunkCount ≤ chunk.chunkIndex) := by
    have := takes.range
    omega
  have size : ¬(chunk.payload.isEmpty = true ∨ maxChunkPayloadSize < chunk.payload.length) := by
    rw [List.isEmpty_iff, not_or, not_lt]
    exact ⟨takes.some, takes.short⟩
  have same : ¬(state.serverId ≠ chunk.serverId ∨ state.sessionId ≠ chunk.sessionId ∨
      state.paneId ≠ chunk.paneId ∨ state.revision ≠ chunk.revision ∨
      state.chunkCount ≠ chunk.chunkCount ∨ state.nextChunkIndex ≠ chunk.chunkIndex) := by
    simp [takes.serverId, takes.sessionId, takes.paneId, takes.revision, takes.chunkCount,
      takes.chunkIndex]
  have total : state.payload.length + chunk.payload.length ≤ maxChunkedRecordSize := by
    rw [← List.length_append]
    exact takes.limit
  have adds : checkedAdd state.payload.length chunk.payload.length =
      some (state.payload.length + chunk.payload.length) := if_pos (total.trans_lt (by decide))
  unfold assembleTerminalFrameChunk
  simp only [if_neg range, if_neg size, opens, if_neg same, watches.any_eq_false,
    Bool.false_eq_true, if_false, takes.wanted, adds, if_neg (not_lt.mpr total), ne_eq, ite_not]

/-- One chunk: the next place of the record, or its end. -/
theorem assemble_chunk {pieces : ℕ} (reads : codec.Reads memory pane)
    (decodes : pane.Decodes memory text) (watches : Watches watched pane.paneId)
    (limit : (pane.payload codec memory).length ≤ maxChunkedRecordSize)
    (inside : pieces < pane.chunkCount codec memory) :
    assembleTerminalFrameChunk codec watched
        (openRecord? codec memory serverId sessionId pane pieces)
        (terminalChunk codec memory serverId sessionId pane pieces) =
      if pieces + 1 = pane.chunkCount codec memory then (none, .ok (some text))
      else (openRecord? codec memory serverId sessionId pane (pieces + 1), .ok none) := by
  -- the chunk continues the bytes that came before it
  have payload : (openRecord codec memory serverId sessionId pane pieces).payload ++
      (terminalChunk codec memory serverId sessionId pane pieces).payload =
        (pane.payload codec memory).take ((pieces + 1) * maxChunkPayloadSize) :=
    Chunks.take_append_chunk
  have takes : (openRecord codec memory serverId sessionId pane pieces).Takes
      (terminalChunk codec memory serverId sessionId pane pieces) := {
    range := inside
    some := Chunks.chunk_ne_nil BootstrapAssembler.maxChunkPayloadSize_pos inside
    short := Chunks.length_chunk_le
    serverId := rfl
    sessionId := rfl
    paneId := rfl
    revision := rfl
    chunkCount := rfl
    chunkIndex := rfl
    wanted := rfl
    limit := by
      rw [payload]
      exact (List.length_take_le' ..).trans limit }
  rw [assembleTerminalFrameChunk_of_takes (getD_openRecord pieces) takes watches, payload]
  by_cases last : pieces + 1 = pane.chunkCount codec memory
  · have whole : (pane.payload codec memory).take ((pieces + 1) * maxChunkPayloadSize) =
        pane.payload codec memory := by
      rw [last]
      exact Chunks.take_count BootstrapAssembler.maxChunkPayloadSize_pos
    have same : ¬(text.paneId ≠ (openRecord codec memory serverId sessionId pane pieces).paneId ∨
        text.frame.revision ≠
          (openRecord codec memory serverId sessionId pane pieces).revision) := by
      rw [not_or, not_not, not_not]
      exact decodes.matches
    have done : (openRecord codec memory serverId sessionId pane pieces).nextChunkIndex + 1 =
        (openRecord codec memory serverId sessionId pane pieces).chunkCount := last
    rw [if_pos done, if_pos last, whole, decodePaneTerminalFrame_payload reads decodes limit,
      Lists.ok_bind]
    dsimp only
    rw [if_neg same]
  · have more : ¬(openRecord codec memory serverId sessionId pane pieces).nextChunkIndex + 1 =
        (openRecord codec memory serverId sessionId pane pieces).chunkCount := last
    rw [if_neg more, if_neg last]
    rfl

theorem readTerminalMessages_cons {assembly next : Option TerminalFrameChunkAssembly}
    {message : Pb.TerminalMessage} {panes : List (PaneTerminalFrame String)}
    (reads : readTerminalMessage codec watched assembly message = (next, .ok panes))
    (messages : List Pb.TerminalMessage) :
    readTerminalMessages codec watched assembly (message :: messages) =
      (readTerminalMessages codec watched next messages).map fun read =>
        (read.1, panes ++ read.2) := by
  rw [readTerminalMessages, reads]
  dsimp only
  cases readTerminalMessages codec watched next messages <;> rfl

theorem readTerminalMessages_chunk {assembly next : Option TerminalFrameChunkAssembly}
    {chunk : TerminalFrameChunk} {found : Option (PaneTerminalFrame String)}
    (takes : assembleTerminalFrameChunk codec watched assembly chunk = (next, .ok found))
    (messages : List Pb.TerminalMessage) :
    readTerminalMessages codec watched assembly (.terminalFrameChunk chunk.toWire :: messages) =
      (readTerminalMessages codec watched next messages).map fun read =>
        (read.1, found.toList ++ read.2) := by
  apply readTerminalMessages_cons
  have same : chunk.toWire.toDomain = chunk := rfl
  rw [readTerminalMessage, same, takes]
  rfl

/-- The chunks of a record, from any of them on: the frame, before what follows. -/
theorem read_chunks {messages : List Pb.TerminalMessage} (reads : codec.Reads memory pane)
    (decodes : pane.Decodes memory text) (watches : Watches watched pane.paneId)
    (limit : (pane.payload codec memory).length ≤ maxChunkedRecordSize) {pieces left : ℕ}
    (split : pieces + left + 1 = pane.chunkCount codec memory) :
    readTerminalMessages codec watched (openRecord? codec memory serverId sessionId pane pieces)
        ((List.range' pieces (left + 1)).map (fun chunkIndex => .terminalFrameChunk
          (terminalChunk codec memory serverId sessionId pane chunkIndex).toWire) ++ messages) =
      (readTerminalMessages codec watched none messages).map fun read =>
        (read.1, text :: read.2) := by
  have first := @assemble_chunk codec memory serverId sessionId pane text watched pieces reads
    decodes watches limit (by omega)
  induction left generalizing pieces with
  | zero =>
      rw [if_pos split] at first
      exact readTerminalMessages_chunk first messages
  | succ left induction =>
      rw [if_neg (by omega)] at first
      have next := @assemble_chunk codec memory serverId sessionId pane text watched (pieces + 1)
        reads decodes watches limit (by omega)
      rw [List.range'_succ, List.map_cons, List.cons_append, readTerminalMessages_chunk first,
        induction (by omega) next]
      cases readTerminalMessages codec watched none messages <;> rfl

theorem read_carry {messages : List Pb.TerminalMessage} {panes : List (PaneTerminalFrame SmolStr)}
    {texts : List (PaneTerminalFrame String)}
    (carry : Carry codec memory serverId sessionId messages panes)
    (reads : ∀ pane ∈ panes, codec.Reads memory pane)
    (watches : ∀ pane ∈ panes, Watches watched pane.paneId)
    (limits : ∀ pane ∈ panes, (pane.payload codec memory).length ≤ maxChunkedRecordSize)
    (decodes : List.Forall₂ (PaneTerminalFrame.Decodes memory) panes texts) :
    readTerminalMessages codec watched none messages = .ok (none, texts) := by
  induction carry generalizing texts with
  | none =>
      cases decodes
      rfl
  | @batch panes messages others some _ induction =>
      have back : (panes ++ others).mapM (fun pane => (pane.toWire memory).toDomain) = .ok texts :=
        Lists.mapM_eq_ok_iff.mpr decodes
      rw [List.mapM_append, Lists.bind_eq_ok] at back
      rcases back with ⟨front, frontBack, back⟩
      rw [Lists.bind_eq_ok] at back
      rcases back with ⟨rest, restBack, same⟩
      cases Except.ok.inj same
      have others := induction (fun pane member => reads pane (List.mem_append_right _ member))
        (fun pane member => watches pane (List.mem_append_right _ member))
        (fun pane member => limits pane (List.mem_append_right _ member))
        (Lists.mapM_eq_ok_iff.mp restBack)
      have batch : (panes.map (PaneTerminalFrame.toWire memory)).mapM
          Pb.PaneTerminalFrame.toDomain = .ok front := by
        rw [List.mapM_map]
        exact frontBack
      have reads : readTerminalMessage codec watched none (.terminalFrame {
          serverId := serverId.value
          sessionId := sessionId.value
          panes := panes.map (PaneTerminalFrame.toWire memory) }) = (none, .ok front) := by
        rw [readTerminalMessage, batch]
        rfl
      rw [readTerminalMessages_cons reads, others]
      rfl
  | @chunks pane messages others some _ induction =>
      cases decodes with
      | @cons _ text _ rest first decodes =>
          have count : pane.chunkCount codec memory ≠ 0 := by
            rw [PaneTerminalFrame.chunkCount, Ne,
              Chunks.count_eq_zero BootstrapAssembler.maxChunkPayloadSize_pos]
            exact some
          have record := @read_chunks codec memory serverId sessionId pane text watched messages
            (reads pane List.mem_cons_self) first (watches pane List.mem_cons_self)
            (limits pane List.mem_cons_self) 0 (pane.chunkCount codec memory - 1) (by omega)
          rw [Nat.sub_add_cancel (by omega), ← List.range_eq_range'] at record
          have others := induction (fun pane member => reads pane (List.mem_cons_of_mem _ member))
            (fun pane member => watches pane (List.mem_cons_of_mem _ member))
            (fun pane member => limits pane (List.mem_cons_of_mem _ member)) decodes
          rw [others] at record
          exact record

/-! ## The round trip -/

/-- The frame of a Pane is one that the wire has room for. -/
def PaneTerminalFrame.WithinLimits (memory : Memory) (pane : PaneTerminalFrame SmolStr) : Prop :=
  match pane.frame with
  | .full view => (view.map (SmolStr.read memory)).WithinLimits
  | .delta update => (update.map (SmolStr.read memory)).WithinLimits

theorem PaneTerminalFrame.WithinLimits.decodes (within : pane.WithinLimits memory) :
    pane.Decodes memory (pane.read memory) := by
  rcases pane with ⟨paneId, frame⟩
  cases frame with
  | full view =>
      have back : (view.toWire memory).toDomain = .ok (view.map (SmolStr.read memory)) :=
        toDomain_toWire_view_of_within within
      simp only [PaneTerminalFrame.Decodes, PaneTerminalFrame.toWire, Pb.PaneTerminalFrame.toDomain,
        Pb.TerminalViewFrame.toDomain, TerminalViewFrame.toWire, required, member, fromWire,
        Except.mapError, Lists.ok_bind, back]
      rfl
  | delta update =>
      have back : (update.toWire memory).toDomain = .ok (update.map (SmolStr.read memory)) :=
        toDomain_toWire_delta_of_within within
      simp only [PaneTerminalFrame.Decodes, PaneTerminalFrame.toWire, Pb.PaneTerminalFrame.toDomain,
        Pb.TerminalViewFrame.toDomain, TerminalViewFrame.toWire, required, member, fromWire,
        Except.mapError, Lists.ok_bind, back]
      rfl

/-- A frame that no batch has room for is there chunk by chunk. -/
theorem Carry.mem_of_large {messages : List Pb.TerminalMessage}
    {panes : List (PaneTerminalFrame SmolStr)} {pane : PaneTerminalFrame SmolStr}
    (carry : Carry codec memory serverId sessionId messages panes) (member : pane ∈ panes)
    (large : maxFrameSize < (pane.payload codec memory).length)
    (fit : ∀ message ∈ messages, (message.frame codec).length ≤ maxFrameSize) :
    ∀ message ∈ recordChunks codec memory serverId sessionId pane (pane.chunkCount codec memory),
      message ∈ messages := by
  induction carry with
  | none => cases member
  | @batch batch messages others some _ induction =>
      intro message chunk
      rcases List.mem_append.mp member with inside | later
      · exfalso
        have listed := List.single_le_sum (fun _ _ => Nat.zero_le _) _ (List.mem_map_of_mem
          (List.mem_map_of_mem inside) : Pb.PaneTerminalFrame.batchLen codec (pane.toWire memory) ∈ _)
        have content := Protobuf.le_bytesLen 3 (codec.encodePane (pane.toWire memory)).length
        have short := fit _ List.mem_cons_self
        rw [Pb.TerminalMessage.frame, List.length_append, Pb.TerminalMessage.encode,
          length_encode_message (by omega), encodedLen_batch] at short
        unfold Pb.PaneTerminalFrame.batchLen at listed
        unfold PaneTerminalFrame.payload at large
        unfold Pb.PaneTerminalFrame.batchLen at short
        omega
      · apply List.mem_cons_of_mem
        apply induction later _ message chunk
        exact fun message listed => fit message (List.mem_cons_of_mem _ listed)
  | @chunks other messages others some _ induction =>
      intro message chunk
      rcases List.mem_cons.mp member with rfl | later
      · exact List.mem_append_left _ chunk
      · apply List.mem_append_right
        apply induction later _ message chunk
        exact fun message listed => fit message (List.mem_append_right _ listed)

/-- Frames that may be chunked records are all framed, within the frame limit, each once and in
order. A client that takes their Panes gets back what the wire forms stand for, and so the
frames themselves when the wire has room for them. -/
theorem terminal_batches_reassemble (codec : PaneCodec) (memory : Memory) (serverId : ServerId)
    (sessionId : SessionId) (panes : List (PaneTerminalFrame SmolStr))
    (limits : ∀ pane ∈ panes, (pane.payload codec memory).length ≤ maxChunkedRecordSize) :
    ∃ messages, frameTerminalBatches codec memory serverId sessionId panes =
        .ok (messages.map (Pb.TerminalMessage.frame codec)) ∧
      (∀ message ∈ messages, (message.frame codec).length ≤ maxFrameSize) ∧
      Carry codec memory serverId sessionId messages panes ∧
      ∀ watched, (∀ pane ∈ panes, codec.Reads memory pane ∧ Watches watched pane.paneId) →
        (∀ texts, List.Forall₂ (PaneTerminalFrame.Decodes memory) panes texts →
          readTerminalMessages codec watched none messages = .ok (none, texts)) ∧
        ((∀ pane ∈ panes, pane.WithinLimits memory) →
          readTerminalMessages codec watched none messages =
            .ok (none, panes.map (PaneTerminalFrame.read memory))) := by
  rcases @frameTerminalBatches_carry codec memory serverId sessionId panes limits with
    ⟨messages, frames, small, carry⟩
  refine ⟨messages, frames, fun message member => length_frame_le_of_small (small message member),
    carry, ?_⟩
  intro watched takes
  have back : ∀ texts, List.Forall₂ (PaneTerminalFrame.Decodes memory) panes texts →
      readTerminalMessages codec watched none messages = .ok (none, texts) := by
    intro texts decodes
    exact read_carry carry (fun pane member => (takes pane member).1)
      (fun pane member => (takes pane member).2) limits decodes
  refine ⟨back, ?_⟩
  intro within
  apply back
  rw [List.forall₂_map_right_iff, List.forall₂_same]
  exact fun pane member => (within pane member).decodes

/-! ## How long a view gets -/

open Protobuf

namespace Pb

def TerminalCursor.fields (cursor : TerminalCursor) : List Field :=
  uint 1 cursor.row.toNat ++ uint 2 cursor.column.toNat ++
    int 3 cursor.shape ++ flag 4 cursor.blinking

def TerminalCells.fields (cells : TerminalCells) : List Field :=
  string 1 cells.text ++ packed 2 (cells.textLen.map UInt32.toNat) ++
    packed 3 (cells.foreground.map UInt32.toNat) ++
    packed 4 (cells.background.map UInt32.toNat) ++
    packed 5 (cells.flags.map UInt32.toNat) ++
    packed 6 (cells.hyperlink.map UInt32.toNat) ++
    packed 7 (cells.underline.map UInt32.toNat)

/-- The fields of a view without a selection. -/
def TerminalView.fields (view : TerminalView) : List Field :=
  uint 1 view.revision ++
    optionalMessage 2 (view.size.map fun size =>
      uint 1 size.rows.toNat ++ uint 2 size.columns.toNat ++
        uint 3 size.cellWidth.toNat ++ uint 4 size.cellHeight.toNat) ++
    uint 3 view.displayOffset.toNat ++ int 4 view.mouseTracking ++
    repeatedString 5 view.hyperlinks ++
    optionalMessage 6 (view.cells.map TerminalCells.fields) ++
    optionalMessage 7 (view.cursor.map TerminalCursor.fields)

/-- The fields of a delta without a selection. -/
def TerminalViewDelta.fields (delta : TerminalViewDelta) : List Field :=
  uint 1 delta.baseRevision ++ uint 2 delta.revision ++
    uint 3 delta.displayOffset.toNat ++ int 4 delta.mouseTracking ++
    optionalMessage 5 (delta.cursor.map TerminalCursor.fields) ++
    repeatedString 7 delta.hyperlinks ++
    packed 8 (delta.runStart.map UInt32.toNat) ++
    packed 9 (delta.runLen.map UInt32.toNat) ++
    optionalMessage 10 (delta.cells.map TerminalCells.fields)

def PaneTerminalFrame.fields (pane : PaneTerminalFrame) : List Field :=
  uint 1 pane.paneId ++
    optionalMessage 2 (pane.frame.map fun frame =>
      match frame.frame with
      | none => []
      | some (.full view) => message 1 view.fields
      | some (.delta delta) => message 2 delta.fields)

end Pb

theorem length_shown_le (values : List UInt32) : (shown values).values.length ≤ values.length := by
  rcases length_shown values with empty | full
  · rw [empty]
    exact Nat.zero_le _
  · exact full.le

theorem Written.encodedLen_le {columns : Pb.TerminalCells} {names : List String}
    {cells : List (TerminalCell String)} (written : Written columns names cells) :
    encodedLen columns.fields ≤
      columns.text.utf8ByteSize + 30 * cells.length + 77 := by
  rcases written.links with ⟨codes, hyperlink, links⟩
  have text := stringLen_le 1 columns.text.utf8ByteSize (by decide)
  have textLen := encodedLen_packed_le 2 columns.textLen (by decide)
  have foreground := encodedLen_packed_le 3 columns.foreground (by decide)
  have background := encodedLen_packed_le 4 columns.background (by decide)
  have flags := encodedLen_packed_le 5 columns.flags (by decide)
  have hyperlinks := encodedLen_packed_le 6 columns.hyperlink (by decide)
  have underline := encodedLen_packed_le 7 columns.underline (by decide)
  have flagsShort := length_shown_le (cells.map TerminalCell.flags)
  have hyperlinkShort := length_shown_le codes
  have underlineShort := length_shown_le (cells.map fun cell => encodeColor cell.underlineColor)
  rw [← written.flags, List.length_map] at flagsShort
  rw [← hyperlink, links.length_eq] at hyperlinkShort
  rw [← written.underline, List.length_map] at underlineShort
  rw [written.textLen, List.length_map] at textLen
  rw [written.foreground, List.length_map] at foreground
  rw [written.background, List.length_map] at background
  simp only [Pb.TerminalCells.fields, encodedLen_append, encodedLen_string]
  rw [written.textLen, written.foreground, written.background]
  omega

/-- What a table within the limits takes. -/
theorem WireHyperlinks.Interns.encodedLen_le {table : WireHyperlinks}
    (interns : table.Interns memory) :
    encodedLen (repeatedString 5 (table.names memory)) ≤
      maxTerminalHyperlinkBytes + 11 * maxTerminalHyperlinks := by
  have each : ∀ names : List String,
      encodedLen (repeatedString 5 names) ≤
        (names.map String.utf8ByteSize).sum + 11 * names.length := by
    intro names
    rw [encodedLen_repeatedString]
    induction names with
    | nil => exact Nat.le_refl 0
    | cons name names induction =>
        have first := bytesLen_le_add 5 name.utf8ByteSize (by decide)
        rw [List.map_cons, List.sum_cons, List.map_cons, List.sum_cons, List.length_cons]
        omega
  have total : ((table.names memory).map String.utf8ByteSize).sum ≤ maxTerminalHyperlinkBytes := by
    rw [← List.sum_toFinset _ interns.distinct]
    exact interns.within.2.1
  have count : (table.names memory).length ≤ maxTerminalHyperlinks := by
    rw [← List.toFinset_card_of_nodup interns.distinct]
    exact interns.within.2.2
  have taken := each (table.names memory)
  omega

theorem TerminalSize.encodedLen_le (size : Pb.TerminalSize) :
    encodedLen (uint 1 size.rows.toNat ++ uint 2 size.columns.toNat ++
      uint 3 size.cellWidth.toNat ++ uint 4 size.cellHeight.toNat) ≤ 44 := by
  have rows := uintLen_le 1 size.rows.toNat (by decide)
  have columns := uintLen_le 2 size.columns.toNat (by decide)
  have width := uintLen_le 3 size.cellWidth.toNat (by decide)
  have height := uintLen_le 4 size.cellHeight.toNat (by decide)
  simp only [encodedLen_append, encodedLen_uint]
  omega

theorem TerminalCursor.encodedLen_le (cursor : Pb.TerminalCursor) :
    encodedLen cursor.fields ≤ 44 := by
  have row := uintLen_le 1 cursor.row.toNat (by decide)
  have column := uintLen_le 2 cursor.column.toNat (by decide)
  have shape := uintLen_le 3 (cursor.shape % 2 ^ 64).toNat (by decide)
  have blinking := uintLen_le 4 cursor.blinking.toNat (by decide)
  simp only [Pb.TerminalCursor.fields, encodedLen_append, encodedLen_uint, encodedLen_int,
    encodedLen_flag]
  omega

/-- A view within the limits is never too long for a record of chunks. -/
theorem encodedLen_view_le {view : TerminalView SmolStr}
    (within : (view.map (SmolStr.read memory)).WithinLimits) :
    encodedLen (view.toWire memory).fields + 33 ≤ maxChunkedRecordSize := by
  rcases written_encodeCells memory view.cells with ⟨written, interns⟩
  have links := interns.encodedLen_le
  have cells := written.encodedLen_le
  have same : (settleCells ∅ (view.cells.map (TerminalCell.read memory))).length =
      view.cells.length := by
    rw [length_settleCells, List.length_map]
  have text : (encodeCells memory view.cells .default).1.text.utf8ByteSize ≤
      256 * view.cells.length := by
    rw [written.text, Utf8.utf8ByteSize_join, ← same, Nat.mul_comm, List.map_map,
      ← List.length_map (String.utf8ByteSize ∘ TerminalCell.text)]
    apply List.sum_le_card_nsmul
    intro taken listed
    rcases List.mem_map.mp listed with ⟨cell, member, rfl⟩
    apply short_settleCells _ cell member
    exact fun cell member => within.short (cell.read memory) (List.mem_map_of_mem member)
  have few : view.cells.length ≤ 65536 := by
    rw [← List.length_map (TerminalCell.map (SmolStr.read memory))]
    exact within.few
  have revision := uintLen_le 1 view.revision (by decide)
  have size := TerminalSize.encodedLen_le (encodeSize view.size)
  have offset := uintLen_le 3 view.displayOffset.toNat (by decide)
  have tracking := uintLen_le 4 (encodeMouseTracking view.mouseTracking % 2 ^ 64).toNat (by decide)
  have cursor : encodedLen (optionalMessage 7
      ((view.cursor.map encodeCursor).map Pb.TerminalCursor.fields)) ≤ 55 := by
    cases view.cursor with
    | none => exact Nat.zero_le _
    | some cursor =>
        have fields := TerminalCursor.encodedLen_le (encodeCursor cursor)
        rw [encodedLen_optionalMessage]
        exact (bytesLen_le_add _ _ (by decide)).trans (Nat.add_le_add_right fields 11)
  have sized := bytesLen_le_add 2 (encodedLen (uint 1 (encodeSize view.size).rows.toNat ++
    uint 2 (encodeSize view.size).columns.toNat ++ uint 3 (encodeSize view.size).cellWidth.toNat ++
    uint 4 (encodeSize view.size).cellHeight.toNat)) (by decide)
  have column := bytesLen_le_add 6
    (encodedLen (encodeCells memory view.cells .default).1.fields) (by decide)
  rw [same] at cells
  rw [WireHyperlinks.names] at links
  unfold maxTerminalHyperlinkBytes maxTerminalHyperlinks at links
  unfold Pb.TerminalView.fields TerminalView.toWire maxChunkedRecordSize
  rw [encodedLen_append, encodedLen_append, encodedLen_append, encodedLen_append,
    encodedLen_append, encodedLen_append, encodedLen_uint, encodedLen_uint, encodedLen_int,
    encodedLen_optionalMessage, encodedLen_optionalMessage]
  simp only [Option.map_some, Option.getD_some]
  omega

/-! ## Frames in batches and in chunks -/

/-- Code that writes frames without selections, and reads those of an example. -/
def sampleCodec (panes : List Pb.PaneTerminalFrame) : PaneCodec where
  encodePane pane := encode pane.fields
  decodePane payload :=
    match panes.find? fun pane => encode pane.fields == payload with
    | none => .error "not a frame of the example"
    | some pane => .ok pane

theorem length_payload_view {codecPanes : List Pb.PaneTerminalFrame} (paneId : PaneId)
    (view : TerminalView SmolStr) :
    (({ paneId, frame := .full view } : PaneTerminalFrame SmolStr).payload (sampleCodec codecPanes)
      memory).length =
      uintLen 1 paneId.asU64 +
        bytesLen 2
          (bytesLen 1 (encodedLen (view.toWire memory).fields)) := by
  have split := encodedLen_append (uint 1 paneId.asU64)
    (message 2 (message 1 (view.toWire memory).fields))
  rw [encodedLen_uint, encodedLen_message, encodedLen_message] at split
  exact split

theorem length_payload_view_le {codecPanes : List Pb.PaneTerminalFrame} {paneId : PaneId}
    {view : TerminalView SmolStr} (within : (view.map (SmolStr.read memory)).WithinLimits) :
    (({ paneId, frame := .full view } : PaneTerminalFrame SmolStr).payload (sampleCodec codecPanes)
      memory).length ≤ maxChunkedRecordSize := by
  have content := encodedLen_view_le within
  have pane := uintLen_le 1 paneId.asU64 (by decide)
  have frame := bytesLen_le_add 2 (bytesLen 1 (encodedLen (view.toWire memory).fields)) (by decide)
  have member := bytesLen_le_add 1 (encodedLen (view.toWire memory).fields) (by decide)
  rw [length_payload_view]
  omega

def plainCell (text : String) : TerminalCell SmolStr where
  text := text
  foreground := .default
  background := .default
  underlineColor := .default
  flags := 0
  hyperlink := none

/-- The codec reads a frame that has other bytes than those before it. -/
theorem reads_sampleCodec {panes front back : List (PaneTerminalFrame SmolStr)}
    {pane : PaneTerminalFrame SmolStr} (listed : panes = front ++ pane :: back)
    (differ : ∀ other ∈ front,
      other.payload (sampleCodec (panes.map (PaneTerminalFrame.toWire memory))) memory ≠
        pane.payload (sampleCodec (panes.map (PaneTerminalFrame.toWire memory))) memory) :
    (sampleCodec (panes.map (PaneTerminalFrame.toWire memory))).Reads memory pane := by
  have none : (front.map (PaneTerminalFrame.toWire memory)).find? (fun other =>
      encode other.fields ==
        encode (pane.toWire memory).fields) = none := by
    rw [List.find?_eq_none, List.forall_mem_map]
    intro other member same
    exact differ other member (beq_iff_eq.mp same)
  have found : (panes.map (PaneTerminalFrame.toWire memory)).find? (fun other =>
      encode other.fields == encode (pane.toWire memory).fields) =
        some (pane.toWire memory) := by
    rw [listed, List.map_append, List.find?_append, none, List.map_cons, Option.none_or]
    exact List.find?_cons_of_pos (beq_self_eq_true _)
  simp only [PaneCodec.Reads, sampleCodec, found]

/-- A letter, and the cursor behind it. -/
def letterView : TerminalView SmolStr where
  revision := 7
  size := { rows := 1, columns := 1, cellWidth := 8, cellHeight := 16 }
  displayOffset := 0
  mouseTracking := .none
  cells := [plainCell "a"]
  cursor := some { row := 0, column := 0, shape := .block, blinking := true }
  selection := none

/-- The cursor goes. -/
def cursorDelta : TerminalViewDelta SmolStr where
  baseRevision := 3
  revision := 4
  displayOffset := 0
  mouseTracking := .none
  cursor := none
  selection := none
  runs := []

/-- A screen whose cells hold as much text as they may. -/
def textView (rows columns : UInt16) : TerminalView SmolStr where
  revision := 8
  size := { rows, columns, cellWidth := 8, cellHeight := 16 }
  displayOffset := 0
  mouseTracking := .none
  cells := List.replicate (rows.toNat * columns.toNat)
    (plainCell (String.ofList (List.replicate maxTerminalCellTextBytes 'a')))
  cursor := none
  selection := none

theorem within_textView {rows columns : UInt16}
    (few : rows.toNat * columns.toNat ≤ maxTerminalCells) :
    ((textView rows columns).map (SmolStr.read memory)).WithinLimits := by
  refine ⟨?_, ?_, ?_, ?_⟩
  · rw [TerminalView.map, List.length_map, textView, List.length_replicate]
  · rw [TerminalView.map, List.length_map, textView, List.length_replicate]
    exact few
  · intro cell member
    rw [TerminalView.map, textView, List.map_replicate] at member
    rw [List.eq_of_mem_replicate member]
    exact (Utf8.utf8ByteSize_replicate rfl _).le
  · have plain : linkTexts ((textView rows columns).map (SmolStr.read memory)).cells = ∅ := by
      apply Finset.eq_empty_of_forall_notMem
      intro uri listed
      rcases mem_linkTexts.mp listed with ⟨cell, member, linked⟩
      rw [TerminalView.map, textView, List.map_replicate] at member
      rw [List.eq_of_mem_replicate member] at linked
      cases linked
    rw [plain]
    exact Budget.within_empty

/-- All of the text is in the message. -/
theorem le_encodedLen_textView (rows columns : UInt16) :
    rows.toNat * columns.toNat * maxTerminalCellTextBytes ≤
      encodedLen ((textView rows columns).toWire memory).fields := by
  have written := (written_encodeCells memory (textView rows columns).cells).1.text
  have letter : (String.ofList ['a']).utf8ByteSize = 1 := rfl
  have size : (encodeCells memory (textView rows columns).cells .default).1.text.utf8ByteSize =
      rows.toNat * columns.toNat * maxTerminalCellTextBytes := by
    rw [written, map_settleCells (by intros; rfl), Utf8.utf8ByteSize_join, textView,
      List.map_replicate, List.map_replicate, List.map_replicate, List.sum_replicate_nat]
    simp only [TerminalCell.map, plainCell, Utf8.utf8ByteSize_replicate letter]
  have column := le_stringLen 1
    (encodeCells memory (textView rows columns).cells .default).1.text.utf8ByteSize
  have cells := le_bytesLen 6
    (encodedLen (encodeCells memory (textView rows columns).cells .default).1.fields)
  simp only [Pb.TerminalCells.fields, Pb.TerminalView.fields, TerminalView.toWire, Option.map_some,
    encodedLen_append, encodedLen_string, encodedLen_optionalMessage,
    Option.getD_some] at cells ⊢
  omega

/-- The screen is longer than a frame. -/
def textPane : PaneTerminalFrame SmolStr where
  paneId := ⟨2⟩
  frame := .full (textView 96 100)

def samplePanes : List (PaneTerminalFrame SmolStr) :=
  [{ paneId := ⟨1⟩, frame := .full letterView }, textPane,
    { paneId := ⟨3⟩, frame := .delta cursorDelta }]

def samplePaneCodec : PaneCodec :=
  sampleCodec (samplePanes.map (PaneTerminalFrame.toWire fun _ => ""))

theorem lt_length_textPane :
    maxFrameSize < (textPane.payload samplePaneCodec fun _ => "").length := by
  have content : 96 * 100 * maxTerminalCellTextBytes ≤
      encodedLen ((textView 96 100).toWire fun _ => "").fields :=
    le_encodedLen_textView 96 100
  have frame := le_bytesLen 2 (bytesLen 1
    (encodedLen ((textView 96 100).toWire fun _ => "").fields))
  have member := le_bytesLen 1
    (encodedLen ((textView 96 100).toWire fun _ => "").fields)
  rw [textPane, samplePaneCodec, length_payload_view]
  unfold maxTerminalCellTextBytes at content
  unfold maxFrameSize
  omega

/-- Each frame of the example is found by its bytes. -/
theorem reads_samplePanes : List.Forall (samplePaneCodec.Reads fun _ => "") samplePanes := by
  have differ : ∀ payload : List UInt8, payload.length ≤ maxFrameSize →
      payload ≠ textPane.payload samplePaneCodec fun _ => "" := by
    intro payload short same
    exact Nat.not_lt.mpr short (same ▸ lt_length_textPane)
  refine ⟨?_, ?_, ?_⟩
  · exact @reads_sampleCodec _ samplePanes [] _ _ rfl (by simp)
  · apply @reads_sampleCodec _ samplePanes [_] _ _ rfl
    exact List.forall_mem_singleton.mpr (differ _ (by decide +kernel))
  · apply @reads_sampleCodec _ samplePanes [_, _] _ _ rfl
    intro other member
    rcases List.mem_pair.mp member with rfl | rfl
    · decide +kernel
    · exact (differ _ (by decide +kernel)).symm

/-- The second Pane's screen comes in chunks between the batches of the others. -/
theorem terminal_batches_reassemble_example :
    ∃ messages,
      frameTerminalBatches samplePaneCodec (fun _ => "") ⟨1⟩ ⟨1⟩ samplePanes =
        .ok (messages.map (Pb.TerminalMessage.frame samplePaneCodec)) ∧
      (∀ message ∈ messages, (message.frame samplePaneCodec).length ≤ maxFrameSize) ∧
      (∀ message ∈ recordChunks samplePaneCodec (fun _ => "") ⟨1⟩ ⟨1⟩ textPane 2,
        message ∈ messages) ∧
      readTerminalMessages samplePaneCodec (some [⟨1⟩, ⟨2⟩, ⟨3⟩]) none messages =
        .ok (none, samplePanes.map (PaneTerminalFrame.read fun _ => "")) := by
  have letter : (letterView.map (SmolStr.read fun _ => "")).WithinLimits :=
    ⟨rfl, by decide, by decide, by decide⟩
  have text : ((textView 96 100).map (SmolStr.read fun _ => "")).WithinLimits :=
    within_textView (by decide)
  have limits : List.Forall (fun pane =>
      (pane.payload samplePaneCodec fun _ => "").length ≤ maxChunkedRecordSize) samplePanes :=
    ⟨length_payload_view_le letter, length_payload_view_le text, by decide +kernel⟩
  have within : List.Forall (PaneTerminalFrame.WithinLimits fun _ => "") samplePanes :=
    ⟨letter, text, by decide, by decide, by decide⟩
  have takes : List.Forall (fun pane => samplePaneCodec.Reads (fun _ => "") pane ∧
      Watches (some [⟨1⟩, ⟨2⟩, ⟨3⟩]) pane.paneId) samplePanes := by
    rcases reads_samplePanes with ⟨first, second, third⟩
    exact ⟨⟨first, by simp [Watches]⟩, ⟨second, by simp [Watches, textPane]⟩,
      ⟨third, by simp [Watches]⟩⟩
  rw [List.forall_iff_forall_mem] at limits within takes
  rcases terminal_batches_reassemble samplePaneCodec (fun _ => "") ⟨1⟩ ⟨1⟩ samplePanes limits with
    ⟨messages, frames, fit, carry, back⟩
  refine ⟨messages, frames, fit, ?_, (back _ takes).2 within⟩
  have two : 1 < textPane.chunkCount samplePaneCodec fun _ => "" := by
    apply (Chunks.lt_count_iff (by decide)).mpr
    exact Nat.lt_of_le_of_lt (by decide) lt_length_textPane
  intro message chunk
  rcases List.mem_map.mp chunk with ⟨index, inside, rfl⟩
  apply carry.mem_of_large (.tail _ (.head _)) lt_length_textPane fit
  apply List.mem_map_of_mem
  exact List.mem_range.mpr (Nat.lt_of_lt_of_le (List.mem_range.mp inside) two)

end Condr
