import Condr.Server.Bootstrap

/-!
# A Bootstrap comes back

The batches of a split lead a fresh assembler through every record, and it ends with the
records as the wire leaves them. Batches in any other order, or not all of them, or one of
them twice, are not a Bootstrap.
-/

namespace Condr

open ClientWriter (maxFrameSize maxBootstrapBatches maxBootstrapTotalSize)

/-! ## Records by kind -/

/-- What must differ between the records of one kind. -/
inductive RecordKey where
  | terminal (pane : PaneId)
  | agent (pane : PaneId)
  | workspaceGit (workspace : WorkspaceId)
  | zoomedPane (pane : PaneId)
deriving DecidableEq

namespace BootstrapRecord

variable {Link : Type}

def key : BootstrapRecord Link → RecordKey
  | terminal snapshot => .terminal snapshot.paneId
  | agent snapshot => .agent snapshot.paneId
  | workspaceGit git => .workspaceGit git.workspaceId
  | zoomedPane pane => .zoomedPane pane

def terminal? : BootstrapRecord Link → Option (PaneTerminalSnapshot Link)
  | terminal snapshot => some snapshot
  | _ => none

def agent? : BootstrapRecord Link → Option PaneAgentSnapshot
  | agent snapshot => some snapshot
  | _ => none

def workspaceGit? : BootstrapRecord Link → Option WorkspaceGitSnapshot
  | workspaceGit git => some git
  | _ => none

def zoomedPane? : BootstrapRecord Link → Option PaneId
  | zoomedPane pane => some pane
  | _ => none

@[simp]
theorem key_settled (memory : Memory) (record : BootstrapRecord SmolStr) :
    (record.settled memory).key = record.key := by
  cases record <;> rfl

end BootstrapRecord

/-- The Bootstrap of a header and records. -/
def BootstrapHeader.bootstrap {Link : Type} (header : BootstrapHeader)
    (records : List (BootstrapRecord Link)) : SessionBootstrap Link where
  serverId := header.serverId
  runtimeEpoch := header.runtimeEpoch
  sessionId := header.sessionId
  sequence := header.sequence
  snapshot := header.snapshot
  settings := header.settings
  terminals := records.filterMap BootstrapRecord.terminal?
  agents := records.filterMap BootstrapRecord.agent?
  workspaceGit := records.filterMap BootstrapRecord.workspaceGit?
  zoomedPanes := records.filterMap BootstrapRecord.zoomedPane?

namespace BootstrapAssembler

variable {assembler start : BootstrapAssembler} {records : List (BootstrapRecord String)}
  {record : BootstrapRecord String} {prost : Prost} {batch : BootstrapBatch}

/-- The assembler has the id of a record of this kind. -/
def Knows (assembler : BootstrapAssembler) : RecordKey → Prop
  | .terminal pane => pane ∈ assembler.terminalIds
  | .agent pane => pane ∈ assembler.agentIds
  | .workspaceGit workspace => workspace ∈ assembler.workspaceGitIds
  | .zoomedPane pane => pane ∈ assembler.zoomedPaneIds

/-- The assembler took these records, and is between two. -/
structure Holds (assembler : BootstrapAssembler) (records : List (BootstrapRecord String)) :
    Prop where
  terminals : assembler.terminals = records.filterMap BootstrapRecord.terminal?
  agents : assembler.agents = records.filterMap BootstrapRecord.agent?
  workspaceGit : assembler.workspaceGit = records.filterMap BootstrapRecord.workspaceGit?
  zoomedPanes : assembler.zoomedPanes = records.filterMap BootstrapRecord.zoomedPane?
  keys : ∀ key, assembler.Knows key ↔ key ∈ records.map BootstrapRecord.key
  chunkIndex : assembler.nextChunkIndex = 0
  chunkCount : assembler.currentChunkCount = none
  payload : assembler.currentPayload = []

/-- The assembler with one record more. -/
def added (assembler : BootstrapAssembler) : BootstrapRecord String → BootstrapAssembler
  | .terminal terminal => { assembler with
      terminalIds := terminal.paneId :: assembler.terminalIds
      terminals := assembler.terminals ++ [terminal] }
  | .agent agent => { assembler with
      agentIds := agent.paneId :: assembler.agentIds
      agents := assembler.agents ++ [agent] }
  | .workspaceGit git => { assembler with
      workspaceGitIds := git.workspaceId :: assembler.workspaceGitIds
      workspaceGit := assembler.workspaceGit ++ [git] }
  | .zoomedPane pane => { assembler with
      zoomedPaneIds := pane :: assembler.zoomedPaneIds
      zoomedPanes := assembler.zoomedPanes ++ [pane] }

theorem terminals_added : (assembler.added record).terminals =
    assembler.terminals ++ record.terminal?.toList := by
  cases record with
  | terminal terminal => rfl
  | _ => exact (List.append_nil _).symm

theorem agents_added : (assembler.added record).agents =
    assembler.agents ++ record.agent?.toList := by
  cases record with
  | agent agent => rfl
  | _ => exact (List.append_nil _).symm

theorem workspaceGit_added : (assembler.added record).workspaceGit =
    assembler.workspaceGit ++ record.workspaceGit?.toList := by
  cases record with
  | workspaceGit git => rfl
  | _ => exact (List.append_nil _).symm

theorem zoomedPanes_added : (assembler.added record).zoomedPanes =
    assembler.zoomedPanes ++ record.zoomedPane?.toList := by
  cases record with
  | zoomedPane pane => rfl
  | _ => exact (List.append_nil _).symm

theorem insertRecord_of_new (new : ¬assembler.Knows record.key) :
    assembler.insertRecord record = .ok (assembler.added record) := by
  cases record with
  | terminal terminal => exact if_neg new
  | agent agent => exact if_neg new
  | workspaceGit git => exact if_neg new
  | zoomedPane pane => exact if_neg new

theorem knows_added {key : RecordKey} :
    (assembler.added record).Knows key ↔ key = record.key ∨ assembler.Knows key := by
  cases record <;> cases key <;> simp [added, Knows, BootstrapRecord.key]

/-- The cursor behind a whole record. -/
def passed (assembler : BootstrapAssembler) (chunks bytes : ℕ) : BootstrapAssembler :=
  { assembler with
    nextBatchIndex := assembler.nextBatchIndex + chunks
    nextRecordIndex := assembler.nextRecordIndex + 1
    nextChunkIndex := 0
    currentChunkCount := none
    currentPayload := []
    totalPayloadSize := assembler.totalPayloadSize + bytes }

theorem Holds.added_passed (holds : assembler.Holds records) (chunks bytes : ℕ) :
    ((assembler.added record).passed chunks bytes).Holds (records ++ [record]) := by
  have keys : ∀ key, ((assembler.added record).passed chunks bytes).Knows key ↔
      key ∈ (records ++ [record]).map BootstrapRecord.key := by
    intro key
    have same : ((assembler.added record).passed chunks bytes).Knows key ↔
        (assembler.added record).Knows key := by
      cases key <;> rfl
    rw [same, knows_added, holds.keys key, List.map_append, List.mem_append, or_comm]
    simp
  exact {
    terminals := by
      rw [Lists.filterMap_concat, ← holds.terminals]
      exact terminals_added
    agents := by
      rw [Lists.filterMap_concat, ← holds.agents]
      exact agents_added
    workspaceGit := by
      rw [Lists.filterMap_concat, ← holds.workspaceGit]
      exact workspaceGit_added
    zoomedPanes := by
      rw [Lists.filterMap_concat, ← holds.zoomedPanes]
      exact zoomedPanes_added
    keys := keys
    chunkIndex := by cases record <;> rfl
    chunkCount := by cases record <;> rfl
    payload := by cases record <;> rfl }

/-! ## One batch -/

/-- The batch is the next one that the assembler waits for. -/
structure Accepts (assembler : BootstrapAssembler) (batch : BootstrapBatch) : Prop where
  declared : assembler.nextBatchIndex < assembler.header.batchCount
  serverId : batch.serverId = assembler.header.serverId
  sessionId : batch.sessionId = assembler.header.sessionId
  batchIndex : batch.batchIndex = assembler.nextBatchIndex
  recordIndex : batch.recordIndex = assembler.nextRecordIndex
  chunkRange : batch.chunkIndex < batch.chunkCount
  chunkIndex : batch.chunkIndex = assembler.nextChunkIndex
  payload : batch.payload ≠ []
  payloadSize : batch.payload.length ≤ maxChunkPayloadSize
  chunkCount : ∀ count, assembler.currentChunkCount = some count → count = batch.chunkCount
  room : batch.chunkCount - batch.chunkIndex ≤
    assembler.header.batchCount - assembler.nextBatchIndex

theorem checkBatch_eq_ok : assembler.checkBatch batch = .ok () ↔ assembler.Accepts batch := by
  have changed : assembler.currentChunkCount.any (· != batch.chunkCount) = true ↔
      ¬∀ count, assembler.currentChunkCount = some count → count = batch.chunkCount := by
    cases assembler.currentChunkCount <;> simp
  constructor
  · intro accepted
    simp only [checkBatch] at accepted
    split_ifs at accepted with more identity batchIndex recordIndex range chunkIndex empty large
      chunkCount room
    rw [changed, not_not] at chunkCount
    rw [not_or, not_not, not_not] at identity
    exact {
      declared := by omega
      serverId := identity.1
      sessionId := identity.2
      batchIndex := not_not.mp batchIndex
      recordIndex := not_not.mp recordIndex
      chunkRange := by omega
      chunkIndex := not_not.mp chunkIndex
      payload := by simpa using empty
      payloadSize := by omega
      chunkCount := chunkCount
      room := by omega }
  · intro accepts
    have declared := accepts.declared
    have range := accepts.chunkRange
    have payload := accepts.payload
    have payloadSize := accepts.payloadSize
    have room := accepts.room
    rw [checkBatch, if_neg (by omega), if_neg (by simp [accepts.serverId, accepts.sessionId]),
      if_neg (not_not.mpr accepts.batchIndex), if_neg (not_not.mpr accepts.recordIndex),
      if_neg (by omega), if_neg (not_not.mpr accepts.chunkIndex), if_neg (by simpa using payload),
      if_neg (by omega), if_neg (changed.not.mpr (not_not.mpr accepts.chunkCount)),
      if_neg (by omega)]

/-- A batch that passes every check is taken, and ends its record when it is the last. -/
theorem push_of_checked {size total batchIndex chunkIndex : ℕ}
    (checked : assembler.checkBatch batch = .ok ())
    (sizes : checkedAdd assembler.currentPayload.length batch.payload.length = some size)
    (small : ¬maxChunkedRecordSize < size)
    (totals : checkedBootstrapTotalSize assembler.totalPayloadSize batch.payload.length =
      .ok total)
    (nextBatch : nextIndex assembler.nextBatchIndex "batch" = .ok batchIndex)
    (nextChunk : nextIndex assembler.nextChunkIndex "chunk" = .ok chunkIndex)
    {taken : BootstrapAssembler}
    (takes : { assembler with
      currentChunkCount := some batch.chunkCount
      totalPayloadSize := total
      currentPayload := assembler.currentPayload ++ batch.payload
      nextBatchIndex := batchIndex
      nextChunkIndex := chunkIndex } = taken) :
    push prost assembler batch =
      if chunkIndex = batch.chunkCount then taken.endRecord prost else .ok taken := by
  rw [push, checked, Lists.ok_bind, sizes]
  dsimp only
  rw [if_neg small, totals, Lists.ok_bind, nextBatch, Lists.ok_bind, nextChunk, Lists.ok_bind,
    takes]

/-! ## The chunks of one record -/

/-- A record's batches, numbered from a first one. -/
def recordBatch (serverId : ServerId) (sessionId : SessionId) (batchIndex recordIndex : ℕ)
    (payload : List UInt8) (chunkIndex : ℕ) : BootstrapBatch where
  serverId := serverId
  sessionId := sessionId
  batchIndex := batchIndex + chunkIndex
  recordIndex := recordIndex
  chunkIndex := chunkIndex
  chunkCount := Chunks.count maxChunkPayloadSize payload
  payload := Chunks.chunk maxChunkPayloadSize payload chunkIndex

/-- The assembler behind so many chunks of a record. -/
def during (start : BootstrapAssembler) (payload : List UInt8) (chunks : ℕ) :
    BootstrapAssembler :=
  { start with
    nextBatchIndex := start.nextBatchIndex + chunks
    nextChunkIndex := chunks
    currentChunkCount :=
      if chunks = 0 then none else some (Chunks.count maxChunkPayloadSize payload)
    currentPayload := payload.take (chunks * maxChunkPayloadSize)
    totalPayloadSize :=
      start.totalPayloadSize + (payload.take (chunks * maxChunkPayloadSize)).length }

/-- What the limits leave for a record. -/
structure Fits (start : BootstrapAssembler) (payload : List UInt8) : Prop where
  batches : start.nextBatchIndex + Chunks.count maxChunkPayloadSize payload ≤
    start.header.batchCount
  declared : start.header.batchCount ≤ maxBootstrapBatches
  recordSize : payload.length ≤ maxChunkedRecordSize
  totalSize : start.totalPayloadSize + payload.length ≤ maxBootstrapTotalSize
  records : start.nextRecordIndex < start.nextBatchIndex + 1

theorem maxChunkPayloadSize_pos : 0 < maxChunkPayloadSize := by decide

theorem nextIndex_of_lt {index : ℕ} {what : String} (small : index < maxBootstrapBatches) :
    nextIndex index what = .ok (index + 1) := by
  have : maxBootstrapBatches < 2 ^ 32 := by decide
  exact if_pos (by omega)

theorem during_zero {payload : List UInt8} (holds : start.Holds records) :
    start.during payload 0 = start := by
  rcases start with ⟨_, _, _, _, _, _, _⟩
  have index := holds.chunkIndex
  have count := holds.chunkCount
  have empty := holds.payload
  simp only at index count empty
  simp [during, index, count, empty]

theorem knows_during {payload : List UInt8} {chunks : ℕ} {key : RecordKey} :
    (start.during payload chunks).Knows key ↔ start.Knows key := by
  cases key <;> simp only [Knows, during]

theorem nextRecordIndex_during {payload : List UInt8} {chunks : ℕ} :
    ((start.during payload chunks).added record).nextRecordIndex = start.nextRecordIndex := by
  cases record <;> rfl

theorem passed_during {payload : List UInt8} {chunks bytes : ℕ}
    (whole : (payload.take (chunks * maxChunkPayloadSize)).length = bytes) :
    { (start.during payload chunks).added record with
      currentPayload := []
      currentChunkCount := none
      nextChunkIndex := 0
      nextRecordIndex := start.nextRecordIndex + 1 } =
      (start.added record).passed chunks bytes := by
  subst whole
  cases record <;> rfl

theorem during_succ {payload : List UInt8} {chunks : ℕ} :
    { start.during payload chunks with
      currentChunkCount := some (Chunks.count maxChunkPayloadSize payload)
      totalPayloadSize :=
        start.totalPayloadSize + (payload.take ((chunks + 1) * maxChunkPayloadSize)).length
      currentPayload := payload.take ((chunks + 1) * maxChunkPayloadSize)
      nextBatchIndex := start.nextBatchIndex + chunks + 1
      nextChunkIndex := chunks + 1 } = start.during payload (chunks + 1) := by
  rw [during, during, if_neg (Nat.succ_ne_zero chunks), Nat.add_assoc]

/-- The assembler takes the next chunk of a record. -/
theorem push_chunk {payload : List UInt8} {chunks : ℕ} (fits : start.Fits payload)
    (inside : chunks < Chunks.count maxChunkPayloadSize payload) :
    push prost (start.during payload chunks)
        (recordBatch start.header.serverId start.header.sessionId start.nextBatchIndex
          start.nextRecordIndex payload chunks) =
      if chunks + 1 = Chunks.count maxChunkPayloadSize payload then
        (start.during payload (chunks + 1)).endRecord prost
      else .ok (start.during payload (chunks + 1)) := by
  have room := fits.batches
  have declared := fits.declared
  have piece := Chunks.chunk_ne_nil maxChunkPayloadSize_pos inside
  have short := @Chunks.length_chunk_le _ maxChunkPayloadSize payload chunks
  have behind := @Chunks.take_append_chunk _ maxChunkPayloadSize payload chunks
  have lengths := congrArg List.length behind
  rw [List.length_append] at lengths
  have part : (payload.take ((chunks + 1) * maxChunkPayloadSize)).length ≤ payload.length :=
    List.length_take_le' _ _
  have recordSize := fits.recordSize
  have totalSize := fits.totalSize
  have checked : (start.during payload chunks).checkBatch
      (recordBatch start.header.serverId start.header.sessionId start.nextBatchIndex
        start.nextRecordIndex payload chunks) = .ok () := by
    apply checkBatch_eq_ok.mpr
    exact {
      declared := by dsimp only [during]; omega
      serverId := rfl
      sessionId := rfl
      batchIndex := rfl
      recordIndex := rfl
      chunkRange := inside
      chunkIndex := rfl
      payload := piece
      payloadSize := short
      chunkCount := by
        intro count current
        dsimp only [during] at current
        split_ifs at current
        exact (Option.some.inj current).symm
      room := by dsimp only [during, recordBatch]; omega }
  have sizeAdd : checkedAdd (start.during payload chunks).currentPayload.length
      (Chunks.chunk maxChunkPayloadSize payload chunks).length =
      some (payload.take ((chunks + 1) * maxChunkPayloadSize)).length := by
    rw [checkedAdd, during, lengths]
    have : maxChunkedRecordSize < 2 ^ 64 := by decide
    exact if_pos (by omega)
  have totalAdd : checkedBootstrapTotalSize (start.during payload chunks).totalPayloadSize
      (Chunks.chunk maxChunkPayloadSize payload chunks).length =
      .ok (start.totalPayloadSize +
        (payload.take ((chunks + 1) * maxChunkPayloadSize)).length) := by
    have : maxBootstrapTotalSize < 2 ^ 64 := by decide
    rw [checkedBootstrapTotalSize, checkedAdd, during]
    dsimp only
    rw [Nat.add_assoc, lengths, if_pos (by omega)]
    exact if_neg (by omega)
  have batchIndex : nextIndex (start.during payload chunks).nextBatchIndex "batch" =
      .ok (start.nextBatchIndex + chunks + 1) :=
    nextIndex_of_lt (by dsimp only [during]; omega)
  have chunkIndex : nextIndex (start.during payload chunks).nextChunkIndex "chunk" =
      .ok (chunks + 1) :=
    nextIndex_of_lt (by dsimp only [during]; omega)
  have notLarge : ¬maxChunkedRecordSize <
      (payload.take ((chunks + 1) * maxChunkPayloadSize)).length := by
    omega
  apply push_of_checked checked sizeAdd notLarge totalAdd batchIndex chunkIndex
  rw [← during_succ, ← behind]
  rfl

/-- The chunks of a record before its last one only fill the payload. -/
theorem push_front {payload : List UInt8} (holds : start.Holds records)
    (fits : start.Fits payload) {chunks : ℕ}
    (inside : chunks < Chunks.count maxChunkPayloadSize payload) :
    ((List.range chunks).map (recordBatch start.header.serverId start.header.sessionId
      start.nextBatchIndex start.nextRecordIndex payload)).foldlM (push prost) start =
      .ok (start.during payload chunks) := by
  induction chunks with
  | zero =>
      rw [during_zero holds]
      rfl
  | succ chunks induction =>
      have before := induction (by omega)
      rw [List.range_succ, List.map_append, List.foldlM_append, before, Lists.ok_bind,
        List.map_singleton, List.foldlM_cons, push_chunk fits (by omega), if_neg (by omega)]
      rfl

/-- Behind its last chunk a record is read, and taken when its id is new. -/
theorem endRecord_during {payload : List UInt8} (holds : start.Holds records)
    (fits : start.Fits payload) (some : payload ≠ [])
    (decodes : decodeBootstrapRecord prost payload = .ok (Option.some record))
    (new : record.key ∉ records.map BootstrapRecord.key) :
    (start.during payload (Chunks.count maxChunkPayloadSize payload)).endRecord prost =
      .ok ((start.added record).passed (Chunks.count maxChunkPayloadSize payload)
        payload.length) := by
  have chunked : Chunks.count maxChunkPayloadSize payload ≠ 0 := by
    intro none
    exact some ((Chunks.count_eq_zero maxChunkPayloadSize_pos).mp none)
  have whole := @Chunks.take_count _ _ payload maxChunkPayloadSize_pos
  have bounds := fits.batches
  have declared := fits.declared
  have records := fits.records
  have unknown : ¬start.Knows record.key := fun known => new ((holds.keys _).mp known)
  have inserted : (start.during payload (Chunks.count maxChunkPayloadSize payload)).insertRecord
      record =
      .ok ((start.during payload (Chunks.count maxChunkPayloadSize payload)).added record) := by
    apply insertRecord_of_new
    intro known
    exact unknown (knows_during.mp known)
  have recordIndex : nextIndex ((start.during payload (Chunks.count maxChunkPayloadSize
      payload)).added record).nextRecordIndex "record" = .ok (start.nextRecordIndex + 1) := by
    rw [nextRecordIndex_during]
    exact nextIndex_of_lt (by omega)
  have payloadEq : (start.during payload
      (Chunks.count maxChunkPayloadSize payload)).currentPayload = payload := whole
  rw [endRecord, payloadEq, decodes, Lists.ok_bind]
  dsimp only
  rw [inserted, Lists.ok_bind, recordIndex, Lists.ok_bind]
  rw [passed_during (congrArg List.length whole)]

/-- The batches of a record lead the assembler behind it. -/
theorem push_record {payload : List UInt8} (holds : start.Holds records)
    (fits : start.Fits payload) (some : payload ≠ [])
    (decodes : decodeBootstrapRecord prost payload = .ok (Option.some record))
    (new : record.key ∉ records.map BootstrapRecord.key) :
    ((List.range (Chunks.count maxChunkPayloadSize payload)).map
      (recordBatch start.header.serverId start.header.sessionId start.nextBatchIndex
        start.nextRecordIndex payload)).foldlM (push prost) start =
      .ok ((start.added record).passed (Chunks.count maxChunkPayloadSize payload)
        payload.length) := by
  have ends := endRecord_during holds fits some decodes new
  cases chunks : Chunks.count maxChunkPayloadSize payload with
  | zero => exact absurd ((Chunks.count_eq_zero maxChunkPayloadSize_pos).mp chunks) some
  | succ last =>
      rw [chunks] at ends
      rw [List.range_succ, List.map_append, List.foldlM_append,
        push_front holds fits (by omega), Lists.ok_bind, List.map_singleton, List.foldlM_cons,
        push_chunk fits (by omega), if_pos chunks.symm, ends]
      rfl

end BootstrapAssembler

/-! ## A normalized record -/

theorem TerminalView.Sized.of_texts {Link Other : Type} {view : TerminalView Link}
    {other : TerminalView Other} (sized : view.Sized) (size : other.size = view.size)
    (texts : other.cells.map TerminalCell.text = view.cells.map TerminalCell.text) :
    other.Sized := by
  have length : other.cells.length = view.cells.length := by
    simpa using congrArg List.length texts
  refine ⟨?_, ?_, ?_⟩
  · rw [length, size]
    exact sized.grid
  · rw [length]
    exact sized.few
  · intro cell member
    have listed := List.mem_map_of_mem member (f := TerminalCell.text)
    rw [texts] at listed
    rcases List.mem_map.mp listed with ⟨same, inside, text⟩
    rw [← text]
    exact sized.short same inside

/-- Limiting the links first changes nothing of what comes back. -/
theorem normalizeRecord_eq_ok {memory : Memory} {record normalized : BootstrapRecord SmolStr}
    (normalizes : normalizeRecord memory record = .ok normalized) :
    (record.Portable → normalized.Portable) ∧
      normalized.settled memory = record.settled memory := by
  cases record with
  | terminal snapshot =>
      cases present : snapshot.view with
      | none =>
          simp only [normalizeRecord, present] at normalizes
          cases Except.ok.inj normalizes
          exact ⟨id, rfl⟩
      | some view =>
          rcases @TerminalView.normalizeHyperlinksForWire_spec memory view
            with ⟨limited, changed, limits, read, -⟩
          simp only [normalizeRecord, present, limits] at normalizes
          cases Except.ok.inj normalizes
          have texts : limited.cells.map TerminalCell.text = view.cells.map TerminalCell.text := by
            have cells := congrArg (fun view => view.cells.map TerminalCell.text) read
            simp only [TerminalView.map, settleView] at cells
            rw [map_settleCells fun _ _ => rfl, List.map_map, List.map_map] at cells
            exact cells
          have size : limited.size = view.size := by
            have sizes := congrArg TerminalView.size read
            exact sizes
          constructor
          · rintro ⟨sized, proper⟩
            refine ⟨?_, proper⟩
            intro other same
            cases Option.some.inj same
            exact (sized view present).of_texts size texts
          · simp only [BootstrapRecord.settled, PaneTerminalSnapshot.withView, present,
              Option.map_some, read]
            congr 3
            apply settleView_eq_self.mpr
            exact settleCells_settleCells Budget.within_empty (Finset.Subset.refl _)
  | agent snapshot =>
      cases Except.ok.inj normalizes
      exact ⟨id, rfl⟩
  | workspaceGit git =>
      cases Except.ok.inj normalizes
      exact ⟨id, rfl⟩
  | zoomedPane pane =>
      cases Except.ok.inj normalizes
      exact ⟨id, rfl⟩

/-! ## What a split makes -/

variable {prost : Prost} {memory : Memory} {serverId : ServerId} {sessionId : SessionId}

theorem u32TryFrom_eq_ok {value result : ℕ} {text : String}
    (fits : u32TryFrom value text = .ok result) : result = value := by
  rw [u32TryFrom] at fits
  split_ifs at fits
  exact (Except.ok.inj fits).symm

theorem pushChunks_eq_ok {payload : List UInt8} {recordIndex chunks : ℕ}
    {batches result : List BootstrapBatch}
    (pushed : ((List.range chunks).map fun chunk =>
      (Chunks.chunk maxChunkPayloadSize payload chunk, chunk)).foldlM
        (pushChunk serverId sessionId recordIndex (Chunks.count maxChunkPayloadSize payload))
        batches = .ok result) :
    result = batches ++ (List.range chunks).map
        (BootstrapAssembler.recordBatch serverId sessionId batches.length recordIndex payload) ∧
      (0 < chunks → result.length ≤ maxBootstrapBatches) := by
  induction chunks generalizing result with
  | zero =>
      cases Except.ok.inj pushed
      simp
  | succ chunks induction =>
      rw [List.range_succ, List.map_append, List.foldlM_append, Lists.bind_eq_ok] at pushed
      rcases pushed with ⟨before, front, last⟩
      rcases induction front with ⟨rfl, -⟩
      rw [List.map_singleton, List.foldlM_cons, Lists.bind_eq_ok] at last
      rcases last with ⟨pushed, chunk, same⟩
      cases Except.ok.inj same
      rw [pushChunk] at chunk
      split_ifs at chunk with full
      simp only [Lists.bind_eq_ok, Except.ok.injEq] at chunk
      rcases chunk with ⟨batchIndex, fits, chunkIndex, small, rfl⟩
      cases u32TryFrom_eq_ok fits
      cases u32TryFrom_eq_ok small
      constructor
      · rw [List.range_succ, List.map_append, ← List.append_assoc]
        simp [BootstrapAssembler.recordBatch]
      · intro _
        rw [List.length_append, List.length_singleton]
        omega

/-- A record that is split: what is written of it, and its batches. -/
theorem splitRecord_eq_ok {split next : SplitBootstrap} {record : BootstrapRecord SmolStr}
    {index : ℕ}
    (splits : splitRecord prost memory serverId sessionId split (record, index) = .ok next) :
    ∃ normalized payload, normalizeRecord memory record = .ok normalized ∧
      payload = prost.encodeRecord (normalized.toWire memory) ∧ payload ≠ [] ∧
      payload.length ≤ maxChunkedRecordSize ∧
      next.totalPayloadSize = split.totalPayloadSize + payload.length ∧
      next.totalPayloadSize ≤ maxBootstrapTotalSize ∧
      next.batches = split.batches ++
        (List.range (Chunks.count maxChunkPayloadSize payload)).map
          (BootstrapAssembler.recordBatch serverId sessionId split.batches.length index payload) ∧
      next.batches.length ≤ maxBootstrapBatches := by
  simp only [splitRecord, Lists.bind_eq_ok] at splits
  rcases splits with ⟨recordIndex, fits, normalized, normalizes, payload, encoded, splits⟩
  cases u32TryFrom_eq_ok fits
  have written : payload = prost.encodeRecord (normalized.toWire memory) ∧
      payload.length ≤ maxChunkedRecordSize := by
    rw [encodeBootstrapRecord] at encoded
    split_ifs at encoded with large
    · cases encoded
    · cases Except.ok.inj encoded
      exact ⟨rfl, not_lt.mp large⟩
  cases adds : checkedAdd split.totalPayloadSize payload.length with
  | none => simp [adds] at splits
  | some total =>
      rw [adds] at splits
      dsimp only at splits
      split_ifs at splits with large
      simp only [Lists.bind_eq_ok] at splits
      rcases splits with ⟨chunkCount, small, batches, pushed, splits⟩
      cases u32TryFrom_eq_ok small
      split_ifs at splits with empty
      cases Except.ok.inj splits
      rw [Chunks.zipIdx_chunks] at pushed
      rcases pushChunks_eq_ok pushed with ⟨same, few⟩
      rw [checkedAdd] at adds
      split_ifs at adds
      cases Option.some.inj adds
      refine ⟨normalized, payload, normalizes, written.1, ?_, written.2, rfl, not_lt.mp large, same,
        few (Nat.pos_of_ne_zero empty)⟩
      intro none
      exact empty ((Chunks.count_eq_zero BootstrapAssembler.maxChunkPayloadSize_pos).mpr none)

/-- What a split made before stays, and the batches keep telling their places. -/
theorem splitRecords_eq_ok {records : List (BootstrapRecord SmolStr)} {index : ℕ}
    {split final : SplitBootstrap}
    (splits : (records.zipIdx index).foldlM (splitRecord prost memory serverId sessionId) split =
      .ok final)
    (few : split.batches.length ≤ maxBootstrapBatches) :
    split.batches <+: final.batches ∧ final.batches.length ≤ maxBootstrapBatches ∧
      (Lists.Numbered BootstrapBatch.batchIndex split.batches →
        Lists.Numbered BootstrapBatch.batchIndex final.batches) := by
  induction records generalizing split index with
  | nil =>
      cases Except.ok.inj splits
      exact ⟨List.prefix_refl _, few, id⟩
  | cons record records induction =>
      rw [List.zipIdx_cons, List.foldlM_cons, Lists.bind_eq_ok] at splits
      rcases splits with ⟨next, first, rest⟩
      rcases splitRecord_eq_ok first with ⟨_, payload, -, -, -, -, -, -, batches, nextFew⟩
      rcases induction rest nextFew with ⟨keeps, finalFew, numbered⟩
      refine ⟨List.IsPrefix.trans ⟨_, batches.symm⟩ keeps, finalFew, ?_⟩
      intro before
      apply numbered
      intro place batch listed
      rw [batches] at listed
      by_cases early : place < split.batches.length
      · rw [List.getElem?_append_left early] at listed
        exact before place batch listed
      · rw [List.getElem?_append_right (by omega), List.getElem?_map] at listed
        rcases Option.map_eq_some_iff.mp listed with ⟨chunk, inside, rfl⟩
        have := (List.getElem?_eq_some_iff.mp inside).2
        rw [List.getElem_range] at this
        dsimp only [BootstrapAssembler.recordBatch]
        omega

/-! ## The assembler behind a split -/

/-- The generated code reads back the record that is written. -/
def Prost.Reads (prost : Prost) (memory : Memory) (record : BootstrapRecord SmolStr) : Prop :=
  ∀ normalized, normalizeRecord memory record = .ok normalized →
    prost.decodeRecord (prost.encodeRecord (normalized.toWire memory)) =
      .ok (normalized.toWire memory)

namespace BootstrapAssembler

variable {start : BootstrapAssembler} {header : BootstrapHeader} {split : SplitBootstrap}
  {index : ℕ} {earlier : List (BootstrapRecord String)}

/-- The assembler took the batches that a split made so far. -/
structure Behind (start : BootstrapAssembler) (header : BootstrapHeader) (split : SplitBootstrap)
    (index : ℕ) (records : List (BootstrapRecord String)) : Prop where
  header : start.header = header
  holds : start.Holds records
  batchIndex : start.nextBatchIndex = split.batches.length
  recordIndex : start.nextRecordIndex = index
  total : start.totalPayloadSize = split.totalPayloadSize
  order : index ≤ split.batches.length

theorem header_added_passed {assembler : BootstrapAssembler} {record : BootstrapRecord String}
    {chunks bytes : ℕ} :
    ((assembler.added record).passed chunks bytes).header = assembler.header := by
  cases record <;> rfl

theorem nextBatchIndex_added_passed {assembler : BootstrapAssembler}
    {record : BootstrapRecord String} {chunks bytes : ℕ} :
    ((assembler.added record).passed chunks bytes).nextBatchIndex =
      assembler.nextBatchIndex + chunks := by
  cases record <;> rfl

theorem nextRecordIndex_added_passed {assembler : BootstrapAssembler}
    {record : BootstrapRecord String} {chunks bytes : ℕ} :
    ((assembler.added record).passed chunks bytes).nextRecordIndex =
      assembler.nextRecordIndex + 1 := by
  cases record <;> rfl

theorem totalPayloadSize_added_passed {assembler : BootstrapAssembler}
    {record : BootstrapRecord String} {chunks bytes : ℕ} :
    ((assembler.added record).passed chunks bytes).totalPayloadSize =
      assembler.totalPayloadSize + bytes := by
  cases record <;> rfl

/-- The assembler takes what a split makes of one more record. -/
theorem Behind.splitRecord (behind : start.Behind header split index earlier)
    {record : BootstrapRecord SmolStr} {next : SplitBootstrap}
    (splits : Condr.splitRecord prost memory header.serverId header.sessionId split
      (record, index) = .ok next)
    (declared : header.batchCount ≤ maxBootstrapBatches)
    (few : next.batches.length ≤ header.batchCount) (portable : record.Portable)
    (reads : prost.Reads memory record)
    (new : record.key ∉ earlier.map BootstrapRecord.key) :
    ∃ more last, next.batches = split.batches ++ more ∧
      more.foldlM (push prost) start = .ok last ∧
      last.Behind header next (index + 1) (earlier ++ [record.settled memory]) := by
  rcases splitRecord_eq_ok splits with
    ⟨normalized, payload, normalizes, written, some, recordSize, total, totalSize, batches, -⟩
  rcases normalizeRecord_eq_ok normalizes with ⟨stays, settled⟩
  have decodes : decodeBootstrapRecord prost payload =
      .ok (Option.some (record.settled memory)) := by
    rw [decodeBootstrapRecord, if_neg (by omega), written, reads normalized normalizes,
      ← settled]
    simp only [Except.mapError, Lists.ok_bind,
      @BootstrapRecord.toDomain_toWire memory _ (stays portable)]
  have lengths := congrArg List.length batches
  rw [List.length_append, List.length_map, List.length_range] at lengths
  have batchIndex := behind.batchIndex
  have order := behind.order
  have fits : start.Fits payload := {
    batches := by rw [behind.header]; omega
    declared := by rw [behind.header]; exact declared
    recordSize := recordSize
    totalSize := by rw [behind.total]; omega
    records := by rw [behind.recordIndex]; omega }
  have pushed := push_record behind.holds fits some decodes (by simpa using new)
  rw [behind.header, behind.batchIndex, behind.recordIndex] at pushed
  refine ⟨_, _, batches, pushed, ?_⟩
  have chunked : Chunks.count maxChunkPayloadSize payload ≠ 0 := by
    intro none
    exact some ((Chunks.count_eq_zero maxChunkPayloadSize_pos).mp none)
  exact {
    header := header_added_passed.trans behind.header
    holds := behind.holds.added_passed _ _
    batchIndex := by rw [nextBatchIndex_added_passed]; omega
    recordIndex := by rw [nextRecordIndex_added_passed, behind.recordIndex]
    total := by rw [totalPayloadSize_added_passed, behind.total, total]
    order := by omega }

/-- The assembler takes what a split makes of all records. -/
theorem Behind.splitRecords (behind : start.Behind header split index earlier)
    {records : List (BootstrapRecord SmolStr)} {final : SplitBootstrap}
    (splits : (records.zipIdx index).foldlM
      (Condr.splitRecord prost memory header.serverId header.sessionId) split = .ok final)
    (before : split.batches.length ≤ maxBootstrapBatches)
    (declared : header.batchCount ≤ maxBootstrapBatches)
    (few : final.batches.length ≤ header.batchCount)
    (portable : ∀ record ∈ records, record.Portable)
    (reads : ∀ record ∈ records, prost.Reads memory record)
    (distinct : (earlier.map BootstrapRecord.key ++ records.map BootstrapRecord.key).Nodup) :
    ∃ more last, final.batches = split.batches ++ more ∧
      more.foldlM (push prost) start = .ok last ∧
      last.Behind header final (index + records.length)
        (earlier ++ records.map (BootstrapRecord.settled memory)) := by
  induction records generalizing start split index earlier with
  | nil =>
      cases Except.ok.inj splits
      refine ⟨[], start, by simp, rfl, ?_⟩
      simpa using behind
  | cons record records induction =>
      rw [List.zipIdx_cons, List.foldlM_cons, Lists.bind_eq_ok] at splits
      rcases splits with ⟨next, first, rest⟩
      have nextFew : next.batches.length ≤ maxBootstrapBatches := by
        rcases splitRecord_eq_ok first with ⟨_, _, -, -, -, -, -, -, -, few⟩
        exact few
      have keeps := (splitRecords_eq_ok rest nextFew).1.length_le
      have new : record.key ∉ earlier.map BootstrapRecord.key := by
        intro known
        exact (List.nodup_append.mp distinct).2.2 _ known _ List.mem_cons_self rfl
      rcases behind.splitRecord first declared (by omega) (portable record List.mem_cons_self)
        (reads record List.mem_cons_self) new with ⟨more, last, batches, pushed, nextBehind⟩
      have others : ((earlier ++ [record.settled memory]).map BootstrapRecord.key ++
          records.map BootstrapRecord.key).Nodup := by
        simpa using distinct
      rcases induction nextBehind rest nextFew
        (fun other member => portable other (List.mem_cons_of_mem _ member))
        (fun other member => reads other (List.mem_cons_of_mem _ member)) others
        with ⟨rest, final, finalBatches, finalPushed, finalBehind⟩
      refine ⟨more ++ rest, final, ?_, ?_, ?_⟩
      · rw [finalBatches, batches, List.append_assoc]
      · rw [List.foldlM_append, pushed, Lists.ok_bind, finalPushed]
      · have counted : index + 1 + records.length = index + (record :: records).length := by
          rw [List.length_cons]
          omega
        rw [counted, List.append_assoc] at finalBehind
        exact finalBehind

/-! ## Batches in their places -/

theorem insertRecord_eq_ok {assembler next : BootstrapAssembler}
    {record : BootstrapRecord String} (inserts : assembler.insertRecord record = .ok next) :
    next = assembler.added record := by
  cases record <;> simp only [insertRecord] at inserts <;> split_ifs at inserts <;>
    exact (Except.ok.inj inserts).symm

/-- The end of a record moves no batch index. -/
theorem endRecord_eq_ok {assembler next : BootstrapAssembler}
    (ends : assembler.endRecord prost = .ok next) :
    next.nextBatchIndex = assembler.nextBatchIndex ∧ next.header = assembler.header := by
  simp only [endRecord, Lists.bind_eq_ok] at ends
  rcases ends with ⟨decoded, -, ends⟩
  cases decoded with
  | none =>
      simp only [Lists.bind_eq_ok] at ends
      rcases ends with ⟨same, kept, recordIndex, -, ends⟩
      cases Except.ok.inj kept
      cases Except.ok.inj ends
      exact ⟨rfl, rfl⟩
  | some record =>
      simp only [Lists.bind_eq_ok] at ends
      rcases ends with ⟨inserted, inserts, recordIndex, -, ends⟩
      cases insertRecord_eq_ok inserts
      cases Except.ok.inj ends
      cases record <;> exact ⟨rfl, rfl⟩

/-- Only the batch whose place is next is taken. -/
theorem push_eq_ok {assembler next : BootstrapAssembler} {batch : BootstrapBatch}
    (pushed : assembler.push prost batch = .ok next) :
    batch.batchIndex = assembler.nextBatchIndex ∧
      next.nextBatchIndex = assembler.nextBatchIndex + 1 ∧ next.header = assembler.header := by
  simp only [push, Lists.bind_eq_ok] at pushed
  rcases pushed with ⟨done, checked, pushed⟩
  have accepts := checkBatch_eq_ok.mp checked
  refine ⟨accepts.batchIndex, ?_⟩
  cases sizes : checkedAdd assembler.currentPayload.length batch.payload.length with
  | none => simp [sizes] at pushed
  | some size =>
      rw [sizes] at pushed
      dsimp only at pushed
      split_ifs at pushed with large
      simp only [Lists.bind_eq_ok] at pushed
      rcases pushed with ⟨total, -, batchIndex, nextBatch, chunkIndex, -, pushed⟩
      have following : batchIndex = assembler.nextBatchIndex + 1 := by
        rw [nextIndex] at nextBatch
        split_ifs at nextBatch
        exact (Except.ok.inj nextBatch).symm
      subst following
      split_ifs at pushed with last
      · exact endRecord_eq_ok pushed
      · cases Except.ok.inj pushed
        exact ⟨rfl, rfl⟩

theorem push_all_eq_ok {assembler last : BootstrapAssembler} {batches : List BootstrapBatch}
    (pushed : batches.foldlM (push prost) assembler = .ok last) :
    (∀ index batch, batches[index]? = some batch →
      batch.batchIndex = assembler.nextBatchIndex + index) ∧
      last.nextBatchIndex = assembler.nextBatchIndex + batches.length ∧
      last.header = assembler.header := by
  induction batches generalizing assembler with
  | nil =>
      cases Except.ok.inj pushed
      exact ⟨by simp, rfl, rfl⟩
  | cons batch batches induction =>
      rw [List.foldlM_cons, Lists.bind_eq_ok] at pushed
      rcases pushed with ⟨next, first, rest⟩
      rcases push_eq_ok first with ⟨place, batchIndex, header⟩
      rcases induction rest with ⟨places, count, same⟩
      refine ⟨?_, ?_, same.trans header⟩
      · intro index other listed
        cases index with
        | zero =>
            cases Option.some.inj listed
            exact place
        | succ index =>
            have later := places index other listed
            omega
      · rw [count, batchIndex, List.length_cons]
        omega

theorem finish_eq_ok {assembler : BootstrapAssembler} {result : SessionBootstrap String}
    (finishes : assembler.finish = .ok result) :
    assembler.nextBatchIndex = assembler.header.batchCount := by
  rw [finish] at finishes
  split_ifs at finishes with short
  exact not_not.mp short

/-- An assembler that ends with a Bootstrap took as many batches as were declared, each in its
place. -/
theorem assemble_places {header : BootstrapHeader} {batches : List BootstrapBatch}
    {assembler : BootstrapAssembler} {result : SessionBootstrap String}
    (assembles : assemble prost header batches = .ok assembler)
    (finishes : assembler.finish = .ok result) :
    Lists.Numbered BootstrapBatch.batchIndex batches ∧ batches.length = header.batchCount := by
  rw [assemble, Lists.bind_eq_ok] at assembles
  rcases assembles with ⟨fresh, starts, pushed⟩
  rw [new] at starts
  split_ifs at starts
  cases Except.ok.inj starts
  rcases push_all_eq_ok pushed with ⟨places, count, same⟩
  have complete := finish_eq_ok finishes
  rw [count, same, Nat.zero_add] at complete
  refine ⟨?_, complete⟩
  intro index batch listed
  exact (places index batch listed).trans (Nat.zero_add index)

theorem Holds.finish {assembler : BootstrapAssembler} {records : List (BootstrapRecord String)}
    (holds : assembler.Holds records)
    (complete : assembler.nextBatchIndex = assembler.header.batchCount) :
    assembler.finish = .ok (assembler.header.bootstrap records) := by
  rw [BootstrapAssembler.finish, if_neg (not_not.mpr complete),
    if_neg (by simp [holds.chunkCount, holds.payload]), holds.terminals, holds.agents,
    holds.workspaceGit, holds.zoomedPanes]
  rfl

end BootstrapAssembler

/-! ## The Bootstrap as a whole -/

/-- The Bootstrap as it comes back: its views lose the links the wire has no room for. -/
def SessionBootstrap.settled (memory : Memory) (bootstrap : SessionBootstrap SmolStr) :
    SessionBootstrap String where
  serverId := bootstrap.serverId
  runtimeEpoch := bootstrap.runtimeEpoch
  sessionId := bootstrap.sessionId
  sequence := bootstrap.sequence
  snapshot := bootstrap.snapshot
  settings := bootstrap.settings
  terminals := bootstrap.terminals.map fun snapshot => snapshot.withView
    (snapshot.view.map fun view => settleView ∅ (view.map (SmolStr.read memory)))
  agents := bootstrap.agents
  workspaceGit := bootstrap.workspaceGit
  zoomedPanes := bootstrap.zoomedPanes

/-- The records of a Bootstrap are the Bootstrap under its header. -/
theorem SessionBootstrap.bootstrap_records (bootstrap : SessionBootstrap SmolStr)
    (batchCount : ℕ) :
    (bootstrap.header batchCount).bootstrap
        (bootstrap.records.map (BootstrapRecord.settled memory)) = bootstrap.settled memory := by
  simp only [BootstrapHeader.bootstrap, records, List.map_append, List.map_map,
    List.filterMap_append, settled]
  congr 1 <;>
    simp [List.filterMap_map, Function.comp_def, BootstrapRecord.settled,
      BootstrapRecord.terminal?, BootstrapRecord.agent?, BootstrapRecord.workspaceGit?,
      BootstrapRecord.zoomedPane?]

/-- The assembler that takes what a split made of records whose ids differ has the records. -/
theorem assemble_split {records : List (BootstrapRecord SmolStr)} {split : SplitBootstrap}
    {header : BootstrapHeader}
    (splits : records.zipIdx.foldlM
      (splitRecord prost memory header.serverId header.sessionId)
      { batches := [], baselines := [], totalPayloadSize := 0 } = .ok split)
    (declared : header.batchCount = split.batches.length)
    (distinct : (records.map BootstrapRecord.key).Nodup)
    (portable : ∀ record ∈ records, record.Portable)
    (reads : ∀ record ∈ records, prost.Reads memory record) :
    ∃ assembler, BootstrapAssembler.assemble prost header split.batches = .ok assembler ∧
      assembler.finish =
        .ok (header.bootstrap (records.map (BootstrapRecord.settled memory))) := by
  have few := (splitRecords_eq_ok splits (Nat.zero_le _)).2.1
  cases starts : BootstrapAssembler.new header with
  | error text =>
      rw [BootstrapAssembler.new, if_neg (by omega)] at starts
      cases starts
  | ok fresh =>
      have behind : fresh.Behind header { batches := [], baselines := [], totalPayloadSize := 0 }
          0 [] := by
        rw [BootstrapAssembler.new] at starts
        split_ifs at starts
        cases Except.ok.inj starts
        exact {
          header := rfl
          holds := {
            terminals := rfl
            agents := rfl
            workspaceGit := rfl
            zoomedPanes := rfl
            keys := by
              intro key
              cases key <;> simp [BootstrapAssembler.Knows]
            chunkIndex := rfl
            chunkCount := rfl
            payload := rfl }
          batchIndex := rfl
          recordIndex := rfl
          total := rfl
          order := Nat.le_refl _ }
      rcases behind.splitRecords splits (Nat.zero_le _) (by omega) (by omega) portable reads
        (by simpa using distinct) with ⟨more, last, batches, pushed, final⟩
      rw [List.nil_append] at batches
      refine ⟨last, ?_, ?_⟩
      · rw [BootstrapAssembler.assemble, starts, Lists.ok_bind, batches, pushed]
      · have complete : last.nextBatchIndex = last.header.batchCount := by
          rw [final.batchIndex, final.header, declared]
        rw [final.holds.finish complete, final.header, List.nil_append]

/-- The frames of a Bootstrap: the header's, and one for each batch of the split. -/
theorem frameBootstrapMessages_cases {bootstrap : SessionBootstrap SmolStr}
    {framed : FramedBootstrap}
    (frames : frameBootstrapMessages prost memory bootstrap = .ok framed) :
    ∃ batches first rest,
      splitBootstrapRecords prost memory bootstrap.serverId bootstrap.sessionId bootstrap.records =
        .ok (batches, framed.baselines) ∧ framed.frames = first :: rest ∧
      frameMessage prost (.bootstrap (bootstrap.header batches.length)) = .ok first ∧
      List.Forall₂ (fun batch frame => frameMessage prost (.bootstrapBatch batch) = .ok frame)
        batches rest := by
  simp only [frameBootstrapMessages, Lists.bind_eq_ok] at frames
  rcases frames with ⟨⟨batches, baselines⟩, splits, batchCount, fits, first, framesHeader, rest,
    framesRest, same⟩
  cases Except.ok.inj same
  cases u32TryFrom_eq_ok fits
  have whole : ∀ {message frame},
      (frameMessage prost message).mapError SplitFault.io = .ok frame →
        frameMessage prost message = .ok frame := by
    intro message frame mapped
    cases outcome : frameMessage prost message with
    | error text => simp [outcome, Except.mapError] at mapped
    | ok other =>
        rw [outcome] at mapped
        exact congrArg Except.ok (Except.ok.inj mapped)
  exact ⟨batches, first, rest, splits, rfl, whole framesHeader,
    (Lists.mapM_eq_ok_iff.mp framesRest).imp fun _ _ mapped => whole mapped⟩

/-- A Bootstrap that is framed comes back. The batches that a split makes of records with
different ids, which the decoder takes, lead a fresh assembler to the header and the records as
the wire leaves them; and no other sequence of those batches is a Bootstrap. -/
theorem bootstrap_reassembles (prost : Prost) (memory : Memory) :
    (∀ (header : BootstrapHeader) records batches baselines,
      splitBootstrapRecords prost memory header.serverId header.sessionId records =
        .ok (batches, baselines) →
      header.batchCount = batches.length →
      ((records.map BootstrapRecord.key).Nodup → (∀ record ∈ records, record.Portable) →
        (∀ record ∈ records, prost.Reads memory record) →
        ∃ assembler, BootstrapAssembler.assemble prost header batches = .ok assembler ∧
          assembler.finish =
            .ok (header.bootstrap (records.map (BootstrapRecord.settled memory)))) ∧
      ∀ received, (∀ batch ∈ received, batch ∈ batches) → ∀ assembler result,
        BootstrapAssembler.assemble prost header received = .ok assembler →
        assembler.finish = .ok result → received = batches) ∧
    ∀ bootstrap framed, frameBootstrapMessages prost memory bootstrap = .ok framed →
      ∃ batches, splitBootstrapRecords prost memory bootstrap.serverId bootstrap.sessionId
          bootstrap.records = .ok (batches, framed.baselines) ∧
        (.bootstrap (bootstrap.header batches.length) :: batches.map .bootstrapBatch).mapM
          (frameMessage prost) = .ok framed.frames ∧
        (bootstrap.header batches.length).bootstrap
          (bootstrap.records.map (BootstrapRecord.settled memory)) = bootstrap.settled memory := by
  constructor
  · intro header records batches baselines splits declared
    rw [splitBootstrapRecords, Lists.bind_eq_ok] at splits
    rcases splits with ⟨split, splits, same⟩
    cases Except.ok.inj same
    constructor
    · intro distinct portable reads
      exact assemble_split splits declared distinct portable reads
    · intro received drawn assembler result assembles finishes
      rcases BootstrapAssembler.assemble_places assembles finishes with ⟨places, length⟩
      have numbered := (splitRecords_eq_ok splits (Nat.zero_le _)).2.2
        (fun index batch listed => nomatch listed)
      exact numbered.eq_of_subset places drawn (length.trans declared)
  · intro bootstrap framed frames
    rcases frameBootstrapMessages_cases frames with
      ⟨batches, first, rest, splits, written, header, batchFrames⟩
    refine ⟨batches, splits, ?_, SessionBootstrap.bootstrap_records bootstrap _⟩
    rw [written]
    apply Lists.mapM_eq_ok_iff.mpr
    exact .cons header (List.forall₂_map_left_iff.mpr batchFrames)

/-! ## Small Bootstraps -/

def sampleHeader (batchCount : ℕ) : BootstrapHeader where
  serverId := ⟨1⟩
  runtimeEpoch := ⟨5⟩
  sessionId := ⟨1⟩
  sequence := 3
  snapshot := { workspaces := [] }
  settings := {
    shell := ""
    defaultShell := "/bin/sh"
    proxy := { mode := .system, url := "" }
    shellIntegration := true }
  batchCount := batchCount

open Protobuf in
/-- The fields of a record without a view. -/
def paneFields : Pb.BootstrapRecord → List Protobuf.Field
  | ⟨some (.zoomedPane pane)⟩ => memberUint 4 pane
  | ⟨some (.terminal snapshot)⟩ =>
      message 1 (uint 1 snapshot.paneId ++ flag 3 snapshot.exited ++
        optionalString 4 snapshot.title ++ flag 5 snapshot.attention ++
        optionalMessage 6 (snapshot.progress.map fun progress =>
          int 1 progress.state ++
            progress.percent.toList.flatMap fun percent => memberUint 2 percent.toNat))
  | _ => []

/-- Code that reads the records of an example. -/
def paneProst (records : List Pb.BootstrapRecord) : Prost where
  encodeRecord record := Protobuf.encode (paneFields record)
  decodeRecord payload :=
    match records.find? fun record => Protobuf.encode (paneFields record) == payload with
    | none => .error "not a record of the example"
    | some record => .ok record
  encodeMessage _ := []

def zoomedProst : Prost := paneProst [⟨some (.zoomedPane 7)⟩, ⟨some (.zoomedPane 9)⟩]

theorem bootstrap_reassembles_example :
    ∃ batches assembler,
      splitBootstrapRecords zoomedProst (fun _ => "") ⟨1⟩ ⟨1⟩
        [.zoomedPane ⟨7⟩, .zoomedPane ⟨9⟩] = .ok (batches, []) ∧
      BootstrapAssembler.assemble zoomedProst (sampleHeader 2) batches = .ok assembler ∧
      assembler.finish = .ok ((sampleHeader 2).bootstrap [.zoomedPane ⟨7⟩, .zoomedPane ⟨9⟩]) := by
  have reads : ∀ record ∈ [BootstrapRecord.zoomedPane ⟨7⟩, .zoomedPane ⟨9⟩],
      zoomedProst.Reads (fun _ => "") record := by
    intro record member normalized normalizes
    rcases List.mem_pair.mp member with rfl | rfl <;> cases Except.ok.inj normalizes <;> rfl
  have portable : ∀ record ∈ [BootstrapRecord.zoomedPane ⟨7⟩, .zoomedPane ⟨9⟩],
      (record : BootstrapRecord SmolStr).Portable := by
    intro record member
    rcases List.mem_pair.mp member with rfl | rfl <;> trivial
  rcases ((bootstrap_reassembles zoomedProst fun _ => "").1 (sampleHeader 2) _ _ _ rfl rfl).1
    (by decide) portable reads with ⟨assembler, assembles, finishes⟩
  exact ⟨_, assembler, rfl, assembles, finishes⟩

/-- A progress that no program can report, in a terminal without a view. -/
def overfullSnapshot (Link : Type) (percent : UInt8) : PaneTerminalSnapshot Link where
  paneId := ⟨7⟩
  view := none
  exited := false
  title := none
  attention := false
  progress := some { state := .normal, percent := some percent }

/-- Records of one kind with one id are refused, and a percentage above 100 is cut. -/
theorem bootstrap_records_not_all_returned :
    (∃ batches, splitBootstrapRecords zoomedProst (fun _ => "") ⟨1⟩ ⟨1⟩
        [.zoomedPane ⟨7⟩, .zoomedPane ⟨7⟩] = .ok (batches, []) ∧
      BootstrapAssembler.assemble zoomedProst (sampleHeader 2) batches =
        .error "Bootstrap contains a duplicate zoomed Pane ID") ∧
    ∃ batches assembler,
      splitBootstrapRecords
        (paneProst [(BootstrapRecord.terminal (overfullSnapshot _ 150)).toWire fun _ => ""])
        (fun _ => "") ⟨1⟩ ⟨1⟩ [.terminal (overfullSnapshot _ 150)] = .ok (batches, []) ∧
      BootstrapAssembler.assemble
        (paneProst [(BootstrapRecord.terminal (overfullSnapshot _ 150)).toWire fun _ => ""])
        (sampleHeader 1) batches = .ok assembler ∧
      assembler.finish = .ok ((sampleHeader 1).bootstrap [.terminal (overfullSnapshot _ 100)]) :=
  ⟨⟨_, rfl, rfl⟩, _, _, rfl, rfl, rfl⟩

end Condr
