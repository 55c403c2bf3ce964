import Condr.Protocol.ClientMessage

/-!
# Client messages come back

A message whose paths the decoder admits and whose colours have 24 bits comes back as it was,
unless it names an Agent of another kind or watches more Panes than a Session has. Whether it
comes back or not, no other message is written as it is.
-/

namespace Condr

/-! ## What the wire keeps -/

/-- The colours have 24 bits. -/
structure TerminalColors.InRange (colors : TerminalColors) : Prop where
  foreground : colors.foreground ≤ 0xffffff
  background : colors.background ≤ 0xffffff
  cursor : colors.cursor ≤ 0xffffff
  ansi : ∀ color ∈ colors.ansi, color ≤ 0xffffff

/-- The low 24 bits of every colour. -/
def TerminalColors.masked (colors : TerminalColors) : TerminalColors where
  foreground := rgb colors.foreground
  background := rgb colors.background
  cursor := rgb colors.cursor
  ansi := colors.ansi.map rgb

namespace ClientMessage

/-- The numbers of the message are in the ranges that the wire gives them. -/
def InRange : ClientMessage → Prop
  | terminalColors colors => colors.InRange
  | _ => True

/-- The native paths of the message are text. -/
def IsText : ClientMessage → Prop
  | layout _ _ _ command => command.IsText
  | browseDirectory _ path => path.IsText
  | _ => True

/-- The decoder takes the relative paths of the message. -/
def Relative : ClientMessage → Prop
  | layout _ _ _ command => command.Relative
  | gitDiff _ _ _ _ path _ _ _ | gitOldFile _ _ _ _ path _ | listDirectory _ _ _ _ path
  | readFile _ _ _ _ path => path.Admitted
  | mutateFile _ _ _ _ mutation => mutation.Relative
  | _ => True

/-- The message names no Agent of another kind, and no more Panes than a Session has. -/
def Served : ClientMessage → Prop
  | agent _ _ command => command.Runnable
  | watchTerminals panes => panes.card ≤ maxSnapshotPanes
  | _ => True

/-- The message as it comes back. -/
def settled : ClientMessage → ClientMessage
  | terminalColors colors => terminalColors colors.masked
  | message => message

end ClientMessage

/-! ## Colours -/

theorem rgb_of_le {value : UInt32} (small : value ≤ 0xffffff) : rgb value = value := by
  apply UInt32.toNat_inj.mp
  rw [rgb, UInt32.toNat_and]
  have bound : value.toNat ≤ 2 ^ 24 - 1 := UInt32.le_iff_toNat_le.mp small
  exact (Nat.and_two_pow_sub_one_eq_mod value.toNat 24).trans (Nat.mod_eq_of_lt (by omega))

theorem rgb_le (value : UInt32) : rgb value ≤ 0xffffff := by
  rw [UInt32.le_iff_toNat_le, rgb, UInt32.toNat_and]
  exact Nat.and_le_right

theorem TerminalColors.toDomain_toWire (colors : TerminalColors) :
    colors.toWire.toDomain = .ok colors.masked := by
  have length : colors.toWire.ansi.length = 16 := by simp [toWire]
  have whole : colors.ansi.toList.take 16 = colors.ansi.toList := List.take_of_length_le length.le
  simp only [Pb.TerminalColors.toDomain, dif_pos length.ge, masked]
  congr 2
  apply Vector.toList_inj.mp
  simp [toWire, whole, Vector.toList_map]

theorem TerminalColors.masked_eq_iff {colors : TerminalColors} :
    colors.masked = colors ↔ colors.InRange := by
  constructor
  · intro same
    rw [← same]
    refine ⟨rgb_le _, rgb_le _, rgb_le _, ?_⟩
    intro color contained
    rcases Vector.mem_map.mp contained with ⟨value, -, rfl⟩
    exact rgb_le value
  · rintro ⟨foreground, background, cursor, ansi⟩
    have colours : colors.ansi.map rgb = colors.ansi := by
      rw [Vector.map_congr_left fun color contained => rgb_of_le (ansi color contained),
        Vector.map_id']
    simp only [masked, rgb_of_le foreground, rgb_of_le background, rgb_of_le cursor, colours]

theorem TerminalColors.toWire_injective : Function.Injective TerminalColors.toWire := by
  intro left right same
  rcases left with ⟨foreground, background, cursor, ansi⟩
  rcases right with ⟨foreground', background', cursor', ansi'⟩
  simpa [toWire, Vector.toList_inj] using same

/-! ## Wrapped values -/

theorem PaneId.asU64_inj {left right : PaneId} : left.asU64 = right.asU64 ↔ left = right := by
  cases left
  cases right
  simp

theorem WorkspaceId.asU64_inj {left right : WorkspaceId} :
    left.asU64 = right.asU64 ↔ left = right := by
  cases left
  cases right
  simp

theorem ServerId.value_inj {left right : ServerId} : left.value = right.value ↔ left = right := by
  cases left
  cases right
  simp

theorem SessionId.value_inj {left right : SessionId} :
    left.value = right.value ↔ left = right := by
  cases left
  cases right
  simp

theorem RelativePathBuf.inner_inj {left right : RelativePathBuf} :
    left.inner = right.inner ↔ left = right := by
  cases left
  cases right
  simp

/-- An encoder whose values a decoder gives back writes no two of them the same. -/
theorem injective_of_decodes {Value Wire : Type} {encode : Value → Wire}
    {decode : Wire → WireResult Value} (spec : ∀ value, decode (encode value) = .ok value) :
    Function.Injective encode := by
  intro left right same
  have decoded := spec left
  rw [same, spec right] at decoded
  exact (Except.ok.inj decoded).symm

/-! ## Commands with one message each -/

/-- Two values with one message, one of which comes back from it, are the same. -/
theorem eq_of_comes_back {Value : Type} {decoded : WireResult Value} {taken : Value → Prop}
    {left right : Value} (leftSpec : ∀ other, decoded = .ok other ↔ taken left ∧ other = left)
    (rightSpec : ∀ other, decoded = .ok other ↔ taken right ∧ other = right)
    (either : taken left ∨ taken right) : left = right := by
  cases either with
  | inl taken => exact ((rightSpec left).mp ((leftSpec left).mpr ⟨taken, rfl⟩)).2
  | inr taken => exact ((leftSpec right).mp ((rightSpec right).mpr ⟨taken, rfl⟩)).2.symm

theorem LayoutCommand.toWire_injective {left right : LayoutCommand} {wire : Pb.LayoutCommand}
    (leftEncoded : left.toWire = .ok wire) (rightEncoded : right.toWire = .ok wire) :
    left = right := by
  by_cases relative : left.Relative ∨ right.Relative
  · exact eq_of_comes_back (fun _ => toDomain_toWire leftEncoded)
      (fun _ => toDomain_toWire rightEncoded) relative
  · -- both show a viewer
    rw [not_or] at relative
    rcases relative with ⟨leftStays, rightStays⟩
    cases left with
    | showDiff leftId leftPath | showFile leftId leftPath =>
        cases right with
        | showDiff rightId rightPath | showFile rightId rightPath =>
            rcases leftId with ⟨leftId⟩
            rcases leftPath with ⟨leftPath⟩
            rcases rightId with ⟨rightId⟩
            rcases rightPath with ⟨rightPath⟩
            cases leftEncoded
            cases rightEncoded <;> rfl
        | _ => exact absurd trivial rightStays
    | _ => exact absurd trivial leftStays

theorem AgentCommand.toWire_injective : Function.Injective AgentCommand.toWire := by
  intro left right same
  by_cases runnable : left.Runnable ∨ right.Runnable
  · exact eq_of_comes_back (fun _ => toDomain_toWire) (fun _ => same ▸ toDomain_toWire) runnable
  · -- both name an Agent of another kind
    rw [not_or] at runnable
    rcases runnable with ⟨leftStays, rightStays⟩
    cases left with
    | start _ leftKind leftPane | hooks leftKind leftAction =>
        obtain rfl : leftKind = .other := by simpa [Runnable] using leftStays
        cases right with
        | start _ rightKind rightPane | hooks rightKind rightAction =>
            obtain rfl : rightKind = .other := by simpa [Runnable] using rightStays
            simp_all [toWire, toMember, PaneId.asU64_inj, (injective_of_decodes hooksAction_toWire).eq_iff]
        | _ => exact absurd trivial rightStays
    | _ => exact absurd trivial leftStays

theorem encodeMutation_injective : Function.Injective encodeMutation := by
  rintro (⟨⟨⟩⟩ | ⟨⟨⟩⟩ | ⟨⟨⟩, ⟨⟩⟩ | ⟨⟨⟩⟩) (⟨⟨⟩⟩ | ⟨⟨⟩⟩ | ⟨⟨⟩, ⟨⟩⟩ | ⟨⟨⟩⟩) same <;>
    simp_all [encodeMutation, (injective_of_decodes fileKind_toWire).eq_iff]

/-! ## Messages -/

theorem HashOrder.toFinset_map (order : HashOrder) (panes : Finset PaneId) :
    (((order.read panes).map (·.asU64)).map (⟨·⟩ : ℕ → PaneId)).toFinset = panes := by
  rw [List.map_map]
  exact (congrArg List.toFinset (List.map_id (order.read panes))).trans (order.toFinset panes)

theorem HashOrder.length_read (order : HashOrder) (panes : Finset PaneId) :
    (order.read panes).length = panes.card := by
  rw [← List.toFinset_card_of_nodup (order.nodup panes), order.toFinset]

theorem HashOrder.read_inj {first second : HashOrder} {left right : Finset PaneId}
    (same : (second.read right).map (·.asU64) = (first.read left).map (·.asU64)) :
    left = right := by
  rw [← first.toFinset_map left, ← same, second.toFinset_map right]

theorem ServerSetting.toDomain_toWire (setting : ServerSetting) :
    setting.toWire.toDomain = .ok setting := by
  cases setting <;> simp [toWire, Pb.ServerSetting.toDomain, Except.map]

namespace ClientMessage

variable {order : HashOrder} {message other : ClientMessage} {wire : Pb.ClientMessageMember}

attribute [local simp] toMember Pb.ClientMessageMember.toDomain Relative Served IsText InRange
  settled

/-- What the decoder gives back of a message, where it takes the message. -/
theorem toDomain_toMember (encoded : message.toMember order = .ok wire) :
    wire.toDomain = .ok other ↔
      (message.Relative ∧ message.Served) ∧ other = message.settled := by
  cases message with
  | unknown => cases encoded
  | layout serverId sessionId requestId command =>
      simp only [toMember, Lists.bind_eq_ok, Except.ok.injEq] at encoded
      rcases encoded with ⟨command, converted, rfl⟩
      simp only [Pb.ClientMessageMember.toDomain, required, Lists.ok_bind, Lists.bind_eq_ok,
        LayoutCommand.toDomain_toWire converted]
      simp [@eq_comm _ other]
  | browseDirectory requestId path =>
      simp only [toMember, Lists.bind_eq_ok, pathText_eq_ok, Except.ok.injEq] at encoded
      rcases encoded with ⟨text, rfl, rfl⟩
      simp [eq_comm]
  | agent serverId sessionId command =>
      cases encoded
      simp only [Pb.ClientMessageMember.toDomain, required, Lists.ok_bind, Lists.bind_eq_ok,
        AgentCommand.toDomain_toWire]
      simp [@eq_comm _ other]
  | watchTerminals panes =>
      cases encoded
      simp only [Pb.ClientMessageMember.toDomain, Lists.bind_eq_ok, bounded_eq_ok, List.length_map,
        order.length_read, order.toFinset_map]
      simp [@eq_comm _ other]
  | terminalColors colors =>
      cases encoded
      simp [TerminalColors.toDomain_toWire, Except.map, eq_comm]
  | mutateFile serverId sessionId requestId workspaceId mutation =>
      cases encoded
      simp only [Pb.ClientMessageMember.toDomain, member, Lists.ok_bind, Lists.bind_eq_ok,
        decodeMutation_encodeMutation]
      simp [@eq_comm _ other]
  | gitDiff | gitOldFile | listDirectory | readFile =>
      cases encoded
      simp only [Pb.ClientMessageMember.toDomain, pathRequest, Lists.bind_eq_ok, diffBase_toWire,
        relativePath_inner_eq_ok]
      simp [@eq_comm _ other]
  | setServerSettings | terminal | serverAdmin | pasteImage =>
      cases encoded
      simp [ServerSetting.toDomain_toWire, member, required, Lists.ok_bind, eq_comm]
  | _ =>
      cases encoded
      simp [eq_comm]

/-- A message is written exactly when it is known and its native paths are text. -/
theorem toMember_ok_iff :
    (∃ wire, message.toMember order = .ok wire) ↔ message ≠ unknown ∧ message.IsText := by
  cases message with
  | layout serverId sessionId requestId command =>
      simp [LayoutCommand.toWire, Lists.bind_eq_ok, ← LayoutCommand.toMember_ok_iff]
  | browseDirectory requestId path =>
      simp [Lists.bind_eq_ok, ← pathText_ok_iff]
  | _ => simp

theorem settled_eq_iff : message.settled = message ↔ message.InRange := by
  cases message with
  | terminalColors colors => simp [TerminalColors.masked_eq_iff]
  | _ => simp

/-- The one message whose colours change is about colours. -/
theorem settled_inj_of_ne {left right : ClientMessage} (same : left.settled = right.settled)
    (plain : ∀ colors, left ≠ terminalColors colors) : left = right := by
  cases left with
  | terminalColors colors => exact absurd rfl (plain colors)
  | _ => cases right <;> simp_all

variable {left right : ClientMessage} {first second : HashOrder}

theorem eq_of_taken (leftEncoded : left.toMember first = .ok wire)
    (rightEncoded : right.toMember second = .ok wire) (taken : left.Relative ∧ left.Served) :
    left = right := by
  have decoded := (toDomain_toMember leftEncoded).mpr ⟨taken, rfl⟩
  have same : left.settled = right.settled := ((toDomain_toMember rightEncoded).mp decoded).2
  by_cases plain : ∀ colors, left ≠ terminalColors colors
  · exact settled_inj_of_ne same plain
  · simp only [not_forall, not_not] at plain
    rcases plain with ⟨colors, rfl⟩
    cases right with
    | terminalColors others =>
        have written : colors.toWire = others.toWire := by
          simpa using leftEncoded.trans rightEncoded.symm
        rw [TerminalColors.toWire_injective written]
    | _ => simp at same

theorem toMember_injective (leftEncoded : left.toMember first = .ok wire)
    (rightEncoded : right.toMember second = .ok wire) : left = right := by
  by_cases leftTaken : left.Relative ∧ left.Served
  · exact eq_of_taken leftEncoded rightEncoded leftTaken
  by_cases rightTaken : right.Relative ∧ right.Served
  · exact (eq_of_taken rightEncoded leftEncoded rightTaken).symm
  -- neither comes back: each has a path, an Agent, or Panes
  cases left with
  | layout =>
      simp only [toMember, Lists.bind_eq_ok, Except.ok.injEq] at leftEncoded
      rcases leftEncoded with ⟨command, leftConverted, rfl⟩
      cases right with
      | layout =>
          simp only [toMember, Lists.bind_eq_ok, Except.ok.injEq] at rightEncoded
          rcases rightEncoded with ⟨command, rightConverted, same⟩
          simp only [Pb.ClientMessageMember.layout.injEq, Pb.LayoutRequest.mk.injEq,
            ServerId.value_inj, SessionId.value_inj, Option.some.injEq] at same
          rcases same with ⟨rfl, rfl, rfl, rfl⟩
          rw [LayoutCommand.toWire_injective leftConverted rightConverted]
      | gitDiff | gitOldFile | listDirectory | readFile | mutateFile | agent | watchTerminals =>
          cases rightEncoded
      | _ => exact absurd ⟨trivial, trivial⟩ rightTaken
  | watchTerminals =>
      cases leftEncoded
      cases right with
      | watchTerminals =>
          simp only [toMember, Except.ok.injEq, Pb.ClientMessageMember.watchTerminals.injEq,
            Pb.WatchTerminals.mk.injEq] at rightEncoded
          rw [HashOrder.read_inj rightEncoded]
      | layout =>
          simp [Lists.bind_eq_ok] at rightEncoded
      | gitDiff | gitOldFile | listDirectory | readFile | mutateFile | agent => cases rightEncoded
      | _ => exact absurd ⟨trivial, trivial⟩ rightTaken
  | gitDiff | gitOldFile | listDirectory | readFile | mutateFile | agent =>
      cases right with
      | gitDiff | gitOldFile | listDirectory | readFile | mutateFile | agent | watchTerminals =>
          simpa [pathRequest, ServerId.value_inj, SessionId.value_inj, WorkspaceId.asU64_inj,
            RelativePathBuf.inner_inj, (injective_of_decodes diffBase_toWire).eq_iff,
            AgentCommand.toWire_injective.eq_iff, encodeMutation_injective.eq_iff]
            using leftEncoded.trans rightEncoded.symm
      | layout =>
          cases leftEncoded
          simp [Lists.bind_eq_ok] at rightEncoded
      | _ => exact absurd ⟨trivial, trivial⟩ rightTaken
  | _ => exact absurd ⟨trivial, trivial⟩ leftTaken

/-! ## Whole messages -/

variable {message : ClientMessage} {wire : Pb.ClientMessage}

theorem toWire_eq_ok :
    message.toWire order = .ok wire ↔
      ∃ member, message.toMember order = .ok member ∧ wire = ⟨some member⟩ := by
  simp only [toWire, Lists.bind_eq_ok, Except.ok.injEq, @eq_comm _ wire]

theorem toWire_injective (leftEncoded : left.toWire first = .ok wire)
    (rightEncoded : right.toWire second = .ok wire) : left = right := by
  rcases toWire_eq_ok.mp leftEncoded with ⟨member, leftConverted, rfl⟩
  rcases toWire_eq_ok.mp rightEncoded with ⟨other, rightConverted, same⟩
  rcases Option.some.inj (Pb.ClientMessage.mk.inj same) with rfl
  exact toMember_injective leftConverted rightConverted

theorem toDomain_of_decoded {result : ClientMessage}
    (decoded : decodeClientMessage wire = .ok result) : wire.toDomain = .ok result := by
  rw [Pb.ClientMessage.toDomain, decoded]

theorem toDomain_toWire (encoded : message.toWire order = .ok wire) (inRange : message.InRange)
    (relative : message.Relative) (served : message.Served) : wire.toDomain = .ok message := by
  rcases toWire_eq_ok.mp encoded with ⟨member, converted, rfl⟩
  apply toDomain_of_decoded
  exact (toDomain_toMember converted).mpr ⟨⟨relative, served⟩, (settled_eq_iff.mpr inRange).symm⟩

/-- A command that names an Agent of another kind comes back as the unknown message. -/
theorem toDomain_of_not_runnable {serverId : ServerId} {sessionId : SessionId}
    {command : AgentCommand} (encoded : (agent serverId sessionId command).toWire order = .ok wire)
    (stranger : ¬command.Runnable) : wire.toDomain = .ok unknown := by
  rcases toWire_eq_ok.mp encoded with ⟨member, converted, rfl⟩
  cases converted
  have refused := AgentCommand.toDomain_of_not_runnable stranger
  simp only [Pb.ClientMessage.toDomain, decodeClientMessage, Condr.member, Lists.ok_bind,
    Pb.ClientMessageMember.toDomain, required, refused]
  rfl

/-- Watching more Panes than a Session has is refused. -/
theorem toDomain_of_many {panes : Finset PaneId}
    (encoded : (watchTerminals panes).toWire order = .ok wire)
    (many : maxSnapshotPanes < panes.card) : ∃ reason, wire.toDomain = .error (.malformed reason) := by
  rcases toWire_eq_ok.mp encoded with ⟨member, converted, rfl⟩
  cases converted
  rw [← order.length_read] at many
  simp only [Pb.ClientMessage.toDomain, decodeClientMessage, Condr.member, Lists.ok_bind,
    Pb.ClientMessageMember.toDomain, bounded, List.length_map, if_pos many]
  exact ⟨_, rfl⟩

end ClientMessage

/-- A known message with numbers in range and paths that the wire admits is written, and comes
back as it was, unless a command names an Agent of another kind or it watches too many Panes; and
no two messages are written the same. -/
theorem client_messages_come_back :
    (∀ (order : HashOrder) (message : ClientMessage), message ≠ .unknown → message.InRange →
      message.IsText → message.Relative → ∃ wire, message.toWire order = .ok wire ∧
        (message.Served → wire.toDomain = .ok message) ∧
        (∀ serverId sessionId command, message = .agent serverId sessionId command →
          ¬command.Runnable → wire.toDomain = .ok .unknown) ∧
        ∀ panes, message = .watchTerminals panes → maxSnapshotPanes < panes.card →
          ∃ reason, wire.toDomain = .error (.malformed reason)) ∧
      ∀ (first second : HashOrder) (left right : ClientMessage) (wire : Pb.ClientMessage),
        left.toWire first = .ok wire → right.toWire second = .ok wire → left = right := by
  constructor
  · intro order message known inRange text relative
    rcases ClientMessage.toMember_ok_iff.mpr ⟨known, text⟩ with ⟨member, converted⟩
    have encoded : message.toWire order = .ok ⟨some member⟩ :=
      ClientMessage.toWire_eq_ok.mpr ⟨member, converted, rfl⟩
    refine ⟨_, encoded, ClientMessage.toDomain_toWire encoded inRange relative, ?_, ?_⟩
    · rintro serverId sessionId command rfl stranger
      exact ClientMessage.toDomain_of_not_runnable encoded stranger
    · rintro panes rfl many
      exact ClientMessage.toDomain_of_many encoded many
  · intro first second left right wire leftEncoded rightEncoded
    exact ClientMessage.toWire_injective leftEncoded rightEncoded

/-- A request to rename a file comes back. -/
theorem client_messages_come_back_rename :
    ∃ wire, (ClientMessage.mutateFile ⟨1⟩ ⟨1⟩ 7 ⟨3⟩ (.rename ⟨"src/a.rs"⟩ ⟨"src/b.rs"⟩)).toWire
        ⟨Finset.toList, Finset.nodup_toList, Finset.toList_toFinset⟩ = .ok wire ∧
      wire.toDomain =
        .ok (.mutateFile ⟨1⟩ ⟨1⟩ 7 ⟨3⟩ (.rename ⟨"src/a.rs"⟩ ⟨"src/b.rs"⟩)) := by
  rcases client_messages_come_back.1
    ⟨Finset.toList, Finset.nodup_toList, Finset.toList_toFinset⟩
    (.mutateFile ⟨1⟩ ⟨1⟩ 7 ⟨3⟩ (.rename ⟨"src/a.rs"⟩ ⟨"src/b.rs"⟩)) nofun trivial trivial
    ⟨(by decide : isRelativeText "src/a.rs" = true), (by decide : isRelativeText "src/b.rs" = true)⟩
    with ⟨wire, encoded, comesBack, -⟩
  exact ⟨wire, encoded, comesBack trivial⟩

/-- Asking about the hooks of an Agent of another kind comes back as the unknown message. -/
theorem client_message_may_not_come_back :
    ¬∀ (order : HashOrder) (message : ClientMessage), message ≠ .unknown → message.InRange →
      message.IsText → message.Relative →
        ∃ wire, message.toWire order = .ok wire ∧ wire.toDomain = .ok message := by
  intro comesBack
  rcases comesBack ⟨Finset.toList, Finset.nodup_toList, Finset.toList_toFinset⟩
    (.agent ⟨1⟩ ⟨1⟩ (.hooks .other .status)) nofun trivial trivial trivial
    with ⟨wire, encoded, decoded⟩
  rw [ClientMessage.toDomain_of_not_runnable encoded (fun runnable => runnable rfl)] at decoded
  cases decoded

end Condr
