import Condr.Protocol.BootstrapRecord

/-!
# Terminal input on the wire

What a client does to a Pane's terminal: keys, text, the mouse, scrolling and selecting. Every
command comes back from its message as it was.
-/

namespace Condr

structure TerminalModifiers where
  shift : Bool
  alt : Bool
  control : Bool
  platform : Bool
deriving DecidableEq

inductive TerminalMouseButton where
  | left
  | middle
  | right
deriving DecidableEq

inductive TerminalMouseWheel where
  | up
  | down
  | left
  | right
deriving DecidableEq

structure TerminalMousePosition where
  row : UInt16
  column : UInt16
deriving DecidableEq

inductive TerminalMouseEvent where
  | button (button : TerminalMouseButton) (pressed : Bool) (position : TerminalMousePosition)
      (modifiers : TerminalModifiers)
  | motion (button : Option TerminalMouseButton) (position : TerminalMousePosition)
      (modifiers : TerminalModifiers)
  | wheel (direction : TerminalMouseWheel) (amount : UInt16) (position : TerminalMousePosition)
      (modifiers : TerminalModifiers)
deriving DecidableEq

inductive TerminalKey where
  | character (text : String)
  | enter
  | tab
  | backTab
  | backspace
  | delete
  | escape
  | up
  | down
  | right
  | left
  | home
  | «end»
  | pageUp
  | pageDown
  | insert
  | function (number : UInt8)
deriving DecidableEq

inductive TerminalKeyEventKind where
  | press
  | repeat
  | release
deriving DecidableEq

inductive TerminalScroll where
  | lines (lines : Int32)
  | pageUp
  | pageDown
  | top
  | bottom
deriving DecidableEq

inductive TerminalSelectionUnit where
  | word
  | line
deriving DecidableEq

inductive TerminalCommand where
  | key (key : TerminalKey) (modifiers : TerminalModifiers) (kind : TerminalKeyEventKind)
  | text (text : String)
  | paste (text : String)
  | submit (text : String)
  | mouse (event : TerminalMouseEvent)
  | focus (focused : Bool)
  | resize (size : TerminalSize)
  | scroll (scroll : TerminalScroll)
  /-- Replaces the selection that the Server tracks; `none` clears it. -/
  | select (selection : Option TerminalSelection)
  | selectAt (position : TerminalPosition) (displayOffset : UInt32) (unit : TerminalSelectionUnit)
  | copy (selection : Option TerminalSelection)
deriving DecidableEq

namespace Pb

structure TerminalModifiers where
  shift : Bool
  alt : Bool
  control : Bool
  platform : Bool

structure TerminalMousePosition where
  row : UInt32
  column : UInt32

structure TerminalMouseButtonEvent where
  button : ℤ
  pressed : Bool
  position : Option TerminalMousePosition
  modifiers : Option TerminalModifiers

structure TerminalMouseMotionEvent where
  button : Option ℤ
  position : Option TerminalMousePosition
  modifiers : Option TerminalModifiers

structure TerminalMouseWheelEvent where
  direction : ℤ
  amount : UInt32
  position : Option TerminalMousePosition
  modifiers : Option TerminalModifiers

inductive TerminalMouseEventMember where
  | button (event : TerminalMouseButtonEvent)
  | motion (event : TerminalMouseMotionEvent)
  | wheel (event : TerminalMouseWheelEvent)

structure TerminalMouseEvent where
  event : Option TerminalMouseEventMember

inductive TerminalKeyMember where
  | character (text : String)
  | named (key : ℤ)
  | function (number : UInt32)

structure TerminalKey where
  key : Option TerminalKeyMember

inductive TerminalScrollMember where
  | lines (lines : Int32)
  | target (target : ℤ)

structure TerminalScroll where
  scroll : Option TerminalScrollMember

structure TerminalKeyCommand where
  key : Option TerminalKey
  modifiers : Option TerminalModifiers
  kind : ℤ

structure TerminalSelectionCommand where
  selection : Option TerminalSelection

structure TerminalSelectAtCommand where
  position : Option TerminalPosition
  displayOffset : UInt32
  unit : ℤ

inductive TerminalCommandMember where
  | key (command : TerminalKeyCommand)
  | text (text : String)
  | paste (text : String)
  | mouse (event : TerminalMouseEvent)
  | focus (focused : Bool)
  | resize (size : TerminalSize)
  | scroll (scroll : TerminalScroll)
  | select (command : TerminalSelectionCommand)
  | selectAt (command : TerminalSelectAtCommand)
  | copy (command : TerminalSelectionCommand)
  | submit (text : String)

structure TerminalCommand where
  command : Option TerminalCommandMember

end Pb

/-! ## Enums -/

/-- `encode_mouse_button`. -/
def TerminalMouseButton.toWire : TerminalMouseButton → ℤ
  | left => 1
  | middle => 2
  | right => 3

def decodeMouseButton (raw : ℤ) : WireResult TerminalMouseButton :=
  enumValue raw "mouse button" fun
    | 1 => some .left
    | 2 => some .middle
    | 3 => some .right
    | _ => none

def TerminalMouseWheel.toWire : TerminalMouseWheel → ℤ
  | up => 1
  | down => 2
  | left => 3
  | right => 4

def wheelDirection (raw : ℤ) : WireResult TerminalMouseWheel :=
  enumValue raw "wheel direction" fun
    | 1 => some .up
    | 2 => some .down
    | 3 => some .left
    | 4 => some .right
    | _ => none

def namedKey (raw : ℤ) : WireResult TerminalKey :=
  enumValue raw "key" fun
    | 1 => some .enter
    | 2 => some .tab
    | 3 => some .backTab
    | 4 => some .backspace
    | 5 => some .delete
    | 6 => some .escape
    | 7 => some .up
    | 8 => some .down
    | 9 => some .right
    | 10 => some .left
    | 11 => some .home
    | 12 => some .end
    | 13 => some .pageUp
    | 14 => some .pageDown
    | 15 => some .insert
    | _ => none

/-- `encode_key_event_kind`. -/
def TerminalKeyEventKind.toWire : TerminalKeyEventKind → ℤ
  | press => 1
  | .repeat => 2
  | release => 3

/-- A kind that is unset or unknown is a press. -/
def decodeKeyEventKind : ℤ → TerminalKeyEventKind
  | 2 => .repeat
  | 3 => .release
  | _ => .press

def scrollTarget (raw : ℤ) : WireResult TerminalScroll :=
  enumValue raw "scroll target" fun
    | 1 => some .pageUp
    | 2 => some .pageDown
    | 3 => some .top
    | 4 => some .bottom
    | _ => none

def TerminalSelectionUnit.toWire : TerminalSelectionUnit → ℤ
  | word => 1
  | line => 2

def selectionUnit (raw : ℤ) : WireResult TerminalSelectionUnit :=
  enumValue raw "selection unit" fun
    | 1 => some .word
    | 2 => some .line
    | _ => none

@[simp]
theorem decodeMouseButton_toWire (button : TerminalMouseButton) :
    decodeMouseButton button.toWire = .ok button := by
  cases button <;> rfl

@[simp]
theorem wheelDirection_toWire (direction : TerminalMouseWheel) :
    wheelDirection direction.toWire = .ok direction := by
  cases direction <;> rfl

@[simp]
theorem decodeKeyEventKind_toWire (kind : TerminalKeyEventKind) :
    decodeKeyEventKind kind.toWire = kind := by
  cases kind <;> rfl

@[simp]
theorem selectionUnit_toWire (unit : TerminalSelectionUnit) :
    selectionUnit unit.toWire = .ok unit := by
  cases unit <;> rfl

/-! ## Encoding -/

def encodeModifiers (modifiers : TerminalModifiers) : Pb.TerminalModifiers where
  shift := modifiers.shift
  alt := modifiers.alt
  control := modifiers.control
  platform := modifiers.platform

def encodeMousePosition (position : TerminalMousePosition) : Pb.TerminalMousePosition where
  row := position.row.toUInt32
  column := position.column.toUInt32

def encodeMouse (event : TerminalMouseEvent) : Pb.TerminalMouseEvent where
  event := some (match event with
    | .button button pressed position modifiers => .button {
        button := button.toWire
        pressed
        position := some (encodeMousePosition position)
        modifiers := some (encodeModifiers modifiers) }
    | .motion button position modifiers => .motion {
        button := button.map TerminalMouseButton.toWire
        position := some (encodeMousePosition position)
        modifiers := some (encodeModifiers modifiers) }
    | .wheel direction amount position modifiers => .wheel {
        direction := direction.toWire
        amount := amount.toUInt32
        position := some (encodeMousePosition position)
        modifiers := some (encodeModifiers modifiers) })

def encodeKey (key : TerminalKey) : Pb.TerminalKey where
  key := some (match key with
    | .character text => .character text
    | .function number => .function number.toUInt32
    | .enter => .named 1
    | .tab => .named 2
    | .backTab => .named 3
    | .backspace => .named 4
    | .delete => .named 5
    | .escape => .named 6
    | .up => .named 7
    | .down => .named 8
    | .right => .named 9
    | .left => .named 10
    | .home => .named 11
    | .end => .named 12
    | .pageUp => .named 13
    | .pageDown => .named 14
    | .insert => .named 15)

def encodeScroll (scroll : TerminalScroll) : Pb.TerminalScroll where
  scroll := some (match scroll with
    | .lines lines => .lines lines
    | .pageUp => .target 1
    | .pageDown => .target 2
    | .top => .target 3
    | .bottom => .target 4)

def encodeSelectionCommand (selection : Option TerminalSelection) :
    Pb.TerminalSelectionCommand where
  selection := selection.map encodeSelection

def TerminalCommand.toWire (command : TerminalCommand) : Pb.TerminalCommand where
  command := some (match command with
    | .key pressed modifiers kind => .key {
        key := some (encodeKey pressed)
        modifiers := some (encodeModifiers modifiers)
        kind := kind.toWire }
    | .text typed => .text typed
    | .paste pasted => .paste pasted
    | .submit pasted => .submit pasted
    | .mouse event => .mouse (encodeMouse event)
    | .focus focused => .focus focused
    | .resize size => .resize (encodeSize size)
    | .scroll target => .scroll (encodeScroll target)
    | .select selection => .select (encodeSelectionCommand selection)
    | .selectAt position displayOffset unit => .selectAt {
        position := some (encodePosition position)
        displayOffset
        unit := unit.toWire }
    | .copy selection => .copy (encodeSelectionCommand selection))

/-! ## Decoding -/

/-- Absent modifiers are none held. -/
def decodeModifiers : Option Pb.TerminalModifiers → TerminalModifiers
  | none => { shift := false, alt := false, control := false, platform := false }
  | some modifiers => {
      shift := modifiers.shift
      alt := modifiers.alt
      control := modifiers.control
      platform := modifiers.platform }

def decodeMousePosition (position : Option Pb.TerminalMousePosition) :
    WireResult TerminalMousePosition := do
  let position ← required position "mouse position"
  let row ← narrow16 position.row "mouse row"
  let column ← narrow16 position.column "mouse column"
  .ok { row, column }

def decodeMouse (event : Pb.TerminalMouseEvent) : WireResult TerminalMouseEvent := do
  match ← member event.event with
  | .button event => do
      let button ← decodeMouseButton event.button
      let position ← decodeMousePosition event.position
      .ok (.button button event.pressed position (decodeModifiers event.modifiers))
  | .motion event => do
      let button ← transposeMap decodeMouseButton event.button
      let position ← decodeMousePosition event.position
      .ok (.motion button position (decodeModifiers event.modifiers))
  | .wheel event => do
      let direction ← wheelDirection event.direction
      let amount ← narrow16 event.amount "wheel amount"
      let position ← decodeMousePosition event.position
      .ok (.wheel direction amount position (decodeModifiers event.modifiers))

def decodeKey (key : Pb.TerminalKey) : WireResult TerminalKey := do
  match ← member key.key with
  | .character text => .ok (.character text)
  | .function number => (narrow8 number "function key").map .function
  | .named raw => namedKey raw

def decodeScroll (scroll : Pb.TerminalScroll) : WireResult TerminalScroll := do
  match ← member scroll.scroll with
  | .lines lines => .ok (.lines lines)
  | .target raw => scrollTarget raw

def Pb.TerminalCommand.toDomain (command : Pb.TerminalCommand) :
    WireResult Condr.TerminalCommand := do
  match ← member command.command with
  | .key key => do
      let pressed ← required key.key "key"
      let pressed ← decodeKey pressed
      .ok (.key pressed (decodeModifiers key.modifiers) (decodeKeyEventKind key.kind))
  | .text text => .ok (.text text)
  | .paste text => .ok (.paste text)
  | .submit text => .ok (.submit text)
  | .mouse event => (decodeMouse event).map .mouse
  | .focus focused => .ok (.focus focused)
  | .resize size => (decodeSize size).map .resize
  | .scroll scroll => (decodeScroll scroll).map .scroll
  | .select command => (transposeMap decodeSelection command.selection).map .select
  | .selectAt command => do
      let position ← required command.position "selection position"
      let position ← decodePosition position
      let unit ← selectionUnit command.unit
      .ok (.selectAt position command.displayOffset unit)
  | .copy command => (transposeMap decodeSelection command.selection).map .copy

/-! ## Commands come back -/

@[simp]
theorem decodeModifiers_encodeModifiers (modifiers : TerminalModifiers) :
    decodeModifiers (some (encodeModifiers modifiers)) = modifiers := rfl

@[simp]
theorem decodeMousePosition_encodeMousePosition (position : TerminalMousePosition) :
    decodeMousePosition (some (encodeMousePosition position)) = .ok position := by
  simp [decodeMousePosition, encodeMousePosition, required, narrow16_toUInt32, Lists.ok_bind]

@[simp]
theorem decodeMouse_encodeMouse (event : TerminalMouseEvent) :
    decodeMouse (encodeMouse event) = .ok event := by
  cases event with
  | button button pressed position modifiers =>
      simp [decodeMouse, encodeMouse, member, Lists.ok_bind]
  | motion button position modifiers =>
      simp [decodeMouse, encodeMouse, member, Lists.ok_bind,
        transposeMap_map_eq_ok decodeMouseButton_toWire]
  | wheel direction amount position modifiers =>
      simp [decodeMouse, encodeMouse, member, narrow16_toUInt32, Lists.ok_bind]

@[simp]
theorem decodeKey_encodeKey (key : TerminalKey) : decodeKey (encodeKey key) = .ok key := by
  cases key with
  | function number =>
      simp [decodeKey, encodeKey, member, narrow8_toUInt32, Except.map, Lists.ok_bind]
  | _ => rfl

@[simp]
theorem decodeScroll_encodeScroll (scroll : TerminalScroll) :
    decodeScroll (encodeScroll scroll) = .ok scroll := by
  cases scroll <;> rfl

theorem decodeSelection_encodeSelectionCommand (selection : Option TerminalSelection) :
    transposeMap decodeSelection (encodeSelectionCommand selection).selection = .ok selection :=
  transposeMap_map_eq_ok decodeSelection_encodeSelection selection

@[simp]
theorem TerminalCommand.toDomain_toWire (command : TerminalCommand) :
    command.toWire.toDomain = .ok command := by
  cases command with
  | key key modifiers kind =>
      simp [toWire, Pb.TerminalCommand.toDomain, member, required, Lists.ok_bind]
  | selectAt position displayOffset unit =>
      simp [toWire, Pb.TerminalCommand.toDomain, member, required, decodePosition_encodePosition,
        Lists.ok_bind]
  | select selection | copy selection =>
      simp [toWire, Pb.TerminalCommand.toDomain, member, decodeSelection_encodeSelectionCommand,
        Except.map, Lists.ok_bind]
  | resize size =>
      simp [toWire, Pb.TerminalCommand.toDomain, member, decodeSize_encodeSize, Except.map,
        Lists.ok_bind]
  | mouse event =>
      simp [toWire, Pb.TerminalCommand.toDomain, member, Except.map, Lists.ok_bind]
  | scroll scroll =>
      simp [toWire, Pb.TerminalCommand.toDomain, member, Except.map, Lists.ok_bind]
  | _ => rfl

end Condr
