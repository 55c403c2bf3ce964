import Condr.Foundation.Slot
import Condr.Protocol.TerminalInput

/-!
# The mouse of a Pane

A program that tracks the mouse gets reports of it. The Pane remembers the press it reported
last, so that the button's release is reported too, wherever the pointer is by then.
-/

namespace Condr

/-- `MAX_MOUSE_WHEEL_STEPS`. -/
def maxMouseWheelSteps : ℕ := 64

structure ReportedMousePress where
  button : TerminalMouseButton
  position : TerminalMousePosition
  modifiers : TerminalModifiers

/-- What an event finds: the modes and the place of the screen, the encoders of the terminal,
and what the input queue takes. -/
structure MouseScreen where
  mouseMode : Bool
  alternateScroll : Bool
  appCursor : Bool
  displayOffset : ℕ
  screenLines : ℕ
  encodeMouse : TerminalMouseEvent → Option (List UInt8)
  encodeKey : TerminalKey → Bool → Except String (List UInt8)
  accepts : List UInt8 → Bool
  acceptsControl : List UInt8 → Bool

inductive MouseEffect where
  | report (event : TerminalMouseEvent) (bytes : List UInt8)
  | keys (bytes : List UInt8)
  | scroll (lines : ℤ)

/-- The press that is remembered, and all that the events did. -/
structure PaneMouse where
  reportedMousePress : Option ReportedMousePress
  effects : List MouseEffect

def PaneMouse.initial : PaneMouse := ⟨none, []⟩

/-- The reports that the program has got. -/
def PaneMouse.reports (mouse : PaneMouse) : List TerminalMouseEvent :=
  mouse.effects.filterMap fun effect =>
    match effect with
    | .report event _ => some event
    | .keys _ => none
    | .scroll _ => none

/-- The place on the live screen, where it is on it. -/
def liveMousePosition (position : TerminalMousePosition) (displayOffset screenLines : ℕ) :
    Option TerminalMousePosition :=
  if position.row.toNat < displayOffset then none
  else
    let row := position.row.toNat - displayOffset
    if row < screenLines then some ⟨UInt16.ofNat row, position.column⟩ else none

/-- A write that the queue refuses is an error, which leaves all as it was. -/
def refused : Except String PaneMouse := .error "terminal input queue is full"

namespace PaneMouse

variable (screen : MouseScreen) (mouse : PaneMouse)

def perform (effect : MouseEffect) : PaneMouse :=
  { mouse with effects := mouse.effects ++ [effect] }

def position (position : TerminalMousePosition) : Option TerminalMousePosition :=
  liveMousePosition position screen.displayOffset screen.screenLines

/-- `write_mouse_report`: whether there was one. -/
def writeMouseReport (event : TerminalMouseEvent) : Except String (Bool × PaneMouse) :=
  match screen.encodeMouse event with
  | none => .ok (false, mouse)
  | some bytes =>
      if screen.accepts bytes then .ok (true, mouse.perform (.report event bytes))
      else refused.map (false, ·)

/-- A report of a release, which the queue has room of its own for. -/
def writeRelease (event : TerminalMouseEvent) : Except String PaneMouse :=
  match screen.encodeMouse event with
  | none => .ok mouse
  | some bytes =>
      if screen.acceptsControl bytes then .ok (mouse.perform (.report event bytes)) else refused

def handleApplicationMouse (event : TerminalMouseEvent) : Except String PaneMouse :=
  match event with
  | .button button true place modifiers =>
      match position screen place with
      | none => .ok mouse
      | some place => do
          let (reported, mouse) ← writeMouseReport screen mouse (.button button true place modifiers)
          if reported then
            .ok { mouse with reportedMousePress := some ⟨button, place, modifiers⟩ }
          else .ok mouse
  | .button button false place modifiers =>
      match mouse.reportedMousePress with
      | none => .ok mouse
      | some press =>
          if press.button ≠ button then .ok mouse
          else do
            let place := (position screen place).getD press.position
            let mouse ← writeRelease screen mouse (.button button false place modifiers)
            .ok { mouse with reportedMousePress := none }
  | .motion (some button) place modifiers =>
      match position screen place with
      | none => .ok mouse
      | some place =>
          match mouse.reportedMousePress with
          | none => .ok mouse
          | some press =>
              if press.button ≠ button then .ok mouse
              else do
                let (reported, mouse) ←
                  writeMouseReport screen mouse (.motion (some button) place modifiers)
                if reported then
                  .ok { mouse with
                    reportedMousePress := some { press with position := place, modifiers } }
                else .ok mouse
  | .motion none place modifiers =>
      match position screen place with
      | none => .ok mouse
      | some place => do
          let (_, mouse) ← writeMouseReport screen mouse (.motion none place modifiers)
          .ok mouse
  | .wheel direction amount place modifiers =>
      match position screen place with
      | none => .ok mouse
      | some place => do
          let (_, mouse) ← writeMouseReport screen mouse (.wheel direction amount place modifiers)
          .ok mouse

def clearReportedMousePress (button : TerminalMouseButton) : PaneMouse :=
  if mouse.reportedMousePress.any (·.button = button) then
    { mouse with reportedMousePress := none }
  else mouse

/-- What the wheel does where no program has the mouse: the arrow keys on an alternate screen
that asks for them, and otherwise it scrolls. -/
def handleWheel (direction : TerminalMouseWheel) (amount : UInt16) (shifted : Bool) :
    Except String PaneMouse :=
  if amount = 0 ∨ (!shifted && screen.mouseMode) then .ok mouse
  else if !shifted && screen.alternateScroll then
    let send : TerminalKey → Except String PaneMouse := fun key => do
      let bytes ← screen.encodeKey key screen.appCursor
      let bytes := (List.replicate (min amount.toNat maxMouseWheelSteps) bytes).flatten
      if screen.accepts bytes then .ok (mouse.perform (.keys bytes)) else refused
    match direction with
    | .up => send .up
    | .down => send .down
    | .left | .right => .ok mouse
  else
    match direction with
    | .up => .ok (mouse.perform (.scroll amount.toNat))
    | .down => .ok (mouse.perform (.scroll (-amount.toNat)))
    | .left | .right => .ok mouse

def handleMouse (event : TerminalMouseEvent) : Except String PaneMouse :=
  let shiftedWheel := match event with
    | .wheel _ _ _ modifiers => modifiers.shift
    | .button .. | .motion .. => false
  if !shiftedWheel && screen.mouseMode then handleApplicationMouse screen mouse event
  else
    match event with
    | .button button false _ _ => .ok (mouse.clearReportedMousePress button)
    | .button _ true _ _ | .motion .. => .ok mouse
    | .wheel direction amount _ _ => handleWheel screen mouse direction amount shiftedWheel

def releaseMouse : Except String PaneMouse :=
  match mouse.reportedMousePress with
  | none => .ok mouse
  | some press => do
      let mouse ← writeRelease screen mouse
        (.button press.button false press.position press.modifiers)
      .ok { mouse with reportedMousePress := none }

end PaneMouse

/-- The events in turn, each on the screen it finds; an error leaves the Pane as it was. -/
def runMouse (turns : List (MouseScreen × TerminalMouseEvent)) : PaneMouse :=
  turns.foldl (fun mouse turn =>
    match PaneMouse.handleMouse turn.1 mouse turn.2 with
    | .ok next => next
    | .error _ => mouse) .initial

/-- The events and then `release_mouse`. -/
def runMouseReleased (turns : List (MouseScreen × TerminalMouseEvent)) (last : MouseScreen) :
    PaneMouse :=
  match PaneMouse.releaseMouse last (runMouse turns) with
  | .ok released => released
  | .error _ => runMouse turns

/-! ## Balance -/

/-- The program tracks buttons, whose every press and release is encoded, and no write is
refused. -/
structure MouseScreen.Tracks (screen : MouseScreen) : Prop where
  mouseMode : screen.mouseMode = true
  encodes : ∀ button pressed place modifiers,
    (screen.encodeMouse (.button button pressed place modifiers)).isSome
  accepts : ∀ bytes, screen.accepts bytes = true
  acceptsControl : ∀ bytes, screen.acceptsControl bytes = true

/-- What a report says of a button. -/
def reportMark : TerminalMouseEvent → Slot.Mark TerminalMouseButton
  | .button button true _ _ => .opened button
  | .button button false _ _ => .closed button
  | .motion (some button) _ _ => .within button
  | .motion none _ _ => .other
  | .wheel .. => .other

/-- The presses and releases of each button come in turn and end with a release, and a drag
comes between the two. -/
def MouseBalanced (reports : List TerminalMouseEvent) : Prop :=
  Slot.Balanced (reports.map reportMark)

/-- The button of a press on the live screen. -/
def livePress (turn : MouseScreen × TerminalMouseEvent) : Option TerminalMouseButton :=
  match turn.2 with
  | .button button true place _ => (PaneMouse.position turn.1 place).map fun _ => button
  | .button _ false _ _ | .motion .. | .wheel .. => none

/-- The button of a release, anywhere. -/
def releasedButton : TerminalMouseEvent → Option TerminalMouseButton
  | .button button false _ _ => some button
  | .button _ true _ _ | .motion .. | .wheel .. => none

/-- A press on the live screen before the button of an earlier one is released. -/
def PressesOverlap (turns : List (MouseScreen × TerminalMouseEvent)) : Prop :=
  ∃ front first middle second back button, turns = front ++ first :: (middle ++ second :: back) ∧
    livePress first = some button ∧ (livePress second).isSome ∧
    ∀ turn ∈ middle, releasedButton turn.2 ≠ some button

/-! ## The Pane as a slot -/

/-- What an event tells the slot. -/
def mouseInput (turn : MouseScreen × TerminalMouseEvent) : Slot.Input TerminalMouseButton :=
  let shown : TerminalMousePosition → (TerminalMousePosition → TerminalMouseEvent) → Bool :=
    fun place event =>
      ((PaneMouse.position turn.1 place).bind fun live => turn.1.encodeMouse (event live)).isSome
  match turn.2 with
  | .button button true place _ =>
      if (PaneMouse.position turn.1 place).isSome then .opens button else .passes false
  | .button button false _ _ => .closes button
  | .motion (some button) place modifiers =>
      .moves button (shown place fun live => .motion (some button) live modifiers)
  | .motion none place modifiers => .passes (shown place fun live => .motion none live modifiers)
  | .wheel direction amount place modifiers =>
      .passes (!modifiers.shift && shown place fun live => .wheel direction amount live modifiers)

namespace PaneMouse

variable {screen : MouseScreen} {mouse : PaneMouse}

def slot (mouse : PaneMouse) : Slot.State TerminalMouseButton where
  slot := mouse.reportedMousePress.map (·.button)
  trace := mouse.reports.map reportMark

theorem reports_perform (event : TerminalMouseEvent) (bytes : List UInt8) :
    (mouse.perform (.report event bytes)).reports = mouse.reports ++ [event] := by
  simp [reports, perform, List.filterMap_append]

theorem writeMouseReport_eq (tracks : screen.Tracks) (event : TerminalMouseEvent) :
    writeMouseReport screen mouse event = .ok
      (match screen.encodeMouse event with
        | none => (false, mouse)
        | some bytes => (true, mouse.perform (.report event bytes))) := by
  unfold writeMouseReport
  split
  · rfl
  · rw [if_pos (tracks.accepts _)]

theorem writeRelease_button (tracks : screen.Tracks) (button : TerminalMouseButton)
    (place : TerminalMousePosition) (modifiers : TerminalModifiers) :
    ∃ bytes, writeRelease screen mouse (.button button false place modifiers) =
      .ok (mouse.perform (.report (.button button false place modifiers) bytes)) := by
  rcases Option.isSome_iff_exists.mp (tracks.encodes button false place modifiers)
    with ⟨bytes, encoded⟩
  refine ⟨bytes, ?_⟩
  simp only [writeRelease, encoded]
  rw [if_pos (tracks.acceptsControl _)]

theorem slot_perform (event : TerminalMouseEvent) (bytes : List UInt8) :
    (mouse.perform (.report event bytes)).slot =
      ⟨mouse.slot.slot, mouse.slot.trace ++ [reportMark event]⟩ := by
  simp only [slot, reports_perform, List.map_append, List.map_cons, List.map_nil]
  rfl

theorem button_of_slot {button : TerminalMouseButton} :
    mouse.slot.slot = some button ↔
      ∃ press, mouse.reportedMousePress = some press ∧ press.button = button := by
  simp [slot]

theorem pressed_slot (tracks : screen.Tracks) (button : TerminalMouseButton)
    (place : TerminalMousePosition) (modifiers : TerminalModifiers) :
    ∃ next, handleApplicationMouse screen mouse (.button button true place modifiers) = .ok next ∧
      next.slot = Slot.step mouse.slot
        (mouseInput (screen, .button button true place modifiers)) := by
  simp only [handleApplicationMouse, mouseInput]
  cases position screen place with
  | none => exact ⟨mouse, rfl, rfl⟩
  | some live =>
      rcases Option.isSome_iff_exists.mp (tracks.encodes button true live modifiers)
        with ⟨bytes, encoded⟩
      simp only [writeMouseReport_eq tracks, encoded]
      refine ⟨_, rfl, ?_⟩
      simp [slot, reports, perform, Slot.step, reportMark]

theorem released_slot (tracks : screen.Tracks) (button : TerminalMouseButton)
    (place : TerminalMousePosition) (modifiers : TerminalModifiers) :
    ∃ next, handleApplicationMouse screen mouse (.button button false place modifiers) = .ok next ∧
      next.slot = Slot.step mouse.slot
        (mouseInput (screen, .button button false place modifiers)) := by
  simp only [handleApplicationMouse, mouseInput, Slot.step]
  cases reported : mouse.reportedMousePress with
  | none =>
      refine ⟨mouse, rfl, ?_⟩
      rw [if_neg]
      simp [slot, reported]
  | some press =>
      by_cases same : press.button = button
      · rcases @writeRelease_button screen mouse tracks button
          ((position screen place).getD press.position) modifiers with ⟨bytes, written⟩
        simp only [same, ne_eq, not_true, if_false, written]
        refine ⟨_, rfl, ?_⟩
        rw [if_pos (button_of_slot.mpr ⟨press, reported, same⟩)]
        simp [slot, reports, perform, reportMark]
      · refine ⟨mouse, by simp [same], ?_⟩
        rw [if_neg]
        simp [slot, reported, same]

theorem dragged_slot (tracks : screen.Tracks) (button : TerminalMouseButton)
    (place : TerminalMousePosition) (modifiers : TerminalModifiers) :
    ∃ next, handleApplicationMouse screen mouse (.motion (some button) place modifiers) = .ok next ∧
      next.slot = Slot.step mouse.slot
        (mouseInput (screen, .motion (some button) place modifiers)) := by
  simp only [handleApplicationMouse, mouseInput, Slot.step]
  cases position screen place with
  | none => exact ⟨mouse, rfl, by simp⟩
  | some live =>
      cases reported : mouse.reportedMousePress with
      | none =>
          refine ⟨mouse, rfl, ?_⟩
          rw [if_neg]
          simp [slot, reported]
      | some press =>
          by_cases same : press.button = button
          · simp only [same, ne_eq, not_true, if_false, writeMouseReport_eq tracks,
              Option.bind_some, button_of_slot.mpr ⟨press, reported, same⟩, true_and]
            cases screen.encodeMouse (.motion (some button) live modifiers) with
            | none => exact ⟨mouse, rfl, by simp⟩
            | some bytes =>
                refine ⟨_, rfl, ?_⟩
                simp [slot, reports, perform, reportMark]
          · refine ⟨mouse, by simp [same], ?_⟩
            rw [if_neg]
            simp [slot, reported, same]

/-- Motion without a button, and the wheel, which leave the slot. -/
theorem passed_slot (tracks : screen.Tracks) (event : TerminalMousePosition → TerminalMouseEvent)
    (place : TerminalMousePosition) (other : ∀ live, reportMark (event live) = .other) :
    ∃ next, (match position screen place with
        | none => .ok mouse
        | some live => do
            let (_, mouse) ← writeMouseReport screen mouse (event live)
            .ok mouse : Except String PaneMouse) = .ok next ∧
      next.slot = Slot.step mouse.slot
        (.passes ((position screen place).bind fun live => screen.encodeMouse (event live)).isSome) := by
  cases position screen place with
  | none => exact ⟨mouse, rfl, rfl⟩
  | some live =>
      rw [Option.bind_some]
      cases encoded : screen.encodeMouse (event live) with
      | none =>
          simp only [writeMouseReport_eq tracks, encoded]
          exact ⟨mouse, rfl, rfl⟩
      | some bytes =>
          simp only [writeMouseReport_eq tracks, encoded]
          refine ⟨_, rfl, ?_⟩
          rw [slot_perform, other live]
          rfl

theorem scrolled_slot (direction : TerminalMouseWheel) (amount : UInt16) :
    ∃ next, handleWheel screen mouse direction amount true = .ok next ∧ next.slot = mouse.slot := by
  have scroll : ∀ lines, (mouse.perform (.scroll lines)).slot = mouse.slot := by
    intro lines
    simp [slot, reports, perform, List.filterMap_append]
  unfold handleWheel
  split_ifs with idle alternate
  · exact ⟨mouse, rfl, rfl⟩
  · simp at alternate
  · cases direction with
    | up => exact ⟨_, rfl, scroll _⟩
    | down => exact ⟨_, rfl, scroll _⟩
    | left => exact ⟨_, rfl, rfl⟩
    | right => exact ⟨_, rfl, rfl⟩

/-- On a screen that tracks the mouse, the Pane is a slot for the button that is down. -/
theorem handleMouse_slot (tracks : screen.Tracks) (event : TerminalMouseEvent) :
    ∃ next, handleMouse screen mouse event = .ok next ∧
      next.slot = Slot.step mouse.slot (mouseInput (screen, event)) := by
  simp only [handleMouse, tracks.mouseMode, Bool.and_true]
  cases event with
  | button button pressed place modifiers =>
      cases pressed with
      | true => exact pressed_slot tracks button place modifiers
      | false => exact released_slot tracks button place modifiers
  | motion button place modifiers =>
      cases button with
      | some button => exact dragged_slot tracks button place modifiers
      | none => exact passed_slot tracks (.motion none · modifiers) place fun _ => rfl
  | wheel direction amount place modifiers =>
      simp only [mouseInput]
      cases shift : modifiers.shift with
      | true =>
          rcases @scrolled_slot screen mouse direction amount with ⟨next, scrolled, same⟩
          exact ⟨next, scrolled, same⟩
      | false =>
          exact passed_slot tracks (.wheel direction amount · modifiers) place fun _ => rfl

theorem releaseMouse_slot (tracks : screen.Tracks) :
    ∃ released, releaseMouse screen mouse = .ok released ∧
      released.slot = Slot.finish mouse.slot := by
  unfold releaseMouse Slot.finish
  cases reported : mouse.reportedMousePress with
  | none => exact ⟨mouse, rfl, by simp [slot, reported]⟩
  | some press =>
      rcases @writeRelease_button screen mouse tracks press.button press.position
        press.modifiers with ⟨bytes, written⟩
      simp only [written]
      refine ⟨_, rfl, ?_⟩
      simp [slot, reports, perform, reported, reportMark]

end PaneMouse

/-! ## Runs -/

theorem runMouse_slot {turns : List (MouseScreen × TerminalMouseEvent)}
    (tracks : ∀ turn ∈ turns, turn.1.Tracks) :
    (runMouse turns).slot = Slot.run (turns.map mouseInput) := by
  induction turns using List.reverseRecOn with
  | nil => rfl
  | append_singleton turns turn induction =>
      rw [List.forall_mem_append, List.forall_mem_singleton] at tracks
      rcases @PaneMouse.handleMouse_slot turn.1 (runMouse turns) tracks.2 turn.2
        with ⟨next, handled, same⟩
      rw [List.map_append, List.map_singleton, Slot.run_concat, ← induction tracks.1]
      rw [runMouse, List.foldl_append, List.foldl_cons, List.foldl_nil, ← runMouse, handled]
      exact same

theorem mouseInput_eq_opens_iff {turn : MouseScreen × TerminalMouseEvent}
    {button : TerminalMouseButton} : mouseInput turn = .opens button ↔ livePress turn = some button := by
  rcases turn with ⟨screen, event⟩
  rcases event with ⟨pressed, _ | _, place, modifiers⟩ | ⟨_ | pressed, place, modifiers⟩ |
    ⟨direction, amount, place, modifiers⟩
  · simp [mouseInput, livePress]
  · cases position : PaneMouse.position screen place <;> simp [mouseInput, livePress, position]
  · simp [mouseInput, livePress]
  · simp [mouseInput, livePress]
  · simp [mouseInput, livePress]

theorem mouseInput_eq_closes_iff {turn : MouseScreen × TerminalMouseEvent}
    {button : TerminalMouseButton} :
    mouseInput turn = .closes button ↔ releasedButton turn.2 = some button := by
  rcases turn with ⟨screen, event⟩
  rcases event with ⟨pressed, _ | _, place, modifiers⟩ | ⟨_ | pressed, place, modifiers⟩ |
    ⟨direction, amount, place, modifiers⟩
  · simp [mouseInput, releasedButton]
  · cases position : PaneMouse.position screen place <;> simp [mouseInput, releasedButton, position]
  · simp [mouseInput, releasedButton]
  · simp [mouseInput, releasedButton]
  · simp [mouseInput, releasedButton]

theorem overlap_map_iff (turns : List (MouseScreen × TerminalMouseEvent)) :
    Slot.Overlap (turns.map mouseInput) ↔ PressesOverlap turns := by
  constructor
  · rintro ⟨front, key, middle, other, back, inputs, absent⟩
    rcases List.map_eq_append_iff.mp inputs with ⟨before, rest, rfl, -, behind⟩
    rcases List.map_eq_cons_iff.mp behind with ⟨first, rest, rfl, opens, later⟩
    rcases List.map_eq_append_iff.mp later with ⟨between, rest, rfl, rfl, last⟩
    rcases List.map_eq_cons_iff.mp last with ⟨second, after, rfl, again, -⟩
    refine ⟨before, first, between, second, after, key, rfl, mouseInput_eq_opens_iff.mp opens, ?_, ?_⟩
    · rw [mouseInput_eq_opens_iff.mp again]
      rfl
    · intro turn contained released
      apply absent
      rw [← mouseInput_eq_closes_iff.mpr released]
      exact List.mem_map_of_mem contained
  · rintro ⟨front, first, middle, second, back, button, rfl, pressed, again, held⟩
    rcases Option.isSome_iff_exists.mp again with ⟨other, again⟩
    refine ⟨front.map mouseInput, button, middle.map mouseInput, other, back.map mouseInput, ?_, ?_⟩
    · simp [mouseInput_eq_opens_iff.mpr pressed, mouseInput_eq_opens_iff.mpr again]
    · intro closed
      rcases List.mem_map.mp closed with ⟨turn, contained, closes⟩
      exact held turn contained (mouseInput_eq_closes_iff.mp closes)

/-- Where the program tracks buttons throughout and no write is refused, the reports are
balanced exactly if no press on the live screen comes before an earlier one's release. -/
theorem mouse_balanced_iff (turns : List (MouseScreen × TerminalMouseEvent)) (last : MouseScreen)
    (tracks : ∀ turn ∈ turns, turn.1.Tracks) (lastTracks : last.Tracks) :
    MouseBalanced (runMouseReleased turns last).reports ↔ ¬PressesOverlap turns := by
  rcases @PaneMouse.releaseMouse_slot last (runMouse turns) lastTracks
    with ⟨released, done, same⟩
  rw [runMouseReleased, done, ← overlap_map_iff, ← Slot.balanced_iff, ← runMouse_slot tracks, ← same]
  rfl

/-- A screen of a program that tracks buttons. -/
def trackingScreen : MouseScreen where
  mouseMode := true
  alternateScroll := false
  appCursor := false
  displayOffset := 0
  screenLines := 24
  encodeMouse _ := some [27]
  encodeKey _ _ := .ok []
  accepts _ := true
  acceptsControl _ := true

theorem trackingScreen_tracks : trackingScreen.Tracks :=
  ⟨rfl, fun _ _ _ _ => rfl, fun _ => rfl, fun _ => rfl⟩

def clickAt (button : TerminalMouseButton) (pressed : Bool) : MouseScreen × TerminalMouseEvent :=
  (trackingScreen, .button button pressed ⟨3, 4⟩ ⟨false, false, false, false⟩)

def dragAt (button : TerminalMouseButton) : MouseScreen × TerminalMouseEvent :=
  (trackingScreen, .motion (some button) ⟨5, 6⟩ ⟨false, false, false, false⟩)

/-- The left button is pressed, drags and is released, and then the right one. -/
def twoDrags : List (MouseScreen × TerminalMouseEvent) :=
  [TerminalMouseButton.left, .right].flatMap fun button =>
    [clickAt button true, dragAt button, clickAt button false]

theorem not_pressesOverlap_twoDrags : ¬PressesOverlap twoDrags := by
  rw [← overlap_map_iff]
  rintro ⟨front, key, middle, other, back, parts, held⟩
  have inputs : twoDrags.map mouseInput = [.opens .left, .moves .left true, .closes .left,
      .opens .right, .moves .right true, .closes .right] := rfl
  rw [inputs] at parts
  simp [List.cons_eq_append_iff, List.append_eq_cons_iff] at parts
  grind

theorem mouse_balanced_iff_drags :
    (runMouseReleased twoDrags trackingScreen).reports.map reportMark =
        [.opened .left, .within .left, .closed .left, .opened .right, .within .right,
          .closed .right] ∧
      MouseBalanced (runMouseReleased twoDrags trackingScreen).reports := by
  have tracks : ∀ turn ∈ twoDrags, turn.1.Tracks := by
    intro turn contained
    simp only [twoDrags, List.mem_flatMap, List.mem_cons, List.not_mem_nil, or_false] at contained
    rcases contained with ⟨button, -, rfl | rfl | rfl⟩ <;> exact trackingScreen_tracks
  exact ⟨rfl, (mouse_balanced_iff _ _ tracks trackingScreen_tracks).mpr
    not_pressesOverlap_twoDrags⟩

/-- The left button stays down for the program when the right one is pressed before it is
released. -/
theorem left_button_stuck :
    (∀ turn ∈ [clickAt .left true, clickAt .right true, clickAt .left false, clickAt .right false],
        turn.1.Tracks) ∧ trackingScreen.Tracks ∧
      ¬MouseBalanced (runMouseReleased
        [clickAt .left true, clickAt .right true, clickAt .left false, clickAt .right false]
        trackingScreen).reports := by
  refine ⟨?_, trackingScreen_tracks, fun balanced => ?_⟩
  · intro turn contained
    simp only [List.mem_cons, List.not_mem_nil, or_false] at contained
    rcases contained with rfl | rfl | rfl | rfl <;> exact trackingScreen_tracks
  · have settled := balanced.settled .left
    revert settled
    decide

end Condr
