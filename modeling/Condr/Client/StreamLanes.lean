import Condr.Client.StreamLink
import Condr.Foundation.CreditLane

/-!
# Each direction of a Stream is a credit lane

What the two ends hold of one direction of one Stream, and the frames about it that
are on their way, represent a lane. Every step of the link moves each lane by lane
steps or not at all, so whatever holds of every lane holds of every Stream.
-/

namespace Condr.Streams

open CreditLane

def streamFlow : Flow where
  window := streamWindow
  threshold := streamWindow / 4
  positive := by decide
  fits := by decide

@[simp]
theorem streamFlow_window : streamFlow.window = streamWindow :=
  rfl

@[simp]
theorem streamFlow_threshold : streamFlow.threshold = streamWindow / 4 :=
  rfl

def Outgoing.item : Outgoing → Item UInt8
  | .data bytes => .data bytes
  | .finish => .finish

/-- What a frame carries along the lane from its sender. -/
def StreamMessage.item? (stream : ℕ) : StreamMessage → Option (Item UInt8)
  | .data other bytes => if other = stream then some (.data bytes) else none
  | .finish other => if other = stream then some .finish else none
  | .reset other .. | .openFailed other .. => if other = stream then some .aborted else none
  | _ => none

/-- What a frame returns on the lane to its sender. -/
def StreamMessage.return? (stream : ℕ) : StreamMessage → Option Return
  | .credit other maxOffset => if other = stream then some (.credit maxOffset) else none
  | .reset other .. | .openFailed other .. => if other = stream then some .aborted else none
  | _ => none

/-- The Stream a frame is about. -/
def StreamMessage.stream? : StreamMessage → Option ℕ
  | .open stream _ | .opened stream _ | .openFailed stream .. | .data stream _
  | .credit stream _ | .finish stream | .reset stream .. => some stream
  | .ping | .pong | .close | .unknown => none

theorem StreamMessage.item?_of_other {stream other : ℕ} {message : StreamMessage}
    (about : message.stream? = some stream) (different : stream ≠ other) :
    message.item? other = none := by
  cases message <;> simp_all [stream?, item?]

theorem StreamMessage.return?_of_other {stream other : ℕ} {message : StreamMessage}
    (about : message.stream? = some stream) (different : stream ≠ other) :
    message.return? other = none := by
  cases message <;> simp_all [stream?, return?]

/-- An entry without its place in the writer's line. -/
def Entry.unlined (entry : Entry) : Entry :=
  { entry with queued := false }

/-- The entry left once a finished one is gone. -/
def Entry.unlessFinished (entry : Entry) : Option Entry :=
  if entry.finished then none else some entry.unlined

namespace State

/-- The entry of a Stream; one that was never opened counts as new. -/
def entryAt (state : State) (stream : ℕ) : Option Entry :=
  if 0 < stream ∧ stream ≤ state.highest then (state.get stream).map Entry.unlined
  else some Entry.new

/-- Only opened Streams have entries. -/
def KeysOpened (state : State) : Prop :=
  ∀ stream entry, state.get stream = some entry → 0 < stream ∧ stream ≤ state.highest

section Lookup

variable (state : State) (stream : ℕ)

@[simp]
theorem get_put_self (entry : Entry) : (state.put stream entry).get stream = some entry := by
  simp [get, put]

theorem get_put_of_ne {stream other : ℕ} (different : other ≠ stream) (entry : Entry) :
    (state.put stream entry).get other = state.get other := by
  simp [get, put, AList.lookup_insert_ne different]

@[simp]
theorem get_remove_self : (state.remove stream).get stream = none := by
  simp [get, remove]

theorem get_remove_of_ne {stream other : ℕ} (different : other ≠ stream) :
    (state.remove stream).get other = state.get other := by
  simp [get, remove, AList.lookup_erase_ne different]

@[simp]
theorem highest_put (entry : Entry) : (state.put stream entry).highest = state.highest :=
  rfl

@[simp]
theorem control_put (entry : Entry) : (state.put stream entry).control = state.control :=
  rfl

@[simp]
theorem closed_put (entry : Entry) : (state.put stream entry).closed = state.closed :=
  rfl

@[simp]
theorem get_pushControl (message : StreamMessage) :
    (state.pushControl message).get stream = state.get stream :=
  rfl

@[simp]
theorem get_pushOutgoing_self (entry : Entry) (item : Outgoing) :
    (state.pushOutgoing stream entry item).get stream =
      some { entry with outgoing := entry.outgoing ++ [item], queued := true } := by
  simp only [pushOutgoing]
  split
  · simp
  · exact get_put_self state stream _

@[simp]
theorem closed_pushOutgoing (entry : Entry) (item : Outgoing) :
    (state.pushOutgoing stream entry item).closed = state.closed := by
  simp only [pushOutgoing]
  split <;> rfl

end Lookup

variable {state middle next : State} {stream : ℕ} {entry : Entry}

theorem entryAt_of_get (keys : state.KeysOpened) (found : state.get stream = some entry) :
    state.entryAt stream = some entry.unlined := by
  simp [entryAt, keys stream entry found, found]

/-- What a step on one Stream did to an end. -/
structure Touches (stream : ℕ) (after : Option Entry) (sent : List StreamMessage)
    (state next : State) : Prop where
  keys : next.KeysOpened
  entry : next.entryAt stream = after
  others : ∀ other, other ≠ stream → next.entryAt other = state.entryAt other
  control : next.control = state.control ++ sent
  highest : next.highest = state.highest
  closed : next.closed = state.closed

namespace Touches

variable {after later : Option Entry} {sent more : List StreamMessage}

theorem refl (keys : state.KeysOpened) : Touches stream (state.entryAt stream) [] state state where
  keys := keys
  entry := rfl
  others _ _ := rfl
  control := by simp
  highest := rfl
  closed := rfl

theorem trans (first : Touches stream after sent state middle)
    (second : Touches stream later more middle next) :
    Touches stream later (sent ++ more) state next where
  keys := second.keys
  entry := second.entry
  others other different := (second.others other different).trans (first.others other different)
  control := by rw [second.control, first.control, List.append_assoc]
  highest := second.highest.trans first.highest
  closed := second.closed.trans first.closed

theorem put (keys : state.KeysOpened) (found : state.get stream = some entry) (updated : Entry) :
    Touches stream (some updated.unlined) [] state (state.put stream updated) where
  keys other otherEntry otherFound := by
    by_cases same : other = stream
    · exact same ▸ keys stream entry found
    · rw [get_put_of_ne _ same] at otherFound
      exact keys other otherEntry otherFound
  entry := by simp [entryAt, keys stream entry found]
  others other different := by simp [entryAt, get_put_of_ne _ different]
  control := by simp
  highest := rfl
  closed := rfl

theorem remove (keys : state.KeysOpened) (found : state.get stream = some entry) :
    Touches stream none [] state (state.remove stream) where
  keys other otherEntry otherFound := by
    by_cases same : other = stream
    · exact same ▸ keys stream entry found
    · rw [get_remove_of_ne _ same] at otherFound
      exact keys other otherEntry otherFound
  entry := by
    have opened := keys stream entry found
    simp [entryAt, show (state.remove stream).highest = state.highest from rfl, opened]
  others other different := by
    simp [entryAt, get_remove_of_ne _ different,
      show (state.remove stream).highest = state.highest from rfl]
  control := by simp [State.remove]
  highest := rfl
  closed := rfl

theorem pushControl (keys : state.KeysOpened) (message : StreamMessage) :
    Touches stream (state.entryAt stream) [message] state (state.pushControl message) where
  keys := keys
  entry := rfl
  others _ _ := rfl
  control := rfl
  highest := rfl
  closed := rfl

/-- The line of ready Streams does not show. -/
theorem withReady (touched : Touches stream after sent state next) (ready : List ℕ) :
    Touches stream after sent state { next with ready } :=
  ⟨touched.keys, touched.entry, touched.others, touched.control, touched.highest, touched.closed⟩

/-- An update of the entry, with a frame about it. -/
theorem putAndPush (keys : state.KeysOpened) (found : state.get stream = some entry)
    (updated : Entry) (message : StreamMessage) :
    Touches stream (some updated.unlined) [message] state
      ((state.put stream updated).pushControl message) := by
  have first := put keys found updated
  have second : Touches stream _ _ _ _ := pushControl first.keys message
  rw [first.entry] at second
  exact first.trans second

theorem pushOutgoing (keys : state.KeysOpened) (found : state.get stream = some entry)
    (updated : Entry) (item : Outgoing) :
    Touches stream (some { updated with outgoing := updated.outgoing ++ [item] }.unlined) []
      state (state.pushOutgoing stream updated item) := by
  have first := put keys found { updated with
    outgoing := updated.outgoing ++ [item]
    queued := true }
  simp only [State.pushOutgoing]
  split
  · exact first
  · exact first.withReady _

theorem removeIfFinished (keys : state.KeysOpened) (found : state.get stream = some entry) :
    Touches stream entry.unlessFinished [] state (state.removeIfFinished stream) := by
  simp only [State.removeIfFinished, found, Entry.unlessFinished]
  split
  · exact remove keys found
  · exact entryAt_of_get keys found ▸ refl keys

end Touches

end State

end Condr.Streams
