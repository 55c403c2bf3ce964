import Condr.Foundation.Runs
import Condr.Server.ClientWriter

/-!
# What a client's receiver gets

The queue of a writer keeps its counters whatever its threads do. Between two drops of the
backlog the receiver gets the accepted items in order, each once; a drop is an overflow,
which leaves the lag notice alone in the queue, or the receiver's own close.
-/

namespace Condr.ClientWriter

/-- The frames of one queued item. -/
def ClientWriteItem.frames : ClientWriteItem → List Frame
  | .reliable data | .closingReliable data => [data]
  | .reliableBatch frames => frames
  | .render data _ => [data]

def ClientWriteItem.size (item : ClientWriteItem) : ℕ := (item.frames.map List.length).sum

/-- The item an action sends as reliable work. -/
def Action.item? : Action → Option ClientWriteItem
  | .sendReliable data => some (.reliable data)
  | .sendReliableBatch frames => some (.reliableBatch frames)
  | .sendClosingReliable data => some (.closingReliable data)
  | _ => none

/-- The reliable item an action queued. -/
def accepted (state : State) (action : Action) : List ClientWriteItem :=
  match action.item?, (perform state action).2 with
  | some item, .sent (.ok ()) => [item]
  | _, _ => []

/-- The item a receive handed out, rendered frames apart. -/
def handed (state : State) (action : Action) : List ClientWriteItem :=
  match (perform state action).2 with
  | .received (.item (.render ..)) => []
  | .received (.item item) => [item]
  | _ => []

/-- What was handed out while reliable work waited. -/
def taken (state : State) (action : Action) : List ClientWriteItem :=
  if state.reliable = [] then [] else handed state action

/-- What was handed out while no reliable work waited: a clipboard frame. -/
def copied (state : State) (action : Action) : List ClientWriteItem :=
  if state.reliable = [] then handed state action else []

/-- The clipboard frame an action put in its slot. -/
def clips (state : State) (action : Action) : List ClientWriteItem :=
  match action, (perform state action).2 with
  | .sendClipboard data, .sent (.ok ()) => [.reliable data]
  | _, _ => []

/-- The frames an action put in the render slot. -/
def rendered (state : State) (action : Action) : List Frame :=
  match action, (perform state action).2 with
  | .trySendRender frames, .rendered .ok => frames
  | _, _ => []

/-- The rendered frame the receiver took. -/
def renderTaken (state : State) (action : Action) : List Frame :=
  match (perform state action).2 with
  | .received (.item (.render data _)) => [data]
  | _ => []

/-- Neither closed nor lagged. -/
def State.Accepts (state : State) : Prop := state.writerAlive = true ∧ state.lagged = false

/-- A reliable send that was refused although the queue was open. -/
def Overflows (state : State) (action : Action) : Prop :=
  state.Accepts ∧ ∃ error, (perform state action).2 = .sent (.error error)

/-- The backlog is dropped. -/
def Drops (state : State) (action : Action) : Prop :=
  action = .close ∨ Overflows state action

/-! ## Sizes -/

theorem foldl_saturating (frames : List Frame) (total : ℕ) (bounded : total ≤ usizeMax) :
    frames.foldl (fun total frame => min usizeMax (total + frame.length)) total =
      min usizeMax (total + (frames.map List.length).sum) := by
  induction frames generalizing total with
  | nil => simp [bounded]
  | cons frame rest induction =>
      rw [List.foldl_cons, induction _ (min_le_left _ _), List.map_cons, List.sum_cons]
      omega

theorem batchBytes_eq (frames : List Frame) :
    batchBytes frames = min usizeMax (frames.map List.length).sum := by
  rw [batchBytes, foldl_saturating frames 0 (Nat.zero_le _), Nat.zero_add]

theorem maxReliableQueueBytes_lt_usizeMax : maxReliableQueueBytes < usizeMax := by decide

/-- An item small enough to be queued is counted by its size. -/
theorem reliableItemBytes_eq {action : Action} {item : ClientWriteItem}
    (sends : action.item? = some item) (small : reliableItemBytes item ≤ maxReliableQueueBytes) :
    reliableItemBytes item = item.size := by
  have limit := maxReliableQueueBytes_lt_usizeMax
  cases action with
  | sendReliable data =>
      cases sends
      simp [reliableItemBytes, ClientWriteItem.size, ClientWriteItem.frames]
  | sendClosingReliable data =>
      cases sends
      simp [reliableItemBytes, ClientWriteItem.size, ClientWriteItem.frames]
  | sendReliableBatch frames =>
      cases sends
      simp only [reliableItemBytes, batchBytes_eq, ClientWriteItem.size,
        ClientWriteItem.frames] at small ⊢
      omega
  | _ => cases sends

/-! ## One reliable send -/

/-- The queue has room for the item. -/
def State.Fits (state : State) (item : ClientWriteItem) : Prop :=
  state.reliable.length < maxReliableQueueItems ∧
    state.reliableBytes + reliableItemBytes item ≤ maxReliableQueueBytes

/-- The queue after an overflow. -/
def State.overflowed (state : State) (notice : Frame) : State :=
  { state with
    reliable := [.reliable notice]
    reliableBytes := notice.length
    lagged := true
    clipboard := none
    render := none }

variable {state : State} {item : ClientWriteItem} {notice : Frame}

theorem reserveReliable_of_fits (fits : state.Fits item) :
    state.reserveReliable (reliableItemBytes item) =
      ({ state with reliableBytes := state.reliableBytes + reliableItemBytes item }, .ok ()) := by
  have limit := maxReliableQueueBytes_lt_usizeMax
  have room : ¬(decide (maxReliableQueueItems ≤ state.reliable.length) ||
      decide (usizeMax < state.reliableBytes + reliableItemBytes item) ||
      decide (maxReliableQueueBytes < state.reliableBytes + reliableItemBytes item)) = true := by
    simp only [Bool.or_eq_true, decide_eq_true_eq, not_or, not_le, not_lt]
    rcases fits with ⟨items, bytes⟩
    omega
  simp only [State.reserveReliable, room]
  rfl

theorem reserveReliable_of_not_fits (noticed : state.lagNotice = some notice)
    (full : ¬state.Fits item) :
    state.reserveReliable (reliableItemBytes item) = (state.overflowed notice, .error .lagged) := by
  have room : (decide (maxReliableQueueItems ≤ state.reliable.length) ||
      decide (usizeMax < state.reliableBytes + reliableItemBytes item) ||
      decide (maxReliableQueueBytes < state.reliableBytes + reliableItemBytes item)) = true := by
    simp only [Bool.or_eq_true, decide_eq_true_eq]
    unfold State.Fits at full
    omega
  simp only [State.reserveReliable, room, if_true, noticed, State.overflowed]

theorem sendItem_of_fits (accepts : state.Accepts) (fits : state.Fits item) :
    state.sendItem item =
      ({ state with
          reliableBytes := state.reliableBytes + reliableItemBytes item
          reliable := state.reliable ++ [item] },
        .ok ()) := by
  simp [State.sendItem, State.refusal, accepts.1, accepts.2, reserveReliable_of_fits fits]

theorem sendItem_of_not_fits (noticed : state.lagNotice = some notice) (accepts : state.Accepts)
    (full : ¬state.Fits item) :
    state.sendItem item = (state.overflowed notice, .error .lagged) := by
  simp [State.sendItem, State.refusal, accepts.1, accepts.2,
    reserveReliable_of_not_fits noticed full]

theorem sendItem_of_not_accepts (closed : ¬state.Accepts) :
    ∃ error, state.sendItem item = (state, .error error) := by
  unfold State.sendItem State.refusal
  by_cases alive : state.writerAlive = true
  · have lagged : state.lagged = true := by
      by_contra open'
      exact closed ⟨alive, by simpa using open'⟩
    exact ⟨.lagged, by simp [alive, lagged]⟩
  · exact ⟨.disconnected, by simp [alive]⟩

/-- A reliable send is refused, overflows the queue or appends its item. -/
theorem sendItem_cases (noticed : state.lagNotice = some notice) (item : ClientWriteItem) :
    (¬state.Accepts ∧ ∃ error, state.sendItem item = (state, .error error)) ∨
      (state.Accepts ∧ state.sendItem item = (state.overflowed notice, .error .lagged)) ∨
      (state.Accepts ∧ state.Fits item ∧ state.sendItem item =
        ({ state with
            reliableBytes := state.reliableBytes + reliableItemBytes item
            reliable := state.reliable ++ [item] },
          .ok ())) := by
  by_cases accepts : state.Accepts
  · by_cases fits : state.Fits item
    · exact .inr (.inr ⟨accepts, fits, sendItem_of_fits accepts fits⟩)
    · exact .inr (.inl ⟨accepts, sendItem_of_not_fits noticed accepts fits⟩)
  · exact .inl ⟨accepts, sendItem_of_not_accepts accepts⟩

theorem perform_send {action : Action} (sends : action.item? = some item)
    (noticed : state.lagNotice = some notice) :
    (¬state.Accepts ∧ ∃ error, perform state action = (state, .sent (.error error))) ∨
      (state.Accepts ∧
        perform state action = (state.overflowed notice, .sent (.error .lagged))) ∨
      (state.Accepts ∧ state.Fits item ∧ ∃ clipboard render writerAlive,
        ((clipboard = state.clipboard ∨ clipboard = none) ∧
          (render = state.render ∨ render = none)) ∧
        perform state action =
          ({ state with
              reliableBytes := state.reliableBytes + reliableItemBytes item
              reliable := state.reliable ++ [item]
              clipboard, render, writerAlive },
            .sent (.ok ()))) := by
  cases action with
  | sendReliable data =>
      cases sends
      rcases sendItem_cases noticed (.reliable data) with
        ⟨closed, error, sent⟩ | ⟨accepts, sent⟩ | ⟨accepts, fits, sent⟩
      · exact .inl ⟨closed, error, by simp [perform, State.sendReliable, sent]⟩
      · exact .inr (.inl ⟨accepts, by simp [perform, State.sendReliable, sent]⟩)
      · exact .inr (.inr ⟨accepts, fits, state.clipboard, state.render, state.writerAlive,
          ⟨.inl rfl, .inl rfl⟩, by simp [perform, State.sendReliable, sent]⟩)
  | sendReliableBatch frames =>
      cases sends
      rcases sendItem_cases noticed (.reliableBatch frames) with
        ⟨closed, error, sent⟩ | ⟨accepts, sent⟩ | ⟨accepts, fits, sent⟩
      · exact .inl ⟨closed, error, by simp [perform, State.sendReliableBatch, sent]⟩
      · exact .inr (.inl ⟨accepts, by simp [perform, State.sendReliableBatch, sent]⟩)
      · exact .inr (.inr ⟨accepts, fits, state.clipboard, state.render, state.writerAlive,
          ⟨.inl rfl, .inl rfl⟩, by simp [perform, State.sendReliableBatch, sent]⟩)
  | sendClosingReliable data =>
      cases sends
      rcases sendItem_cases noticed (.closingReliable data) with
        ⟨closed, error, sent⟩ | ⟨accepts, sent⟩ | ⟨accepts, fits, sent⟩
      · exact .inl ⟨closed, error, by simp [perform, State.sendClosingReliable, sent]⟩
      · exact .inr (.inl ⟨accepts, by simp [perform, State.sendClosingReliable, sent]⟩)
      · exact .inr (.inr ⟨accepts, fits, none, none, false, ⟨.inr rfl, .inr rfl⟩,
          by simp [perform, State.sendClosingReliable, sent]⟩)
  | _ => cases sends

/-- A clipboard send is refused or fills the slot of an open queue. -/
theorem perform_clipboard (state : State) (data : Frame) :
    (∃ error, perform state (.sendClipboard data) = (state, .sent (.error error))) ∨
      (state.Accepts ∧ perform state (.sendClipboard data) =
        ({ state with clipboard := some data }, .sent (.ok ()))) := by
  by_cases alive : state.writerAlive = true
  · by_cases lagged : state.lagged = true
    · exact .inl ⟨.lagged, by simp [perform, State.sendClipboard, State.refusal, alive, lagged]⟩
    · have open' : state.lagged = false := by simpa using lagged
      exact .inr ⟨⟨alive, open'⟩,
        by simp [perform, State.sendClipboard, State.refusal, alive, open']⟩
  · exact .inl ⟨.disconnected, by simp [perform, State.sendClipboard, State.refusal, alive]⟩

/-! ## The invariant -/

/-- The counters match the queue, the bound holds, and a lagged queue holds at most the lag
notice. -/
structure Sound (notice : Frame) (state : State) : Prop where
  noticed : state.lagNotice = some notice
  counted : state.reliableBytes = (state.reliable.map ClientWriteItem.size).sum
  bounded : state.reliableBytes ≤ maxReliableQueueBytes
  exact : ∀ item ∈ state.reliable, reliableItemBytes item = item.size
  plain : ∀ data slotDrained, ClientWriteItem.render data slotDrained ∉ state.reliable
  slot : state.render ≠ some []
  laggedQueue : state.lagged = true → state.reliable = [] ∨ state.reliable = [.reliable notice]
  laggedSlot : state.lagged = true → state.render = none
  laggedClipboard : state.lagged = true → state.clipboard = none

theorem sound_channel (notice : Frame) : Sound notice (channel (some notice)) where
  noticed := rfl
  counted := rfl
  bounded := Nat.zero_le _
  exact _ member := nomatch member
  plain _ _ member := nomatch member
  slot := nofun
  laggedQueue lagged := nomatch lagged
  laggedSlot _ := rfl
  laggedClipboard _ := rfl

theorem sound_overflowed (small : notice.length ≤ maxReliableQueueBytes)
    (noticed : state.lagNotice = some notice) : Sound notice (state.overflowed notice) where
  noticed := noticed
  counted := by simp [State.overflowed, ClientWriteItem.size, ClientWriteItem.frames]
  bounded := small
  exact := by
    simp [State.overflowed, reliableItemBytes, ClientWriteItem.size, ClientWriteItem.frames]
  plain := by simp [State.overflowed]
  slot := nofun
  laggedQueue _ := .inr rfl
  laggedSlot _ := rfl
  laggedClipboard _ := rfl

theorem step_send_sound (small : notice.length ≤ maxReliableQueueBytes)
    (sound : Sound notice state) {action : Action} (sends : action.item? = some item) :
    Sound notice (step state action) := by
  rcases perform_send sends sound.noticed with
    ⟨_, error, sent⟩ | ⟨_, sent⟩ | ⟨accepts, fits, clipboard, render, writerAlive, slots, sent⟩
  · rw [step, sent]
    exact sound
  · rw [step, sent]
    exact sound_overflowed small sound.noticed
  · have measured : reliableItemBytes item = item.size :=
      reliableItemBytes_eq sends (by have := fits.2; omega)
    rw [step, sent]
    refine ⟨sound.noticed, ?_, fits.2, ?_, ?_, ?_, ?_, ?_, ?_⟩
    · simp [sound.counted, measured]
    · intro queued member
      rcases List.mem_append.mp member with earlier | last
      · exact sound.exact queued earlier
      · rw [List.mem_singleton.mp last]
        exact measured
    · intro data slotDrained member
      rcases List.mem_append.mp member with earlier | last
      · exact sound.plain data slotDrained earlier
      · rw [← List.mem_singleton.mp last] at sends
        cases action <;> cases sends
    · rcases slots.2 with same | gone
      · simpa [same] using sound.slot
      · simp [gone]
    · intro lagged
      have := accepts.2
      simp_all
    · intro lagged
      have := accepts.2
      simp_all
    · intro lagged
      have := accepts.2
      simp_all

theorem recv_sound (sound : Sound notice state) : Sound notice state.recv.1 := by
  unfold State.recv
  split
  · next item rest queue =>
      have measured : reliableItemBytes item = item.size :=
        sound.exact item (queue ▸ List.mem_cons_self)
      have total := sound.counted
      rw [queue, List.map_cons, List.sum_cons] at total
      refine ⟨sound.noticed, ?_, ?_, ?_, ?_, sound.slot, ?_, sound.laggedSlot,
        sound.laggedClipboard⟩
      · simp only [total, measured]
        omega
      · have := sound.bounded
        simp only
        omega
      · intro queued member
        exact sound.exact queued (queue ▸ List.mem_cons_of_mem _ member)
      · intro data slotDrained member
        exact sound.plain data slotDrained (queue ▸ List.mem_cons_of_mem _ member)
      · intro lagged
        rcases sound.laggedQueue lagged with empty | single
        · simp [queue] at empty
        · rw [queue, List.cons.injEq] at single
          exact .inl single.2
  · next queue =>
      split
      · exact ⟨sound.noticed, sound.counted, sound.bounded, sound.exact, sound.plain, sound.slot,
          sound.laggedQueue, sound.laggedSlot, fun _ => rfl⟩
      · exact sound
      · next data frames _ slot =>
          refine ⟨sound.noticed, sound.counted, sound.bounded, sound.exact, sound.plain, ?_,
            sound.laggedQueue, ?_, sound.laggedClipboard⟩
          · cases frames <;> simp
          · intro lagged
            have := sound.laggedSlot lagged
            simp [slot] at this
      · exact sound

theorem step_sound (small : notice.length ≤ maxReliableQueueBytes) (sound : Sound notice state)
    (action : Action) : Sound notice (step state action) := by
  cases action with
  | sendReliable data => exact step_send_sound small sound rfl
  | sendReliableBatch frames => exact step_send_sound small sound rfl
  | sendClosingReliable data => exact step_send_sound small sound rfl
  | sendClipboard data =>
      rcases perform_clipboard state data with ⟨error, sent⟩ | ⟨accepts, sent⟩
      · rw [step, sent]
        exact sound
      · rw [step, sent]
        refine ⟨sound.noticed, sound.counted, sound.bounded, sound.exact, sound.plain, sound.slot,
          sound.laggedQueue, sound.laggedSlot, ?_⟩
        intro lagged
        have := accepts.2
        simp_all
  | trySendRender frames =>
      simp only [step, perform, State.trySendRender]
      split
      · exact sound
      · next nonempty =>
          split
          · exact sound
          · next accepts =>
              split
              · exact sound
              · refine ⟨sound.noticed, sound.counted, sound.bounded, sound.exact, sound.plain, ?_,
                  sound.laggedQueue, ?_, sound.laggedClipboard⟩
                · intro empty
                  simp_all
                · intro lagged
                  simp_all
  | clearRender =>
      exact ⟨sound.noticed, sound.counted, sound.bounded, sound.exact, sound.plain,
        nofun, sound.laggedQueue, fun _ => rfl, sound.laggedClipboard⟩
  | resumeAfterLag =>
      simp only [step, perform, State.resumeAfterLag]
      split
      · exact sound
      · exact ⟨sound.noticed, sound.counted, sound.bounded, sound.exact, sound.plain, nofun, nofun,
          nofun, nofun⟩
  | cloneWriter =>
      exact ⟨sound.noticed, sound.counted, sound.bounded, sound.exact, sound.plain, sound.slot,
        sound.laggedQueue, sound.laggedSlot, sound.laggedClipboard⟩
  | dropWriter =>
      exact ⟨sound.noticed, sound.counted, sound.bounded, sound.exact, sound.plain, sound.slot,
        sound.laggedQueue, sound.laggedSlot, sound.laggedClipboard⟩
  | recv => exact recv_sound sound
  | close =>
      exact ⟨sound.noticed, rfl, Nat.zero_le _, nofun, nofun, nofun, nofun, nofun, nofun⟩

theorem run_sound (small : notice.length ≤ maxReliableQueueBytes) (actions : List Action) :
    Sound notice (Runs.run step (channel (some notice)) actions) := by
  have keeps (state : State) (action : Action) (sound : Sound notice state) :
      Sound notice (step state action) := step_sound small sound action
  exact Runs.run_invariant keeps (sound_channel notice) actions

/-! ## One receive -/

theorem handed_of_ne_recv {action : Action} (other : action ≠ .recv) :
    handed state action = [] := by
  cases action with
  | recv => exact absurd rfl other
  | _ => rfl

theorem taken_of_ne_recv {action : Action} (other : action ≠ .recv) :
    taken state action = [] := by
  rw [taken, handed_of_ne_recv other, ite_self]

theorem copied_of_ne_recv {action : Action} (other : action ≠ .recv) :
    copied state action = [] := by
  rw [copied, handed_of_ne_recv other, ite_self]

/-- Reliable work is handed out before all else. -/
theorem perform_recv_reliable {rest : List ClientWriteItem} (queue : state.reliable = item :: rest) :
    perform state .recv =
      ({ state with
          reliable := rest
          reliableBytes := state.reliableBytes - reliableItemBytes item },
        .received (.item item)) := by
  simp [perform, State.recv, queue]

theorem handed_recv_reliable (sound : Sound notice state) {rest : List ClientWriteItem}
    (queue : state.reliable = item :: rest) : handed state .recv = [item] := by
  have plain := sound.plain
  rw [handed, perform_recv_reliable queue]
  cases item with
  | render data slotDrained =>
      exact absurd (queue ▸ List.mem_cons_self) (plain data slotDrained)
  | _ => rfl

theorem taken_recv (sound : Sound notice state) : taken state .recv = state.reliable.take 1 := by
  cases queue : state.reliable with
  | nil => simp [taken, queue]
  | cons item rest => simp [taken, queue, handed_recv_reliable sound queue]

theorem copied_recv (state : State) : copied state .recv =
    if state.reliable = [] then (state.clipboard.map ClientWriteItem.reliable).toList else [] := by
  unfold copied
  split
  · next queue =>
      cases slot : state.clipboard with
      | some data => simp [handed, perform, State.recv, queue, slot]
      | none =>
          rcases rendered : state.render with _ | (_ | ⟨data, frames⟩)
          · by_cases ended : state.senders = 0 ∨ state.writerAlive = false <;>
            simp [handed, perform, State.recv, queue, slot, rendered, ended]
          · simp [handed, perform, State.recv, queue, slot, rendered]
          · simp [handed, perform, State.recv, queue, slot, rendered]
  · rfl

/-- A lagged queue hands out reliable work alone. -/
theorem handed_eq_taken (sound : Sound notice state) (lagged : state.lagged = true)
    (action : Action) : handed state action = taken state action := by
  by_cases receives : action = .recv
  · subst receives
    by_cases queue : state.reliable = []
    · have copy := copied_recv state
      rw [copied, if_pos queue, if_pos queue, sound.laggedClipboard lagged] at copy
      rw [copy, taken, if_pos queue]
      rfl
    · rw [taken, if_neg queue]
  · rw [handed_of_ne_recv receives, taken_of_ne_recv receives]

/-- The receiver is left without an item only by an empty queue. -/
theorem recv_without_item (sound : Sound notice state)
    (without : ∀ item, state.recv.2 ≠ .item item) :
    state.reliable = [] ∧ state.clipboard = none ∧ state.render = none := by
  cases queue : state.reliable with
  | cons item rest => exact absurd (by simp [State.recv, queue]) (without item)
  | nil =>
      cases slot : state.clipboard with
      | some data => exact absurd (by simp [State.recv, queue, slot]) (without (.reliable data))
      | none =>
          rcases rendered : state.render with _ | (_ | ⟨data, frames⟩)
          · exact ⟨rfl, rfl, rfl⟩
          · exact absurd rendered sound.slot
          · exact absurd (by simp [State.recv, queue, slot, rendered])
              (without (.render data frames.isEmpty))

/-! ## The order of delivery -/

theorem accepted_of_no_item {action : Action} (sendsNothing : action.item? = none) :
    accepted state action = [] := by
  simp [accepted, sendsNothing]

/-- A step that drops nothing serves the reliable queue in order. -/
theorem step_fifo (sound : Sound notice state) {action : Action} (keeps : ¬Drops state action) :
    taken state action ++ (step state action).reliable =
      state.reliable ++ accepted state action := by
  cases sends : action.item? with
  | some item =>
      have other : action ≠ .recv := by
        rintro rfl
        cases sends
      rw [taken_of_ne_recv other, List.nil_append]
      rcases perform_send sends sound.noticed with
        ⟨_, error, sent⟩ | ⟨accepts, sent⟩ | ⟨_, _, clipboard, render, writerAlive, _, sent⟩
      · simp [step, accepted, sends, sent]
      · exact absurd (.inr ⟨accepts, _, congrArg Prod.snd sent⟩) keeps
      · simp [step, accepted, sends, sent]
  | none =>
      rw [accepted_of_no_item sends, List.append_nil]
      cases action with
      | recv =>
          rw [taken_recv sound]
          simp only [step, perform, State.recv]
          split
          · next item rest queue => simp [queue]
          · next queue => split <;> simp [queue]
      | close => exact absurd (.inl rfl) keeps
      | sendClipboard data =>
          rw [taken_of_ne_recv (by simp), List.nil_append]
          rcases perform_clipboard state data with ⟨error, sent⟩ | ⟨_, sent⟩ <;> rw [step, sent]
      | trySendRender frames =>
          rw [taken_of_ne_recv (by simp), List.nil_append]
          simp only [step, perform, State.trySendRender]
          split
          · rfl
          · split
            · rfl
            · split <;> rfl
      | resumeAfterLag =>
          rw [taken_of_ne_recv (by simp), List.nil_append]
          simp only [step, perform, State.resumeAfterLag]
          split <;> rfl
      | clearRender => rw [taken_of_ne_recv (by simp), List.nil_append, step, perform]; rfl
      | cloneWriter => rw [taken_of_ne_recv (by simp), List.nil_append, step, perform]; rfl
      | dropWriter => rw [taken_of_ne_recv (by simp), List.nil_append, step, perform]; rfl
      | sendReliable data => cases sends
      | sendReliableBatch frames => cases sends
      | sendClosingReliable data => cases sends

/-! ## Lag -/

/-- An overflow leaves the lag notice alone. -/
theorem overflow_eq (sound : Sound notice state) {action : Action}
    (overflows : Overflows state action) : step state action = state.overflowed notice := by
  rcases overflows with ⟨accepts, error, refused⟩
  cases sends : action.item? with
  | some item =>
      rcases perform_send sends sound.noticed with
        ⟨closed, _⟩ | ⟨_, sent⟩ | ⟨_, _, clipboard, render, writerAlive, _, sent⟩
      · exact absurd accepts closed
      · exact congrArg Prod.fst sent
      · simp [sent] at refused
  | none =>
      cases action with
      | sendClipboard data =>
          simp [perform, State.sendClipboard, State.refusal, accepts.1, accepts.2] at refused
      | sendReliable data => cases sends
      | sendReliableBatch frames => cases sends
      | sendClosingReliable data => cases sends
      | _ => simp [perform] at refused

/-- The queue stays lagged, and accepts nothing, until it is resumed or closed. -/
theorem step_lagged (sound : Sound notice state) (lagged : state.lagged = true) {action : Action}
    (waits : action ≠ .resumeAfterLag ∧ action ≠ .close) :
    (step state action).lagged = true ∧ accepted state action = [] := by
  have closed : ¬state.Accepts := fun accepts => by simp [accepts.2] at lagged
  cases sends : action.item? with
  | some item =>
      rcases perform_send sends sound.noticed with
        ⟨_, error, sent⟩ | ⟨accepts, _⟩ | ⟨accepts, _⟩
      · simp [step, accepted, sends, sent, lagged]
      · exact absurd accepts closed
      · exact absurd accepts closed
  | none =>
      refine ⟨?_, accepted_of_no_item sends⟩
      cases action with
      | recv =>
          simp only [step, perform, State.recv]
          split
          · exact lagged
          · split <;> exact lagged
      | sendClipboard data =>
          simp only [step, perform, State.sendClipboard]
          split <;> exact lagged
      | trySendRender frames =>
          simp [step, perform, State.trySendRender, lagged]
          split <;> exact lagged
      | resumeAfterLag => exact absurd rfl waits.1
      | close => exact absurd rfl waits.2
      | clearRender => exact lagged
      | cloneWriter => exact lagged
      | dropWriter => exact lagged
      | sendReliable data => cases sends
      | sendReliableBatch frames => cases sends
      | sendClosingReliable data => cases sends

/-! ## The render slot -/

def State.slot (state : State) : List Frame := state.render.getD []

/-- Rendered frames leave the slot in order, or are dropped with it. -/
theorem step_slot (sound : Sound notice state) (action : Action) :
    (renderTaken state action ++ (step state action).slot).Sublist
      (state.slot ++ rendered state action) := by
  cases sends : action.item? with
  | some item =>
      have nothing : renderTaken state action = [] ∧ rendered state action = [] := by
        rcases perform_send sends sound.noticed with
          ⟨_, error, sent⟩ | ⟨_, sent⟩ | ⟨_, _, clipboard, render, writerAlive, _, sent⟩ <;>
        simp only [renderTaken, rendered, sent] <;>
        cases action <;> simp_all [Action.item?]
      rw [nothing.1, nothing.2, List.nil_append, List.append_nil]
      rcases perform_send sends sound.noticed with
        ⟨_, error, sent⟩ | ⟨_, sent⟩ | ⟨_, _, clipboard, render, writerAlive, slots, sent⟩
      · simp [step, sent]
      · simp [step, sent, State.overflowed, State.slot]
      · rcases slots.2 with rfl | rfl
        · simp [step, sent, State.slot]
        · simp [step, sent, State.slot]
  | none =>
      cases action with
      | recv =>
          cases queue : state.reliable with
          | cons item rest =>
              cases item with
              | render data slotDrained =>
                  exact absurd (queue ▸ List.mem_cons_self) (sound.plain data slotDrained)
              | reliable data =>
                  simp [renderTaken, rendered, step, perform, State.recv, queue, State.slot]
              | reliableBatch frames =>
                  simp [renderTaken, rendered, step, perform, State.recv, queue, State.slot]
              | closingReliable data =>
                  simp [renderTaken, rendered, step, perform, State.recv, queue, State.slot]
          | nil =>
              cases copied : state.clipboard with
              | some data =>
                  simp [renderTaken, rendered, step, perform, State.recv, queue, copied, State.slot]
              | none =>
                  rcases slot : state.render with _ | (_ | ⟨data, frames⟩)
                  · simp only [renderTaken, rendered, step, perform, State.recv, queue, copied, slot,
                      State.slot, Prod.map]
                    split
                    · next ended => split at ended <;> cases ended
                    · simp [slot]
                  · exact absurd slot sound.slot
                  · cases frames <;>
                    simp [renderTaken, rendered, step, perform, State.recv, queue, copied, slot,
                      State.slot]
      | trySendRender frames =>
          simp only [renderTaken, rendered, step, perform, State.trySendRender, Prod.map]
          split
          · simp
          · split
            · simp
            · split
              · simp
              · next free =>
                  have empty : state.render = none := by simpa using free
                  simp [State.slot, empty]
      | sendClipboard data =>
          simp only [renderTaken, rendered, step, perform, State.sendClipboard, Prod.map]
          split <;> simp [State.slot]
      | resumeAfterLag =>
          simp only [renderTaken, rendered, step, perform, State.resumeAfterLag]
          split <;> simp [State.slot]
      | clearRender => simp [renderTaken, rendered, step, perform, State.clearRender, State.slot]
      | close => simp [renderTaken, rendered, step, perform, State.close, State.slot]
      | cloneWriter => simp [renderTaken, rendered, step, perform, State.cloneWriter, State.slot]
      | dropWriter => simp [renderTaken, rendered, step, perform, State.dropWriter, State.slot]
      | sendReliable data => cases sends
      | sendReliableBatch frames => cases sends
      | sendClosingReliable data => cases sends

/-! ## The clipboard slot -/

def State.copy (state : State) : List ClientWriteItem :=
  (state.clipboard.map ClientWriteItem.reliable).toList

theorem clips_of_ne_sendClipboard {action : Action} (other : ∀ data, action ≠ .sendClipboard data) :
    clips state action = [] := by
  cases action with
  | sendClipboard data => exact absurd rfl (other data)
  | _ => rfl

/-- The clipboard slot hands out accepted frames in order, each at most once: a later one
replaces the one that waits. -/
theorem step_copy (sound : Sound notice state) (action : Action) :
    (copied state action ++ (step state action).copy).Sublist
      (state.copy ++ clips state action) := by
  cases sends : action.item? with
  | some item =>
      have other : action ≠ .recv := by
        rintro rfl
        cases sends
      rw [copied_of_ne_recv other, List.nil_append]
      rcases perform_send sends sound.noticed with
        ⟨_, error, sent⟩ | ⟨_, sent⟩ | ⟨_, _, clipboard, render, writerAlive, slots, sent⟩
      · rw [step, sent]
        exact List.sublist_append_left _ _
      · rw [step, sent]
        exact List.nil_sublist _
      · rw [step, sent]
        rcases slots.1 with rfl | rfl
        · exact List.sublist_append_left _ _
        · exact List.nil_sublist _
  | none =>
      cases action with
      | recv =>
          rw [copied_recv, clips_of_ne_sendClipboard (by simp), List.append_nil]
          cases queue : state.reliable with
          | cons item rest =>
              rw [step, perform_recv_reliable queue]
              exact List.Sublist.refl _
          | nil =>
              cases slot : state.clipboard with
              | some data => simp [step, perform, State.recv, queue, slot, State.copy]
              | none =>
                  rcases rendered : state.render with _ | (_ | ⟨data, frames⟩) <;>
                  simp [step, perform, State.recv, queue, slot, rendered, State.copy]
      | sendClipboard data =>
          rw [copied_of_ne_recv (by simp), List.nil_append]
          rcases perform_clipboard state data with ⟨error, sent⟩ | ⟨_, sent⟩
          · rw [step, sent]
            exact List.sublist_append_left _ _
          · simp [step, sent, clips, State.copy]
      | trySendRender frames =>
          rw [copied_of_ne_recv (by simp), List.nil_append]
          simp only [step, perform, State.trySendRender]
          split
          · exact List.sublist_append_left _ _
          · split
            · exact List.sublist_append_left _ _
            · split <;> exact List.sublist_append_left _ _
      | resumeAfterLag =>
          rw [copied_of_ne_recv (by simp), List.nil_append]
          simp only [step, perform, State.resumeAfterLag]
          split
          · exact List.sublist_append_left _ _
          · exact List.nil_sublist _
      | close =>
          rw [copied_of_ne_recv (by simp), List.nil_append]
          exact List.nil_sublist _
      | clearRender =>
          rw [copied_of_ne_recv (by simp), List.nil_append]
          exact List.sublist_append_left _ _
      | cloneWriter =>
          rw [copied_of_ne_recv (by simp), List.nil_append]
          exact List.sublist_append_left _ _
      | dropWriter =>
          rw [copied_of_ne_recv (by simp), List.nil_append]
          exact List.sublist_append_left _ _
      | sendReliable data => cases sends
      | sendReliableBatch frames => cases sends
      | sendClosingReliable data => cases sends

/-! ## What a client is served -/

/-- What holds of a queue in any state, and of whatever its threads do next. -/
structure Served (notice : Frame) (state : State) : Prop where
  /-- The tracked bytes are those of the queued frames. -/
  counted : state.reliableBytes = (state.reliable.map ClientWriteItem.size).sum
  bounded : state.reliableBytes ≤ maxReliableQueueBytes
  /-- A receive hands out the oldest reliable item. -/
  prompt : ∀ item rest, state.reliable = item :: rest →
    (perform state .recv).2 = .received (.item item) ∧ (step state .recv).reliable = rest
  /-- It waits or ends only where nothing is queued at all. -/
  idle : (∀ item, state.recv.2 ≠ .item item) →
    state.reliable = [] ∧ state.clipboard = none ∧ state.render = none
  /-- While the backlog is not dropped, what was handed out of it and what waits are what waited
  and what was accepted, in order. -/
  ordered : ∀ stretch, Runs.Each step (fun state action => ¬Drops state action) state stretch →
    Runs.collect step taken state stretch ++ (Runs.run step state stretch).reliable =
      state.reliable ++ Runs.collect step accepted state stretch
  /-- A batch is queued whole or not at all. -/
  whole : ∀ frames,
    (perform state (.sendReliableBatch frames)).2 = .sent (.ok ()) ∧
        (step state (.sendReliableBatch frames)).reliable =
          state.reliable ++ [.reliableBatch frames] ∨
      (∃ error, (perform state (.sendReliableBatch frames)).2 = .sent (.error error)) ∧
        ((step state (.sendReliableBatch frames)).reliable = state.reliable ∨
          (step state (.sendReliableBatch frames)).reliable = [.reliable notice])
  /-- A clipboard frame that is handed out was accepted, and is handed out once, in order. -/
  clipboard : ∀ stretch,
    (Runs.collect step copied state stretch ++ (Runs.run step state stretch).copy).Sublist
      (state.copy ++ Runs.collect step clips state stretch)
  /-- After an overflow the receiver is handed the lag notice once and, rendered frames apart,
  nothing else until the queue is resumed, when nothing is queued behind it. -/
  noticed : ∀ action, Overflows state action → ∀ stretch,
    Runs.Each step (fun _ action => action ≠ .resumeAfterLag ∧ action ≠ .close)
      (step state action) stretch →
    Runs.collect step handed (step state action) stretch ++
        (Runs.run step (step state action) stretch).reliable = [.reliable notice] ∧
      Runs.collect step accepted (step state action) stretch = []
  /-- Rendered frames that come out after an overflow went in after it. -/
  fresh : ∀ action, Overflows state action → ∀ stretch,
    (Runs.collect step renderTaken (step state action) stretch).Sublist
      (Runs.collect step rendered (step state action) stretch)
  /-- The receiver never finds the render slot there but empty. -/
  unpanicked : state.recv.2 ≠ .panicked

theorem ordered_of_sound (small : notice.length ≤ maxReliableQueueBytes)
    (sound : Sound notice state) {stretch : List Action}
    (keeps : Runs.Each step (fun state action => ¬Drops state action) state stretch) :
    Runs.collect step taken state stretch ++ (Runs.run step state stretch).reliable =
      state.reliable ++ Runs.collect step accepted state stretch :=
  Runs.collect_fifo (fun _ action sound => step_sound small sound action)
    (fun _ _ sound keeps => step_fifo sound keeps) sound keeps

theorem noticed_of_sound (small : notice.length ≤ maxReliableQueueBytes)
    (sound : Sound notice state) (lagged : state.lagged = true)
    (queue : state.reliable = [.reliable notice]) {stretch : List Action}
    (waits : Runs.Each step (fun _ action => action ≠ .resumeAfterLag ∧ action ≠ .close)
      state stretch) :
    Runs.collect step handed state stretch ++ (Runs.run step state stretch).reliable =
        [.reliable notice] ∧
      Runs.collect step accepted state stretch = [] := by
  have keeps (state : State) (action : Action) (holds : Sound notice state ∧ state.lagged = true)
      (waits : action ≠ .resumeAfterLag ∧ action ≠ .close) :
      Sound notice (step state action) ∧ (step state action).lagged = true :=
    ⟨step_sound small holds.1 action, (step_lagged holds.1 holds.2 waits).1⟩
  have silent : Runs.collect step accepted state stretch = [] :=
    Runs.collect_eq_nil keeps (fun _ _ holds waits => (step_lagged holds.1 holds.2 waits).2)
      ⟨sound, lagged⟩ waits
  -- A lagged queue refuses instead of overflowing, so nothing drops the notice.
  have undropped : Runs.Each step
      (fun state action => ¬Drops state action ∧ state.lagged = true) state stretch := by
    apply waits.imp keeps _ ⟨sound, lagged⟩
    rintro state action ⟨_, lagged⟩ waits
    refine ⟨?_, lagged⟩
    rintro (closes | ⟨accepts, _⟩)
    · exact waits.2 closes
    · simp [accepts.2] at lagged
  have served : Runs.collect step handed state stretch ++ (Runs.run step state stretch).reliable =
      state.reliable ++ Runs.collect step accepted state stretch := by
    have always (state : State) (action : Action) (sound : Sound notice state) :
        Sound notice (step state action) := step_sound small sound action
    refine Runs.collect_fifo always ?_ sound undropped
    intro state action sound holds
    rw [handed_eq_taken sound holds.2]
    exact step_fifo sound holds.1
  rw [silent, queue, List.append_nil] at served
  exact ⟨served, silent⟩

theorem clipboard_of_sound (small : notice.length ≤ maxReliableQueueBytes)
    (sound : Sound notice state) (stretch : List Action) :
    (Runs.collect step copied state stretch ++ (Runs.run step state stretch).copy).Sublist
      (state.copy ++ Runs.collect step clips state stretch) := by
  have keeps (state : State) (action : Action) (sound : Sound notice state) :
      Sound notice (step state action) := step_sound small sound action
  have always : Runs.Each step (fun _ _ => True) state stretch :=
    Runs.each_of_forall fun _ _ => trivial
  exact Runs.collect_sublist keeps (fun _ action sound _ => step_copy sound action) sound always

theorem fresh_of_sound (small : notice.length ≤ maxReliableQueueBytes)
    (sound : Sound notice state) (empty : state.slot = []) (stretch : List Action) :
    (Runs.collect step renderTaken state stretch).Sublist
      (Runs.collect step rendered state stretch) := by
  have keeps (state : State) (action : Action) (sound : Sound notice state) :
      Sound notice (step state action) := step_sound small sound action
  have always : Runs.Each step (fun _ _ => True) state stretch :=
    Runs.each_of_forall fun _ _ => trivial
  have served := Runs.collect_sublist keeps (fun _ action sound _ => step_slot sound action) sound
    always
  rw [empty, List.nil_append] at served
  exact (List.sublist_append_left _ _).trans served

theorem recv_unpanicked (sound : Sound notice state) : state.recv.2 ≠ .panicked := by
  unfold State.recv
  split
  · simp
  · split
    · simp
    · next slot => exact absurd slot sound.slot
    · simp
    · split <;> simp

theorem whole_of_sound (sound : Sound notice state) (frames : List Frame) :
    (perform state (.sendReliableBatch frames)).2 = .sent (.ok ()) ∧
        (step state (.sendReliableBatch frames)).reliable =
          state.reliable ++ [.reliableBatch frames] ∨
      (∃ error, (perform state (.sendReliableBatch frames)).2 = .sent (.error error)) ∧
        ((step state (.sendReliableBatch frames)).reliable = state.reliable ∨
          (step state (.sendReliableBatch frames)).reliable = [.reliable notice]) := by
  have sends : (Action.sendReliableBatch frames).item? = some (.reliableBatch frames) := rfl
  rcases perform_send sends sound.noticed with
    ⟨_, error, sent⟩ | ⟨_, sent⟩ | ⟨_, _, clipboard, render, writerAlive, _, sent⟩
  · exact .inr ⟨⟨error, congrArg Prod.snd sent⟩, .inl (by rw [step, sent])⟩
  · exact .inr ⟨⟨_, congrArg Prod.snd sent⟩, .inr (by rw [step, sent]; rfl)⟩
  · exact .inl ⟨congrArg Prod.snd sent, by rw [step, sent]⟩

/-- Whatever the senders and the receiver of a client's queue do, in any order, they are
served. The lag notice is one framed message. -/
theorem client_writer_serves (notice : Frame)
    (framed : notice.length ≤ maxFrameSize + maxFramePrefix) (actions : List Action) :
    Served notice (Runs.run step (channel (some notice)) actions) := by
  have small : notice.length ≤ maxReliableQueueBytes := framed.trans (by decide)
  have sound := run_sound small actions
  refine ⟨sound.counted, sound.bounded, ?_, recv_without_item sound,
    fun _ keeps => ordered_of_sound small sound keeps, whole_of_sound sound,
    clipboard_of_sound small sound, ?_, ?_, recv_unpanicked sound⟩
  · intro item rest queue
    rw [step, perform_recv_reliable queue]
    exact ⟨rfl, rfl⟩
  · intro action overflows stretch waits
    have next := step_sound small sound action
    rw [overflow_eq sound overflows] at next waits ⊢
    exact noticed_of_sound small next rfl rfl waits
  · intro action overflows stretch
    have next := step_sound small sound action
    rw [overflow_eq sound overflows] at next ⊢
    exact fresh_of_sound small next rfl stretch

theorem client_writer_serves_example :
    ([1, 2, 3] : Frame).length ≤ maxFrameSize + maxFramePrefix ∧
      Served [1, 2, 3] (Runs.run step (channel (some [1, 2, 3]))
        [.sendReliable [7], .sendReliableBatch [[8], [9]], .sendClipboard [4], .recv,
          .trySendRender [[5]], .recv, .recv]) :=
  ⟨by decide, client_writer_serves [1, 2, 3] (by decide) _⟩

/-- One send too many drops the accepted frames: they are neither delivered nor queued. -/
theorem overflow_drops_accepted_frames :
    Runs.collect step taken (channel (some [0])) (List.replicate 513 (.sendReliable [1])) ++
        (Runs.run step (channel (some [0])) (List.replicate 513 (.sendReliable [1]))).reliable ≠
      Runs.collect step accepted (channel (some [0])) (List.replicate 513 (.sendReliable [1])) := by
  decide +kernel

end Condr.ClientWriter
