import Mathlib.Algebra.Order.Group.Nat
import Mathlib.Data.List.Infix
import Mathlib.Data.List.Flatten
import Condr.Foundation.Transition

/-!
# Credit lanes

One direction of a byte stream between two ends that talk over ordered channels.
The sender may write up to the limit it holds, finishes, or ends the stream; the
receiver buffers what arrives, returns credit once enough was read, or ends the
stream itself. Nothing here says how several lanes share a channel.

The lane keeps its whole history: everything written, delivered and read.
-/

namespace CreditLane

universe u

/-- The window of a lane and how much of it must be read before credit returns. -/
structure Flow where
  window : ℕ
  threshold : ℕ
  positive : 0 < threshold
  fits : threshold ≤ window

/-- What travels from the sender to the receiver. -/
inductive Item (Symbol : Type u) where
  | data (chunk : List Symbol)
  | finish
  /-- The sender's end ended early. -/
  | aborted

/-- What travels from the receiver back to the sender. -/
inductive Return where
  | credit (limit : ℕ)
  /-- The receiver's end ended early. -/
  | aborted

namespace Item

variable {Symbol : Type u}

def symbols : Item Symbol → List Symbol
  | data chunk => chunk
  | finish | aborted => []

def isData : Item Symbol → Bool
  | data _ => true
  | finish | aborted => false

end Item

structure Lane (Symbol : Type u) where
  written : List Symbol
  /-- How much the sender may have written. -/
  limit : ℕ
  finished : Bool
  senderOver : Bool
  /-- Written but not on the channel yet. -/
  queue : List (Item Symbol)
  channel : List (Item Symbol)
  /-- Every symbol that reached the receiver's end, kept or dropped. -/
  delivered : List Symbol
  /-- How many symbols the receiver let in. -/
  received : ℕ
  inbound : List (List Symbol)
  read : List Symbol
  /-- The last limit the receiver gave. -/
  announced : ℕ
  peerFinished : Bool
  receiverOver : Bool
  /-- The receiver ended the stream itself or let go of its end. -/
  abandoned : Bool
  returns : List Return

inductive LaneAction (Symbol : Type u) where
  | write (chunk : List Symbol)
  | finish
  /-- The sender ends the stream and says so. -/
  | endSending
  /-- The next queued item goes onto the channel. -/
  | forward
  /-- The receiver's end takes the next item off the channel. -/
  | deliver
  | read
  /-- The receiver ends the stream and says so. -/
  | endReceiving
  /-- The receiver's reader is gone. -/
  | release
  /-- The sender's end takes the next return. -/
  | answer

/-- The symbols of the data items, in order. -/
def contents {Symbol : Type u} (items : List (Item Symbol)) : List Symbol :=
  items.flatMap Item.symbols

namespace Lane

variable {Symbol : Type u} (flow : Flow)

def initial : Lane Symbol where
  written := []
  limit := flow.window
  finished := false
  senderOver := false
  queue := []
  channel := []
  delivered := []
  received := 0
  inbound := []
  read := []
  announced := flow.window
  peerFinished := false
  receiverOver := false
  abandoned := false
  returns := []

/-- What is still on its way to the receiver, in order. -/
def pending (lane : Lane Symbol) : List (Item Symbol) :=
  lane.channel ++ lane.queue

def takeItem (lane : Lane Symbol) : Item Symbol → Lane Symbol
  | .data chunk =>
      if lane.receiverOver || lane.peerFinished then
        { lane with delivered := lane.delivered ++ chunk }
      else
        { lane with
          delivered := lane.delivered ++ chunk
          received := lane.received + chunk.length
          inbound := lane.inbound ++ [chunk] }
  | .finish => { lane with peerFinished := true }
  | .aborted => { lane with receiverOver := true }

def takeReturn (lane : Lane Symbol) : Return → Lane Symbol
  | .credit limit => { lane with limit := max lane.limit limit }
  | .aborted => { lane with senderOver := true, queue := [] }

/-- Credit returns once the threshold was read, unless nothing more will come. -/
def returnCredit (lane : Lane Symbol) : Lane Symbol :=
  if !lane.peerFinished
      && decide (lane.announced + flow.threshold ≤ lane.read.length + flow.window) then
    { lane with
      announced := lane.read.length + flow.window
      returns := lane.returns ++ [.credit (lane.read.length + flow.window)] }
  else lane

def Enabled (lane : Lane Symbol) : LaneAction Symbol → Prop
  | .write chunk => lane.senderOver = false ∧ lane.finished = false ∧
      lane.written.length + chunk.length ≤ lane.limit
  | .finish => lane.senderOver = false ∧ lane.finished = false
  | .release => lane.receiverOver = true ∨ lane.peerFinished = true
  | _ => True

def perform (lane : Lane Symbol) : LaneAction Symbol → Lane Symbol
  | .write chunk =>
      { lane with written := lane.written ++ chunk, queue := lane.queue ++ [.data chunk] }
  | .finish => { lane with finished := true, queue := lane.queue ++ [.finish] }
  | .endSending =>
      { lane with senderOver := true, queue := [], channel := lane.channel ++ [.aborted] }
  | .forward =>
      match lane.queue with
      | [] => lane
      | item :: queue => { lane with queue, channel := lane.channel ++ [item] }
  | .deliver =>
      match lane.channel with
      | [] => lane
      | item :: channel => takeItem { lane with channel } item
  | .read =>
      match lane.inbound with
      | [] => lane
      | chunk :: inbound => returnCredit flow { lane with inbound, read := lane.read ++ chunk }
  | .endReceiving =>
      { lane with receiverOver := true, abandoned := true, returns := lane.returns ++ [.aborted] }
  | .release => { lane with inbound := [], abandoned := true }
  | .answer =>
      match lane.returns with
      | [] => lane
      | answer :: returns => takeReturn { lane with returns } answer

end Lane

def laneSystem (Symbol : Type u) (flow : Flow) :
    Transition.System (Lane Symbol) (LaneAction Symbol) where
  initial lane := lane = Lane.initial flow
  step lane action next := lane.Enabled action ∧ next = lane.perform flow action

/-! ## The order of the items -/

section Order

variable {Symbol : Type u}

@[simp]
theorem contents_nil : contents ([] : List (Item Symbol)) = [] :=
  rfl

@[simp]
theorem contents_cons (item : Item Symbol) (items : List (Item Symbol)) :
    contents (item :: items) = item.symbols ++ contents items := by
  simp [contents]

@[simp]
theorem contents_append (items rest : List (Item Symbol)) :
    contents (items ++ rest) = contents items ++ contents rest := by
  simp [contents]

/-- Nothing but ends follows. -/
def OnlyOver (items : List (Item Symbol)) : Prop :=
  ∀ item ∈ items, item = Item.aborted

/-- Data comes first, then at most one finish, then ends. -/
def InOrder : List (Item Symbol) → Prop
  | [] => True
  | .data _ :: items => InOrder items
  | .finish :: items => OnlyOver items
  | .aborted :: items => OnlyOver items

theorem OnlyOver.contents_eq_nil {items : List (Item Symbol)} (only : OnlyOver items) :
    contents items = [] := by
  refine List.flatMap_eq_nil_iff.mpr ?_
  intro item member
  rw [only item member]
  rfl

theorem OnlyOver.inOrder {items : List (Item Symbol)} (only : OnlyOver items) : InOrder items := by
  cases items with
  | nil => trivial
  | cons item items =>
      have isOver := only item (by simp)
      subst isOver
      exact fun other member => only other (by simp [member])

theorem InOrder.append_over {items : List (Item Symbol)} (ordered : InOrder items) :
    InOrder (items ++ [.aborted]) := by
  induction items with
  | nil => simp [InOrder, OnlyOver]
  | cons item items hypothesis =>
      cases item with
      | data chunk => exact hypothesis ordered
      | finish | aborted =>
          intro other member
          rcases List.mem_append.mp member with earlier | last
          · exact ordered other earlier
          · simpa using last

/-- While only data is on its way, anything may follow. -/
theorem inOrder_append_of_isData {items : List (Item Symbol)}
    (allData : ∀ item ∈ items, item.isData = true) (last : Item Symbol) :
    InOrder (items ++ [last]) := by
  induction items with
  | nil => cases last <;> simp [InOrder, OnlyOver]
  | cons item items hypothesis =>
      cases item with
      | data chunk => exact hypothesis (fun other member => allData other (by simp [member]))
      | finish | aborted => simpa [Item.isData] using allData _ (List.mem_cons_self ..)

theorem InOrder.tail {item : Item Symbol} {items : List (Item Symbol)}
    (ordered : InOrder (item :: items)) : InOrder items := by
  cases item with
  | data chunk => exact ordered
  | finish | aborted => exact OnlyOver.inOrder ordered

theorem InOrder.left {items rest : List (Item Symbol)} (ordered : InOrder (items ++ rest)) :
    InOrder items := by
  induction items with
  | nil => trivial
  | cons item items hypothesis =>
      cases item with
      | data chunk => exact hypothesis ordered
      | finish | aborted => exact fun other member => ordered other (by simp [member])

/-- Nothing is queued behind a finish. -/
theorem InOrder.contents_right_of_finish {items rest : List (Item Symbol)}
    (ordered : InOrder (items ++ rest)) (finishes : Item.finish ∈ items) :
    contents rest = [] := by
  induction items with
  | nil => simp at finishes
  | cons item items hypothesis =>
      cases item with
      | data chunk => exact hypothesis ordered (by simpa using finishes)
      | finish | aborted =>
          exact OnlyOver.contents_eq_nil fun other member => ordered other (by simp [member])

end Order

/-! ## The invariant -/

namespace Lane

variable {Symbol : Type u} {flow : Flow}

/-- What holds of a lane at every moment. -/
structure Invariant (flow : Flow) (lane : Lane Symbol) : Prop where
  ordered : InOrder lane.pending
  queueEmpty : lane.senderOver = true → lane.queue = []
  overSent : Item.aborted ∈ lane.pending → lane.senderOver = true
  unfinished : lane.finished = false → Item.finish ∉ lane.pending ∧ lane.peerFinished = false
  afterFinish : lane.peerFinished = true → OnlyOver lane.pending
  afterOver : lane.receiverOver = true → lane.abandoned = false →
    lane.senderOver = true ∧ OnlyOver lane.pending
  arrives : lane.delivered ++ contents lane.pending <+: lane.written
  /-- Only an end of the sender before its finish left loses something. -/
  complete : lane.senderOver = false ∨ Item.finish ∈ lane.pending ∨ lane.peerFinished = true →
    lane.delivered ++ contents lane.pending = lane.written
  kept : lane.read ++ lane.inbound.flatten <+: lane.delivered
  allKept : lane.abandoned = false → lane.read ++ lane.inbound.flatten = lane.delivered
  abandonedOver : lane.abandoned = true → lane.receiverOver = true ∨ lane.peerFinished = true
  bufferFits : lane.read.length + lane.inbound.flatten.length ≤ lane.received
  receivedFits : lane.received ≤ lane.delivered.length
  writtenFits : lane.written.length ≤ lane.limit
  limitFits : lane.limit ≤ lane.announced
  creditsFit : ∀ limit, Return.credit limit ∈ lane.returns → limit ≤ lane.announced
  announcedFits : lane.announced ≤ lane.read.length + flow.window
  /-- What was read since the last credit stays below the threshold. -/
  creditReturned : lane.peerFinished = false →
    lane.read.length + flow.window < lane.announced + flow.threshold
  /-- The sender holds the last credit, or it is on its way. -/
  creditDue : lane.limit = lane.announced ∨ Return.credit lane.announced ∈ lane.returns
  overReturned : lane.receiverOver = true → lane.senderOver = true ∨ Return.aborted ∈ lane.returns

namespace Invariant

variable {lane : Lane Symbol}

theorem initial : (Lane.initial flow : Lane Symbol).Invariant flow where
  ordered := trivial
  queueEmpty := by simp [Lane.initial]
  overSent := by simp [Lane.initial, pending]
  unfinished := by simp [Lane.initial, pending]
  afterFinish := by simp [Lane.initial]
  afterOver := by simp [Lane.initial]
  arrives := by simp [Lane.initial, pending]
  complete := by simp [Lane.initial, pending]
  kept := by simp [Lane.initial]
  allKept := by simp [Lane.initial]
  abandonedOver := by simp [Lane.initial]
  bufferFits := by simp [Lane.initial]
  receivedFits := by simp [Lane.initial]
  writtenFits := by simp [Lane.initial]
  limitFits := by simp [Lane.initial]
  creditsFit := by simp [Lane.initial]
  announcedFits := by simp [Lane.initial]
  creditReturned := by simp [Lane.initial, flow.positive]
  creditDue := Or.inl rfl
  overReturned := by simp [Lane.initial]

/-- A sender that may write has sent nothing but data. -/
theorem pending_isData (invariant : lane.Invariant flow) (sending : lane.senderOver = false)
    (unfinished : lane.finished = false) : ∀ item ∈ lane.pending, item.isData = true := by
  intro item member
  cases item with
  | data chunk => rfl
  | finish => exact absurd member (invariant.unfinished unfinished).1
  | aborted =>
      have isOver := invariant.overSent member
      simp [sending] at isOver

theorem received_add_pending_le (invariant : lane.Invariant flow) :
    lane.received + (contents lane.pending).length ≤ lane.written.length := by
  have arrivedLength := invariant.arrives.length_le
  have received := invariant.receivedFits
  simp only [List.length_append] at arrivedLength
  omega

/-- A queued item: written data, or the finish. -/
theorem push (invariant : lane.Invariant flow) (sending : lane.senderOver = false)
    (unfinished : lane.finished = false) {item : Item Symbol} (notOver : item ≠ .aborted)
    (fits : lane.written.length + item.symbols.length ≤ lane.limit) :
    Invariant flow { lane with
      written := lane.written ++ item.symbols
      finished := !item.isData
      queue := lane.queue ++ [item] } := by
  have allData := invariant.pending_isData sending unfinished
  have isComplete : lane.delivered ++ contents lane.pending = lane.written :=
    invariant.complete (Or.inl sending)
  have notFinished := (invariant.unfinished unfinished).2
  have pending_eq : ({ lane with
      written := lane.written ++ item.symbols
      finished := !item.isData
      queue := lane.queue ++ [item] } : Lane Symbol).pending = lane.pending ++ [item] := by
    simp [pending]
  have mem_pending {other : Item Symbol} (member : other ∈ lane.pending ++ [item]) :
      other ∈ lane.pending ∨ other = item := by
    simpa using member
  exact { invariant with
    ordered := by
      rw [pending_eq]
      exact inOrder_append_of_isData allData item
    queueEmpty := by simp [sending]
    overSent := by
      rw [pending_eq]
      intro member
      rcases mem_pending member with earlier | last
      · exact invariant.overSent earlier
      · exact absurd last.symm notOver
    unfinished := by
      rw [pending_eq]
      intro isData
      refine ⟨fun member => ?_, notFinished⟩
      rcases mem_pending member with earlier | last
      · exact (invariant.unfinished unfinished).1 earlier
      · subst last
        simp [Item.isData] at isData
    afterFinish := by simp [notFinished]
    afterOver := by
      intro isOver kept
      have ended := (invariant.afterOver isOver kept).1
      simp [sending] at ended
    arrives := by
      rw [pending_eq]
      simp [← isComplete]
    complete := by
      rw [pending_eq]
      simp [← isComplete]
    writtenFits := by simpa using fits }

/-- The sender's end ends: what it had queued is lost, unless the finish was already sent. -/
theorem stopSending (invariant : lane.Invariant flow) :
    Invariant flow { lane with senderOver := true, queue := [] } := by
  have pending_eq : ({ lane with senderOver := true, queue := [] } : Lane Symbol).pending =
      lane.channel := by
    simp [pending]
  have mem_pending {item : Item Symbol} (member : item ∈ lane.channel) : item ∈ lane.pending :=
    List.mem_append_left _ member
  have onlyOver (only : OnlyOver lane.pending) : OnlyOver lane.channel :=
    fun item member => only item (mem_pending member)
  exact { invariant with
    ordered := by
      rw [pending_eq]
      exact invariant.ordered.left
    queueEmpty := fun _ => rfl
    overSent := fun _ => rfl
    unfinished := by
      rw [pending_eq]
      exact fun unfinished =>
        (invariant.unfinished unfinished).imp_left fun absent member => absent (mem_pending member)
    afterFinish := by
      rw [pending_eq]
      exact fun finished => onlyOver (invariant.afterFinish finished)
    afterOver := by
      rw [pending_eq]
      exact fun isOver kept => ⟨rfl, onlyOver (invariant.afterOver isOver kept).2⟩
    arrives := by
      rw [pending_eq]
      refine List.IsPrefix.trans ?_ invariant.arrives
      simp [pending]
    complete := by
      rw [pending_eq]
      intro finishes
      rcases finishes with sending | finishes
      · simp at sending
      have queueContents : contents lane.queue = [] := by
        rcases finishes with inChannel | finished
        · exact invariant.ordered.contents_right_of_finish inChannel
        · have none := (invariant.afterFinish finished).contents_eq_nil
          simp only [pending, contents_append, List.append_eq_nil_iff] at none
          exact none.2
      have isComplete := invariant.complete (Or.inr (finishes.imp_left mem_pending))
      simpa [pending, queueContents] using isComplete
    overReturned := fun _ => Or.inl rfl }

theorem endSending (invariant : lane.Invariant flow) :
    Invariant flow (lane.perform flow .endSending) := by
  have stopped := invariant.stopSending
  have pending_eq : (lane.perform flow .endSending).pending = lane.channel ++ [.aborted] := by
    simp [perform, pending]
  have stopped_eq : ({ lane with senderOver := true, queue := [] } : Lane Symbol).pending =
      lane.channel := by
    simp [pending]
  have mem_channel {item : Item Symbol} (member : item ∈ lane.channel ++ [Item.aborted])
      (notOver : item ≠ .aborted) : item ∈ lane.channel := by
    rcases List.mem_append.mp member with earlier | last
    · exact earlier
    · exact absurd (by simpa using last) notOver
  have onlyOver (only : OnlyOver lane.channel) : OnlyOver (lane.channel ++ [.aborted]) := by
    intro item member
    rcases List.mem_append.mp member with earlier | last
    · exact only item earlier
    · simpa using last
  have same : contents (lane.channel ++ [Item.aborted]) = contents lane.channel := by
    simp [Item.symbols]
  rw [show lane.perform flow .endSending = { lane with
    senderOver := true, queue := [], channel := lane.channel ++ [.aborted] } from rfl] at pending_eq ⊢
  exact { stopped with
    ordered := by
      rw [pending_eq]
      exact (stopped_eq ▸ stopped.ordered).append_over
    overSent := fun _ => rfl
    unfinished := by
      rw [pending_eq]
      intro unfinished
      have none := stopped.unfinished unfinished
      rw [stopped_eq] at none
      exact ⟨fun member => none.1 (mem_channel member (by simp)), none.2⟩
    afterFinish := by
      rw [pending_eq]
      exact fun finished => onlyOver (stopped_eq ▸ stopped.afterFinish finished)
    afterOver := by
      rw [pending_eq]
      exact fun isOver kept => ⟨rfl, onlyOver (stopped_eq ▸ (stopped.afterOver isOver kept).2)⟩
    arrives := by
      rw [pending_eq, same]
      exact stopped_eq ▸ stopped.arrives
    complete := by
      rw [pending_eq, same]
      intro finishes
      have isComplete := stopped.complete
      rw [stopped_eq] at isComplete
      exact isComplete (finishes.imp_right fun later =>
        later.imp_left fun member => mem_channel member (by simp)) }

theorem forward (invariant : lane.Invariant flow) :
    Invariant flow (lane.perform flow .forward) := by
  cases queued : lane.queue with
  | nil => simpa [perform, queued] using invariant
  | cons item queue =>
      have pending_eq : (lane.perform flow .forward).pending = lane.pending := by
        simp [perform, pending, queued]
      have same : lane.perform flow .forward =
          { lane with queue, channel := lane.channel ++ [item] } := by
        simp [perform, queued]
      rw [same] at pending_eq ⊢
      exact { invariant with
        ordered := by rw [pending_eq]; exact invariant.ordered
        queueEmpty := by
          intro ended
          have empty := invariant.queueEmpty ended
          simp [queued] at empty
        overSent := by rw [pending_eq]; exact invariant.overSent
        unfinished := by rw [pending_eq]; exact invariant.unfinished
        afterFinish := by rw [pending_eq]; exact invariant.afterFinish
        afterOver := by rw [pending_eq]; exact invariant.afterOver
        arrives := by rw [pending_eq]; exact invariant.arrives
        complete := by rw [pending_eq]; exact invariant.complete }

section Deliver

variable {channel : List (Item Symbol)} {chunk : List Symbol} {item : Item Symbol}

theorem pending_of_head (head : lane.channel = item :: channel) :
    lane.pending = item :: (channel ++ lane.queue) := by
  simp [pending, head]

theorem mem_pending_of_tail (head : lane.channel = item :: channel) {other : Item Symbol}
    (member : other ∈ channel ++ lane.queue) : other ∈ lane.pending := by
  rw [pending_of_head head]
  exact List.mem_cons_of_mem _ member

theorem ordered_tail (invariant : lane.Invariant flow) (head : lane.channel = item :: channel) :
    InOrder (channel ++ lane.queue) := by
  have whole := invariant.ordered
  rw [pending_of_head head] at whole
  exact whole.tail

theorem not_peerFinished_of_data (invariant : lane.Invariant flow)
    (head : lane.channel = .data chunk :: channel) : lane.peerFinished = false := by
  cases finished : lane.peerFinished with
  | false => rfl
  | true =>
      have isOver := invariant.afterFinish finished (.data chunk) (by simp [pending, head])
      simp at isOver

theorem abandoned_of_data (invariant : lane.Invariant flow)
    (head : lane.channel = .data chunk :: channel) (isOver : lane.receiverOver = true) :
    lane.abandoned = true := by
  cases abandoned : lane.abandoned with
  | true => rfl
  | false =>
      have only := (invariant.afterOver isOver abandoned).2
      have isOver := only (.data chunk) (by simp [pending, head])
      simp at isOver

/-- The receiver always has room for what arrives: the sender kept to the limits it was given. -/
theorem received_add_chunk_le (invariant : lane.Invariant flow)
    (head : lane.channel = .data chunk :: channel) :
    lane.received + chunk.length ≤ lane.announced := by
  have fits := invariant.received_add_pending_le
  have written := invariant.writtenFits
  have limit := invariant.limitFits
  simp only [pending_of_head head, contents_cons, Item.symbols, List.length_append] at fits
  omega

theorem deliver_data (invariant : lane.Invariant flow)
    (head : lane.channel = .data chunk :: channel) :
    Invariant flow (takeItem { lane with channel } (.data chunk)) := by
  have running := invariant.not_peerFinished_of_data head
  have shifted : lane.delivered ++ contents lane.pending =
      (lane.delivered ++ chunk) ++ contents (channel ++ lane.queue) := by
    simp [pending_of_head head, Item.symbols]
  have complete (finishes : lane.senderOver = false ∨ Item.finish ∈ channel ++ lane.queue ∨
      lane.peerFinished = true) :
      (lane.delivered ++ chunk) ++ contents (channel ++ lane.queue) = lane.written :=
    shifted ▸ invariant.complete
      (finishes.imp_right fun later => later.imp_left (mem_pending_of_tail head))
  have unfinished (unfinished : lane.finished = false) :
      Item.finish ∉ channel ++ lane.queue ∧ lane.peerFinished = false :=
    ⟨fun member => (invariant.unfinished unfinished).1 (mem_pending_of_tail head member), running⟩
  have receivedFits : lane.received + chunk.length ≤ (lane.delivered ++ chunk).length := by
    simpa using invariant.receivedFits
  rcases Bool.eq_false_or_eq_true lane.receiverOver with isOver | isOver
  · have abandoned := invariant.abandoned_of_data head isOver
    have dropped : takeItem { lane with channel } (.data chunk) =
        { lane with channel, delivered := lane.delivered ++ chunk } := by
      simp [takeItem, isOver]
    rw [dropped]
    exact { invariant with
      ordered := invariant.ordered_tail head
      overSent := fun member => invariant.overSent (mem_pending_of_tail head member)
      unfinished := unfinished
      afterFinish := fun finished => by simp [running] at finished
      afterOver := fun _ kept => by simp [abandoned] at kept
      arrives := shifted ▸ invariant.arrives
      complete := complete
      kept := invariant.kept.trans (List.prefix_append ..)
      allKept := fun kept => by simp [abandoned] at kept
      receivedFits := (Nat.le_add_right ..).trans receivedFits }
  · have kept : takeItem { lane with channel } (.data chunk) =
        { lane with
          channel
          delivered := lane.delivered ++ chunk
          received := lane.received + chunk.length
          inbound := lane.inbound ++ [chunk] } := by
      simp [takeItem, isOver, running]
    have notAbandoned : lane.abandoned = false := by
      cases abandoned : lane.abandoned with
      | false => rfl
      | true =>
          rcases invariant.abandonedOver abandoned with ended | finished
          · simp [isOver] at ended
          · simp [running] at finished
    have allKept : lane.read ++ (lane.inbound ++ [chunk]).flatten = lane.delivered ++ chunk := by
      simp [← invariant.allKept notAbandoned]
    rw [kept]
    exact { invariant with
      ordered := invariant.ordered_tail head
      overSent := fun member => invariant.overSent (mem_pending_of_tail head member)
      unfinished := unfinished
      afterFinish := fun finished => by simp [running] at finished
      afterOver := fun ended => by simp [isOver] at ended
      arrives := shifted ▸ invariant.arrives
      complete := complete
      kept := by
        show lane.read ++ (lane.inbound ++ [chunk]).flatten <+: _
        rw [allKept]
      allKept := fun _ => allKept
      bufferFits := by
        have fits := invariant.bufferFits
        simp only [List.flatten_append, List.length_append, List.flatten_cons, List.flatten_nil,
          List.append_nil]
        omega
      receivedFits := receivedFits }

theorem deliver_finish (invariant : lane.Invariant flow)
    (head : lane.channel = .finish :: channel) :
    Invariant flow (takeItem { lane with channel } .finish) := by
  have pending_eq := pending_of_head head
  have only : OnlyOver (channel ++ lane.queue) := by
    have ordered := invariant.ordered
    rw [pending_eq] at ordered
    exact ordered
  have finishing : Item.finish ∈ lane.pending := by simp [pending_eq]
  have same : lane.delivered ++ contents (channel ++ lane.queue) = lane.written := by
    have isComplete := invariant.complete (Or.inr (Or.inl finishing))
    simpa [pending_eq, Item.symbols] using isComplete
  exact { invariant with
    ordered := only.inOrder
    overSent := fun member => invariant.overSent (mem_pending_of_tail head member)
    unfinished := fun unfinished => absurd finishing (invariant.unfinished unfinished).1
    afterFinish := fun _ => only
    afterOver := fun isOver kept => ⟨(invariant.afterOver isOver kept).1, only⟩
    arrives := by
      show lane.delivered ++ contents (channel ++ lane.queue) <+: lane.written
      rw [same]
    complete := fun _ => same
    abandonedOver := fun _ => Or.inr rfl
    creditReturned := by simp [takeItem] }

theorem deliver_over (invariant : lane.Invariant flow)
    (head : lane.channel = .aborted :: channel) :
    Invariant flow (takeItem { lane with channel } .aborted) := by
  have pending_eq := pending_of_head head
  have only : OnlyOver (channel ++ lane.queue) := by
    have ordered := invariant.ordered
    rw [pending_eq] at ordered
    exact ordered
  have ended : lane.senderOver = true := invariant.overSent (by simp [pending_eq])
  have same : contents lane.pending = contents (channel ++ lane.queue) := by
    simp [pending_eq, Item.symbols]
  exact { invariant with
    ordered := only.inOrder
    overSent := fun _ => ended
    unfinished := fun unfinished =>
      (invariant.unfinished unfinished).imp_left
        (fun absent member => absent (mem_pending_of_tail head member))
    afterFinish := fun _ => only
    afterOver := fun _ _ => ⟨ended, only⟩
    arrives := same ▸ invariant.arrives
    complete := fun finishes =>
      same ▸ invariant.complete
        (finishes.imp_right fun later => later.imp_left (mem_pending_of_tail head))
    abandonedOver := fun _ => Or.inl rfl
    overReturned := fun _ => Or.inl ended }

theorem deliver (invariant : lane.Invariant flow) :
    Invariant flow (lane.perform flow .deliver) := by
  cases head : lane.channel with
  | nil => simpa [perform, head] using invariant
  | cons item channel =>
      simp only [perform, head]
      cases item with
      | data chunk => exact invariant.deliver_data head
      | finish => exact invariant.deliver_finish head
      | aborted => exact invariant.deliver_over head

end Deliver

theorem read (invariant : lane.Invariant flow) : Invariant flow (lane.perform flow .read) := by
  cases buffered : lane.inbound with
  | nil => simpa [perform, buffered] using invariant
  | cons chunk inbound =>
      have moved : (lane.read ++ chunk) ++ inbound.flatten = lane.read ++ lane.inbound.flatten := by
        simp [buffered]
      have readFits : (lane.read ++ chunk).length + inbound.flatten.length ≤ lane.received := by
        have fits := invariant.bufferFits
        simp only [buffered, List.flatten_cons, List.length_append] at fits ⊢
        omega
      have announcedFits := invariant.announcedFits
      have limitFits := invariant.limitFits
      simp only [perform, buffered, returnCredit]
      split
      next due =>
        simp only [Bool.and_eq_true, decide_eq_true_eq] at due
        have positive := flow.positive
        exact { invariant with
          kept := moved ▸ invariant.kept
          allKept := fun kept => moved ▸ invariant.allKept kept
          bufferFits := readFits
          limitFits := by
            show lane.limit ≤ (lane.read ++ chunk).length + flow.window
            omega
          creditsFit := by
            intro limit member
            rcases List.mem_append.mp member with earlier | last
            · have fits := invariant.creditsFit limit earlier
              show limit ≤ (lane.read ++ chunk).length + flow.window
              omega
            · simp only [List.mem_singleton, Return.credit.injEq] at last
              exact last.le
          announcedFits := le_rfl
          creditReturned := fun _ => Nat.lt_add_of_pos_right positive
          creditDue := Or.inr (by simp)
          overReturned := fun ended =>
            (invariant.overReturned ended).imp_right (List.mem_append_left _) }
      next early =>
        exact { invariant with
          kept := moved ▸ invariant.kept
          allKept := fun kept => moved ▸ invariant.allKept kept
          bufferFits := readFits
          announcedFits := by
            show lane.announced ≤ (lane.read ++ chunk).length + flow.window
            simp only [List.length_append]
            omega
          creditReturned := by
            intro running
            simpa [show lane.peerFinished = false from running] using early }

theorem endReceiving (invariant : lane.Invariant flow) :
    Invariant flow (lane.perform flow .endReceiving) :=
  { invariant with
    afterOver := fun _ kept => by simp [perform] at kept
    allKept := fun kept => by simp [perform] at kept
    abandonedOver := fun _ => Or.inl rfl
    creditsFit := by simpa [perform] using invariant.creditsFit
    creditDue := by simpa [perform] using invariant.creditDue
    overReturned := fun _ => Or.inr (by simp [perform]) }

theorem release (invariant : lane.Invariant flow)
    (ended : lane.receiverOver = true ∨ lane.peerFinished = true) :
    Invariant flow (lane.perform flow .release) :=
  { invariant with
    afterOver := fun _ kept => by simp [perform] at kept
    kept := by
      simpa [perform] using (List.prefix_append _ _).trans invariant.kept
    allKept := fun kept => by simp [perform] at kept
    abandonedOver := fun _ => ended
    bufferFits := by
      have fits := invariant.bufferFits
      simp only [perform, List.flatten_nil, List.length_nil]
      omega }

theorem answer (invariant : lane.Invariant flow) :
    Invariant flow (lane.perform flow .answer) := by
  cases head : lane.returns with
  | nil => simpa [perform, head] using invariant
  | cons answer returns =>
      simp only [perform, head]
      have mem_returns {other : Return} (member : other ∈ returns) : other ∈ lane.returns := by
        simp [head, member]
      cases answer with
      | credit limit =>
          have fits : limit ≤ lane.announced := invariant.creditsFit limit (by simp [head])
          have limitFits := invariant.limitFits
          exact { invariant with
            writtenFits := invariant.writtenFits.trans (le_max_left ..)
            limitFits := max_le limitFits fits
            creditsFit := fun other member => invariant.creditsFit other (mem_returns member)
            creditDue := by
              rcases invariant.creditDue with holds | due
              · exact Or.inl (by simp [takeReturn, holds, fits])
              · rcases List.mem_cons.mp (head ▸ due) with first | later
                · simp only [Return.credit.injEq] at first
                  exact Or.inl (by simp [takeReturn, ← first, limitFits])
                · exact Or.inr later
            overReturned := fun ended => by
              rcases invariant.overReturned ended with sender | member
              · exact Or.inl sender
              · have later : Return.aborted ∈ returns := by simpa [head] using member
                exact Or.inr later }
      | aborted =>
          exact { invariant.stopSending with
            creditsFit := fun other member => invariant.creditsFit other (mem_returns member)
            creditDue := by
              rcases invariant.creditDue with holds | due
              · exact Or.inl holds
              · have later : Return.credit lane.announced ∈ returns := by simpa [head] using due
                exact Or.inr later
            overReturned := fun _ => Or.inl rfl }

/-- Every step of a lane keeps the invariant. -/
theorem perform (invariant : lane.Invariant flow) (action : LaneAction Symbol)
    (enabled : lane.Enabled action) : Invariant flow (lane.perform flow action) := by
  cases action with
  | write chunk =>
      rcases enabled with ⟨sending, unfinished, fits⟩
      have pushed := invariant.push sending unfinished (by simp : Item.data chunk ≠ .aborted) fits
      have sameFlag : lane.finished = !(Item.data chunk).isData := by simp [unfinished, Item.isData]
      simpa [Lane.perform, Item.symbols, sameFlag] using pushed
  | finish =>
      rcases enabled with ⟨sending, unfinished⟩
      have pushed := invariant.push sending unfinished (by simp : (Item.finish : Item Symbol) ≠ .aborted)
        (by simpa [Item.symbols] using invariant.writtenFits)
      simpa [Lane.perform, Item.symbols, Item.isData] using pushed
  | endSending => exact invariant.endSending
  | forward => exact invariant.forward
  | deliver => exact invariant.deliver
  | read => exact invariant.read
  | endReceiving => exact invariant.endReceiving
  | release => exact invariant.release enabled
  | answer => exact invariant.answer

end Invariant

/-- What holds of every lane, at every moment of every run. -/
theorem invariant_of_reachable {lane : Lane Symbol}
    (reached : (laneSystem Symbol flow).Reachable lane) : lane.Invariant flow := by
  refine reached.invariant (Invariant flow) ?_ ?_
  · intro lane starts
    rw [show lane = Lane.initial flow from starts]
    exact Invariant.initial
  · intro lane action next invariant steps
    rcases steps with ⟨enabled, rfl⟩
    exact invariant.perform action enabled

/-! ## What the invariant says -/

namespace Invariant

variable {lane : Lane Symbol}

theorem read_prefix (invariant : lane.Invariant flow) : lane.read <+: lane.written :=
  ((List.prefix_append _ _).trans invariant.kept).trans
    ((List.prefix_append _ _).trans invariant.arrives)

/-- A reader that took everything up to the finish has everything that was written. -/
theorem read_eq_written (invariant : lane.Invariant flow) (finished : lane.peerFinished = true)
    (taken : lane.inbound = []) (kept : lane.abandoned = false) : lane.read = lane.written := by
  have isComplete := invariant.complete (Or.inr (Or.inr finished))
  have allKept := invariant.allKept kept
  simp only [taken, List.flatten_nil, List.append_nil,
    (invariant.afterFinish finished).contents_eq_nil] at isComplete allKept
  exact allKept.trans isComplete

end Invariant

/-- The highest limit the sender holds or has coming. -/
def lastCredit (limit : ℕ) : List Return → ℕ
  | [] => limit
  | .credit other :: returns => max other (lastCredit limit returns)
  | .aborted :: returns => lastCredit limit returns

theorem lastCredit_le {limit bound : ℕ} {returns : List Return} (limitFits : limit ≤ bound)
    (creditsFit : ∀ other, Return.credit other ∈ returns → other ≤ bound) :
    lastCredit limit returns ≤ bound := by
  induction returns with
  | nil => exact limitFits
  | cons answer returns hypothesis =>
      have rest := hypothesis fun other member => creditsFit other (List.mem_cons_of_mem _ member)
      cases answer with
      | credit other => exact max_le (creditsFit other (List.mem_cons_self ..)) rest
      | aborted => exact rest

/-- The share of the window in use: symbols on the way, symbols not read, credit the sender
holds, credit on its way to the sender, and credit the receiver has yet to return. -/
def windowUse (flow : Flow) (lane : Lane Symbol) : ℕ :=
  (contents lane.pending).length + lane.inbound.flatten.length
    + (lane.limit - lane.written.length)
    + (lastCredit lane.limit lane.returns - lane.limit)
    + (lane.read.length + flow.window - lane.announced)

namespace Invariant

variable {lane : Lane Symbol}

theorem windowUse_le (invariant : lane.Invariant flow) : lane.windowUse flow ≤ flow.window := by
  have received := invariant.received_add_pending_le
  have buffered := invariant.bufferFits
  have written := invariant.writtenFits
  have credits := lastCredit_le invariant.limitFits invariant.creditsFit
  have announced := invariant.announcedFits
  have limit := invariant.limitFits
  simp only [windowUse]
  omega

/-- A sender without credit whose symbols were all read has credit coming, or the receiver's end
of the stream. -/
theorem return_of_blocked (invariant : lane.Invariant flow) (sending : lane.senderOver = false)
    (unfinished : lane.finished = false) (blocked : lane.limit ≤ lane.written.length)
    (nothingPending : contents lane.pending = [])
    (taken : lane.receiverOver = false → lane.inbound.flatten = []) :
    (∃ limit, lane.limit < limit ∧ Return.credit limit ∈ lane.returns) ∨
      Return.aborted ∈ lane.returns := by
  have running := (invariant.unfinished unfinished).2
  rcases Bool.eq_false_or_eq_true lane.receiverOver with ended | receiving
  · rcases invariant.overReturned ended with senderEnded | member
    · simp [sending] at senderEnded
    · exact Or.inr member
  have kept : lane.abandoned = false := by
    cases abandoned : lane.abandoned with
    | false => rfl
    | true =>
        rcases invariant.abandonedOver abandoned with ended | finished
        · simp [receiving] at ended
        · simp [running] at finished
  have allRead : lane.read = lane.written := by
    have isComplete := invariant.complete (Or.inl sending)
    have allKept := invariant.allKept kept
    simp only [taken receiving, nothingPending, List.append_nil] at isComplete allKept
    exact allKept.trans isComplete
  have returned := invariant.creditReturned running
  have fits := flow.fits
  have limitFits := invariant.limitFits
  rw [allRead] at returned
  have behind : lane.limit < lane.announced := by omega
  rcases invariant.creditDue with holds | due
  · omega
  · exact Or.inl ⟨lane.announced, behind, due⟩

end Invariant

end Lane

end CreditLane
