import Condr.Terminal.HookCut

/-!
# Cutting hook events out of the stream

The bytes for the terminal library and the reported events, in their order, are those of one scan
over all the output, however it arrived in reads. An encoded event is reported wherever it stands
in the output: no event before it reaches over its first byte.
-/

namespace Condr

open Scanner

/-! ## What a read does -/

/-- What the terminal keeps for the next read. -/
structure Vt where
  /-- The start of a hook event that the last read ended inside. -/
  hookHeld : List UInt8
deriving DecidableEq

theorem lt_of_nextHookCut {offset start bodyStart bodyEnd finish : ℕ} {bytes : List UInt8}
    (found : nextHookCut offset bytes = some (.event start bodyStart bodyEnd finish)) :
    offset ≤ start ∧ start < finish ∧ finish ≤ offset + bytes.length := by
  induction bytes generalizing offset with
  | nil => cases found
  | cons byte rest ih =>
      rw [nextHookCut] at found
      have later := @ih (offset + 1)
      simp only [List.length_cons]
      split_ifs at found
      · split at found
        · have inside := later found
          omega
        · cases found
        · next body stop event =>
            cases found
            rcases exists_of_event event with ⟨text, terminator, more, split, -, ends, rfl, rfl⟩
            have length := congrArg List.length split
            simp only [List.length_cons, List.length_append] at length
            have opener := length_hookOpener
            omega
      · have inside := later found
        omega

/-- Takes the events out of what is left, and hands on what is between them. -/
def writeRest (rest : List UInt8) : List Handed × List UInt8 :=
  match _found : nextHookCut 0 rest with
  | none => (parse rest, [])
  | some (.unfinished start) => (parse (rest.take start), rest.drop start)
  | some (.event start bodyStart bodyEnd finish) =>
      let body := (rest.take bodyEnd).drop bodyStart
      let behind := writeRest (rest.drop finish)
      (parse (rest.take start) ++ .notification hookTitle (Utf8.fromUtf8Lossy body) :: behind.1,
        behind.2)
termination_by rest.length
decreasing_by
  have inside := lt_of_nextHookCut ‹_›
  rw [List.length_drop]
  omega

/-- Parses program output, behind what the last read held. -/
def Vt.write (vt : Vt) (bytes : List UInt8) : List Handed × Vt :=
  let written := writeRest (vt.hookHeld ++ bytes)
  (written.1, { hookHeld := written.2 })

def Vt.new : Vt where
  hookHeld := []

/-- The reads one after another. -/
def Vt.writes (vt : Vt) : List (List UInt8) → List Handed × Vt
  | [] => ([], vt)
  | bytes :: reads =>
      let (handed, next) := vt.write bytes
      let (later, last) := next.writes reads
      (handed ++ later, last)

/-! ## The stream -/

/-- One step of the stream: a byte for the library, or a reported event. -/
inductive StreamItem where
  | byte (byte : UInt8)
  | notification (title body : String)
deriving DecidableEq

/-- The bytes and the events, in their order. -/
def stream (handed : List Handed) : List StreamItem :=
  handed.flatMap fun part =>
    match part with
    | .output bytes => bytes.map .byte
    | .notification title body => [.notification title body]

/-- An event as it is reported. -/
def reported (body : List UInt8) : StreamItem :=
  .notification hookTitle (Utf8.fromUtf8Lossy body)

theorem stream_append (front back : List Handed) : stream (front ++ back) = stream front ++ stream back :=
  List.flatMap_append

theorem stream_parse (output : List UInt8) : stream (parse output) = output.map .byte := by
  cases output with
  | nil => rfl
  | cons byte rest => simp [parse, stream]

/-- One byte after another, and an event where one begins. -/
def nextItem : List UInt8 → Option (StreamItem × List UInt8)
  | [] => none
  | byte :: rest =>
      if byte = 27 then
        match candidate (byte :: rest) with
        | .other => some (.byte byte, rest)
        | .unfinished => none
        | .event body finish =>
            some (reported (((byte :: rest).take body).drop hookOpener.length),
              (byte :: rest).drop finish)
      else some (.byte byte, rest)

theorem nextItem_of_other {byte : UInt8} {rest : List UInt8}
    (other : byte = 27 → candidate (byte :: rest) = .other) :
    nextItem (byte :: rest) = some (.byte byte, rest) := by
  rw [nextItem]
  split_ifs with escape
  · rw [other escape]
  · rfl

theorem nextItem_of_event {byte : UInt8} {rest : List UInt8} {body finish : ℕ}
    (escape : byte = 27) (kind : candidate (byte :: rest) = .event body finish) :
    ∃ text terminator more, byte :: rest = hookOpener ++ text ++ terminator ++ more ∧
      Body text ∧ Ends terminator ∧ body = hookOpener.length + text.length ∧
      finish = body + terminator.length ∧ nextItem (byte :: rest) = some (reported text, more) := by
  rcases exists_of_event kind with ⟨text, terminator, more, split, plain, ends, rfl, rfl⟩
  refine ⟨text, terminator, more, split, plain, ends, rfl, rfl, ?_⟩
  have taken : ((hookOpener ++ text ++ terminator ++ more).take
      (hookOpener.length + text.length)).drop hookOpener.length = text := by
    rw [List.append_assoc (hookOpener ++ text), ← List.length_append, List.take_left,
      List.drop_left]
  have behind : (hookOpener ++ text ++ terminator ++ more).drop
      (hookOpener.length + text.length + terminator.length) = more := by
    rw [← List.length_append, ← List.length_append, List.drop_left]
  rw [nextItem, if_pos escape, kind]
  dsimp only
  rw [split, taken, behind]

/-- A step takes a byte or an event off the front. -/
theorem nextItem_cases {input rest : List UInt8} {item : StreamItem}
    (found : nextItem input = some (item, rest)) :
    (∃ byte, input = byte :: rest ∧ item = .byte byte) ∨
      ∃ text terminator, input = hookOpener ++ text ++ terminator ++ rest ∧ Body text ∧
        Ends terminator ∧ item = reported text := by
  cases input with
  | nil => cases found
  | cons byte behind =>
      by_cases escape : byte = 27
      · cases kind : candidate (byte :: behind) with
        | other =>
            rw [nextItem_of_other fun _ => kind] at found
            cases found
            exact .inl ⟨byte, rfl, rfl⟩
        | unfinished =>
            rw [nextItem, if_pos escape, kind] at found
            cases found
        | event body finish =>
            rcases nextItem_of_event escape kind with
              ⟨text, terminator, more, split, plain, ends, -, -, step⟩
            rw [step] at found
            cases found
            exact .inr ⟨text, terminator, split, plain, ends, rfl⟩
      · rw [nextItem_of_other fun same => absurd same escape] at found
        cases found
        exact .inl ⟨byte, rfl, rfl⟩

def hookScanner : Scanner UInt8 StreamItem where
  next := nextItem
  shorter := by
    intro input item rest found
    rcases nextItem_cases found with ⟨byte, rfl, -⟩ | ⟨text, terminator, rfl, -⟩
    · exact Nat.lt_succ_self _
    · have opener := length_hookOpener
      simp only [List.length_append]
      omega
  stable := by
    intro input item rest more found
    cases input with
    | nil => cases found
    | cons byte behind =>
        rw [List.cons_append, nextItem]
        rw [nextItem] at found
        split_ifs at found ⊢
        · have settled : candidate (byte :: behind) ≠ .unfinished := by
            intro unfinished
            rw [unfinished] at found
            cases found
          have same := candidate_append more settled
          rw [List.cons_append] at same
          rw [same]
          cases kind : candidate (byte :: behind) with
          | other =>
              rw [kind] at found
              cases found
              rfl
          | unfinished => exact absurd kind settled
          | event body finish =>
              rw [kind] at found
              cases found
              rcases exists_of_event kind with ⟨text, terminator, behind', split, -, -, rfl, rfl⟩
              have length := congrArg List.length split
              simp only [List.length_append] at length
              dsimp only
              rw [← List.cons_append, List.take_append_of_le_length (by omega),
                List.drop_append_of_le_length (by omega)]
        · cases found
          rfl

theorem scan_of_byte {byte : UInt8} {rest : List UInt8}
    (found : nextItem (byte :: rest) = some (.byte byte, rest)) :
    hookScanner.scan (byte :: rest) =
      (.byte byte :: (hookScanner.scan rest).1, (hookScanner.scan rest).2) :=
  scan_of_some found

/-- What the stream has where the next cut is. -/
inductive CutAt (offset : ℕ) (bytes : List UInt8) : Option HookCut → Prop where
  | none (plain : hookScanner.scan bytes = (bytes.map .byte, [])) : CutAt offset bytes none
  | unfinished (front : List UInt8) {held : List UInt8} (split : bytes = front ++ held)
      (scan : hookScanner.scan bytes = (front.map .byte, held)) :
      CutAt offset bytes (some (.unfinished (offset + front.length)))
  | event (front : List UInt8) {text terminator more : List UInt8}
      (split : bytes = front ++ (hookOpener ++ text ++ terminator ++ more))
      (scan : hookScanner.scan bytes = (front.map .byte ++ reported text ::
        (hookScanner.scan more).1, (hookScanner.scan more).2)) :
      CutAt offset bytes (some (.event (offset + front.length)
        (offset + front.length + hookOpener.length)
        (offset + front.length + hookOpener.length + text.length)
        (offset + front.length + hookOpener.length + text.length + terminator.length)))

theorem CutAt.cons {offset : ℕ} {byte : UInt8} {rest : List UInt8} {cut : Option HookCut}
    (found : nextItem (byte :: rest) = some (.byte byte, rest))
    (later : CutAt (offset + 1) rest cut) : CutAt offset (byte :: rest) cut := by
  have step := scan_of_byte found
  cases later with
  | none plain =>
      apply CutAt.none
      rw [step, plain]
      rfl
  | unfinished front split scan =>
      have place : offset + 1 + front.length = offset + (byte :: front).length := by
        rw [List.length_cons]
        omega
      rw [place]
      apply CutAt.unfinished (byte :: front)
      · rw [split]
        rfl
      · rw [step, scan]
        rfl
  | event front split scan =>
      have place : offset + 1 + front.length = offset + (byte :: front).length := by
        rw [List.length_cons]
        omega
      rw [place]
      apply CutAt.event (byte :: front)
      · rw [split]
        rfl
      · rw [step, scan]
        rfl

theorem cutAt_nextHookCut (offset : ℕ) (bytes : List UInt8) :
    CutAt offset bytes (nextHookCut offset bytes) := by
  induction bytes generalizing offset with
  | nil => exact .none (scan_of_none rfl)
  | cons byte rest ih =>
      rw [nextHookCut]
      split_ifs with escape
      · cases kind : candidate (byte :: rest) with
        | other =>
            exact CutAt.cons (nextItem_of_other fun _ => kind) (ih (offset + 1))
        | unfinished =>
            apply CutAt.unfinished [] rfl
            apply scan_of_none
            exact (if_pos escape).trans (by rw [kind])
        | event body finish =>
            rcases nextItem_of_event escape kind with
              ⟨text, terminator, more, split, -, -, rfl, rfl, found⟩
            have scanned : hookScanner.scan (byte :: rest) = _ := scan_of_some found
            have cut : CutAt offset (byte :: rest) _ := .event [] split scanned
            simpa [Nat.add_assoc] using cut
      · exact CutAt.cons (nextItem_of_other fun same => absurd same escape) (ih (offset + 1))

/-- A read hands on the stream of what it was given, and holds what is left of it. -/
theorem stream_writeRest (rest : List UInt8) :
    (stream (writeRest rest).1, (writeRest rest).2) = hookScanner.scan rest := by
  induction length : rest.length using Nat.strongRecOn generalizing rest with
  | ind count ih =>
      have cut := cutAt_nextHookCut 0 rest
      rw [writeRest]
      split
      · next found =>
          rw [found] at cut
          cases cut with
          | none plain => rw [plain, stream_parse]
      · next start found =>
          rw [found] at cut
          cases cut with
          | unfinished front split scan =>
              rw [scan, split, Nat.zero_add, List.take_left, List.drop_left, stream_parse]
      · next start bodyStart bodyEnd finish found =>
          rw [found] at cut
          cases cut with
          | @event front text terminator more split scan =>
              have before : rest.take (0 + front.length) = front := by
                rw [split, Nat.zero_add, List.take_left]
              have body : (rest.take (0 + front.length + hookOpener.length + text.length)).drop
                  (0 + front.length + hookOpener.length) = text := by
                have whole : rest = front ++ hookOpener ++ text ++ (terminator ++ more) := by
                  rw [split]
                  simp
                rw [whole, Nat.zero_add, ← List.length_append, ← List.length_append,
                  List.take_left, List.drop_left]
              have behind : rest.drop (0 + front.length + hookOpener.length + text.length +
                  terminator.length) = more := by
                have whole : rest = front ++ hookOpener ++ text ++ terminator ++ more := by
                  rw [split]
                  simp
                rw [whole, Nat.zero_add, ← List.length_append, ← List.length_append,
                  ← List.length_append, List.drop_left]
              have smaller : more.length < count := by
                have opener := length_hookOpener
                rw [← length, split]
                simp only [List.length_append]
                omega
              have later := ih more.length smaller more rfl
              rw [scan]
              dsimp only
              rw [before, body, behind, ← later, stream_append, stream_parse]
              rfl

/-- Reads hand on the stream of all the output, however it is split. -/
theorem stream_writes (vt : Vt) (reads : List (List UInt8)) (input : List UInt8)
    (held : (hookScanner.scan input).2 = vt.hookHeld) :
    ((hookScanner.scan input).1 ++ stream (vt.writes reads).1, (vt.writes reads).2.hookHeld) =
      hookScanner.scan (input ++ reads.flatten) := by
  induction reads generalizing vt input with
  | nil => simp [Vt.writes, stream, ← held]
  | cons bytes reads ih =>
      have written := stream_writeRest (vt.hookHeld ++ bytes)
      rw [Prod.ext_iff] at written
      have next : hookScanner.scan (input ++ bytes) =
          ((hookScanner.scan input).1 ++ stream (vt.write bytes).1,
            (vt.write bytes).2.hookHeld) := by
        rw [scan_append, held, ← written.1, ← written.2]
        rfl
      have later := ih (vt.write bytes).2 (input ++ bytes) (by rw [next])
      rw [next] at later
      rw [List.flatten_cons, ← List.append_assoc, ← later, Vt.writes]
      simp [stream_append]

/-! ## What is kept -/

/-- A stream spells the bytes it was cut from. -/
inductive Spells : List StreamItem → List UInt8 → Prop where
  | nil : Spells [] []
  | byte (byte : UInt8) {items : List StreamItem} {bytes : List UInt8}
      (rest : Spells items bytes) : Spells (.byte byte :: items) (byte :: bytes)
  | event {text terminator : List UInt8} {items : List StreamItem} {bytes : List UInt8}
      (plain : Body text) (ends : Ends terminator) (rest : Spells items bytes) :
      Spells (reported text :: items) (hookOpener ++ text ++ terminator ++ bytes)

/-- The bytes of the stream and those held are all there were, each once, and no more are held than
an event has. -/
theorem spells_scan (input : List UInt8) :
    (∃ front, Spells (hookScanner.scan input).1 front ∧
      front ++ (hookScanner.scan input).2 = input) ∧
      (hookScanner.scan input).2.length ≤ maxAgentEventBytes := by
  constructor
  · refine @scan_induction _ _ hookScanner
      (fun input => ∃ front, Spells (hookScanner.scan input).1 front ∧
        front ++ (hookScanner.scan input).2 = input) ?_ ?_ input
    · intro input wait
      rw [scan_of_none wait]
      exact ⟨[], .nil, rfl⟩
    · rintro input item rest found ⟨front, spelled, whole⟩
      rw [scan_of_some found]
      rcases nextItem_cases found with ⟨byte, rfl, rfl⟩ | ⟨text, terminator, rfl, plain, ends, rfl⟩
      · refine ⟨byte :: front, .byte byte spelled, ?_⟩
        rw [List.cons_append, whole]
      · refine ⟨_, .event plain ends spelled, ?_⟩
        rw [List.append_assoc, whole]
  · have wait : nextItem (hookScanner.scan input).2 = none :=
      @next_scan _ _ hookScanner input
    cases held : (hookScanner.scan input).2 with
    | nil => exact Nat.zero_le _
    | cons byte rest =>
        rw [held] at wait
        have unfinished : candidate (byte :: rest) = .unfinished := by
          rw [nextItem] at wait
          split_ifs at wait
          split at wait
          · cases wait
          · next same => exact same
          · cases wait
        exact (exists_of_unfinished unfinished).1

/-! ## An event anywhere in the output -/

def hookOpenerRest : List UInt8 := 93 :: Utf8.encode agentEventOscPrefix.toList

/-- Where the first escape behind bytes without one is. -/
theorem split_at_escape {plain rest front more : List UInt8} (noEscape : 27 ∉ plain)
    (same : plain ++ rest = front ++ 27 :: more) :
    ∃ between, front = plain ++ between ∧ rest = between ++ 27 :: more := by
  rcases List.append_eq_append_iff.mp same with ⟨between, split, behind⟩ | ⟨beyond, split, behind⟩
  · exact ⟨between, split, behind⟩
  · cases beyond with
    | nil => exact ⟨[], by simpa using split.symm, by simpa using behind.symm⟩
    | cons byte others =>
        rw [List.cons_append, List.cons.injEq] at behind
        refine absurd ?_ noEscape
        rw [split, ← behind.1]
        simp

/-- Bytes of an opener and a body have no escape but the first. -/
theorem not_mem_opener_body {text : List UInt8} (plain : Body text) :
    27 ∉ hookOpenerRest ++ text := by
  rw [List.mem_append, not_or]
  exact ⟨by decide, plain.2⟩

/-- No event reaches over the first byte of a sequence behind it. -/
theorem event_ends_before {front rest more text terminator : List UInt8} {byte : UInt8}
    (plain : Body text) (ends : Ends terminator)
    (same : byte :: front ++ 27 :: 93 :: more = hookOpener ++ text ++ terminator ++ rest) :
    ∃ behind, byte :: front = hookOpener ++ text ++ terminator ++ behind ∧
      rest = behind ++ 27 :: 93 :: more := by
  have shape : hookOpener ++ text ++ terminator ++ rest =
      27 :: ((hookOpenerRest ++ text) ++ (terminator ++ rest)) := by
    simp [hookOpener, hookOpenerRest]
  rw [shape, List.cons_append, List.cons.injEq] at same
  rcases same with ⟨rfl, same⟩
  rcases split_at_escape (not_mem_opener_body plain) same.symm with ⟨between, rfl, behind⟩
  rcases ends with rfl | rfl
  · rcases between with _ | ⟨first, between⟩
    · simp at behind
    · rw [List.cons_append, List.cons_append, List.nil_append, List.cons.injEq] at behind
      rcases behind with ⟨rfl, behind⟩
      exact ⟨between, by simp [hookOpener, hookOpenerRest], behind⟩
  · rcases between with _ | ⟨first, _ | ⟨second, between⟩⟩
    · simp at behind
    · simp at behind
    · simp only [List.cons_append, List.nil_append, List.cons.injEq] at behind
      rcases behind with ⟨rfl, rfl, behind⟩
      exact ⟨between, by simp [hookOpener, hookOpenerRest], behind⟩

/-- An escape with a sequence behind it can be told. -/
theorem candidate_ne_unfinished (front more : List UInt8) :
    candidate (27 :: front ++ 27 :: 93 :: more) ≠ .unfinished := by
  intro unfinished
  rcases (exists_of_unfinished unfinished).2 with ⟨rest, opener⟩ | ⟨text, plain, whole | whole⟩
  · have inside : 27 ∈ hookOpenerRest := by
      have tail := congrArg List.tail opener
      have rest : hookOpener.tail = hookOpenerRest := rfl
      rw [rest] at tail
      rw [tail]
      simp
    exact absurd inside (by decide)
  · have inside : 27 ∈ hookOpenerRest ++ text := by
      have tail := congrArg List.tail whole
      have rest : (hookOpener ++ text).tail = hookOpenerRest ++ text := rfl
      rw [rest] at tail
      rw [← tail]
      simp
    exact not_mem_opener_body plain inside
  · have tail := congrArg List.tail whole
    have rest : (hookOpener ++ text ++ [27]).tail = (hookOpenerRest ++ text) ++ [27] := rfl
    rw [rest] at tail
    rcases split_at_escape (not_mem_opener_body plain) tail.symm with ⟨between, -, behind⟩
    have length := congrArg List.length behind
    simp only [List.length_append, List.length_cons, List.length_nil] at length
    omega

theorem nextItem_of_bell {text : List UInt8} (plain : Body text)
    (small : hookOpener.length + text.length < maxAgentEventBytes) (back : List UInt8) :
    nextItem (hookOpener ++ text ++ 7 :: back) = some (reported text, back) := by
  have kind := @candidate_of_bell text back plain small
  have shape : hookOpener ++ text ++ 7 :: back = 27 :: (hookOpenerRest ++ text ++ 7 :: back) := rfl
  have taken : ((hookOpener ++ text ++ 7 :: back).take
      (hookOpener.length + text.length)).drop hookOpener.length = text := by
    rw [← List.length_append, List.take_left, List.drop_left]
  have behind : (hookOpener ++ text ++ 7 :: back).drop
      (hookOpener.length + text.length + 1) = back := by
    have whole : hookOpener ++ text ++ 7 :: back = hookOpener ++ text ++ [7] ++ back := by simp
    have length : hookOpener.length + text.length + 1 = (hookOpener ++ text ++ [7]).length := by
      simp [Nat.add_assoc]
    rw [whole, length, List.drop_left]
  rw [shape] at kind taken behind ⊢
  rw [nextItem, if_pos rfl, kind]
  dsimp only
  rw [taken, behind]

/-- Ahead of a sequence the scan takes a step within what is before it. -/
theorem nextItem_before {byte : UInt8} {front more : List UInt8} :
    ∃ item behind, nextItem (byte :: front ++ 27 :: 93 :: more) =
        some (item, behind ++ 27 :: 93 :: more) ∧ behind.length < (byte :: front).length ∧
      ∀ {items : List StreamItem}, Spells items behind → Spells (item :: items) (byte :: front) := by
  cases found : nextItem (byte :: front ++ 27 :: 93 :: more) with
  | none =>
      rw [List.cons_append, nextItem] at found
      split_ifs at found with escape
      split at found
      · cases found
      · next unfinished =>
          rw [escape] at unfinished
          exact absurd unfinished (candidate_ne_unfinished front more)
      · cases found
  | some step =>
      rcases step with ⟨item, rest⟩
      rcases nextItem_cases found with ⟨first, same, rfl⟩ | ⟨text, terminator, same, plain, ends, rfl⟩
      · rw [List.cons_append, List.cons.injEq] at same
        rcases same with ⟨rfl, rfl⟩
        exact ⟨_, front, rfl, Nat.lt_succ_self _, .byte byte⟩
      · rcases event_ends_before plain ends same with ⟨behind, split, rfl⟩
        refine ⟨_, behind, rfl, ?_, ?_⟩
        · have opener := length_hookOpener
          rw [split]
          simp only [List.length_append]
          omega
        · intro items spelled
          rw [split]
          exact .event plain ends spelled

/-- An event is reported wherever it stands, and what is behind it is read afresh. -/
theorem scan_insert {text : List UInt8} (plain : Body text)
    (small : hookOpener.length + text.length < maxAgentEventBytes) (front back : List UInt8) :
    ∃ before, Spells before front ∧
      hookScanner.scan (front ++ (hookOpener ++ text ++ 7 :: back)) =
        (before ++ reported text :: (hookScanner.scan back).1, (hookScanner.scan back).2) := by
  induction length : front.length using Nat.strongRecOn generalizing front with
  | ind count ih =>
      cases front with
      | nil => exact ⟨[], .nil, scan_of_some (nextItem_of_bell plain small back)⟩
      | cons byte front =>
          rcases @nextItem_before byte front
            (Utf8.encode agentEventOscPrefix.toList ++ text ++ 7 :: back) with
            ⟨item, behind, found, shorter, spells⟩
          rcases ih behind.length (length ▸ shorter) behind rfl with ⟨before, spelled, scanned⟩
          refine ⟨item :: before, spells spelled, ?_⟩
          have step : hookScanner.scan (byte :: front ++ (hookOpener ++ text ++ 7 :: back)) = _ :=
            scan_of_some found
          rw [step]
          have same : behind ++ 27 :: 93 ::
              (Utf8.encode agentEventOscPrefix.toList ++ text ++ 7 :: back) =
              behind ++ (hookOpener ++ text ++ 7 :: back) := rfl
          rw [same, scanned]
          rfl

/-- An encoded event is an opener, a body and BEL, and short enough. -/
theorem exists_body_of_encode {event : AgentEvent}
    (session : event.sessionId.all validSessionId = true)
    (prompt : event.promptId.all validPromptId = true) :
    ∃ text, event.encode = hookOpener ++ text ++ [7] ∧ Body text ∧
      hookOpener.length + text.length < maxAgentEventBytes := by
  rcases AgentEvent.exists_sent session prompt with ⟨sent, encoded, small, -, -⟩
  have shape : sent.sequence = hookOpener ++ Utf8.encode sent.toJson ++ [7] := by
    simp [AgentEvent.sequence, AgentEvent.payload, hookOpener, Utf8.encode]
  refine ⟨Utf8.encode sent.toJson, encoded.trans shape, ⟨?_, ?_⟩, ?_⟩
  · intro contained
    exact absurd (JsonText.le_of_mem_encode (AgentEvent.printed_toJson sent) contained) (by decide)
  · intro contained
    exact absurd (JsonText.le_of_mem_encode (AgentEvent.printed_toJson sent) contained) (by decide)
  · rw [shape] at small
    simp only [List.length_append, List.length_singleton] at small
    omega

theorem stream_writes_new (reads : List (List UInt8)) :
    (stream (Vt.new.writes reads).1, (Vt.new.writes reads).2.hookHeld) =
      hookScanner.scan reads.flatten := by
  have whole := stream_writes Vt.new reads [] (by rw [scan_of_none rfl]; rfl)
  rwa [scan_of_none (show hookScanner.next [] = none from rfl)] at whole

/-- However output is split into reads, the library gets the same bytes with the same events
between them; all of it is handed on once but for what is held, which is no longer than an event;
and an encoded event is reported wherever it stands. -/
theorem hook_cutting :
    (∀ reads others : List (List UInt8), reads.flatten = others.flatten →
      stream (Vt.new.writes reads).1 = stream (Vt.new.writes others).1 ∧
        (Vt.new.writes reads).2 = (Vt.new.writes others).2) ∧
    (∀ reads : List (List UInt8),
      (∃ front, Spells (stream (Vt.new.writes reads).1) front ∧
        front ++ (Vt.new.writes reads).2.hookHeld = reads.flatten) ∧
      (Vt.new.writes reads).2.hookHeld.length ≤ maxAgentEventBytes) ∧
    ∀ event : AgentEvent, event.sessionId.all validSessionId = true →
      event.promptId.all validPromptId = true →
      ∃ text, event.encode = hookOpener ++ text ++ [7] ∧
        ∀ (front back : List UInt8) (reads : List (List UInt8)),
          reads.flatten = front ++ event.encode ++ back →
          ∃ before after behind, stream (Vt.new.writes reads).1 = before ++ reported text :: after ∧
            Spells before front ∧ Spells after behind ∧
            behind ++ (Vt.new.writes reads).2.hookHeld = back := by
  have scanned := fun reads => Prod.ext_iff.mp (stream_writes_new reads)
  refine ⟨fun reads others same => ?_, fun reads => ?_, fun event session prompt => ?_⟩
  · have stream := (scanned reads).1.trans (same ▸ (scanned others).1.symm)
    have held := (scanned reads).2.trans (same ▸ (scanned others).2.symm)
    dsimp only at stream held
    exact ⟨stream, congrArg Vt.mk held⟩
  · have spelled := spells_scan reads.flatten
    rwa [← (scanned reads).1, ← (scanned reads).2] at spelled
  · rcases exists_body_of_encode session prompt with ⟨text, encoded, plain, small⟩
    refine ⟨text, encoded, fun front back reads whole => ?_⟩
    rcases scan_insert plain small front back with ⟨before, spelled, inserted⟩
    rcases (spells_scan back).1 with ⟨behind, after, rest⟩
    have arranged : reads.flatten = front ++ (hookOpener ++ text ++ 7 :: back) := by
      rw [whole, encoded]
      simp
    have stream := (scanned reads).1
    have held := (scanned reads).2
    rw [arranged, inserted] at stream held
    dsimp only at stream held
    rw [← held] at rest
    exact ⟨before, _, behind, stream, spelled, after, rest⟩

end Condr
