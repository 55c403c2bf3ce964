import Condr.Agent.Detector
import Condr.Foundation.JsonText

/-!
# The sequence a hook writes

An agent's event as an OSC 777 of JSON. The terminal library drops a longer sequence whole, so the
encoder drops what matters least until the rest fits. The ids and a source that says `compact` are
never dropped, which is what the receiver acts on.
-/

namespace Condr

open JsonText

/-- The wire spelling, which is also what `condr agent-hook` takes on its command line. -/
def AgentEventKind.name : AgentEventKind → String
  | .sessionStart => "session-start"
  | .promptSubmit => "prompt-submit"
  | .permissionRequest => "permission-request"
  | .questionAsked => "question-asked"
  | .toolStart => "tool-start"
  | .toolComplete => "tool-complete"
  | .stop => "stop"
  | .interrupt => "interrupt"
  | .stopFailure => "stop-failure"

/-- The names of the variants in lower case. -/
def AgentKind.serdeName : AgentKind → String
  | .claude => "claude"
  | .codex => "codex"
  | .openCode => "opencode"
  | .pi => "pi"
  | .omp => "omp"
  | .antigravity => "antigravity"
  | .grok => "grok"
  | .cursor => "cursor"
  | .copilot => "copilot"
  | .kimi => "kimi"
  | .other => "other"

def agentEventOscPrefix : String := "777;notify;condr://agent;"
def agentEventWireVersion : ℕ := 1
def maxDetailChars : ℕ := 200
def maxAgentEventBytes : ℕ := 2000

def validPromptId (id : String) : Bool :=
  !id.isEmpty && id.utf8ByteSize ≤ 256 && !id.toList.any isControl

def validDetail (detail : String) : Bool :=
  !detail.isEmpty && detail.toList.length ≤ maxDetailChars && !detail.toList.any isControl

/-- Control characters and runs of white space become one space each. -/
def spaced (space : Bool) : List Char → List Char
  | [] => []
  | char :: rest =>
      if isControl char || isWhiteSpace char then
        if space then spaced true rest else ' ' :: spaced true rest
      else char :: spaced false rest

/-- Makes native text fit a detail. Empty in, none out. -/
def boundDetail (raw : String) : Option String :=
  let detail := ((spaced true raw.toList).reverse.dropWhile isWhiteSpace).reverse
  if detail.isEmpty then none
  else if detail.length ≤ maxDetailChars then some (String.ofList detail)
  else some (String.ofList (detail.take (maxDetailChars - 1) ++ ['…']))

namespace AgentEvent

/-- A field that is left out where there is nothing to say. -/
def optionalField (key : String) (value : Option String) : List Char :=
  match value with
  | none => []
  | some text => ',' :: quote key.toList ++ ':' :: quote text.toList

/-- What `serde_json` writes of an event. -/
def toJson (event : AgentEvent) : List Char :=
  '\x7b' :: quote "v".toList ++ (":1,".toList ++ quote "agent".toList) ++
    (':' :: quote event.agent.serdeName.toList) ++ (',' :: quote "event".toList) ++
    (':' :: quote event.event.name.toList) ++ optionalField "source" event.source ++
    (',' :: quote "session_id".toList) ++
    (':' :: match event.sessionId with
      | none => "null".toList
      | some id => quote id.toList) ++
    optionalField "prompt_id" event.promptId ++ optionalField "detail" event.detail ++ ['\x7d']

/-- The bytes between the introducer of an operating system command and its terminator. -/
def payload (event : AgentEvent) : List UInt8 :=
  Utf8.encode (agentEventOscPrefix.toList ++ event.toJson)

def sequence (event : AgentEvent) : List UInt8 := 27 :: 93 :: event.payload ++ [7]

/-- The event without what matters least. -/
def drop (event : AgentEvent) : Option AgentEvent :=
  if event.detail.isSome then some { event with detail := none }
  else if event.source.isSome then some { event with source := none }
  else if event.promptId.isSome then some { event with promptId := none }
  else none

/-- The fields that can be dropped. -/
def droppable (event : AgentEvent) : ℕ :=
  event.detail.isSome.toNat + event.source.isSome.toNat + event.promptId.isSome.toNat

theorem droppable_of_drop {event less : AgentEvent} (dropped : event.drop = some less) :
    less.droppable < event.droppable := by
  unfold drop at dropped
  split_ifs at dropped with detail source prompt <;> cases dropped <;> simp_all [droppable]

/-- The complete sequence a hook writes to its controlling terminal. -/
def encode (event : AgentEvent) : List UInt8 :=
  if event.sequence.length ≤ maxAgentEventBytes then event.sequence
  else
    match _dropped : event.drop with
    | none => event.sequence
    | some less => less.encode
termination_by event.droppable
decreasing_by exact droppable_of_drop ‹_›

/-- Decodes what stands between the introducer and the terminator. `fromSlice` reads the version
and the event. -/
def decode (fromSlice : List UInt8 → Option (ℕ × AgentEvent)) (payload : List UInt8) :
    Option AgentEvent := do
  let osc := Utf8.encode agentEventOscPrefix.toList
  if osc.isPrefixOf payload then
    let (version, event) ← fromSlice (payload.drop osc.length)
    if version = agentEventWireVersion && event.sessionId.all validSessionId &&
        event.promptId.all validPromptId && event.detail.all validDetail then some event
    else none
  else none

end AgentEvent

/-! ## What a detail holds -/

theorem not_isControl_of_mem_spaced {space : Bool} {text : List Char} {char : Char}
    (contained : char ∈ spaced space text) : isControl char = false := by
  induction text generalizing space with
  | nil => cases contained
  | cons first rest ih =>
      rw [spaced] at contained
      split_ifs at contained with blank run
      · exact ih contained
      · rcases List.mem_cons.mp contained with rfl | later
        · decide
        · exact ih later
      · rcases List.mem_cons.mp contained with rfl | later
        · cases control : isControl char
          · rfl
          · simp [control] at blank
        · exact ih later

/-- What the bound makes of any text is a detail. -/
theorem validDetail_boundDetail {raw detail : String} (bound : boundDetail raw = some detail) :
    validDetail detail = true := by
  unfold boundDetail at bound
  extract_lets trimmed at bound
  have plain : ∀ char ∈ trimmed, isControl char = false := by
    intro char contained
    have here := (List.dropWhile_sublist _).subset (List.mem_reverse.mp contained)
    exact not_isControl_of_mem_spaced (List.mem_reverse.mp here)
  split_ifs at bound with empty short
  · cases bound
    simp only [validDetail, String.toList_ofList, Bool.and_eq_true, decide_eq_true_eq,
      Bool.not_eq_true', List.any_eq_false]
    refine ⟨⟨?_, short⟩, fun char contained => by simp [plain char contained]⟩
    simpa using empty
  · cases bound
    simp only [validDetail, String.toList_ofList, Bool.and_eq_true, decide_eq_true_eq,
      Bool.not_eq_true', List.any_eq_false]
    refine ⟨⟨by simp, ?_⟩, fun char contained => ?_⟩
    · simp [maxDetailChars]
    · rcases List.mem_append.mp contained with early | last
      · simp [plain char (List.mem_of_mem_take early)]
      · rw [List.mem_singleton.mp last]
        decide

/-! ## The length of a sequence -/

namespace AgentEvent

variable {event sent : AgentEvent}

theorem bytesOf_optionalField (key text : String) :
    bytesOf (optionalField key (some text)) =
      bytesOf (quote key.toList) + bytesOf (quote text.toList) + 2 := by
  have comma : bytesOf [','] = 1 := by decide
  have colon : bytesOf [':'] = 1 := by decide
  rw [optionalField, List.cons_append, bytesOf_cons, bytesOf_append, bytesOf_cons ':']
  omega

theorem bytesOf_toList (text : String) : bytesOf text.toList = text.utf8ByteSize := by
  rw [bytesOf, ← Utf8.toUTF8_toList]
  rfl

theorem plain_of_validSessionId {id : String} (valid : validSessionId id = true) :
    ∀ char ∈ id.toList, isControl char = false := by
  simp only [validSessionId, Bool.and_eq_true, List.all_eq_true] at valid
  intro char contained
  have allowed := valid.2 char contained
  have order : ∀ low high : Char, low ≤ high ↔ low.toNat ≤ high.toNat := fun _ _ => Iff.rfl
  simp only [isAsciiAlphanumeric, Bool.or_eq_true, Bool.and_eq_true, decide_eq_true_eq,
    order] at allowed
  have plain : 33 ≤ char.toNat ∧ char.toNat < 127 := by
    rcases allowed with (((digit | upper) | lower) | rfl) | rfl
    · exact ⟨le_trans (by decide) digit.1, lt_of_le_of_lt digit.2 (by decide)⟩
    · exact ⟨le_trans (by decide) upper.1, lt_of_le_of_lt upper.2 (by decide)⟩
    · exact ⟨le_trans (by decide) lower.1, lt_of_le_of_lt lower.2 (by decide)⟩
    · decide
    · decide
  simp only [isControl, Bool.or_eq_false_iff, Bool.and_eq_false_iff, decide_eq_false_iff_not]
  omega

theorem bytesOf_session_le {id : String} (valid : validSessionId id = true) :
    bytesOf (quote id.toList) ≤ 514 := by
  have short := bytesOf_quote_le (plain_of_validSessionId valid)
  simp only [validSessionId, Bool.and_eq_true, decide_eq_true_eq] at valid
  rw [bytesOf_toList] at short
  omega

theorem bytesOf_prompt_le {id : String} (valid : validPromptId id = true) :
    bytesOf (quote id.toList) ≤ 514 := by
  simp only [validPromptId, Bool.and_eq_true, Bool.not_eq_true', decide_eq_true_eq,
    List.any_eq_false, Bool.not_eq_true] at valid
  have short := bytesOf_quote_le valid.2
  rw [bytesOf_toList] at short
  omega

theorem bytesOf_serdeName (kind : AgentKind) : bytesOf (quote kind.serdeName.toList) ≤ 13 := by
  cases kind <;> decide

theorem bytesOf_name (kind : AgentEventKind) : bytesOf (quote kind.name.toList) ≤ 20 := by
  cases kind <;> decide

theorem bytesOf_sessionField_le (session : event.sessionId.all validSessionId = true) :
    bytesOf (match event.sessionId with
      | none => "null".toList
      | some id => quote id.toList) ≤ 514 := by
  cases found : event.sessionId with
  | none => decide
  | some id => exact bytesOf_session_le (by simpa [found] using session)

theorem bytesOf_promptField_le (prompt : event.promptId.all validPromptId = true) :
    bytesOf (optionalField "prompt_id" event.promptId) ≤ 527 := by
  cases found : event.promptId with
  | none => decide
  | some id =>
      have short : bytesOf (quote id.toList) ≤ 514 :=
        bytesOf_prompt_le (by simpa [found] using prompt)
      have key : bytesOf (quote "prompt_id".toList) = 11 := by decide
      rw [bytesOf_optionalField]
      omega

/-- Without its detail, and with no source but `compact`, an event fits. -/
theorem length_sequence_le (session : event.sessionId.all validSessionId = true)
    (prompt : event.promptId.all validPromptId = true) (noDetail : event.detail = none)
    (source : event.source = none ∨ event.source = some "compact") :
    event.sequence.length ≤ maxAgentEventBytes := by
  have sourceField : bytesOf (optionalField "source" event.source) ≤ 20 := by
    rcases source with absent | compact
    · rw [absent]
      decide
    · rw [compact]
      decide
  have detailField : bytesOf (optionalField "detail" event.detail) = 0 := by
    rw [noDetail]
    rfl
  have sessionField := bytesOf_sessionField_le session
  have promptField := bytesOf_promptField_le prompt
  have kind := bytesOf_serdeName event.agent
  have name := bytesOf_name event.event
  have osc : bytesOf agentEventOscPrefix.toList = 25 := by decide
  have head : bytesOf ('\x7b' :: quote "v".toList ++ (":1,".toList ++ quote "agent".toList)) =
      14 := by decide
  have eventKey : bytesOf (',' :: quote "event".toList) = 8 := by decide
  have sessionKey : bytesOf (',' :: quote "session_id".toList) = 13 := by decide
  have colon : bytesOf [':'] = 1 := by decide
  have close : bytesOf ['\x7d'] = 1 := by decide
  have length : event.sequence.length = bytesOf (agentEventOscPrefix.toList ++ event.toJson) + 3 :=
    by simp [sequence, payload, bytesOf]
  rw [length, bytesOf_append, toJson]
  simp only [bytesOf_append _ (':' :: _), bytesOf_append _ (',' :: _),
    bytesOf_append _ (optionalField _ _), bytesOf_append _ ['\x7d']]
  rw [bytesOf_cons ':' (quote event.agent.serdeName.toList),
    bytesOf_cons ':' (quote event.event.name.toList),
    bytesOf_cons ':' (match event.sessionId with
      | none => "null".toList
      | some id => quote id.toList)]
  rw [maxAgentEventBytes]
  omega

/-! ## What is sent -/

theorem encode_of_fits (fits : event.sequence.length ≤ maxAgentEventBytes) :
    event.encode = event.sequence := by
  rw [encode, if_pos fits]

theorem encode_of_drop {less : AgentEvent} (large : ¬event.sequence.length ≤ maxAgentEventBytes)
    (dropped : event.drop = some less) : event.encode = less.encode := by
  rw [encode, if_neg large]
  split
  · next whole =>
      rw [dropped] at whole
      cases whole
  · next other found =>
      rw [dropped] at found
      cases found
      rfl

/-- An event without a detail is sent whole, or without its source. -/
theorem exists_sent_of_noDetail (session : event.sessionId.all validSessionId = true)
    (prompt : event.promptId.all validPromptId = true) (noDetail : event.detail = none) :
    ∃ sent : AgentEvent, event.encode = sent.sequence ∧
      sent.sequence.length ≤ maxAgentEventBytes ∧
      (sent = event ∨ event.source ≠ some "compact" ∧ sent = { event with source := none }) := by
  by_cases fits : event.sequence.length ≤ maxAgentEventBytes
  · exact ⟨event, encode_of_fits fits, fits, .inl rfl⟩
  · have foreign : event.source ≠ none ∧ event.source ≠ some "compact" := by
      rw [← not_or]
      intro source
      exact fits (length_sequence_le session prompt noDetail source)
    have small : ({ event with source := none } : AgentEvent).sequence.length ≤
        maxAgentEventBytes := length_sequence_le session prompt noDetail (.inl rfl)
    have dropped : event.drop = some { event with source := none } := by
      rw [drop, noDetail, if_neg (by simp), if_pos (Option.isSome_iff_ne_none.mpr foreign.1)]
    exact ⟨_, (encode_of_drop fits dropped).trans (encode_of_fits small), small,
      .inr ⟨foreign.2, rfl⟩⟩

/-- What the encoder sends: the event, without its detail, or also without a source that says
nothing. -/
def Reduced (event sent : AgentEvent) : Prop :=
  sent = event ∨ sent = { event with detail := none } ∨
    event.source ≠ some "compact" ∧ sent = { event with detail := none, source := none }

/-- The event that is sent: the whole one if it fits, or what the encoder dropped down to. -/
theorem exists_sent (session : event.sessionId.all validSessionId = true)
    (prompt : event.promptId.all validPromptId = true) :
    ∃ sent : AgentEvent, event.encode = sent.sequence ∧
      sent.sequence.length ≤ maxAgentEventBytes ∧
      (event.sequence.length ≤ maxAgentEventBytes → sent = event) ∧ Reduced event sent := by
  by_cases fits : event.sequence.length ≤ maxAgentEventBytes
  · exact ⟨event, encode_of_fits fits, fits, fun _ => rfl, .inl rfl⟩
  · have less := @exists_sent_of_noDetail { event with detail := none } session prompt rfl
    have same : event.encode = ({ event with detail := none } : AgentEvent).encode := by
      cases detail : event.detail with
      | none => rw [← detail]
      | some text =>
          apply encode_of_drop fits
          rw [drop, detail]
          rfl
    rw [← same] at less
    rcases less with ⟨sent, encoded, small, whole | sourceless⟩
    · exact ⟨sent, encoded, small, fun whole => absurd whole fits, .inr (.inl whole)⟩
    · exact ⟨sent, encoded, small, fun whole => absurd whole fits, .inr (.inr sourceless)⟩

/-! ## What is received -/

theorem printed_optionalField (key : String) (value : Option String) :
    Printed (optionalField key value) := by
  cases value with
  | none => exact printed_nil
  | some text =>
      rw [optionalField, List.cons_append, printed_cons, printed_append, printed_cons]
      exact ⟨by decide, printed_quote _, by decide, printed_quote _⟩

theorem printed_toJson (event : AgentEvent) : Printed event.toJson := by
  have session : Printed (match event.sessionId with
      | none => "null".toList
      | some id => quote id.toList) := by
    cases event.sessionId with
    | none => exact List.all_iff_forall_prop.mp (by decide)
    | some id => exact printed_quote _
  have version : Printed ":1,".toList := List.all_iff_forall_prop.mp (by decide)
  simp only [toJson, List.cons_append, printed_append, printed_cons]
  simp only [printed_quote, printed_optionalField, session, version, printed_nil, and_true,
    true_and]
  decide

/-- No byte of a body ends a sequence or begins one. -/
theorem le_of_mem_payload {byte : UInt8} (contained : byte ∈ event.payload) : 32 ≤ byte.toNat := by
  apply le_of_mem_encode _ contained
  rw [printed_append]
  exact ⟨List.all_iff_forall_prop.mp (by decide), printed_toJson event⟩

theorem decode_payload {fromSlice : List UInt8 → Option (ℕ × AgentEvent)}
    (read : fromSlice (Utf8.encode sent.toJson) = some (agentEventWireVersion, sent))
    (session : sent.sessionId.all validSessionId = true)
    (prompt : sent.promptId.all validPromptId = true)
    (detail : sent.detail.all validDetail = true) :
    decode fromSlice sent.payload = some sent := by
  have split : sent.payload =
      Utf8.encode agentEventOscPrefix.toList ++ Utf8.encode sent.toJson := by
    simp [payload, Utf8.encode]
  simp only [decode, split]
  rw [if_pos (by simp), List.drop_left, read]
  simp [session, prompt, detail]

/-- What is left of an event when fields are dropped one after another. -/
inductive Drops : AgentEvent → AgentEvent → Prop where
  | whole (event : AgentEvent) : Drops event event
  | drop {event less least : AgentEvent} (dropped : event.drop = some less)
      (rest : Drops less least) : Drops event least

theorem drops_detail (event : AgentEvent) : Drops event { event with detail := none } := by
  cases found : event.detail with
  | none =>
      rw [← found]
      exact .whole event
  | some detail =>
      refine .drop ?_ (.whole _)
      rw [AgentEvent.drop, found]
      rfl

theorem drops_source (noDetail : event.detail = none) :
    Drops event { event with source := none } := by
  cases found : event.source with
  | none =>
      rw [← found]
      exact .whole event
  | some source =>
      refine .drop ?_ (.whole _)
      rw [AgentEvent.drop, noDetail, found]
      rfl

theorem Drops.trans {less least : AgentEvent} (first : Drops event less)
    (second : Drops less least) : Drops event least := by
  induction first with
  | whole => exact second
  | drop dropped _ ih => exact .drop dropped (ih second)

theorem drops_of_reduced (reduced : Reduced event sent) : Drops event sent := by
  rcases reduced with rfl | rfl | ⟨-, rfl⟩
  · exact .whole sent
  · exact drops_detail event
  · exact (drops_detail event).trans (@drops_source { event with detail := none } rfl)

theorem apply_of_reduced (reduced : Reduced event sent) (state : AgentState) :
    sent.apply state = event.apply state := by
  rcases reduced with rfl | rfl | ⟨foreign, rfl⟩
  · rfl
  · rfl
  · unfold apply
    cases event.event with
    | sessionStart =>
        dsimp only
        rw [if_neg foreign, if_neg (by simp)]
    | _ => rfl

theorem source_of_reduced (reduced : Reduced event sent) (compact : event.source = some "compact") :
    sent.source = event.source := by
  rcases reduced with rfl | rfl | ⟨foreign, -⟩
  · rfl
  · rfl
  · exact absurd compact foreign

/-- What is the same in every event that is sent. -/
theorem same_of_reduced (reduced : Reduced event sent) :
    sent.agent = event.agent ∧ sent.event = event.event ∧ sent.sessionId = event.sessionId ∧
      sent.promptId = event.promptId ∧ (sent.detail = event.detail ∨ sent.detail = none) := by
  rcases reduced with rfl | rfl | ⟨-, rfl⟩
  · exact ⟨rfl, rfl, rfl, rfl, .inl rfl⟩
  · exact ⟨rfl, rfl, rfl, rfl, .inr rfl⟩
  · exact ⟨rfl, rfl, rfl, rfl, .inr rfl⟩

end AgentEvent

open AgentEvent

/-- An encoded event fits, its body holds no terminator and no escape, and what is decoded from it
says and does the same; it is the same event where the whole one fits. -/
theorem decode_encode (fromSlice : List UInt8 → Option (ℕ × AgentEvent)) {event : AgentEvent}
    (session : event.sessionId.all validSessionId = true)
    (prompt : event.promptId.all validPromptId = true)
    (detail : event.detail.all validDetail = true)
    (roundTrip : ∀ sent, Drops event sent →
      fromSlice (Utf8.encode sent.toJson) = some (agentEventWireVersion, sent)) :
    (∀ raw, (boundDetail raw).all validDetail = true) ∧
    event.encode.length ≤ maxAgentEventBytes ∧
    ∃ body, event.encode = 27 :: 93 :: body ++ [7] ∧ 7 ∉ body ∧ 27 ∉ body ∧
      ∃ found, decode fromSlice body = some found ∧ found.agent = event.agent ∧
        found.event = event.event ∧ found.sessionId = event.sessionId ∧
        found.promptId = event.promptId ∧
        (∀ state, found.apply state = event.apply state) ∧
        (event.source = some "compact" → found.source = event.source) ∧
        (event.sequence.length ≤ maxAgentEventBytes → found = event) := by
  rcases exists_sent session prompt with ⟨sent, encoded, small, whole, reduced⟩
  rcases same_of_reduced reduced with ⟨agent, kind, sameSession, samePrompt, sameDetail⟩
  refine ⟨fun raw => ?_, by rwa [encoded], sent.payload, encoded, ?_, ?_, sent, ?_, agent, kind,
    sameSession, samePrompt, apply_of_reduced reduced, source_of_reduced reduced, whole⟩
  · cases bound : boundDetail raw with
    | none => rfl
    | some text => exact validDetail_boundDetail bound
  · intro contained
    exact absurd (le_of_mem_payload contained) (by decide)
  · intro contained
    exact absurd (le_of_mem_payload contained) (by decide)
  · apply decode_payload (roundTrip sent (drops_of_reduced reduced))
    · rwa [sameSession]
    · rwa [samePrompt]
    · rcases sameDetail with same | absent
      · rwa [same]
      · rw [absent]
        rfl

/-- Code that reads the events of an example. -/
def readEvent (events : List AgentEvent) (bytes : List UInt8) : Option (ℕ × AgentEvent) :=
  (events.find? fun event => Utf8.encode event.toJson == bytes).map (agentEventWireVersion, ·)

/-- What is left when the detail and the source are dropped. -/
def shortEvent : AgentEvent where
  agent := .claude
  event := .stop
  source := none
  sessionId := some "a1"
  promptId := some "p2"
  detail := none

/-- A source that no sequence has room for, and a detail. -/
def wordyEvent : AgentEvent :=
  { shortEvent with
    source := some (String.ofList (List.replicate maxAgentEventBytes 'x'))
    detail := some "Done." }

def wordyEvents : List AgentEvent :=
  [{ shortEvent with promptId := none }, shortEvent, { wordyEvent with detail := none }, wordyEvent]

theorem bytesOf_source (event : AgentEvent) (source : event.source = wordyEvent.source) :
    maxAgentEventBytes < bytesOf event.toJson := by
  have plain : quote (List.replicate maxAgentEventBytes 'x') =
      '"' :: List.replicate maxAgentEventBytes 'x' ++ ['"'] := by
    rw [quote, List.flatMap_replicate, show escapeChar 'x' = ['x'] by decide,
      List.flatten_replicate_singleton]
  have ascii : bytesOf (List.replicate maxAgentEventBytes 'x') = maxAgentEventBytes := by
    rw [bytesOf_ascii, List.length_replicate]
    intro char member
    rw [List.eq_of_mem_replicate member]
    decide
  have quotes : bytesOf ['"'] = 1 := by decide
  have field : maxAgentEventBytes < bytesOf (optionalField "source" event.source) := by
    rw [source, wordyEvent, bytesOf_optionalField, @String.toList_ofList (List.replicate _ _),
      plain, bytesOf_append, bytesOf_cons, ascii]
    omega
  rw [toJson]
  simp only [bytesOf_append]
  omega

/-- An event is read when none before it is written alike. -/
theorem readEvent_eq {front back : List AgentEvent} {sent : AgentEvent}
    (differ : ∀ other ∈ front, Utf8.encode other.toJson ≠ Utf8.encode sent.toJson) :
    readEvent (front ++ sent :: back) (Utf8.encode sent.toJson) =
      some (agentEventWireVersion, sent) := by
  have none : front.find? (fun other => Utf8.encode other.toJson == Utf8.encode sent.toJson) =
      none :=
    List.find?_eq_none.mpr fun other member => by simpa using differ other member
  simp [readEvent, List.find?_append, none]

theorem readEvent_wordyEvents : ∀ sent, Drops wordyEvent sent →
    readEvent wordyEvents (Utf8.encode sent.toJson) = some (agentEventWireVersion, sent) := by
  have small : ∀ other ∈ [{ shortEvent with promptId := none }, shortEvent],
      bytesOf other.toJson ≤ maxAgentEventBytes := by decide +kernel
  have large : ∀ sent : AgentEvent, sent.source = wordyEvent.source →
      ∀ other ∈ [{ shortEvent with promptId := none }, shortEvent],
        Utf8.encode other.toJson ≠ Utf8.encode sent.toJson := by
    intro sent source other member same
    exact absurd (congrArg List.length same)
      (Nat.ne_of_lt (Nat.lt_of_le_of_lt (small other member) (bytesOf_source sent source)))
  have detail : Utf8.encode ({ wordyEvent with detail := none } : AgentEvent).toJson ≠
      Utf8.encode wordyEvent.toJson := by
    intro same
    have lengths : bytesOf ({ wordyEvent with detail := none } : AgentEvent).toJson =
        bytesOf wordyEvent.toJson := congrArg List.length same
    have field : bytesOf (optionalField "detail" wordyEvent.detail) = 17 := by decide +kernel
    have absent : bytesOf (optionalField "detail" none) = 0 := rfl
    simp only [toJson, bytesOf_append, field, absent] at lengths
    omega
  intro sent dropped
  cases dropped with
  | whole =>
      apply @readEvent_eq [_, _, _] []
      exact List.forall_mem_append.mpr ⟨large _ rfl, List.forall_mem_singleton.mpr detail⟩
  | drop noDetail rest =>
      cases noDetail
      cases rest with
      | whole => exact @readEvent_eq [_, _] [_] _ (large _ rfl)
      | drop noSource rest =>
          cases noSource
          cases rest with
          | whole => exact @readEvent_eq [_] [_, _] _ (by decide +kernel)
          | drop noPrompt rest =>
              cases noPrompt
              cases rest with
              | whole => exact @readEvent_eq [] [_, _, _] _ (by decide)
              | drop nothing _ => cases nothing

theorem lt_length_sequence (event : AgentEvent) (source : event.source = wordyEvent.source) :
    maxAgentEventBytes < event.sequence.length := by
  have long := bytesOf_source event source
  have length : event.sequence.length =
      bytesOf agentEventOscPrefix.toList + bytesOf event.toJson + 3 := by
    rw [← bytesOf_append]
    simp [AgentEvent.sequence, payload, bytesOf]
  omega

theorem decode_encode_wordy :
    maxAgentEventBytes < wordyEvent.sequence.length ∧
      wordyEvent.encode.length ≤ maxAgentEventBytes ∧
      ∃ body found, wordyEvent.encode = 27 :: 93 :: body ++ [7] ∧
        decode (readEvent wordyEvents) body = some found ∧ found.sessionId = some "a1" ∧
        found.promptId = some "p2" ∧ ∀ state, found.apply state = wordyEvent.apply state := by
  rcases (@decode_encode (readEvent wordyEvents) wordyEvent rfl rfl rfl
    readEvent_wordyEvents).2 with ⟨fits, body, encoded, -, -, found, decoded, -, -, session, prompt,
      effect, -⟩
  exact ⟨lt_length_sequence _ rfl, fits, body, found, encoded, decoded, session, prompt, effect⟩

end Condr
