import Condr.Agent.Event
import Condr.Foundation.Scanner

/-!
# Hook events in a program's output

A hook writes its event to the terminal the agent draws on, so it can land anywhere in the output.
Each read is searched for whole events, which are reported where they stood, and what is left goes
to the terminal library. The end of a read that may begin an event is kept for the next one.
-/

namespace Condr

def hookOpener : List UInt8 := 27 :: 93 :: Utf8.encode agentEventOscPrefix.toList

/-- The prefix without `777;notify;` and its last `;`. -/
def hookTitle : String := "condr://agent"

/-- What an escape begins. -/
inductive Candidate where
  | other
  /-- It may begin an event; the next read tells. -/
  | unfinished
  /-- An event, with the places where its body and the event end. -/
  | event (body finish : ℕ)
deriving DecidableEq

/-- What is searched for a terminator: an event is never longer than this, and a longer sequence is
someone else's. -/
def hookWindow (rest : List UInt8) : List UInt8 :=
  (rest.take maxAgentEventBytes).drop hookOpener.length

/-- BEL or an escape. -/
def isTerminator (byte : UInt8) : Bool := byte == 7 || byte == 27

/-- The terminator found at `stop` ends an event, or an escape there ends it unfinished. -/
def terminated (rest : List UInt8) (stop : ℕ) : Candidate :=
  if rest[stop]? = some 7 then .event stop (stop + 1)
  else
    match rest[stop + 1]? with
    | none => .unfinished
    | some byte => if byte = 92 then .event stop (stop + 2) else .other

/-- Looks at the bytes from an escape on. -/
def candidate (rest : List UInt8) : Candidate :=
  if !(rest.zip hookOpener).all (fun pair => pair.1 == pair.2) then .other
  else if rest.length < hookOpener.length then .unfinished
  else
    match (hookWindow rest).findIdx? isTerminator with
    | none => if rest.length < maxAgentEventBytes then .unfinished else .other
    | some index => terminated rest (hookOpener.length + index)

/-- Where the next event is. -/
inductive HookCut where
  | event (start bodyStart bodyEnd finish : ℕ)
  | unfinished (start : ℕ)
deriving DecidableEq

/-- The first event or its beginning from `offset` on, where `bytes` stand. -/
def nextHookCut (offset : ℕ) : List UInt8 → Option HookCut
  | [] => none
  | byte :: rest =>
      if byte = 27 then
        match candidate (byte :: rest) with
        | .other => nextHookCut (offset + 1) rest
        | .unfinished => some (.unfinished offset)
        | .event body finish =>
            some (.event offset (offset + hookOpener.length) (offset + body) (offset + finish))
      else nextHookCut (offset + 1) rest

/-- What a read hands on: output for the terminal library, and reported events. -/
inductive Handed where
  | output (bytes : List UInt8)
  | notification (title body : String)
deriving DecidableEq

def parse (output : List UInt8) : List Handed := if output.isEmpty then [] else [.output output]

/-! ## Candidates -/

theorem length_hookOpener : hookOpener.length = 27 := by decide

/-- A part of an event: neither terminator is in it. -/
def Body (text : List UInt8) : Prop := 7 ∉ text ∧ 27 ∉ text

theorem eq_append_of_zip {rest opener : List UInt8}
    (alike : (rest.zip opener).all (fun pair => pair.1 == pair.2) = true)
    (long : opener.length ≤ rest.length) : rest = opener ++ rest.drop opener.length := by
  induction opener generalizing rest with
  | nil => rfl
  | cons first opener ih =>
      cases rest with
      | nil => simp at long
      | cons byte rest =>
          simp only [List.zip_cons_cons, List.all_cons, Bool.and_eq_true, beq_iff_eq] at alike
          rw [List.length_cons, List.drop_succ_cons, List.cons_append, ← alike.1,
            ← ih alike.2 (by simpa using long)]

theorem append_eq_of_zip {rest opener : List UInt8}
    (alike : (rest.zip opener).all (fun pair => pair.1 == pair.2) = true)
    (short : rest.length ≤ opener.length) : opener = rest ++ opener.drop rest.length := by
  induction rest generalizing opener with
  | nil => rfl
  | cons byte rest ih =>
      cases opener with
      | nil => simp at short
      | cons first opener =>
          simp only [List.zip_cons_cons, List.all_cons, Bool.and_eq_true, beq_iff_eq] at alike
          rw [List.length_cons, List.drop_succ_cons, List.cons_append, alike.1,
            ← ih alike.2 (by simpa using short)]

theorem all_zip_append (opener more : List UInt8) :
    ((opener ++ more).zip opener).all (fun pair => pair.1 == pair.2) = true := by
  induction opener with
  | nil => simp
  | cons first opener ih => simpa using ih

theorem all_zip_of_append {rest more opener : List UInt8}
    (alike : ((rest ++ more).zip opener).all (fun pair => pair.1 == pair.2) = true) :
    (rest.zip opener).all (fun pair => pair.1 == pair.2) = true := by
  induction rest generalizing opener with
  | nil => rfl
  | cons byte rest ih =>
      cases opener with
      | nil => rfl
      | cons first opener =>
          simp only [List.cons_append, List.zip_cons_cons, List.all_cons,
            Bool.and_eq_true] at alike ⊢
          exact ⟨alike.1, ih alike.2⟩

theorem hookWindow_append {rest : List UInt8} (long : hookOpener.length ≤ rest.length)
    (more : List UInt8) :
    hookWindow (rest ++ more) = hookWindow rest ++ more.take (maxAgentEventBytes - rest.length) := by
  have room : hookOpener.length ≤ (rest.take maxAgentEventBytes).length := by
    rw [List.length_take, maxAgentEventBytes, length_hookOpener] at *
    omega
  rw [hookWindow, hookWindow, List.take_append, List.drop_append_of_le_length room]

/-- Where a terminator is found, the bytes before it are part of an event. -/
theorem exists_of_findIdx? {rest : List UInt8} {index : ℕ}
    (found : (hookWindow rest).findIdx? isTerminator = some index) :
    ∃ text stop more, hookWindow rest = text ++ stop :: more ∧ text.length = index ∧ Body text ∧
      isTerminator stop = true ∧ rest[hookOpener.length + index]? = some stop ∧
      hookOpener.length + index < maxAgentEventBytes := by
  rw [List.findIdx?_eq_some_iff_getElem] at found
  rcases found with ⟨inside, ends, before⟩
  have body : ∀ byte ∈ (hookWindow rest).take index, isTerminator byte = false := by
    intro byte contained
    rcases List.getElem_of_mem contained with ⟨place, small, rfl⟩
    rw [List.length_take] at small
    rw [List.getElem_take]
    simpa using before place (by omega)
  have bound : hookOpener.length + index < maxAgentEventBytes := by
    rw [hookWindow, List.length_drop, List.length_take] at inside
    omega
  refine ⟨(hookWindow rest).take index, (hookWindow rest)[index],
    (hookWindow rest).drop (index + 1), ?_, ?_, ⟨?_, ?_⟩, ends, ?_, bound⟩
  · rw [List.getElem_cons_drop, List.take_append_drop]
  · rw [List.length_take]
    omega
  · intro contained
    exact absurd (body 7 contained) (by decide)
  · intro contained
    exact absurd (body 27 contained) (by decide)
  · have byte : rest[hookOpener.length + index]? = (hookWindow rest)[index]? := by
      rw [hookWindow, List.getElem?_drop, List.getElem?_take, if_pos bound]
    rw [byte]
    exact List.getElem?_eq_getElem inside

section Long

variable {rest : List UInt8}

/-- The bytes are those of the opener as far as both go. -/
def Opens (rest : List UInt8) : Prop :=
  (rest.zip hookOpener).all (fun pair => pair.1 == pair.2) = true

theorem candidate_of_not_opens (foreign : ¬Opens rest) : candidate rest = .other := by
  rw [candidate, if_pos]
  simpa [Opens] using foreign

theorem candidate_of_short (opens : Opens rest) (short : rest.length < hookOpener.length) :
    candidate rest = .unfinished := by
  rw [candidate, if_neg, if_pos short]
  simpa [Opens] using opens

theorem candidate_of_open (opens : Opens rest) (long : hookOpener.length ≤ rest.length)
    (unterminated : (hookWindow rest).findIdx? isTerminator = none) :
    candidate rest = if rest.length < maxAgentEventBytes then .unfinished else .other := by
  rw [candidate, if_neg, if_neg (Nat.not_lt.mpr long), unterminated]
  simpa [Opens] using opens

theorem candidate_of_terminated {index : ℕ} (opens : Opens rest)
    (long : hookOpener.length ≤ rest.length)
    (found : (hookWindow rest).findIdx? isTerminator = some index) :
    candidate rest = terminated rest (hookOpener.length + index) := by
  rw [candidate, if_neg, if_neg (Nat.not_lt.mpr long), found]
  simpa [Opens] using opens

/-- The kinds of what an escape begins, with what tells them. -/
theorem candidate_cases (rest : List UInt8) :
    (¬Opens rest ∧ candidate rest = .other) ∨
    (Opens rest ∧ rest.length < hookOpener.length ∧ candidate rest = .unfinished) ∨
    (Opens rest ∧ hookOpener.length ≤ rest.length ∧
      (hookWindow rest).findIdx? isTerminator = none ∧
      candidate rest = if rest.length < maxAgentEventBytes then .unfinished else .other) ∨
    ∃ index, Opens rest ∧ hookOpener.length ≤ rest.length ∧
      (hookWindow rest).findIdx? isTerminator = some index ∧
      candidate rest = terminated rest (hookOpener.length + index) := by
  by_cases opens : Opens rest
  · by_cases short : rest.length < hookOpener.length
    · exact .inr (.inl ⟨opens, short, candidate_of_short opens short⟩)
    · have long := Nat.le_of_not_lt short
      cases found : (hookWindow rest).findIdx? isTerminator with
      | none => exact .inr (.inr (.inl ⟨opens, long, rfl, candidate_of_open opens long found⟩))
      | some index =>
          exact .inr (.inr (.inr ⟨index, opens, long, rfl,
            candidate_of_terminated opens long found⟩))
  · exact .inl ⟨opens, candidate_of_not_opens opens⟩

theorem Opens.append (opens : Opens rest) (long : hookOpener.length ≤ rest.length)
    (more : List UInt8) : Opens (rest ++ more) := by
  rw [eq_append_of_zip opens long, List.append_assoc]
  exact all_zip_append _ _

/-- A terminator that can be told stays what it is with more behind it. -/
theorem terminated_append {stop : ℕ} (inside : stop < rest.length) (more : List UInt8)
    (settled : terminated rest stop ≠ .unfinished) :
    terminated (rest ++ more) stop = terminated rest stop := by
  unfold terminated at settled ⊢
  rw [List.getElem?_append_left inside]
  by_cases bell : rest[stop]? = some 7
  · rw [if_pos bell, if_pos bell]
  · rw [if_neg bell] at settled ⊢
    rw [if_neg bell]
    cases after : rest[stop + 1]? with
    | none =>
        rw [after] at settled
        exact absurd rfl settled
    | some byte =>
        rw [List.getElem?_append_left (List.getElem?_eq_some_iff.mp after).1, after]

/-- An escape that can be told stays what it is with more behind it. -/
theorem candidate_append (more : List UInt8) (settled : candidate rest ≠ .unfinished) :
    candidate (rest ++ more) = candidate rest := by
  rcases candidate_cases rest with ⟨foreign, here⟩ | ⟨-, -, here⟩ | ⟨opens, long, nothing, here⟩ |
    ⟨index, opens, long, found, here⟩
  · rw [here, candidate_of_not_opens fun opens => foreign (all_zip_of_append opens)]
  · exact absurd here settled
  · rw [here] at settled
    split_ifs at settled with small
    · exact absurd rfl settled
    · have whole : hookWindow (rest ++ more) = hookWindow rest := by
        have nothing : maxAgentEventBytes - rest.length = 0 := by omega
        rw [hookWindow_append long, nothing, List.take_zero, List.append_nil]
      rw [here, if_neg small, candidate_of_open (opens.append long more)
        (by rw [List.length_append]; omega) (by rw [whole, nothing]), if_neg]
      rw [List.length_append]
      omega
  · have later : (hookWindow (rest ++ more)).findIdx? isTerminator = some index := by
      rw [hookWindow_append long, List.findIdx?_append, found, Option.some_or]
    rcases exists_of_findIdx? found with ⟨text, stop, behind, -, -, -, -, byte, -⟩
    rw [here] at settled ⊢
    rw [candidate_of_terminated (opens.append long more) (by rw [List.length_append]; omega) later]
    exact terminated_append (List.getElem?_eq_some_iff.mp byte).1 more settled

/-- What ends an event: BEL, or ST. -/
def Ends (terminator : List UInt8) : Prop := terminator = [7] ∨ terminator = [27, 92]

/-- The bytes up to a terminator. -/
theorem split_of_findIdx? {index : ℕ} (opens : Opens rest)
    (long : hookOpener.length ≤ rest.length)
    (found : (hookWindow rest).findIdx? isTerminator = some index) :
    ∃ text stop more, rest = hookOpener ++ text ++ stop :: more ∧ text.length = index ∧
      Body text ∧ isTerminator stop = true ∧
      hookOpener.length + index < maxAgentEventBytes := by
  rcases exists_of_findIdx? found with ⟨text, stop, more, window, length, plain, ends, -, bound⟩
  refine ⟨text, stop, more ++ rest.drop maxAgentEventBytes, ?_, length, plain, ends, bound⟩
  have split := eq_append_of_zip opens long
  have behind : rest.drop hookOpener.length = hookWindow rest ++ rest.drop maxAgentEventBytes := by
    have room : hookOpener.length ≤ (rest.take maxAgentEventBytes).length := by
      rw [List.length_take, maxAgentEventBytes, length_hookOpener] at *
      omega
    rw [hookWindow, ← List.drop_append_of_le_length room, List.take_append_drop]
  calc
    rest = hookOpener ++ rest.drop hookOpener.length := split
    _ = hookOpener ++ text ++ stop :: (more ++ rest.drop maxAgentEventBytes) := by
      rw [behind, window]
      simp

/-- What a terminator behind a body does is told by the byte behind it. -/
theorem terminated_eq {text more : List UInt8} {stop : UInt8}
    (split : rest = hookOpener ++ text ++ stop :: more) :
    terminated rest (hookOpener.length + text.length) =
      if stop = 7 then .event (hookOpener.length + text.length)
        (hookOpener.length + text.length + 1)
      else
        match more.head? with
        | none => .unfinished
        | some byte =>
            if byte = 92 then .event (hookOpener.length + text.length)
              (hookOpener.length + text.length + 2)
            else .other := by
  have place : rest[hookOpener.length + text.length]? = some stop := by
    rw [split, ← List.length_append, List.getElem?_append_right (Nat.le_refl _), Nat.sub_self]
    rfl
  have after : rest[hookOpener.length + text.length + 1]? = more.head? := by
    rw [split, ← List.length_append, List.getElem?_append_right (by omega)]
    simp [List.head?_eq_getElem?]
  rw [terminated, place, after]
  by_cases bell : stop = 7
  · rw [if_pos bell, if_pos (congrArg some bell)]
  · rw [if_neg bell, if_neg fun same => bell (Option.some.inj same)]

/-- An event: the opener, a body and a terminator. -/
theorem exists_of_event {body finish : ℕ} (event : candidate rest = .event body finish) :
    ∃ text terminator more, rest = hookOpener ++ text ++ terminator ++ more ∧ Body text ∧
      Ends terminator ∧ body = hookOpener.length + text.length ∧
      finish = body + terminator.length := by
  rcases candidate_cases rest with ⟨-, here⟩ | ⟨-, -, here⟩ | ⟨-, -, -, here⟩ |
    ⟨index, opens, long, found, here⟩
  · rw [event] at here
    cases here
  · rw [event] at here
    cases here
  · rw [event] at here
    split_ifs at here
  · rcases split_of_findIdx? opens long found with ⟨text, stop, more, split, rfl, plain, ends, -⟩
    rw [event, terminated_eq split] at here
    split_ifs at here with bell
    · cases here
      refine ⟨text, [7], more, ?_, plain, .inl rfl, rfl, rfl⟩
      rw [split, bell]
      simp
    · have escape : stop = 27 := by
        have kind : stop = 7 ∨ stop = 27 := by simpa [isTerminator] using ends
        exact kind.resolve_left bell
      cases more with
      | nil => cases here
      | cons byte more =>
          simp only [List.head?_cons] at here
          split_ifs at here with slash
          cases here
          refine ⟨text, [27, 92], more, ?_, plain, .inr rfl, rfl, rfl⟩
          rw [split, escape, slash]
          simp

/-- Behind the opener and a body short enough, BEL ends an event. -/
theorem candidate_of_bell {text more : List UInt8} (plain : Body text)
    (small : hookOpener.length + text.length < maxAgentEventBytes) :
    candidate (hookOpener ++ text ++ 7 :: more) =
      .event (hookOpener.length + text.length) (hookOpener.length + text.length + 1) := by
  have opens : Opens (hookOpener ++ text ++ 7 :: more) := by
    rw [List.append_assoc]
    exact all_zip_append _ _
  have window : hookWindow (hookOpener ++ text ++ 7 :: more) =
      text ++ 7 :: more.take (maxAgentEventBytes - (hookOpener.length + text.length + 1)) := by
    have front : hookOpener ++ text ++ 7 :: more = hookOpener ++ (text ++ [7]) ++ more := by simp
    have fits : (hookOpener ++ (text ++ [7])).length ≤ maxAgentEventBytes := by
      simp only [List.length_append, List.length_singleton]
      omega
    rw [hookWindow, front, List.take_append, List.take_of_length_le fits, List.append_assoc,
      List.drop_left]
    simp only [List.length_append, List.length_singleton, List.append_assoc,
      List.singleton_append]
    rfl
  have found : (hookWindow (hookOpener ++ text ++ 7 :: more)).findIdx? isTerminator =
      some text.length := by
    have none : text.findIdx? isTerminator = none := by
      rw [List.findIdx?_eq_none_iff]
      intro byte contained
      rw [isTerminator, Bool.or_eq_false_iff, beq_eq_false_iff_ne, beq_eq_false_iff_ne]
      constructor
      · rintro rfl
        exact plain.1 contained
      · rintro rfl
        exact plain.2 contained
    rw [window, List.findIdx?_append, none, Option.none_or, List.findIdx?_cons]
    simp [isTerminator]
  rw [candidate_of_terminated opens _ found, terminated_eq rfl, if_pos rfl]
  simp only [List.length_append]
  omega

/-- What may become an event ends within the opener, within a body, or with its escape. -/
theorem exists_of_unfinished (unfinished : candidate rest = .unfinished) :
    rest.length ≤ maxAgentEventBytes ∧
      ((∃ more, hookOpener = rest ++ more) ∨
        ∃ text, Body text ∧ (rest = hookOpener ++ text ∨ rest = hookOpener ++ text ++ [27])) := by
  rcases candidate_cases rest with ⟨-, here⟩ | ⟨opens, short, -⟩ | ⟨opens, long, nothing, here⟩ |
    ⟨index, opens, long, found, here⟩
  · rw [unfinished] at here
    cases here
  · refine ⟨?_, .inl ⟨_, append_eq_of_zip opens (Nat.le_of_lt short)⟩⟩
    rw [length_hookOpener] at short
    rw [maxAgentEventBytes]
    omega
  · rw [unfinished] at here
    split_ifs at here with small
    have whole : hookWindow rest = rest.drop hookOpener.length := by
      rw [hookWindow, List.take_of_length_le (Nat.le_of_lt small)]
    rw [whole, List.findIdx?_eq_none_iff] at nothing
    refine ⟨Nat.le_of_lt small, .inr ⟨rest.drop hookOpener.length, ⟨?_, ?_⟩,
      .inl (eq_append_of_zip opens long)⟩⟩
    · intro contained
      exact absurd (nothing 7 contained) (by decide)
    · intro contained
      exact absurd (nothing 27 contained) (by decide)
  · rcases split_of_findIdx? opens long found with
      ⟨text, stop, more, split, rfl, plain, ends, bound⟩
    rw [unfinished, terminated_eq split] at here
    split_ifs at here with bell
    have escape : stop = 27 := by
      have kind : stop = 7 ∨ stop = 27 := by simpa [isTerminator] using ends
      exact kind.resolve_left bell
    cases more with
    | nil =>
        rw [escape] at split
        refine ⟨?_, .inr ⟨text, plain, .inr split⟩⟩
        rw [split]
        simp only [List.length_append, List.length_singleton]
        omega
    | cons byte more =>
        simp only [List.head?_cons] at here
        split_ifs at here

end Long

end Condr
