import Condr.Foundation.Splitter

/-!
# Arguments of a Windows program

How `CommandLineToArgvW` splits what follows the program's name. Blanks outside quotes separate;
backslashes count only before a quote, where each pair is one backslash and an odd one makes the
quote a character; and of three quotes in a row the last is a character too.
-/

namespace WindowsArguments

structure State where
  words : List (List Char)
  current : Option (List Char)
  /-- The backslashes that were just read. -/
  backslashes : ℕ
  /-- The quotes that are open, or that were read in a row. -/
  quotes : ℕ
  /-- The last character was a quote. -/
  afterQuote : Bool
deriving DecidableEq

def State.append (state : State) (text : List Char) : State :=
  { state with current := some (state.current.getD [] ++ text) }

/-- A row of quotes is over. -/
def State.settle (state : State) : State :=
  if state.afterQuote then
    { state with quotes := if state.quotes = 2 then 0 else state.quotes, afterQuote := false }
  else state

/-- A quote behind a quote. -/
def State.again (state : State) : State :=
  if state.quotes + 1 = 3 then { state.append ['"'] with quotes := 0 }
  else { state with quotes := state.quotes + 1 }

def readQuote (state : State) : State :=
  if state.afterQuote then state.again
  else
    let slashes := List.replicate (state.backslashes / 2) '\\'
    let opened := { state with backslashes := 0, afterQuote := true }
    if state.backslashes % 2 = 0 then { opened.append slashes with quotes := state.quotes + 1 }
    else opened.append (slashes ++ ['"'])

def step (state : State) (char : Char) : State :=
  if char = '"' then readQuote state
  else
    let state := state.settle
    if char = '\\' then
      { state with backslashes := state.backslashes + 1, current := some (state.current.getD []) }
    else
      let slashes := List.replicate state.backslashes '\\'
      if (char = ' ' || char = '\t') && state.quotes = 0 then
        let last := if state.backslashes = 0 then state else state.append slashes
        { last with words := last.words ++ last.current.toList, current := none, backslashes := 0 }
      else { state.append (slashes ++ [char]) with backslashes := 0 }

def finish (state : State) : List (List Char) :=
  let last := if state.backslashes = 0 then state
    else state.append (List.replicate state.backslashes '\\')
  last.words ++ last.current.toList

def splitter : Splitter State (List Char) where
  start := ⟨[], none, 0, 0, false⟩
  step state char := some (step state char)
  finish state := some (finish state)

/-! The splitter between two arguments, and behind the quote that ends one. -/

def between (words : List (List Char)) : State := ⟨words, none, 0, 0, false⟩

def ended (words : List (List Char)) (word : List Char) : State := ⟨words, some word, 0, 2, true⟩

theorem ends : splitter.Ends between ended where
  start := rfl
  space _ _ := rfl
  finishBetween words := by simp [splitter, finish, between]
  finishEnded words word := by simp [splitter, finish, ended]

/-- The splitter in quotes, behind some backslashes. -/
def inQuotes (words : List (List Char)) (text : List Char) (backslashes : ℕ) (afterQuote : Bool) :
    State := ⟨words, some text, backslashes, 1, afterQuote⟩

section InQuotes

variable {words : List (List Char)} {text : List Char} {afterQuote : Bool}

theorem step_open : splitter.step (between words) '"' = some (inQuotes words [] 0 true) := by
  simp [splitter, step, readQuote, between, inQuotes, State.append]

theorem settle_inQuotes {backslashes : ℕ} :
    (inQuotes words text backslashes afterQuote).settle =
      inQuotes words text backslashes false := by
  cases afterQuote <;> rfl

theorem feed_backslashes (backslashes more : ℕ) :
    splitter.feed (inQuotes words text backslashes afterQuote) (List.replicate more '\\') =
      some (inQuotes words text (backslashes + more) (afterQuote && more = 0)) := by
  induction more generalizing backslashes afterQuote with
  | zero => simp
  | succ more ih =>
      have first : splitter.step (inQuotes words text backslashes afterQuote) '\\' =
          some (inQuotes words text (backslashes + 1) false) := by
        simp only [splitter, step, settle_inQuotes]
        rfl
      have count : backslashes + 1 + more = backslashes + (more + 1) := by omega
      rw [List.replicate_succ, Splitter.feed_cons_of _ first, ih, count]
      simp

/-- A character that is no quote and no backslash takes the backslashes before it along. -/
theorem step_inQuotes {backslashes : ℕ} {char : Char} (quote : char ≠ '"')
    (backslash : char ≠ '\\') :
    splitter.step (inQuotes words text backslashes afterQuote) char =
      some (inQuotes words (text ++ List.replicate backslashes '\\' ++ [char]) 0 false) := by
  simp only [splitter, step, settle_inQuotes, if_neg quote, if_neg backslash]
  simp [inQuotes, State.append]

/-- Behind an odd number of backslashes a quote is a character. -/
theorem step_quote_odd (backslashes : ℕ) :
    splitter.step (inQuotes words text (backslashes * 2 + 1) false) '"' =
      some (inQuotes words (text ++ List.replicate backslashes '\\' ++ ['"']) 0 true) := by
  have half : (backslashes * 2 + 1) / 2 = backslashes := by omega
  simp [splitter, step, readQuote, inQuotes, State.append, half]

/-- Behind an even number it ends the quotes. -/
theorem step_quote_even (backslashes : ℕ) (few : afterQuote = true → backslashes = 0) :
    splitter.step (inQuotes words text (backslashes * 2) afterQuote) '"' =
      some (ended words (text ++ List.replicate backslashes '\\')) := by
  cases afterQuote with
  | false => simp [splitter, step, readQuote, inQuotes, ended, State.append]
  | true => simp [splitter, step, readQuote, State.again, inQuotes, ended, few rfl]

end InQuotes

end WindowsArguments
