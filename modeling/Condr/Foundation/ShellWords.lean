import Condr.Foundation.Splitter

/-!
# Words of the shells

How a POSIX shell, zsh, fish and PowerShell read a line that is nothing but words. A word keeps
which of its characters were quoted, since what a shell makes of a character depends on it. A line
that holds more than literal words, an operator, a comment, an expansion, a reserved word or an
assignment, is read as `none`.
-/

/-- A word of a line. -/
structure ShellWord where
  /-- Its characters, and whether they are quoted. -/
  chars : List (Char × Bool)
  /-- Some part of it is in quotes, be it empty. -/
  quoted : Bool
deriving DecidableEq

namespace ShellWord

def empty : ShellWord := ⟨[], false⟩

def text (word : ShellWord) : List Char := word.chars.map Prod.fst

/-- What it begins with before any quoted character. -/
def front (word : ShellWord) : List Char :=
  (word.chars.takeWhile fun char => !char.2).map Prod.fst

def push (word : ShellWord) (char : Char) (quoted : Bool) : ShellWord :=
  { word with chars := word.chars ++ [(char, quoted)] }

/-- A word without quotes. -/
def bare (text : List Char) : ShellWord := ⟨text.map fun char => (char, false), false⟩

/-- A word all of which is quoted. -/
def whole (text : List Char) : ShellWord := ⟨text.map fun char => (char, true), true⟩

/-- Some character that is not quoted is one of `special`. -/
def shows (special : List Char) (word : ShellWord) : Bool :=
  word.chars.any fun char => !char.2 && special.contains char.1

@[simp] theorem text_bare (text : List Char) : (bare text).text = text := by
  simp [bare, ShellWord.text, Function.comp_def]

@[simp] theorem text_whole (text : List Char) : (whole text).text = text := by
  simp [whole, ShellWord.text, Function.comp_def]

@[simp] theorem front_bare (text : List Char) : (bare text).front = text := by
  induction text with
  | nil => rfl
  | cons char rest ih => simpa [bare, front] using ih

@[simp] theorem front_whole (text : List Char) : (whole text).front = [] := by
  cases text <;> simp [whole, front]

@[simp] theorem shows_whole (special text : List Char) : (whole text).shows special = false := by
  simp [whole, shows]

theorem shows_bare {special text : List Char} (plain : ∀ char ∈ text, char ∉ special) :
    (bare text).shows special = false := by
  simpa [bare, shows] using plain

theorem push_whole (text : List Char) (char : Char) :
    (whole text).push char true = whole (text ++ [char]) := by
  simp [whole, push]

theorem push_bare (text : List Char) (char : Char) :
    (bare text).push char false = bare (text ++ [char]) := by
  simp [bare, push]

end ShellWord

/-! ## Reading -/

/-- A line read so far, and the word that is being read. -/
structure ShellReader (Mode : Type) where
  words : List ShellWord
  current : Option ShellWord
  mode : Mode
deriving DecidableEq

namespace ShellReader

variable {Mode : Type}

def word (reader : ShellReader Mode) : ShellWord := reader.current.getD .empty

def push (reader : ShellReader Mode) (mode : Mode) (char : Char) (quoted : Bool) :
    ShellReader Mode :=
  { reader with current := some (reader.word.push char quoted), mode }

/-- A quote opens, and the word is one even if nothing follows. -/
def openQuote (reader : ShellReader Mode) (mode : Mode) : ShellReader Mode :=
  { reader with current := some { reader.word with quoted := true }, mode }

def become (reader : ShellReader Mode) (mode : Mode) : ShellReader Mode := { reader with mode }

def endWord (reader : ShellReader Mode) (mode : Mode) : ShellReader Mode where
  words := reader.words ++ reader.current.toList
  current := none
  mode := mode

section Feed

variable {splitter : Splitter (ShellReader Mode) ShellWord} {words : List ShellWord}

/-- Characters that a mode takes as they are make a bare word. -/
theorem feed_word {first mode : Mode} {takes : Char → Bool}
    (opens : ∀ char, takes char = true →
      splitter.step ⟨words, none, first⟩ char = some ⟨words, some (.bare [char]), mode⟩)
    (goes : ∀ front char, takes char = true →
      splitter.step ⟨words, some (.bare front), mode⟩ char =
        some ⟨words, some (.bare (front ++ [char])), mode⟩)
    {text : List Char} (nonempty : text ≠ []) (taken : ∀ char ∈ text, takes char = true) :
    splitter.feed ⟨words, none, first⟩ text = some ⟨words, some (.bare text), mode⟩ := by
  have goesOn : ∀ (rest front : List Char), (∀ char ∈ rest, takes char = true) →
      splitter.feed ⟨words, some (.bare front), mode⟩ rest =
        some ⟨words, some (.bare (front ++ rest)), mode⟩ := by
    intro rest
    induction rest with
    | nil => simp
    | cons char rest ih =>
        intro front taken
        rw [Splitter.feed_cons_of rest (goes front char (taken char List.mem_cons_self)),
          ih (front ++ [char]) fun other contained => taken other (List.mem_cons_of_mem _ contained),
          List.append_assoc, List.singleton_append]
  cases text with
  | nil => exact absurd rfl nonempty
  | cons char rest =>
      rw [Splitter.feed_cons_of rest (opens char (taken char List.mem_cons_self))]
      exact goesOn rest [char] fun other contained => taken other (List.mem_cons_of_mem _ contained)

/-- Characters that are each read back from their escapes make a quoted text. -/
theorem feed_escaped {mode : Mode} {escape : Char → List Char}
    (reads : ∀ front char, splitter.feed ⟨words, some (.whole front), mode⟩ (escape char) =
      some ⟨words, some (.whole (front ++ [char])), mode⟩) (text front : List Char) :
    splitter.feed ⟨words, some (.whole front), mode⟩ (text.flatMap escape) =
      some ⟨words, some (.whole (front ++ text)), mode⟩ := by
  induction text generalizing front with
  | nil => simp
  | cons char rest ih =>
      rw [List.flatMap_cons, Splitter.feed_append_of _ (reads front char), ih (front ++ [char]),
        List.append_assoc, List.singleton_append]

end Feed

end ShellReader

/-- The texts of words of which none expands and the first is a command. -/
def ShellWord.literal (expands : ShellWord → Bool) (leads : ShellWord → Bool)
    (words : List ShellWord) : Option (List (List Char)) :=
  if words.any expands || words.head?.any leads then none else some (words.map ShellWord.text)

theorem ShellWord.literal_eq_some_iff {expands leads : ShellWord → Bool} {words : List ShellWord} :
    literal expands leads words = some (words.map ShellWord.text) ↔
      (∀ word ∈ words, expands word = false) ∧ ∀ first ∈ words.head?, leads first = false := by
  unfold literal
  split_ifs with more
  · simp only [Bool.or_eq_true, List.any_eq_true, Option.any_eq_true] at more
    constructor
    · intro absurdity
      cases absurdity
    · rintro ⟨none, first⟩
      rcases more with ⟨word, contained, expanding⟩ | ⟨word, leading, leads⟩
      · rw [none word contained] at expanding
        cases expanding
      · rw [first word leading] at leads
        cases leads
  · simp only [Bool.or_eq_true, List.any_eq_true, Option.any_eq_true, not_or, not_exists,
      not_and, Bool.not_eq_true] at more
    exact ⟨fun _ => more, fun _ => rfl⟩

/-- What ends a word or a command where it is not quoted. -/
def shellOperators : List Char := ['|', '&', ';', '<', '>', '(', ')', '\n']

/-- What a shell may expand where it is not quoted. -/
def shellExpansions : List Char :=
  ['$', '\x60', '*', '?', '[', ']', '~', '\x7b', '\x7d', '!', '^', '#']

def isNameStart (char : Char) : Bool := char.isAlpha || char = '_'
def isNameChar (char : Char) : Bool := char.isAlphanum || char = '_'

def isIdentifier (name : List Char) : Bool :=
  name.head?.any isNameStart && name.all isNameChar

/-- What stands before the first `=`. -/
def assignedName (word : List Char) : Option (List Char) :=
  if word.contains '=' then some (word.takeWhile fun char => char ≠ '=') else none

/-- A character that neither ends a word nor begins a quote or a comment. -/
def isOrdinary (char : Char) : Bool :=
  !([' ', '\t', '\'', '"', '\\', '#'].contains char) && !shellOperators.contains char

/-! ## A POSIX shell and zsh -/

namespace PosixShell

inductive Mode where
  | plain
  | single
  | double
  | escape
  | doubleEscape
deriving DecidableEq

def step (reader : ShellReader Mode) (char : Char) : Option (ShellReader Mode) :=
  match reader.mode with
  | .plain =>
      if char = ' ' || char = '\t' then some (reader.endWord .plain)
      else if char = '\'' then some (reader.openQuote .single)
      else if char = '"' then some (reader.openQuote .double)
      else if char = '\\' then some (reader.openQuote .escape)
      else if shellOperators.contains char then none
      else if char = '#' && reader.current.isNone then none
      else some (reader.push .plain char false)
  | .single =>
      if char = '\'' then some (reader.become .plain) else some (reader.push .single char true)
  | .double =>
      if char = '"' then some (reader.become .plain)
      else if char = '\\' then some (reader.become .doubleEscape)
      else if char = '$' || char = '\x60' || char = '!' then none
      else some (reader.push .double char true)
  | .escape =>
      if char = '\n' then some (reader.become .plain) else some (reader.push .plain char true)
  | .doubleEscape =>
      if char = '\n' then some (reader.become .double)
      else if char = '$' || char = '\x60' || char = '"' || char = '\\' then
        some (reader.push .double char true)
      else some ((reader.push .double '\\' true).push .double char true)

def splitter : Splitter (ShellReader Mode) ShellWord where
  start := ⟨[], none, .plain⟩
  step := step
  finish reader := if reader.mode = .plain then some (reader.endWord .plain).words else none

/-- The shells that split a line in this way. They differ in what a first word may be. -/
inductive Dialect where
  | sh
  | bash
  /-- The Korn shell of 1993. -/
  | ksh
  | mksh
deriving DecidableEq

namespace Dialect

/-- A name that takes a value. In `ksh` it may be one of several, with dots between them. -/
def isVariable : Dialect → List Char → Bool
  | ksh, name =>
      ((if name.head? = some '.' then name.tail else name).splitOn '.').all isIdentifier
  | _, name => isIdentifier name

/-- `name=value`, and everywhere but in `sh` also `name+=value`. A subscript would be an expansion
already. -/
def assigns (dialect : Dialect) (word : List Char) : Bool :=
  (assignedName word).any fun before =>
    dialect.isVariable
      (if dialect ≠ sh && before.getLast? = some '+' then before.dropLast else before)

def standard : List String :=
  ["!", "\x7b", "\x7d", "case", "do", "done", "elif", "else", "esac", "fi", "for", "if", "in",
    "then", "until", "while"]

def own : Dialect → List String
  | sh => []
  | bash => ["[[", "]]", "coproc", "function", "select", "time"]
  | ksh => ["[[", "function", "namespace", "select", "time"]
  | mksh => ["[[", "function", "select", "time"]

def reserved (dialect : Dialect) : List (List Char) :=
  (standard ++ dialect.own).map String.toList

/-- A first word that is no command. -/
def leads (dialect : Dialect) (word : ShellWord) : Bool :=
  dialect.assigns word.front || (!word.quoted && dialect.reserved.contains word.text)

def parse (dialect : Dialect) (line : List Char) : Option (List (List Char)) :=
  (splitter.split line).bind (ShellWord.literal (ShellWord.shows shellExpansions) dialect.leads)

end Dialect

/-! The reader between two words, and at the end of one. -/

def between (words : List ShellWord) : ShellReader Mode := ⟨words, none, .plain⟩

def ended (words : List ShellWord) (word : ShellWord) : ShellReader Mode :=
  ⟨words, some word, .plain⟩

theorem ends : splitter.Ends between ended where
  start := rfl
  space _ _ := rfl
  finishBetween words := by simp [splitter, between, ShellReader.endWord]
  finishEnded words word := by simp [splitter, ended, ShellReader.endWord]

theorem step_plain {words : List ShellWord} {current : Option ShellWord} {char : Char}
    (ordinary : isOrdinary char = true) :
    splitter.step ⟨words, current, .plain⟩ char =
      some ((ShellReader.mk words current .plain).push .plain char false) := by
  simp only [isOrdinary, Bool.and_eq_true, Bool.not_eq_true', List.contains_eq_mem,
    List.mem_cons, List.not_mem_nil, or_false, decide_eq_false_iff_not, not_or] at ordinary
  rcases ordinary with ⟨⟨space, tab, quote, double, slash, comment⟩, operator⟩
  simp [splitter, step, space, tab, quote, double, slash, comment, operator]

end PosixShell

namespace Zsh

/-- `=` and the name of a command, which stands for the command's path. -/
def namesCommand (word : List Char) : Bool :=
  match word with
  | '=' :: _ :: _ => true
  | _ => false

def expands (word : ShellWord) : Bool :=
  word.shows shellExpansions ||
    (word.chars.head? = some ('=', false) && 2 ≤ word.chars.length)

/-- `name=value` and `name+=value`, where digits name a positional parameter. -/
def assigns (word : List Char) : Bool :=
  (assignedName word).any fun before =>
    let name := if before.getLast? = some '+' then before.dropLast else before
    !name.isEmpty && (name.all Char.isDigit || isIdentifier name)

def reserved : List (List Char) :=
  ["do", "done", "esac", "then", "elif", "else", "fi", "for", "case", "if", "while", "function",
    "repeat", "time", "until", "select", "coproc", "nocorrect", "foreach", "end", "!", "[[",
    "\x7b", "\x7d", "declare", "export", "float", "integer", "local", "readonly",
    "typeset"].map String.toList

def leads (word : ShellWord) : Bool :=
  assigns word.front || (!word.quoted && reserved.contains word.text)

def parse (line : List Char) : Option (List (List Char)) :=
  (PosixShell.splitter.split line).bind (ShellWord.literal expands leads)

end Zsh

/-! ## fish -/

namespace Fish

inductive Mode where
  | plain
  | single
  | singleEscape
  | double
  | doubleEscape
  | escape
deriving DecidableEq

def step (reader : ShellReader Mode) (char : Char) : Option (ShellReader Mode) :=
  match reader.mode with
  | .plain =>
      if char = ' ' || char = '\t' then some (reader.endWord .plain)
      else if char = '\'' then some (reader.openQuote .single)
      else if char = '"' then some (reader.openQuote .double)
      else if char = '\\' then some (reader.openQuote .escape)
      else if shellOperators.contains char then none
      else if char = '#' && reader.current.isNone then none
      else some (reader.push .plain char false)
  | .single =>
      if char = '\'' then some (reader.become .plain)
      else if char = '\\' then some (reader.become .singleEscape)
      else some (reader.push .single char true)
  | .singleEscape =>
      if char = '\\' || char = '\'' then some (reader.push .single char true)
      else some ((reader.push .single '\\' true).push .single char true)
  | .double =>
      if char = '"' then some (reader.become .plain)
      else if char = '\\' then some (reader.become .doubleEscape)
      else if char = '$' then none
      else some (reader.push .double char true)
  | .doubleEscape =>
      if char = '\n' then some (reader.become .double)
      else if char = '$' || char = '"' || char = '\\' then some (reader.push .double char true)
      else some ((reader.push .double '\\' true).push .double char true)
  -- A letter or a digit names a character that is not itself.
  | .escape =>
      if char = '\n' then some (reader.become .plain)
      else if char.isAlphanum then none
      else some (reader.push .plain char true)

def splitter : Splitter (ShellReader Mode) ShellWord where
  start := ⟨[], none, .plain⟩
  step := step
  finish reader := if reader.mode = .plain then some (reader.endWord .plain).words else none

/-- The process of the shell itself. -/
def self : List Char := "%self".toList

def expands (word : ShellWord) : Bool :=
  word.shows shellExpansions || (!word.quoted && word.text = self)

/-- `name=value`. -/
def assigns (word : List Char) : Bool :=
  (assignedName word).any fun name => !name.isEmpty && name.all isNameChar

def reserved : List (List Char) :=
  ["and", "begin", "builtin", "case", "command", "else", "end", "exec", "for", "function", "if",
    "not", "or", "switch", "time", "while", "!"].map String.toList

def leads (word : ShellWord) : Bool :=
  assigns word.front || (!word.quoted && reserved.contains word.text)

def parse (line : List Char) : Option (List (List Char)) :=
  (splitter.split line).bind (ShellWord.literal expands leads)

def between (words : List ShellWord) : ShellReader Mode := ⟨words, none, .plain⟩

def ended (words : List ShellWord) (word : ShellWord) : ShellReader Mode :=
  ⟨words, some word, .plain⟩

theorem ends : splitter.Ends between ended where
  start := rfl
  space _ _ := rfl
  finishBetween words := by simp [splitter, between, ShellReader.endWord]
  finishEnded words word := by simp [splitter, ended, ShellReader.endWord]

theorem step_plain {words : List ShellWord} {current : Option ShellWord} {char : Char}
    (ordinary : isOrdinary char = true) :
    splitter.step ⟨words, current, .plain⟩ char =
      some ((ShellReader.mk words current .plain).push .plain char false) := by
  simp only [isOrdinary, Bool.and_eq_true, Bool.not_eq_true', List.contains_eq_mem,
    List.mem_cons, List.not_mem_nil, or_false, decide_eq_false_iff_not, not_or] at ordinary
  rcases ordinary with ⟨⟨space, tab, quote, double, slash, comment⟩, operator⟩
  simp [splitter, step, space, tab, quote, double, slash, comment, operator]

end Fish

/-! ## PowerShell -/

namespace PowerShell

inductive Mode where
  | blank
  | bare
  | single
  /-- At a quote in a string, which ends it or is doubled. -/
  | quote
deriving DecidableEq

/-- `'` and its typographic forms. -/
def isSingleQuote (char : Char) : Bool :=
  char = '\'' || (0x2018 ≤ char.toNat && char.toNat ≤ 0x201B)

def isDoubleQuote (char : Char) : Bool :=
  char = '"' || (0x201C ≤ char.toNat && char.toNat ≤ 0x201E)

/-- What is no part of a bare word. -/
def special : List Char :=
  ['$', '\x60', '(', ')', '\x7b', '\x7d', ';', ',', '|', '&', '<', '>', '@', '#', '\n', '\r']

def isBlank (char : Char) : Bool := char = ' ' || char = '\t'

def isPlain (char : Char) : Bool :=
  !special.contains char && !isSingleQuote char && !isDoubleQuote char

/-- The reading of arguments. A string is a word by itself. -/
def step (reader : ShellReader Mode) (char : Char) : Option (ShellReader Mode) :=
  match reader.mode with
  | .blank =>
      if isBlank char then some reader
      else if isSingleQuote char then some (reader.openQuote .single)
      else if isPlain char then some (reader.push .bare char false)
      else none
  | .bare =>
      if isBlank char then some (reader.endWord .blank)
      else if isPlain char then some (reader.push .bare char false)
      else none
  | .single =>
      if isSingleQuote char then some (reader.become .quote)
      else some (reader.push .single char true)
  | .quote =>
      if isSingleQuote char then some (reader.push .single char true)
      else if isBlank char then some (reader.endWord .blank)
      else none

def splitter : Splitter (ShellReader Mode) ShellWord where
  start := ⟨[], none, .blank⟩
  step := step
  finish reader := if reader.mode = .single then none else some (reader.endWord .blank).words

/-! The reader between two words, and at the end of one, which a string ends by itself. -/

def between (words : List ShellWord) : ShellReader Mode := ⟨words, none, .blank⟩

def ended (words : List ShellWord) (word : ShellWord) : ShellReader Mode :=
  ⟨words, some word, if word.quoted then .quote else .bare⟩

theorem ends : splitter.Ends between ended where
  start := rfl
  space words word := by
    cases quoted : word.quoted <;>
      simp [splitter, step, ended, between, ShellReader.endWord, isBlank, isSingleQuote, quoted]
  finishBetween words := by simp [splitter, between, ShellReader.endWord]
  finishEnded words word := by
    cases quoted : word.quoted <;> simp [splitter, ended, ShellReader.endWord, quoted]

def isDash (char : Char) : Bool := char = '-' || (0x2013 ≤ char.toNat && char.toNat ≤ 0x2015)

/-- A word that names a parameter of the command. -/
def isParameter (word : ShellWord) : Bool := word.front.head?.any isDash

end PowerShell
