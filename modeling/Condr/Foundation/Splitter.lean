import Mathlib.Data.List.Basic
import Mathlib.Tactic.Common

/-!
# Splitting a line into words

A splitter reads a line one character after another. A text is one word when it takes the splitter
from between two words to the end of one, and a line of such texts splits into their words.
-/

universe u v

structure Splitter (State : Type u) (Word : Type v) where
  start : State
  step : State → Char → Option State
  /-- The words at the end of the line. -/
  finish : State → Option (List Word)

namespace Splitter

variable {State : Type u} {Word : Type v} (splitter : Splitter State Word)

def feed (state : State) (text : List Char) : Option State := text.foldlM splitter.step state

def split (line : List Char) : Option (List Word) :=
  (splitter.feed splitter.start line).bind splitter.finish

/-- How a splitter ends its words, by the states between two words and at the end of one. -/
structure Ends (between : List Word → State) (ended : List Word → Word → State) : Prop where
  start : splitter.start = between []
  space : ∀ words word, splitter.step (ended words word) ' ' = some (between (words ++ [word]))
  finishBetween : ∀ words, splitter.finish (between words) = some words
  finishEnded : ∀ words word, splitter.finish (ended words word) = some (words ++ [word])

/-- A text is read as one word. -/
def Reads (between : List Word → State) (ended : List Word → Word → State) (text : List Char)
    (word : Word) : Prop :=
  ∀ words, splitter.feed (between words) text = some (ended words word)

variable {splitter}

@[simp]
theorem feed_nil (state : State) : splitter.feed state [] = some state := rfl

theorem feed_cons (state : State) (char : Char) (text : List Char) :
    splitter.feed state (char :: text) =
      (splitter.step state char).bind fun next => splitter.feed next text := by
  simp only [feed, List.foldlM_cons]
  rfl

theorem feed_append (state : State) (front back : List Char) :
    splitter.feed state (front ++ back) =
      (splitter.feed state front).bind fun next => splitter.feed next back := by
  simp only [feed, List.foldlM_append]
  rfl

/-- Reading on from a state that is known. -/
theorem feed_append_of {state next : State} {front : List Char} (back : List Char)
    (fed : splitter.feed state front = some next) :
    splitter.feed state (front ++ back) = splitter.feed next back := by
  rw [feed_append, fed]
  rfl

theorem feed_cons_of {state next : State} {char : Char} (text : List Char)
    (stepped : splitter.step state char = some next) :
    splitter.feed state (char :: text) = splitter.feed next text := by
  rw [feed_cons, stepped]
  rfl

section Join

variable {between : List Word → State} {ended : List Word → Word → State}

theorem finish_join (ends : splitter.Ends between ended) {texts : List (List Char)}
    {words : List Word} (reads : List.Forall₂ (splitter.Reads between ended) texts words)
    (before : List Word) :
    (splitter.feed (between before) ([' '].intercalate texts)).bind splitter.finish =
      some (before ++ words) := by
  induction reads generalizing before with
  | nil => simp [ends.finishBetween]
  | @cons text word texts words first later ih =>
      cases later with
      | nil =>
          rw [List.intercalate_singleton, first before]
          exact ends.finishEnded before word
      | @cons next other texts words _ _ =>
          rw [List.intercalate_cons_cons, List.append_assoc, feed_append_of _ (first before),
            List.singleton_append, feed_cons_of _ (ends.space before word), ih]
          simp

/-- A line of texts that are words splits into them. -/
theorem split_join (ends : splitter.Ends between ended) {texts : List (List Char)}
    {words : List Word} (reads : List.Forall₂ (splitter.Reads between ended) texts words) :
    splitter.split ([' '].intercalate texts) = some words := by
  rw [split, ends.start, finish_join ends reads, List.nil_append]

/-- A way of quoting that makes words of all texts. -/
theorem reads_map {quote : List Char → List Char} {word : List Char → Word}
    (reads : ∀ text, splitter.Reads between ended (quote text) (word text))
    (texts : List (List Char)) :
    List.Forall₂ (splitter.Reads between ended) (texts.map quote) (texts.map word) := by
  induction texts with
  | nil => exact .nil
  | cons text rest ih => exact .cons (reads text) ih

end Join

end Splitter
