import Mathlib.Data.List.Basic
import Mathlib.Tactic.Common

/-!
# Scanning what arrives in parts

A scanner takes one item after another off the front of its input and stops where the rest may
still become one. An item once found is found the same with more input behind it, so scanning the
parts as they arrive, each behind what the last one left, is scanning the whole.
-/

universe u v

structure Scanner (Symbol : Type u) (Item : Type v) where
  /-- The first item and what is behind it, if that can be told. -/
  next : List Symbol → Option (Item × List Symbol)
  shorter : ∀ {input item rest}, next input = some (item, rest) → rest.length < input.length
  stable : ∀ {input item rest} (more : List Symbol), next input = some (item, rest) →
    next (input ++ more) = some (item, rest ++ more)

namespace Scanner

variable {Symbol : Type u} {Item : Type v} (scanner : Scanner Symbol Item)

/-- The items of an input, and the rest that may become one. -/
def scan (input : List Symbol) : List Item × List Symbol :=
  match _found : scanner.next input with
  | none => ([], input)
  | some (item, rest) => (item :: (scan rest).1, (scan rest).2)
termination_by input.length
decreasing_by all_goals exact scanner.shorter ‹_›

variable {scanner}

theorem scan_of_none {input : List Symbol} (wait : scanner.next input = none) :
    scanner.scan input = ([], input) := by
  rw [scan]
  split
  · rfl
  · next found => rw [wait] at found; cases found

theorem scan_of_some {input rest : List Symbol} {item : Item}
    (found : scanner.next input = some (item, rest)) :
    scanner.scan input = (item :: (scanner.scan rest).1, (scanner.scan rest).2) := by
  rw [scan]
  split
  · next wait => rw [wait] at found; cases found
  · next same =>
      rw [found] at same
      cases same
      rfl

/-- What holds where the scan waits, and of an input when it holds of the rest, holds of all. -/
theorem scan_induction {holds : List Symbol → Prop}
    (wait : ∀ input, scanner.next input = none → holds input)
    (step : ∀ input item rest, scanner.next input = some (item, rest) → holds rest → holds input)
    (input : List Symbol) : holds input := by
  induction length : input.length using Nat.strongRecOn generalizing input with
  | ind count ih =>
      cases found : scanner.next input with
      | none => exact wait input found
      | some taken =>
          have smaller : taken.2.length < count := length ▸ scanner.shorter found
          exact step input taken.1 taken.2 found (ih _ smaller taken.2 rfl)

/-- The scan waits at its rest. -/
theorem next_scan (input : List Symbol) : scanner.next (scanner.scan input).2 = none := by
  apply @scan_induction _ _ scanner _ _ _ input
  · intro input wait
    rw [scan_of_none wait]
    exact wait
  · intro input item rest found ih
    rw [scan_of_some found]
    exact ih

theorem scan_append (front back : List Symbol) :
    scanner.scan (front ++ back) =
      ((scanner.scan front).1 ++ (scanner.scan ((scanner.scan front).2 ++ back)).1,
        (scanner.scan ((scanner.scan front).2 ++ back)).2) := by
  apply @scan_induction _ _ scanner _ _ _ front
  · intro input wait
    rw [scan_of_none wait]
    rfl
  · intro input item rest found ih
    rw [scan_of_some found, scan_of_some (scanner.stable back found), ih]
    rfl

end Scanner
