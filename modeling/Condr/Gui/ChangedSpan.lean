import Condr.Foundation.Boundaries

/-!
# The changed span of a text

A file that changes under its Tab is patched in place: the two texts keep their common
ends, and only the span between them is replaced.
-/

namespace Condr

/-- `&text[start..stop]`: none where the indexing panics. -/
def slice (text : String) (start stop : ℕ) : Option String :=
  if start ≤ stop then Utf8.get text start stop else none

/-- `String::replace_range`: none where it panics. -/
def replaceRange (text : String) (range : ℕ × ℕ) (replacement : String) : Option String := do
  let front ← slice text 0 range.1
  let _ ← slice text range.1 range.2
  let back ← slice text range.2 text.utf8ByteSize
  return front ++ replacement ++ back

/-- The bytes the two texts begin with alike. -/
def commonStart (old new : List UInt8) : ℕ :=
  ((old.zip new).takeWhile fun pair => pair.1 = pair.2).length

/-- The bytes they end with alike, of those behind the start. -/
def commonEnd (old new : List UInt8) (room : ℕ) : ℕ :=
  (((old.reverse.zip new.reverse).take room).takeWhile fun pair => pair.1 = pair.2).length

def startAligned (old new : List UInt8) (start : ℕ) : Option Bool :=
  some (Utf8.isCharBoundary old start && Utf8.isCharBoundary new start)

def endAligned (old new : List UInt8) (suffix : ℕ) : Option Bool := do
  let oldStop ← checkedSub old.length suffix
  if !Utf8.isCharBoundary old oldStop then return false
  let newStop ← checkedSub new.length suffix
  return Utf8.isCharBoundary new newStop

/-- The byte range of the old text that differs from the new, and the text that replaces it. -/
def changedSpan (old new : String) : Option ((ℕ × ℕ) × String) := do
  let oldBytes := Utf8.encode old.toList
  let newBytes := Utf8.encode new.toList
  let start ← backUp (startAligned oldBytes newBytes) (commonStart oldBytes newBytes)
  let room ← checkedSub (min oldBytes.length newBytes.length) start
  let suffix ← backUp (endAligned oldBytes newBytes) (commonEnd oldBytes newBytes room)
  let oldStop ← checkedSub oldBytes.length suffix
  let newStop ← checkedSub newBytes.length suffix
  let replacement ← slice new start newStop
  return ((start, oldStop), replacement)

namespace ChangedSpan

/-! ## Texts cut at boundaries -/

theorem exists_span {chars : List Char} {start stop : ℕ} (less : start ≤ stop)
    (startsAt : Utf8.isCharBoundary (Utf8.encode chars) start = true)
    (stopsAt : Utf8.isCharBoundary (Utf8.encode chars) stop = true) :
    ∃ front middle back, chars = front ++ middle ++ back ∧
      (Utf8.encode front).length = start ∧ (Utf8.encode (front ++ middle)).length = stop := by
  rcases Utf8.isCharBoundary_encode_iff.mp startsAt with ⟨front, behind, rfl, length⟩
  rcases Utf8.isCharBoundary_encode_iff.mp stopsAt with ⟨before, back, split, stopLength⟩
  rcases List.append_eq_append_iff.mp split with ⟨middle, same, -⟩ | ⟨middle, same, behindSame⟩
  · subst same
    exact ⟨front, middle, back, split, length, stopLength⟩
  · -- both boundaries are the same
    subst same
    have empty : Utf8.encode middle = Utf8.encode [] := by
      rw [Utf8.encode_append, List.length_append] at length
      exact List.eq_nil_of_length_eq_zero (by omega)
    obtain rfl := Utf8.encode_injective empty
    exact ⟨before, [], back, by simpa using split, by simpa using length,
      by simpa using stopLength⟩

theorem length_encode_ofList (chars : List Char) :
    (String.ofList chars).utf8ByteSize = (Utf8.encode chars).length := by
  rw [← Utf8.length_encode, String.toList_ofList]

theorem slice_span {text : String} {front middle back : List Char}
    (split : text.toList = front ++ middle ++ back) :
    slice text (Utf8.encode front).length (Utf8.encode (front ++ middle)).length =
      some (String.ofList middle) := by
  have cut := Utf8.get_append (String.ofList front) (String.ofList middle) (String.ofList back)
  have whole : String.ofList front ++ String.ofList middle ++ String.ofList back = text := by
    rw [← String.ofList_append, ← String.ofList_append, ← split, String.ofList_toList]
  rw [whole, length_encode_ofList, length_encode_ofList, ← List.length_append,
    ← Utf8.encode_append] at cut
  rw [slice, if_pos, cut]
  rw [Utf8.encode_append, List.length_append]
  omega

/-- The replaced text has the same ends and the replacement between them. -/
theorem replaceRange_span {text : String} {front middle back : List Char} {replacement : String}
    (split : text.toList = front ++ middle ++ back) :
    replaceRange text ((Utf8.encode front).length, (Utf8.encode (front ++ middle)).length)
        replacement =
      some (String.ofList front ++ replacement ++ String.ofList back) := by
  have first := @slice_span text [] front (middle ++ back) (by simpa using split)
  have last := @slice_span text (front ++ middle) back [] (by simpa using split)
  have length : (Utf8.encode (front ++ middle ++ back)).length = text.utf8ByteSize := by
    rw [← split, Utf8.length_encode]
  rw [length] at last
  simp only [Utf8.encode_nil, List.length_nil, List.nil_append] at first
  rw [replaceRange, first, slice_span split, last]
  rfl

/-! ## The common ends -/

theorem endAligned_of_le {old new : List UInt8} {suffix : ℕ}
    (fits : suffix ≤ min old.length new.length) :
    endAligned old new suffix =
      some (Utf8.isCharBoundary old (old.length - suffix) &&
        Utf8.isCharBoundary new (new.length - suffix)) := by
  simp only [endAligned, checkedSub_of_le (Nat.le_trans fits (Nat.min_le_left _ _)),
    checkedSub_of_le (Nat.le_trans fits (Nat.min_le_right _ _)), Option.bind_eq_bind,
    Option.bind_some]
  cases Utf8.isCharBoundary old (old.length - suffix) <;> rfl

theorem le_commonEnd_iff {old new : List UInt8} {room count : ℕ} :
    count ≤ commonEnd old new room ↔
      count ≤ room ∧ count ≤ old.length ∧ count ≤ new.length ∧
        old.drop (old.length - count) = new.drop (new.length - count) := by
  have fits := @Lists.le_common_iff _ _ old.reverse new.reverse count
  rw [List.length_reverse, List.length_reverse, List.take_reverse, List.take_reverse,
    List.reverse_inj] at fits
  rw [← fits]
  exact Lists.le_takeWhile_take_iff

/-- The loop stops at the longest common start that both texts have as characters. -/
theorem start_spec (old new : String) :
    ∃ start, backUp (startAligned (Utf8.encode old.toList) (Utf8.encode new.toList))
        (commonStart (Utf8.encode old.toList) (Utf8.encode new.toList)) = some start ∧
      start ≤ min (Utf8.encode old.toList).length (Utf8.encode new.toList).length ∧
      (Utf8.encode old.toList).take start = (Utf8.encode new.toList).take start ∧
      Utf8.isCharBoundary (Utf8.encode old.toList) start = true ∧
      Utf8.isCharBoundary (Utf8.encode new.toList) start = true ∧
      ∀ common oldRest newRest : String, old = common ++ oldRest → new = common ++ newRest →
        common.utf8ByteSize ≤ start := by
  rcases @backUp_spec (startAligned (Utf8.encode old.toList) (Utf8.encode new.toList)) _
    (commonStart (Utf8.encode old.toList) (Utf8.encode new.toList)) (fun _ _ => rfl) rfl
    with ⟨start, within, stops, boundaries, greatest⟩
  rcases Lists.le_common_iff.mp within with ⟨inOld, inNew, same⟩
  rw [Bool.and_eq_true] at boundaries
  refine ⟨start, stops, by omega, same, boundaries.1, boundaries.2, ?_⟩
  rintro common oldRest newRest rfl rfl
  rw [← Utf8.length_encode]
  have boundary : ∀ rest : String, Utf8.isCharBoundary
      (Utf8.encode (common ++ rest).toList) (Utf8.encode common.toList).length = true := by
    intro rest
    exact Utf8.isCharBoundary_encode_iff.mpr
      ⟨common.toList, rest.toList, String.toList_append, rfl⟩
  apply greatest
  · apply Lists.le_common_iff.mpr
    rw [String.toList_append, String.toList_append, Utf8.encode_append, Utf8.encode_append]
    simp
  · rw [boundary, boundary]
    rfl

/-- The loop stops at the longest common end behind the start that both texts have as
characters. -/
theorem end_spec (old new : String) {start : ℕ}
    (within : start ≤ min (Utf8.encode old.toList).length (Utf8.encode new.toList).length) :
    ∃ suffix, backUp (endAligned (Utf8.encode old.toList) (Utf8.encode new.toList))
        (commonEnd (Utf8.encode old.toList) (Utf8.encode new.toList)
          (min (Utf8.encode old.toList).length (Utf8.encode new.toList).length - start)) =
            some suffix ∧
      suffix ≤ min (Utf8.encode old.toList).length (Utf8.encode new.toList).length - start ∧
      (Utf8.encode old.toList).drop ((Utf8.encode old.toList).length - suffix) =
        (Utf8.encode new.toList).drop ((Utf8.encode new.toList).length - suffix) ∧
      Utf8.isCharBoundary (Utf8.encode old.toList)
        ((Utf8.encode old.toList).length - suffix) = true ∧
      Utf8.isCharBoundary (Utf8.encode new.toList)
        ((Utf8.encode new.toList).length - suffix) = true ∧
      ∀ common oldRest newRest : String, old = oldRest ++ common → new = newRest ++ common →
        start ≤ oldRest.utf8ByteSize → start ≤ newRest.utf8ByteSize →
          common.utf8ByteSize ≤ suffix := by
  have tests : ∀ suffix ≤ commonEnd (Utf8.encode old.toList) (Utf8.encode new.toList)
      (min (Utf8.encode old.toList).length (Utf8.encode new.toList).length - start),
      endAligned (Utf8.encode old.toList) (Utf8.encode new.toList) suffix =
        some (Utf8.isCharBoundary (Utf8.encode old.toList)
            ((Utf8.encode old.toList).length - suffix) &&
          Utf8.isCharBoundary (Utf8.encode new.toList)
            ((Utf8.encode new.toList).length - suffix)) := by
    intro suffix inCommon
    have := (le_commonEnd_iff.mp inCommon).1
    exact endAligned_of_le (by omega)
  rcases backUp_spec tests
    (by rw [Nat.sub_zero, Nat.sub_zero, Utf8.isCharBoundary_length, Utf8.isCharBoundary_length]
        rfl)
    with ⟨suffix, inCommon, stops, boundaries, greatest⟩
  rcases le_commonEnd_iff.mp inCommon with ⟨fits, -, -, same⟩
  rw [Bool.and_eq_true] at boundaries
  refine ⟨suffix, stops, fits, same, boundaries.1, boundaries.2, ?_⟩
  rintro common oldRest newRest rfl rfl oldStart newStart
  rw [← Utf8.length_encode] at oldStart newStart ⊢
  have length : ∀ rest : String, (Utf8.encode (rest ++ common).toList).length =
      (Utf8.encode rest.toList).length + (Utf8.encode common.toList).length := by
    intro rest
    rw [String.toList_append, Utf8.encode_append, List.length_append]
  have behind : ∀ rest : String, (Utf8.encode (rest ++ common).toList).length -
      (Utf8.encode common.toList).length = (Utf8.encode rest.toList).length := by
    intro rest
    rw [length, Nat.add_sub_cancel]
  have boundary : ∀ rest : String, Utf8.isCharBoundary (Utf8.encode (rest ++ common).toList)
      (Utf8.encode rest.toList).length = true := by
    intro rest
    exact Utf8.isCharBoundary_encode_iff.mpr
      ⟨rest.toList, common.toList, String.toList_append, rfl⟩
  have last : ∀ rest : String, (Utf8.encode (rest ++ common).toList).drop
      (Utf8.encode rest.toList).length = Utf8.encode common.toList := by
    intro rest
    rw [String.toList_append, Utf8.encode_append, List.drop_left]
  apply greatest
  · apply le_commonEnd_iff.mpr
    rw [behind, behind, last, last, length, length]
    refine ⟨?_, by omega, by omega, rfl⟩
    omega
  · rw [behind, behind, boundary, boundary]
    rfl

/-! ## The span -/

theorem changed_span_patches (old new : String) :
    ∃ start stop replacement, changedSpan old new = some ((start, stop), replacement) ∧
      start ≤ stop ∧ stop ≤ old.utf8ByteSize ∧
      Utf8.isCharBoundary (Utf8.encode old.toList) start = true ∧
      Utf8.isCharBoundary (Utf8.encode old.toList) stop = true ∧
      replaceRange old (start, stop) replacement = some new ∧
      (∀ common oldRest newRest : String, old = common ++ oldRest → new = common ++ newRest →
        common.utf8ByteSize ≤ start) ∧
      ∀ common oldRest newRest : String, old = oldRest ++ common → new = newRest ++ common →
        start ≤ oldRest.utf8ByteSize → start ≤ newRest.utf8ByteSize →
          common.utf8ByteSize ≤ old.utf8ByteSize - stop := by
  rcases start_spec old new with ⟨start, starts, within, sameFront, oldStarts, newStarts,
    frontGreatest⟩
  rcases end_spec old new within with ⟨suffix, stops, fits, sameBack, oldStops, newStops,
    backGreatest⟩
  rcases exists_span (by omega) oldStarts oldStops with
    ⟨front, removed, back, oldSplit, frontLength, stopLength⟩
  rcases exists_span (by omega) newStarts newStops with
    ⟨newFront, added, newBack, newSplit, newFrontLength, newStopLength⟩
  -- the ends of both texts are the same characters
  obtain rfl : newFront = front := by
    apply Utf8.encode_injective
    have oldTake := congrArg (List.take start) (congrArg Utf8.encode oldSplit)
    have newTake := congrArg (List.take start) (congrArg Utf8.encode newSplit)
    rw [List.append_assoc, Utf8.encode_append, List.take_left' frontLength] at oldTake
    rw [List.append_assoc, Utf8.encode_append, List.take_left' newFrontLength] at newTake
    rw [← oldTake, ← newTake, sameFront]
  obtain rfl : newBack = back := by
    apply Utf8.encode_injective
    have oldDrop := congrArg Utf8.encode oldSplit
    have newDrop := congrArg Utf8.encode newSplit
    rw [Utf8.encode_append] at oldDrop newDrop
    replace oldDrop := congrArg (List.drop ((Utf8.encode old.toList).length - suffix)) oldDrop
    replace newDrop := congrArg (List.drop ((Utf8.encode new.toList).length - suffix)) newDrop
    rw [List.drop_left' stopLength] at oldDrop
    rw [List.drop_left' newStopLength] at newDrop
    rw [← oldDrop, ← newDrop, sameBack]
  have cut := slice_span newSplit
  rw [frontLength, newStopLength] at cut
  have oldLength := Utf8.length_encode old
  refine ⟨start, (Utf8.encode old.toList).length - suffix, String.ofList added, ?_, by omega,
    by omega, oldStarts, oldStops, ?_, frontGreatest, ?_⟩
  · simp only [changedSpan, starts, checkedSub_of_le within, stops, Option.bind_eq_bind,
      Option.bind_some, checkedSub_of_le (show suffix ≤ (Utf8.encode old.toList).length by omega),
      checkedSub_of_le (show suffix ≤ (Utf8.encode new.toList).length by omega), cut]
    rfl
  · have patched := @replaceRange_span old _ _ _ (String.ofList added) oldSplit
    rw [frontLength, stopLength] at patched
    rw [patched, ← String.ofList_append, ← String.ofList_append, ← newSplit,
      String.ofList_toList]
  · intro common oldRest newRest oldSame newSame oldStart newStart
    have := backGreatest common oldRest newRest oldSame newSame oldStart newStart
    omega

/-- Two characters that share their first byte: the span widens to the whole of them. -/
example : changedSpan "caé!" "caè!" = some ((2, 4), "è") := by decide

end ChangedSpan

end Condr
