import Mathlib.Data.List.Basic
import Mathlib.Data.List.Forall2
import Mathlib.Data.List.Induction
import Mathlib.Data.List.Nodup
import Mathlib.Order.Lattice.Nat
import Mathlib.Tactic.Common
import Mathlib.Algebra.GroupWithZero.Nat

/-!
# Lists edited and checked in place

What an edit at an index does to the segments around it, when a replaced segment
keeps the elements of a list distinct, and when a checking pass over a list
succeeds.
-/

namespace Lists

variable {α β ε : Type*}

/-! ## Edits at an index -/

/-- An index cuts the list, and every edit there keeps both sides. -/
theorem exists_segments {list : List α} {index : ℕ} {element : α}
    (found : list[index]? = some element) :
    ∃ front back, list = front ++ element :: back ∧ front.length = index ∧
      (∀ change : α → α, list.modify index change = front ++ change element :: back) ∧
      list.eraseIdx index = front ++ back := by
  rcases List.getElem?_eq_some_iff.mp found with ⟨inBounds, rfl⟩
  have split : list = list.take index ++ list[index] :: list.drop (index + 1) := by
    rw [List.getElem_cons_drop, List.take_append_drop]
  have length : (list.take index).length = index := by simp; omega
  refine ⟨list.take index, list.drop (index + 1), split, length, fun change => ?_, ?_⟩
  · rw [List.modify_eq_take_drop, List.drop_eq_getElem_cons inBounds]
    rfl
  · exact List.eraseIdx_eq_take_drop_succ list index

/-- An edit that what is read of the element does not show. -/
theorem map_modify_of_same {list : List α} {index : ℕ} {change : α → α} {read : α → β}
    (same : ∀ element, list[index]? = some element → read (change element) = read element) :
    (list.modify index change).map read = list.map read := by
  apply List.ext_getElem?
  intro other
  rw [List.getElem?_map, List.getElem?_map, List.getElem?_modify]
  by_cases here : index = other
  · subst here
    cases found : list[index]? with
    | none => rfl
    | some element => simp [same element found]
  · cases list[other]? <;> simp [here]

theorem modify_eq_self {list : List α} {index : ℕ} {change : α → α}
    (same : ∀ element, list[index]? = some element → change element = element) :
    list.modify index change = list := by
  have read := @map_modify_of_same _ _ list index change id same
  rwa [List.map_id, List.map_id] at read

/-- An element of the second list may be replaced by one that is related to as much. -/
theorem forall₂_replace {relation : β → α → Prop} {list : List β} {front back : List α}
    {old new : α} (related : List.Forall₂ relation list (front ++ old :: back))
    (still : ∀ element, relation element old → relation element new) :
    List.Forall₂ relation list (front ++ new :: back) := by
  induction front generalizing list with
  | nil =>
      cases related with
      | cons head tail => exact .cons (still _ head) tail
  | cons first front induction =>
      cases related with
      | cons head tail => exact .cons head (induction tail)

theorem findIdx?_getElem? {list : List α} {predicate : α → Bool} {index : ℕ}
    (found : list.findIdx? predicate = some index) :
    ∃ element, list[index]? = some element ∧ predicate element = true := by
  rcases List.findIdx?_eq_some_iff_getElem.mp found with ⟨inBounds, holds, -⟩
  exact ⟨list[index], List.getElem?_eq_getElem inBounds, holds⟩

theorem find?_of_findIdx? {list : List α} {predicate : α → Bool} {index : ℕ} {element : α}
    (found : list.findIdx? predicate = some index) (elementAt : list[index]? = some element) :
    list.find? predicate = some element := by
  rcases List.findIdx?_eq_some_iff_getElem.mp found with ⟨inBounds, holds, before⟩
  rw [List.getElem?_eq_getElem inBounds, Option.some_inj] at elementAt
  subst elementAt
  rw [List.find?_eq_some_iff_getElem]
  exact ⟨holds, index, inBounds, rfl, fun other less => by simpa using before other less⟩

/-- A search that also wants the places finds what the search without them does. -/
theorem findSome?_zipIdx {γ : Type*} {list : List α} {place : α × ℕ → Option β}
    {find : α → Option γ} {result : β}
    (same : ∀ element index, place (element, index) = none → find element = none)
    (found : list.zipIdx.findSome? place = some result) :
    ∃ element index, list[index]? = some element ∧ place (element, index) = some result ∧
      (find element ≠ none → list.findSome? find = find element) := by
  rcases List.findSome?_eq_some_iff.mp found with ⟨front, ⟨element, index⟩, back, split, here, before⟩
  have placed : (element, index) ∈ list.zipIdx := by
    rw [split]
    exact List.mem_append_right _ List.mem_cons_self
  refine ⟨element, index, List.mem_zipIdx_iff_getElem?.mp placed, here, fun finds => ?_⟩
  have elements := congrArg (List.map Prod.fst) split
  rw [List.zipIdx_map_fst, List.map_append, List.map_cons] at elements
  have nothing : (front.map Prod.fst).findSome? find = none := by
    rw [List.findSome?_eq_none_iff]
    intro other contained
    rcases List.mem_map.mp contained with ⟨⟨_, position⟩, inside, rfl⟩
    exact same _ position (before _ inside)
  rw [elements, List.findSome?_append, nothing, Option.none_or, List.findSome?_cons]
  cases finding : find element with
  | none => exact absurd finding finds
  | some value => rfl

/-- Erasing the element with a key that no other has erases the key. -/
theorem map_eraseIdx_eq_filter {κ : Type*} [DecidableEq κ] {key : α → κ} {list : List α}
    {index : ℕ} {element : α} (nodup : (list.map key).Nodup)
    (found : list[index]? = some element) :
    (list.eraseIdx index).map key = (list.map key).filter (· ≠ key element) := by
  rcases exists_segments found with ⟨front, back, rfl, -, -, erased⟩
  rw [List.map_append, List.map_cons, List.nodup_middle, List.nodup_cons, List.mem_append,
    not_or] at nodup
  rcases nodup with ⟨⟨notFront, notBack⟩, -⟩
  have keeps : ∀ keys : List κ, key element ∉ keys → keys.filter (· ≠ key element) = keys := by
    intro keys absent
    refine List.filter_eq_self.mpr fun other contained => ?_
    exact decide_eq_true fun same => absent (same ▸ contained)
  rw [erased, List.map_append, List.map_append, List.map_cons, List.filter_append,
    List.filter_cons_of_neg (by simp), keeps _ notFront, keeps _ notBack]

/-- A segment may be replaced by distinct elements that are its own or new to the list. -/
theorem nodup_replace {front old new back : List α} (nodup : (front ++ old ++ back).Nodup)
    (newNodup : new.Nodup) (fresh : ∀ element ∈ new, element ∈ old ∨ element ∉ front ++ old ++ back) :
    (front ++ new ++ back).Nodup := by
  simp only [List.nodup_append, List.mem_append, not_or] at nodup fresh ⊢
  rcases nodup with ⟨⟨frontNodup, oldNodup, frontOld⟩, backNodup, apart⟩
  refine ⟨⟨frontNodup, newNodup, ?_⟩, backNodup, ?_⟩
  · intro left inFront right inNew
    rcases fresh right inNew with inOld | ⟨⟨notFront, -⟩, -⟩
    · exact frontOld left inFront right inOld
    · rintro rfl
      exact notFront inFront
  · rintro left (inFront | inNew) right inBack
    · exact apart left (Or.inl inFront) right inBack
    · rcases fresh left inNew with inOld | ⟨-, notBack⟩
      · exact apart left (Or.inr inOld) right inBack
      · rintro rfl
        exact notBack inBack

/-- What is split off a list of distinct elements is what is not left of it. -/
theorem exact_of_perm {whole gone left : List α} (perm : whole.Perm (gone ++ left))
    (nodup : whole.Nodup) : gone.Nodup ∧ ∀ element, element ∈ gone ↔
      element ∈ whole ∧ element ∉ left := by
  rcases List.nodup_append'.mp (perm.nodup_iff.mp nodup) with ⟨goneNodup, -, apart⟩
  refine ⟨goneNodup, ?_⟩
  intro element
  rw [perm.mem_iff, List.mem_append]
  constructor
  · intro member
    exact ⟨.inl member, fun inLeft => apart member inLeft⟩
  · rintro ⟨member, outside⟩
    exact member.resolve_right outside

/-- Distinct keys, none of which was seen, are those that no element before had. -/
theorem forall_segments_iff_nodup {κ : Type*} {key : α → κ} {seen : List κ} {list : List α} :
    (∀ front element back, list = front ++ element :: back →
      key element ∉ seen ∧ key element ∉ front.map key) ↔
      (∀ element ∈ list, key element ∉ seen) ∧ (list.map key).Nodup := by
  constructor
  · intro fresh
    refine ⟨?_, ?_⟩
    · intro element contained
      rcases List.append_of_mem contained with ⟨front, back, split⟩
      exact (fresh front element back split).1
    · induction list using List.reverseRecOn with
      | nil => exact List.nodup_nil
      | append_singleton front last ih =>
          rw [List.map_append, List.map_singleton]
          refine List.nodup_append'.mpr ⟨ih fun before element back split => ?_, by simp, ?_⟩
          · exact fresh before element (back ++ [last]) (by simp [split])
          · exact List.disjoint_singleton.mpr (fresh front last [] rfl).2
  · rintro ⟨unseen, nodup⟩ front element back rfl
    refine ⟨unseen element (by simp), fun contained => ?_⟩
    rw [List.map_append, List.map_cons] at nodup
    exact (List.nodup_append.mp nodup).2.2 _ contained _ (List.mem_cons_self ..) rfl

/-- A list of lists is free of duplicates when each is, and repeats nothing of those before. -/
theorem nodup_flatMap_of_segments {β : Type*} {list : List α} {items : α → List β}
    (fresh : ∀ front element back, list = front ++ element :: back →
      (∀ item ∈ items element, item ∉ front.flatMap items) ∧ (items element).Nodup) :
    (list.flatMap items).Nodup := by
  induction list using List.reverseRecOn with
  | nil => exact List.nodup_nil
  | append_singleton front last ih =>
      rcases fresh front last [] rfl with ⟨apart, nodup⟩
      rw [List.flatMap_append, List.flatMap_singleton]
      refine List.nodup_append'.mpr ⟨ih fun before element back split => ?_, nodup, ?_⟩
      · exact fresh before element (back ++ [last]) (by simp [split])
      · exact fun item inFront inLast => apart item inLast inFront

theorem nodup_flatMap_segment {β : Type*} {front back : List α} {element : α}
    {items : α → List β} (nodup : ((front ++ element :: back).flatMap items).Nodup) :
    (∀ item ∈ items element, item ∉ front.flatMap items) ∧ (items element).Nodup := by
  rw [List.flatMap_append, List.flatMap_cons, List.nodup_append] at nodup
  rcases nodup with ⟨-, restNodup, apart⟩
  exact ⟨fun item inElement inFront =>
    apart item inFront item (List.mem_append_left _ inElement) rfl,
    (List.nodup_append.mp restNodup).1⟩

/-! ## Checking passes -/

theorem ok_bind {ε β γ : Type} (value : β) (rest : β → Except ε γ) :
    (Except.ok value >>= rest) = rest value := rfl

theorem bind_eq_ok {ε β γ : Type} {first : Except ε β} {rest : β → Except ε γ} {result : γ} :
    (first >>= rest) = .ok result ↔ ∃ value, first = .ok value ∧ rest value = .ok result := by
  cases first <;> simp [bind, Except.bind]

/-- A pass whose check records each element succeeds when every element passes against the
record of those before it. -/
theorem foldlM_eq_ok_iff {check : β → α → Except ε β} {passes : β → α → Prop}
    {record : β → α → β}
    (spec : ∀ seen element next,
      check seen element = .ok next ↔ passes seen element ∧ next = record seen element)
    {list : List α} {seen result : β} :
    list.foldlM check seen = .ok result ↔
      (∀ front element back, list = front ++ element :: back →
        passes (front.foldl record seen) element) ∧ result = list.foldl record seen := by
  induction list generalizing seen with
  | nil =>
      simp only [List.foldlM_nil, pure, Except.pure, Except.ok.injEq, List.foldl_nil]
      exact ⟨fun same => ⟨by simp, same.symm⟩, fun both => both.2.symm⟩
  | cons head rest ih =>
      simp only [List.foldlM_cons, List.foldl_cons]
      constructor
      · intro succeeded
        obtain ⟨next, checked, continued⟩ :
            ∃ next, check seen head = .ok next ∧ rest.foldlM check next = .ok result := by
          rcases outcome : check seen head with error | next
          · rw [outcome] at succeeded
            cases succeeded
          · rw [outcome] at succeeded
            exact ⟨next, rfl, succeeded⟩
        rcases (spec ..).mp checked with ⟨headPasses, rfl⟩
        rcases ih.mp continued with ⟨restPasses, same⟩
        refine ⟨?_, same⟩
        intro front element back split
        rcases front with _ | ⟨first, front⟩
        · rcases List.cons.inj split with ⟨rfl, -⟩
          exact headPasses
        · rcases List.cons.inj split with ⟨rfl, rest⟩
          exact restPasses front element back rest
      · rintro ⟨allPass, rfl⟩
        have checked : check seen head = .ok (record seen head) :=
          (spec ..).mpr ⟨allPass [] head rest rfl, rfl⟩
        rw [checked]
        exact ih.mpr ⟨fun front element back split =>
          allPass (head :: front) element back (by rw [split, List.cons_append]), rfl⟩

theorem forM_eq_ok_iff {ε : Type} {check : α → Except ε Unit} {list : List α} :
    list.forM check = .ok () ↔ ∀ element ∈ list, check element = .ok () := by
  induction list with
  | nil => simp [List.forM, pure, Except.pure]
  | cons head rest ih =>
      change (check head >>= fun _ => rest.forM check) = .ok () ↔ _
      rw [bind_eq_ok, List.forall_mem_cons, ← ih]
      exact ⟨fun ⟨_, first, others⟩ => ⟨first, others⟩,
        fun ⟨first, others⟩ => ⟨(), first, others⟩⟩

theorem mapM_eq_ok_iff {α β ε : Type} {convert : α → Except ε β} {list : List α}
    {result : List β} :
    list.mapM convert = .ok result ↔
      List.Forall₂ (fun element value => convert element = .ok value) list result := by
  induction list generalizing result with
  | nil =>
      simp only [List.mapM_nil, pure, Except.pure, Except.ok.injEq, List.forall₂_nil_left_iff]
      exact eq_comm
  | cons head rest ih =>
      simp only [List.mapM_cons, bind_eq_ok, pure, Except.pure, Except.ok.injEq,
        List.forall₂_cons_left_iff]
      constructor
      · rintro ⟨value, first, others, tail, rfl⟩
        exact ⟨value, others, first, ih.mp tail, rfl⟩
      · rintro ⟨value, others, first, tail, rfl⟩
        exact ⟨value, first, others, ih.mpr tail, rfl⟩

/-- What each conversion takes back, a pass takes back. -/
theorem mapM_roundTrip {α β ε δ : Type} {convert : α → Except ε β} {back : β → Except δ α}
    {list : List α} {result : List β}
    (each : ∀ element ∈ list, ∀ value, convert element = .ok value → back value = .ok element)
    (converted : list.mapM convert = .ok result) :
    result.mapM back = .ok list ∧ result.length = list.length := by
  have related := mapM_eq_ok_iff.mp converted
  have returns := (List.forall₂_and_left list result).mpr ⟨fun _ member => member, related⟩
  refine ⟨mapM_eq_ok_iff.mpr (List.Forall₂.flip ?_), related.length_eq.symm⟩
  exact returns.imp fun element value both => each element both.1 value both.2

/-- A decoder that takes back the values with a property, and returns no other value, does so
for lists. -/
theorem mapM_map_eq_ok_iff {α β ε : Type} {encode : α → β} {decode : β → Except ε α}
    {property : α → Prop}
    (spec : ∀ value other, decode (encode value) = .ok other ↔ property value ∧ other = value)
    {values others : List α} :
    (values.map encode).mapM decode = .ok others ↔
      (∀ value ∈ values, property value) ∧ others = values := by
  rw [mapM_eq_ok_iff, List.forall₂_map_left_iff]
  simp only [spec]
  rw [List.forall₂_and_left]
  simp only [@eq_comm _ _ (_ : α), List.forall₂_eq_eq_eq, @eq_comm _ values]

theorem exists_of_mem_mapM_ok {α β ε : Type} {convert : α → Except ε β} {list : List α}
    {result : List β} (converted : list.mapM convert = .ok result) {value : β}
    (contained : value ∈ result) : ∃ element ∈ list, convert element = .ok value := by
  have related := mapM_eq_ok_iff.mp converted
  induction related with
  | nil => simp at contained
  | @cons head first rest others same _ ih =>
      rcases List.mem_cons.mp contained with rfl | later
      · exact ⟨head, by simp, same⟩
      · rcases ih (mapM_eq_ok_iff.mpr ‹_›) later with ⟨element, member, found⟩
        exact ⟨element, by simp [member], found⟩

/-! ## Numbered elements -/

/-- Every element tells its own place. -/
def Numbered (number : α → ℕ) (list : List α) : Prop :=
  ∀ index element, list[index]? = some element → number element = index

/-- Elements of a numbered list, in an order that their numbers tell, are the whole list. -/
theorem Numbered.eq_of_subset {number : α → ℕ} {list drawn : List α}
    (numbered : Numbered number list) (ordered : Numbered number drawn)
    (subset : ∀ element ∈ drawn, element ∈ list) (length : drawn.length = list.length) :
    drawn = list := by
  apply List.ext_getElem length
  intro index inDrawn inList
  have place := ordered index _ (List.getElem?_eq_getElem inDrawn)
  rcases List.mem_iff_getElem?.mp (subset _ (List.getElem_mem inDrawn)) with ⟨other, listed⟩
  have same := numbered other _ listed
  rw [place] at same
  subst same
  rw [List.getElem?_eq_getElem inList] at listed
  exact (Option.some.inj listed).symm

/-! ## Optional maps -/

theorem mapM_eq_some_iff {β : Type*} {convert : α → Option β} {list : List α} {result : List β} :
    list.mapM convert = some result ↔ list.map convert = result.map some := by
  induction list generalizing result with
  | nil => cases result <;> simp
  | cons head rest ih =>
      rcases first : convert head with _ | value
      · cases result <;> simp [List.mapM_cons, first]
      · cases result with
        | nil =>
            simp only [List.mapM_cons, first, Option.bind_eq_bind, Option.bind_some,
              Option.pure_def, Option.bind_eq_some_iff]
            simp
        | cons found others =>
            simp only [List.mapM_cons, first, Option.bind_eq_bind, Option.bind_some,
              Option.pure_def, Option.bind_eq_some_iff, Option.some.injEq, List.cons.injEq,
              List.map_cons, ← ih]
            aesop

/-- Where each result comes from. -/
theorem exists_of_mem_mapM {β : Type*} {convert : α → Option β} {list : List α} {result : List β}
    (mapped : list.mapM convert = some result) {value : β} (contained : value ∈ result) :
    ∃ element ∈ list, convert element = some value := by
  have same := mapM_eq_some_iff.mp mapped
  have inMap : some value ∈ list.map convert := same ▸ List.mem_map_of_mem contained
  exact List.mem_map.mp inMap

/-- A measure that the conversion keeps is the same on both sides. -/
theorem map_eq_of_mapM {β γ : Type*} {convert : α → Option β} {list : List α} {result : List β}
    (mapped : list.mapM convert = some result) {before : α → γ} {after : β → γ}
    (keeps : ∀ element value, convert element = some value → after value = before element) :
    result.map after = list.map before := by
  have same := mapM_eq_some_iff.mp mapped
  induction list generalizing result with
  | nil =>
      obtain rfl : result = [] := by simpa using same.symm
      rfl
  | cons head rest ih =>
      rcases result with _ | ⟨value, others⟩
      · simp at same
      · rcases List.cons.inj same with ⟨first, tail⟩
        rw [List.map_cons, List.map_cons, keeps head value first,
          ih (mapM_eq_some_iff.mpr tail) tail]

theorem mapM_isSome {β : Type*} {convert : α → Option β} {list : List α}
    (each : ∀ element ∈ list, (convert element).isSome = true) :
    (list.mapM convert).isSome = true := by
  induction list with
  | nil => rfl
  | cons head rest ih =>
      rcases Option.isSome_iff_exists.mp (each head (by simp)) with ⟨value, first⟩
      obtain ⟨others, tail⟩ := Option.isSome_iff_exists.mp
        (ih fun element contained => each element (by simp [contained]))
      simp [List.mapM_cons, first, tail]

/-! ## Picking -/

/-- A filter of a list with one element more at its end. -/
theorem filterMap_concat {γ : Type*} (pick : α → Option γ) (list : List α) (last : α) :
    (list ++ [last]).filterMap pick = list.filterMap pick ++ (pick last).toList := by
  rw [List.filterMap_append]
  cases picked : pick last with
  | none => simp [picked]
  | some result => simp [picked]

/-! ## Maxima -/

theorem start_le_foldl_max (list : List ℕ) (start : ℕ) : start ≤ list.foldl max start := by
  induction list generalizing start with
  | nil => exact le_rfl
  | cons head rest ih => exact (le_max_left start head).trans (ih _)

theorem le_foldl_max {list : List ℕ} {start element : ℕ} (contained : element ∈ list) :
    element ≤ list.foldl max start := by
  induction list generalizing start with
  | nil => simp at contained
  | cons head rest ih =>
      rcases List.mem_cons.mp contained with rfl | later
      · exact (le_max_right start element).trans (start_le_foldl_max rest _)
      · exact ih later

theorem foldl_max_lt {list : List ℕ} {start bound : ℕ} (startLt : start < bound)
    (each : ∀ element ∈ list, element < bound) : list.foldl max start < bound := by
  induction list generalizing start with
  | nil => exact startLt
  | cons head rest ih =>
      exact ih (max_lt startLt (each head (by simp))) fun element contained =>
        each element (by simp [contained])

/-! ## Sums over what is kept -/

theorem sum_filter_le (weight : α → ℕ) (keeps : α → Bool) (list : List α) :
    ((list.filter keeps).map weight).sum ≤ (list.map weight).sum := by
  induction list with
  | nil => simp
  | cons first rest ih =>
      rw [List.filter_cons]
      split_ifs <;> simp only [List.map_cons, List.sum_cons] <;> omega

theorem sum_filter_lt {weight : α → ℕ} {keeps : α → Bool} {list : List α} {dropped : α}
    (contained : dropped ∈ list) (refused : keeps dropped = false) (heavy : 0 < weight dropped) :
    ((list.filter keeps).map weight).sum < (list.map weight).sum := by
  rcases List.append_of_mem contained with ⟨front, back, rfl⟩
  have before := sum_filter_le weight keeps front
  have after := sum_filter_le weight keeps back
  simp only [List.filter_append, List.filter_cons, refused, List.map_append, List.map_cons,
    List.sum_append, List.sum_cons]
  simp only [Bool.false_eq_true, if_false]
  omega

/-! ## Sorting by a key -/

section Sorting

variable {κ : Type*} [LinearOrder κ]

/-- The sort is stable. -/
def sortBy (key : α → κ) (list : List α) : List α :=
  list.mergeSort fun left right => decide (key left ≤ key right)

theorem sorted_sortBy (key : α → κ) (list : List α) :
    (sortBy key list).Pairwise fun left right => key left ≤ key right := by
  have sorted : (list.mergeSort fun left right => decide (key left ≤ key right)).Pairwise
      fun left right => decide (key left ≤ key right) = true := List.pairwise_mergeSort
    (fun first second third below above => by
      simp only [decide_eq_true_eq] at below above ⊢
      exact below.trans above)
    (fun left right => by simpa using le_total (key left) (key right)) list
  rw [sortBy]
  simpa using sorted

theorem filter_sortBy (key : α → κ) (list : List α) (wanted : κ) :
    ((sortBy key list).filter fun element => decide (key element = wanted)) =
      list.filter fun element => decide (key element = wanted) := by
  have alike : (list.filter fun element => decide (key element = wanted)).Pairwise
      fun left right => decide (key left ≤ key right) = true := by
    rw [List.pairwise_iff_forall_sublist]
    intro left right pair
    have found : ∀ element ∈ [left, right], key element = wanted := by
      intro element contained
      simpa using (List.mem_filter.mp (pair.subset contained)).2
    simp [found left, found right]
  have kept := List.sublist_mergeSort
    (fun first second third below above => by
      simp only [decide_eq_true_eq] at below above ⊢
      exact below.trans above)
    (fun left right => by simpa using le_total (key left) (key right)) alike
    List.filter_sublist
  have within := kept.filter fun element => decide (key element = wanted)
  rw [List.filter_filter] at within
  simp only [Bool.and_self] at within
  refine (within.eq_of_length ?_).symm
  exact ((List.mergeSort_perm list _).filter _).length_eq.symm

/-- A sorted list is known from what it holds of each key. -/
theorem eq_of_sorted {key : α → κ} {list other : List α}
    (sorted : list.Pairwise fun left right => key left ≤ key right)
    (otherSorted : other.Pairwise fun left right => key left ≤ key right)
    (same : ∀ wanted, (list.filter fun element => decide (key element = wanted)) =
      other.filter fun element => decide (key element = wanted)) : list = other := by
  induction list generalizing other with
  | nil =>
      cases other with
      | nil => rfl
      | cons head tail => simpa using same (key head)
  | cons first rest ih =>
      cases other with
      | nil => simpa using same (key first)
      | cons head tail =>
          rw [List.pairwise_cons] at sorted otherSorted
          have below : key head ≤ key first := by
            have contained : first ∈ head :: tail := by
              have filtered : first ∈ (head :: tail).filter
                  fun element => decide (key element = key first) := by
                rw [← same]
                simp
              exact (List.mem_filter.mp filtered).1
            rcases List.mem_cons.mp contained with rfl | later
            · exact le_rfl
            · exact otherSorted.1 first later
          have above : key first ≤ key head := by
            have contained : head ∈ first :: rest := by
              have filtered : head ∈ (first :: rest).filter
                  fun element => decide (key element = key head) := by
                rw [same]
                simp
              exact (List.mem_filter.mp filtered).1
            rcases List.mem_cons.mp contained with rfl | later
            · exact le_rfl
            · exact sorted.1 head later
          have equal : key first = key head := le_antisymm above below
          have heads := same (key first)
          rw [List.filter_cons_of_pos (by simp), List.filter_cons_of_pos (by simp [equal]),
            List.cons.injEq] at heads
          rcases heads with ⟨rfl, -⟩
          refine congrArg (first :: ·) (ih sorted.2 otherSorted.2 fun wanted => ?_)
          have step := same wanted
          rw [List.filter_cons, List.filter_cons] at step
          split_ifs at step
          · exact (List.cons.inj step).2
          · exact step

theorem sortBy_congr {key : α → κ} {list other : List α}
    (same : ∀ wanted, (list.filter fun element => decide (key element = wanted)) =
      other.filter fun element => decide (key element = wanted)) :
    sortBy key list = sortBy key other := by
  refine eq_of_sorted (sorted_sortBy key list) (sorted_sortBy key other) fun wanted => ?_
  rw [filter_sortBy, filter_sortBy, same]

end Sorting

end Lists
