import Condr.Terminal.HyperlinkTable
import Mathlib.Data.Multiset.Count

/-!
# What a budget records

A budget accounts for links when its entries list the distinct ones with how often each
occurs, its indexes find them by text and by pointer, and its total is that of their texts.
Admitting a link adds one to what it accounts for, and releasing a link takes one away.
-/

namespace Condr

open Budget

namespace TerminalHyperlinkBudget

def uriAt (budget : TerminalHyperlinkBudget) (index : ℕ) : Option SmolStr :=
  (budget.entryAt index).map TrackedHyperlink.uri

/-- The distinct texts the budget records. -/
def uris (budget : TerminalHyperlinkBudget) : Finset String := budget.byUri.keys.toFinset

/-- The budget is that of the links. -/
structure Accounts (memory : Memory) (budget : TerminalHyperlinkBudget)
    (links : Multiset SmolStr) : Prop where
  indexed : ∀ uri index, budget.byUri.lookup uri = some index ↔
    (budget.uriAt index).map (SmolStr.read memory) = some uri
  pointed : ∀ pointer index, budget.byPointer.lookup pointer = some index ↔
    (budget.uriAt index).bind (heapStringPointer memory) = some pointer
  counted : ∀ index entry, budget.entryAt index = some entry →
    entry.references = links.count entry.uri ∧ 0 < entry.references
  held : ∀ link ∈ links, ∃ index, budget.uriAt index = some link
  free : ∀ index ∈ budget.freeEntries,
    index < budget.entries.length ∧ budget.entryAt index = none
  freeNodup : budget.freeEntries.Nodup
  bytes : budget.bytes = ∑ uri ∈ budget.uris, uri.utf8ByteSize
  within : Within hyperlinkLimits budget.uris

variable {memory : Memory} {budget next : TerminalHyperlinkBudget} {links : Multiset SmolStr}
  {index other : ℕ} {link : SmolStr} {uri : String} {entry : TrackedHyperlink}

/-! ## The entries -/

/-- One entry of the table is another. -/
def Puts (budget next : TerminalHyperlinkBudget) (index : ℕ) (slot : Option TrackedHyperlink) :
    Prop :=
  ∀ other, next.entryAt other = if other = index then slot else budget.entryAt other

theorem lt_of_entryAt (found : budget.entryAt index = some entry) :
    index < budget.entries.length := by
  by_contra outside
  rw [entryAt, List.getElem?_eq_none (by omega)] at found
  cases found

theorem puts_set {slot : Option TrackedHyperlink} (inside : index < budget.entries.length)
    (same : next.entries = budget.entries.set index slot) : budget.Puts next index slot := by
  intro other
  by_cases here : other = index
  · subst here
    simp [entryAt, same, List.getElem?_set_self inside]
  · rw [entryAt, same, List.getElem?_set_ne (Ne.symm here), if_neg here, entryAt]

theorem puts_push {slot : Option TrackedHyperlink}
    (same : next.entries = budget.entries ++ [slot]) :
    budget.Puts next budget.entries.length slot := by
  intro other
  by_cases here : other = budget.entries.length
  · subst here
    simp [entryAt, same]
  · rw [if_neg here]
    rcases Nat.lt_or_gt_of_ne here with inside | outside
    · rw [entryAt, same, List.getElem?_append_left inside, entryAt]
    · rw [entryAt, same, List.getElem?_eq_none (by simp; omega), entryAt,
        List.getElem?_eq_none (by omega)]

theorem Puts.uriAt {slot : Option TrackedHyperlink} (puts : budget.Puts next index slot)
    (other : ℕ) : next.uriAt other =
      if other = index then slot.map TrackedHyperlink.uri else budget.uriAt other := by
  rw [TerminalHyperlinkBudget.uriAt, puts other]
  split_ifs <;> rfl

/-- Counting an entry again changes no link. -/
theorem Puts.uriAt_of_same (puts : budget.Puts next index (some entry))
    (same : budget.uriAt index = some entry.uri) : next.uriAt = budget.uriAt := by
  funext other
  rw [puts.uriAt other]
  split_ifs with here
  · rw [here, same]
    rfl
  · rfl

theorem mem_uris : uri ∈ budget.uris ↔ uri ∈ budget.byUri := by
  rw [uris, List.mem_toFinset, AList.mem_keys]

namespace Accounts

theorem mem_uris_iff (accounts : budget.Accounts memory links) :
    uri ∈ budget.uris ↔ ∃ index, (budget.uriAt index).map (SmolStr.read memory) = some uri := by
  rw [TerminalHyperlinkBudget.mem_uris, ← AList.lookup_isSome, Option.isSome_iff_exists]
  exact exists_congr fun index => accounts.indexed uri index

theorem mem_uris_of_mem (accounts : budget.Accounts memory links) (member : link ∈ links) :
    link.read memory ∈ budget.uris := by
  rcases accounts.held link member with ⟨index, found⟩
  exact accounts.mem_uris_iff.mpr ⟨index, by rw [found]; rfl⟩

/-- The same text has one entry. -/
theorem unique (accounts : budget.Accounts memory links) (uri : String)
    (one : (budget.uriAt index).map (SmolStr.read memory) = some uri)
    (two : (budget.uriAt other).map (SmolStr.read memory) = some uri) : index = other := by
  have first := (accounts.indexed uri index).mpr one
  have second := (accounts.indexed uri other).mpr two
  exact Option.some.inj (first.symm.trans second)

/-- Finding a string by its pointer makes no difference. -/
theorem find_eq (accounts : budget.Accounts memory links) :
    budget.find memory link = budget.byUri.lookup (link.read memory) := by
  rw [find]
  cases looked : (heapStringPointer memory link).bind budget.byPointer.lookup with
  | none => rfl
  | some index =>
      rcases Option.bind_eq_some_iff.mp looked with ⟨pointer, lies, found⟩
      have points := (accounts.pointed pointer index).mp found
      rcases Option.bind_eq_some_iff.mp points with ⟨kept, keptAt, keptLies⟩
      have same : kept = link :=
        (heapStringPointer_eq_some keptLies).1.trans (heapStringPointer_eq_some lies).1.symm
      apply Eq.symm
      apply (accounts.indexed _ index).mpr
      rw [keptAt, same]
      rfl

/-- An entry counted anew. -/
theorem recounted {references : ℕ} {recount : Multiset SmolStr}
    (accounts : budget.Accounts memory links) (found : budget.entryAt index = some entry)
    (positive : 0 < references) (counted : references = recount.count entry.uri)
    (others : ∀ kept, kept ≠ entry.uri → recount.count kept = links.count kept)
    (next : TerminalHyperlinkBudget) (sets : next = { budget with
      entries := budget.entries.set index (some { entry with references := references }) }) :
    next.Accounts memory recount ∧ next.uriAt = budget.uriAt := by
  have puts : budget.Puts next index _ := puts_set (lt_of_entryAt found) (by rw [sets])
  have uriAt : budget.uriAt index = some entry.uri := by
    rw [TerminalHyperlinkBudget.uriAt, found]
    rfl
  have sameUris : next.uriAt = budget.uriAt := puts.uriAt_of_same uriAt
  subst sets
  refine ⟨⟨?_, ?_, ?_, ?_, ?_, accounts.freeNodup, accounts.bytes, accounts.within⟩, sameUris⟩
  · intro uri other
    rw [sameUris]
    exact accounts.indexed uri other
  · intro pointer other
    rw [sameUris]
    exact accounts.pointed pointer other
  · intro other kept present
    rw [puts other] at present
    split_ifs at present with here
    · cases present
      exact ⟨counted, positive⟩
    · have differs : kept.uri ≠ entry.uri := by
        intro same
        apply here
        apply accounts.unique (entry.uri.read memory)
        · simp [TerminalHyperlinkBudget.uriAt, present, same]
        · simp [uriAt]
      rw [others _ differs]
      exact accounts.counted other kept present
  · intro kept member
    rw [sameUris]
    by_cases same : kept = entry.uri
    · exact ⟨index, same ▸ uriAt⟩
    · apply accounts.held kept
      rw [← Multiset.count_pos, ← others kept same]
      exact Multiset.count_pos.mpr member
  · intro other isFree
    have := accounts.free other isFree
    refine ⟨by simpa using this.1, ?_⟩
    rw [puts other, if_neg, this.2]
    rintro rfl
    simp [this.2] at found

/-- A new reference to a link that is recorded. -/
theorem retain (accounts : budget.Accounts memory links)
    (found : budget.uriAt index = some link) :
    ∃ next, budget.retain index = some next ∧ next.Accounts memory (link ::ₘ links) ∧
      next.uriAt = budget.uriAt ∧ next.uris = budget.uris := by
  rcases Option.map_eq_some_iff.mp found with ⟨entry, entryAt, rfl⟩
  have counts := (accounts.counted index entry entryAt).1
  rcases accounts.recounted entryAt entry.references.succ_pos
    (by rw [Multiset.count_cons_self, counts]) (fun _ differs => Multiset.count_cons_of_ne differs _) _ rfl
    with ⟨recounted, same⟩
  exact ⟨_, by simp [TerminalHyperlinkBudget.retain, entryAt], recounted, same, rfl⟩

/-- A budget with one more entry, for a link that had none. -/
structure Placed (memory : Memory) (budget next : TerminalHyperlinkBudget) (link : SmolStr)
    (index : ℕ) : Prop where
  puts : budget.Puts next index (some { uri := link, references := 1 })
  longer : budget.entries.length ≤ next.entries.length
  byUri : next.byUri = budget.byUri.insert (link.read memory) index
  byPointer : next.byPointer = match heapStringPointer memory link with
    | some pointer => budget.byPointer.insert pointer index
    | none => budget.byPointer
  freeEntries : next.freeEntries = budget.freeEntries.tail
  bytes : next.bytes = budget.bytes + (link.read memory).utf8ByteSize

theorem nowhere (accounts : budget.Accounts memory links)
    (absent : link.read memory ∉ budget.uris) (other : ℕ) :
    (budget.uriAt other).map (SmolStr.read memory) ≠ some (link.read memory) := by
  intro present
  exact absent (accounts.mem_uris_iff.mpr ⟨other, present⟩)

theorem pointed_nowhere (accounts : budget.Accounts memory links)
    (absent : link.read memory ∉ budget.uris) {pointer : Pointer}
    (lies : heapStringPointer memory link = some pointer) (other : ℕ) :
    (budget.uriAt other).bind (heapStringPointer memory) ≠ some pointer := by
  intro present
  rcases Option.bind_eq_some_iff.mp present with ⟨kept, keptAt, keptLies⟩
  have same : kept = link :=
    (heapStringPointer_eq_some keptLies).1.trans (heapStringPointer_eq_some lies).1.symm
  apply accounts.nowhere absent other
  rw [keptAt, same]
  rfl

theorem placed (accounts : budget.Accounts memory links) (absent : link.read memory ∉ budget.uris)
    (room : Within hyperlinkLimits (insert (link.read memory) budget.uris))
    (vacant : budget.entryAt index = none) (others : index ∉ budget.freeEntries.tail)
    (placed : Placed memory budget next link index) :
    next.Accounts memory (link ::ₘ links) ∧ next.uriAt index = some link ∧
      next.uris = insert (link.read memory) budget.uris ∧
      ∀ other kept, budget.uriAt other = some kept → next.uriAt other = some kept := by
  have uriAt : ∀ other, next.uriAt other =
      if other = index then some link else budget.uriAt other := placed.puts.uriAt
  have uris : next.uris = insert (link.read memory) budget.uris := by
    ext uri
    rw [Finset.mem_insert, mem_uris, mem_uris, placed.byUri, AList.mem_insert]
  have none : budget.uriAt index = none := by
    rw [TerminalHyperlinkBudget.uriAt, vacant]
    rfl
  have keeps : ∀ other kept, budget.uriAt other = some kept → next.uriAt other = some kept := by
    intro other kept present
    rw [uriAt, if_neg, present]
    rintro rfl
    simp [none] at present
  refine ⟨⟨?_, ?_, ?_, ?_, ?_, ?_, ?_, ?_⟩, by simp [uriAt], uris, keeps⟩
  · intro uri other
    rw [placed.byUri, uriAt]
    by_cases same : uri = link.read memory
    · subst same
      by_cases here : other = index
      · simp [here]
      · simp [here, Ne.symm here, accounts.nowhere absent other]
    · rw [AList.lookup_insert_ne same, accounts.indexed]
      by_cases here : other = index
      · simp [here, none, Ne.symm same]
      · rw [if_neg here]
  · intro pointer other
    rw [placed.byPointer, uriAt]
    cases lies : heapStringPointer memory link with
    | none =>
        rw [accounts.pointed]
        by_cases here : other = index
        · simp [here, none, lies]
        · rw [if_neg here]
    | some place =>
        by_cases same : pointer = place
        · subst same
          by_cases here : other = index
          · simp [here, lies]
          · simp [here, Ne.symm here, accounts.pointed_nowhere absent lies other]
        · rw [AList.lookup_insert_ne same, accounts.pointed]
          by_cases here : other = index
          · simp [here, none, lies, Ne.symm same]
          · rw [if_neg here]
  · intro other counted present
    rw [placed.puts other] at present
    split_ifs at present with here
    · cases present
      have fresh : link ∉ links := fun member => absent (accounts.mem_uris_of_mem member)
      simp [Multiset.count_eq_zero_of_notMem fresh]
    · have differs : counted.uri ≠ link := by
        intro same
        apply accounts.nowhere absent other
        simp [TerminalHyperlinkBudget.uriAt, present, same]
      rw [Multiset.count_cons_of_ne differs]
      exact accounts.counted other counted present
  · intro kept member
    rcases Multiset.mem_cons.mp member with rfl | member
    · exact ⟨index, by simp [uriAt]⟩
    · rcases accounts.held kept member with ⟨other, found⟩
      exact ⟨other, keeps other kept found⟩
  · intro other isFree
    rw [placed.freeEntries] at isFree
    have wasFree := accounts.free other (List.mem_of_mem_tail isFree)
    refine ⟨wasFree.1.trans_le placed.longer, ?_⟩
    rw [placed.puts other, if_neg, wasFree.2]
    rintro rfl
    exact others isFree
  · rw [placed.freeEntries]
    exact accounts.freeNodup.tail
  · rw [placed.bytes, uris, Finset.sum_insert absent, accounts.bytes, Nat.add_comm]
  · rwa [uris]

/-- A first reference to a link that is not recorded. -/
theorem place (accounts : budget.Accounts memory links) (absent : link.read memory ∉ budget.uris)
    (room : Within hyperlinkLimits (insert (link.read memory) budget.uris)) :
    ∃ index next, budget.place memory link (budget.bytes + (link.read memory).utf8ByteSize) =
        some (index, next) ∧
      next.Accounts memory (link ::ₘ links) ∧ next.uriAt index = some link ∧
      next.uris = insert (link.read memory) budget.uris ∧
      ∀ other kept, budget.uriAt other = some kept → next.uriAt other = some kept := by
  simp only [TerminalHyperlinkBudget.place]
  cases free : budget.freeEntries with
  | nil =>
      refine ⟨budget.entries.length, _, if_pos rfl, ?_⟩
      apply accounts.placed absent room
      · simp [TerminalHyperlinkBudget.entryAt]
      · simp [free]
      · exact ⟨puts_push rfl, by simp, rfl, rfl, by simp [free], rfl⟩
  | cons head tail =>
      have isFree := accounts.free head (by simp [free])
      have distinct := accounts.freeNodup
      rw [free, List.nodup_cons] at distinct
      refine ⟨head, _, (if_neg isFree.1.ne).trans (if_pos isFree.1), ?_⟩
      apply accounts.placed absent room isFree.2
      · simpa [free] using distinct.1
      · exact ⟨puts_set isFree.1 rfl, by simp, rfl, rfl, by simp [free], rfl⟩

/-- A budget without the entry of a link that lost its last reference. -/
structure Cleared (memory : Memory) (budget next : TerminalHyperlinkBudget) (link : SmolStr)
    (index : ℕ) : Prop where
  puts : budget.Puts next index none
  length : next.entries.length = budget.entries.length
  byUri : next.byUri = budget.byUri.erase (link.read memory)
  byPointer : next.byPointer = match heapStringPointer memory link with
    | some pointer => budget.byPointer.erase pointer
    | none => budget.byPointer
  freeEntries : next.freeEntries = index :: budget.freeEntries
  bytes : next.bytes = budget.bytes - (link.read memory).utf8ByteSize

theorem cleared (accounts : budget.Accounts memory links)
    (found : budget.uriAt index = some link) (last : links.count link = 1)
    (cleared : Cleared memory budget next link index) :
    next.Accounts memory (links.erase link) := by
  have member : link.read memory ∈ budget.uris := by
    exact accounts.mem_uris_iff.mpr ⟨index, by rw [found]; rfl⟩
  have uriAt : ∀ other, next.uriAt other = if other = index then none else budget.uriAt other :=
    cleared.puts.uriAt
  have uris : next.uris = budget.uris.erase (link.read memory) := by
    ext uri
    rw [Finset.mem_erase, mem_uris, mem_uris, cleared.byUri, AList.mem_erase]
  have elsewhere : ∀ {other}, (budget.uriAt other).map (SmolStr.read memory) =
      some (link.read memory) → other = index := by
    intro other present
    exact accounts.unique _ present (by rw [found]; rfl)
  refine ⟨?_, ?_, ?_, ?_, ?_, ?_, ?_, ?_⟩
  · intro uri other
    rw [cleared.byUri, uriAt]
    by_cases same : uri = link.read memory
    · subst same
      rw [AList.lookup_erase]
      by_cases here : other = index
      · simp [here]
      · simp only [here, if_false, reduceCtorEq, false_iff]
        intro present
        exact here (elsewhere present)
    · rw [AList.lookup_erase_ne same, accounts.indexed]
      by_cases here : other = index
      · simp [here, found, Ne.symm same]
      · rw [if_neg here]
  · intro pointer other
    rw [cleared.byPointer, uriAt]
    cases lies : heapStringPointer memory link with
    | none =>
        rw [accounts.pointed]
        by_cases here : other = index
        · simp [here, found, lies]
        · rw [if_neg here]
    | some place =>
        by_cases same : pointer = place
        · subst same
          rw [AList.lookup_erase]
          by_cases here : other = index
          · simp [here]
          · simp only [here, if_false, reduceCtorEq, false_iff]
            intro present
            rcases Option.bind_eq_some_iff.mp present with ⟨kept, keptAt, keptLies⟩
            have same : kept = link :=
              (heapStringPointer_eq_some keptLies).1.trans (heapStringPointer_eq_some lies).1.symm
            exact here (elsewhere (by rw [keptAt, same]; rfl))
        · rw [AList.lookup_erase_ne same, accounts.pointed]
          by_cases here : other = index
          · simp [here, found, lies, Ne.symm same]
          · rw [if_neg here]
  · intro other counted present
    rw [cleared.puts other] at present
    split_ifs at present with here
    have differs : counted.uri ≠ link := by
      intro same
      apply here
      apply elsewhere
      simp [TerminalHyperlinkBudget.uriAt, present, same]
    rw [Multiset.count_erase_of_ne differs]
    exact accounts.counted other counted present
  · intro kept isKept
    rcases accounts.held kept (Multiset.mem_of_mem_erase isKept) with ⟨other, keptAt⟩
    refine ⟨other, ?_⟩
    rw [uriAt, if_neg, keptAt]
    rintro rfl
    have same : kept = link := Option.some.inj (keptAt.symm.trans found)
    have none : (links.erase link).count link = 0 := by
      rw [Multiset.count_erase_self, last]
    exact Multiset.count_eq_zero.mp none (same ▸ isKept)
  · intro other isFree
    rw [cleared.freeEntries] at isFree
    rw [cleared.length, cleared.puts other]
    rcases List.mem_cons.mp isFree with rfl | wasFree
    · rcases Option.map_eq_some_iff.mp found with ⟨entry, entryAt, -⟩
      exact ⟨lt_of_entryAt entryAt, if_pos rfl⟩
    · have := accounts.free other wasFree
      refine ⟨this.1, ?_⟩
      rw [this.2, ite_self]
  · rw [cleared.freeEntries]
    apply List.Nodup.cons _ accounts.freeNodup
    intro isFree
    have vacant := (accounts.free index isFree).2
    simp [TerminalHyperlinkBudget.uriAt, vacant] at found
  · have sum := Finset.sum_erase_add budget.uris String.utf8ByteSize member
    rw [cleared.bytes, uris, accounts.bytes]
    omega
  · rw [uris]
    exact accounts.within.mono (Finset.erase_subset _ _)

/-- One reference to a recorded link less. -/
theorem release (accounts : budget.Accounts memory links) (member : link ∈ links) :
    ∃ next, budget.release memory link = some next ∧
      next.Accounts memory (links.erase link) := by
  rcases accounts.held link member with ⟨index, found⟩
  rcases Option.map_eq_some_iff.mp found with ⟨entry, entryAt, rfl⟩
  have lookup : budget.find memory entry.uri = some index := by
    rw [accounts.find_eq, accounts.indexed, found]
    rfl
  rcases accounts.counted index entry entryAt with ⟨counted, positive⟩
  rcases Nat.exists_eq_succ_of_ne_zero positive.ne' with ⟨references, counts⟩
  simp only [TerminalHyperlinkBudget.release, lookup, entryAt, Option.bind_eq_bind,
    Option.bind_some, counts]
  split_ifs with more low
  · refine ⟨_, rfl, (accounts.recounted entryAt (Nat.pos_of_ne_zero more) ?_ ?_ _ rfl).1⟩
    · rw [Multiset.count_erase_self, ← counted, counts]
      rfl
    · intro kept differs
      exact Multiset.count_erase_of_ne differs _
  · -- the total covers every recorded text
    exfalso
    have part := Finset.single_le_sum (f := String.utf8ByteSize) (fun _ _ => Nat.zero_le _)
      (accounts.mem_uris_of_mem member)
    rw [accounts.bytes] at low
    omega
  · refine ⟨_, rfl, ?_⟩
    apply accounts.cleared found
    · omega
    · exact ⟨puts_set (lt_of_entryAt entryAt) rfl, by simp, rfl, rfl, rfl, rfl⟩

end Accounts

/-! ## Passes over cells -/

/-- What a pass found out about strings holds of the budget. -/
structure Sound (memory : Memory) (budget : TerminalHyperlinkBudget) (aliases : Aliases) :
    Prop where
  found : ∀ pointer index, aliases.lookup pointer = some (some index) →
    (budget.uriAt index).map (SmolStr.read memory) = some (memory pointer.1)
  refused : ∀ pointer, aliases.lookup pointer = some none →
    ¬Within hyperlinkLimits (insert (memory pointer.1) budget.uris)

/-- What a budget makes of one link. -/
inductive Admitted (memory : Memory) (budget : TerminalHyperlinkBudget)
    (links : Multiset SmolStr) (uri : SmolStr) :
    Option ℕ → TerminalHyperlinkBudget → Aliases → Prop where
  | kept {index : ℕ} {canonical : SmolStr} {next : TerminalHyperlinkBudget} {aliases : Aliases}
      (room : Within hyperlinkLimits (insert (uri.read memory) budget.uris))
      (accounts : next.Accounts memory (canonical ::ₘ links))
      (found : next.uriAt index = some canonical) (text : canonical.read memory = uri.read memory)
      (uris : next.uris = insert (uri.read memory) budget.uris)
      (sound : Sound memory next aliases) :
      Admitted memory budget links uri (some index) next aliases
  | refused {aliases : Aliases}
      (full : ¬Within hyperlinkLimits (insert (uri.read memory) budget.uris))
      (sound : Sound memory budget aliases) :
      Admitted memory budget links uri none budget aliases

theorem sound_empty : Sound memory budget ∅ where
  found := by simp
  refused := by simp

/-- A budget that keeps its entries and allows less is as sound. -/
theorem Sound.mono {aliases : Aliases} (sound : Sound memory budget aliases)
    (keeps : ∀ index link, budget.uriAt index = some link → next.uriAt index = some link)
    (grows : budget.uris ⊆ next.uris) : Sound memory next aliases := by
  refine ⟨?_, ?_⟩
  · intro pointer index looked
    rcases Option.map_eq_some_iff.mp (sound.found pointer index looked) with ⟨link, at', text⟩
    rw [keeps index link at']
    exact congrArg some text
  · intro pointer looked within
    apply sound.refused pointer looked
    exact within.mono (Finset.insert_subset_insert _ grows)

/-- What was found out for one string holds for all at its pointer. -/
theorem Sound.note {aliases : Aliases} (sound : Sound memory budget aliases)
    {outcome : Option ℕ}
    (found : ∀ index, outcome = some index →
      (budget.uriAt index).map (SmolStr.read memory) = some (link.read memory))
    (refused : outcome = none →
      ¬Within hyperlinkLimits (insert (link.read memory) budget.uris)) :
    Sound memory budget (aliases.note outcome (heapStringPointer memory link)) := by
  cases lies : heapStringPointer memory link with
  | none => exact sound
  | some pointer =>
      have text := (heapStringPointer_eq_some lies).2
      refine ⟨?_, ?_⟩
      · intro other index looked
        by_cases here : other = pointer
        · subst here
          rw [Aliases.note, AList.lookup_insert] at looked
          rw [← text]
          exact found index (Option.some.inj looked)
        · rw [Aliases.note, AList.lookup_insert_ne here] at looked
          exact sound.found other index looked
      · intro other looked
        by_cases here : other = pointer
        · subst here
          rw [Aliases.note, AList.lookup_insert] at looked
          rw [← text]
          exact refused (Option.some.inj looked)
        · rw [Aliases.note, AList.lookup_insert_ne here] at looked
          exact sound.refused other looked

namespace Accounts

/-- A recorded link is admitted where its text is found. -/
theorem admitLink_found (accounts : budget.Accounts memory links) {aliases : Aliases}
    (sound : Sound memory budget aliases)
    (found : (budget.uriAt index).map (SmolStr.read memory) = some (link.read memory)) :
    ∃ next, budget.retain index = some next ∧
      Admitted memory budget links link (some index) next aliases := by
  rcases Option.map_eq_some_iff.mp found with ⟨canonical, canonicalAt, text⟩
  rcases accounts.retain canonicalAt with ⟨next, retains, nextAccounts, sameUriAt, sameUris⟩
  have member : link.read memory ∈ budget.uris := accounts.mem_uris_iff.mpr ⟨index, found⟩
  refine ⟨next, retains, ?_⟩
  apply Admitted.kept (within_insert_of_mem accounts.within member) nextAccounts
  · rw [sameUriAt, canonicalAt]
  · exact text
  · rw [sameUris, Finset.insert_eq_of_mem member]
  · apply sound.mono
    · intro other kept present
      rw [sameUriAt, present]
    · rw [sameUris]

theorem admitLink (accounts : budget.Accounts memory links) {aliases : Aliases}
    (sound : Sound memory budget aliases) (link : SmolStr) :
    ∃ outcome next noted, budget.admitLink memory aliases link = some (outcome, next, noted) ∧
      Admitted memory budget links link outcome next noted := by
  simp only [TerminalHyperlinkBudget.admitLink]
  cases looked : (heapStringPointer memory link).bind aliases.lookup with
  | some outcome =>
      rcases Option.bind_eq_some_iff.mp looked with ⟨pointer, lies, seen⟩
      have text := (heapStringPointer_eq_some lies).2
      cases outcome with
      | none =>
          refine ⟨none, budget, aliases, rfl, .refused ?_ sound⟩
          rw [text]
          exact sound.refused pointer seen
      | some index =>
          have found := sound.found pointer index seen
          rw [← text] at found
          rcases accounts.admitLink_found sound found with ⟨next, retains, admitted⟩
          exact ⟨some index, next, aliases, by simp [retains], admitted⟩
  | none =>
      -- a refusal is noted for all strings at the pointer
      have refuses : (¬Within hyperlinkLimits (insert (link.read memory) budget.uris)) →
          Admitted memory budget links link none budget
            (aliases.note none (heapStringPointer memory link)) := by
        intro full
        apply Admitted.refused full
        exact sound.note (by simp) (fun _ => full)
      split_ifs with long
      · refine ⟨none, budget, _, rfl, refuses ?_⟩
        rintro ⟨each, -, -⟩
        have := each _ (Finset.mem_insert_self _ _)
        simp only [hyperlinkLimits] at this
        omega
      · rw [accounts.find_eq]
        cases lookup : budget.byUri.lookup (link.read memory) with
        | some index =>
            have found := (accounts.indexed _ index).mp lookup
            have noted : Sound memory budget
                (aliases.note (some index) (heapStringPointer memory link)) := by
              apply sound.note
              · intro other same
                cases same
                exact found
              · simp
            rcases accounts.admitLink_found noted found with ⟨next, retains, admitted⟩
            exact ⟨some index, next, _, by simp [retains], admitted⟩
        | none =>
            have absent : link.read memory ∉ budget.uris := by
              rw [TerminalHyperlinkBudget.mem_uris, ← AList.lookup_eq_none]
              exact lookup
            have room := within_insert_uri_iff accounts.within absent
            have card : budget.uris.card = budget.byUri.keys.length :=
              List.toFinset_card_of_nodup budget.byUri.keys_nodup
            rw [card, ← accounts.bytes] at room
            simp only [checkedAdd]
            split_ifs with small
            · dsimp only
              by_cases full : maxTerminalHyperlinkBytes < budget.bytes +
                  (link.read memory).utf8ByteSize ∨
                  maxTerminalHyperlinks ≤ budget.byUri.keys.length
              · rw [if_pos full]
                refine ⟨none, budget, _, rfl, refuses ?_⟩
                intro within
                have := room.mp within
                omega
              · rw [if_neg full]
                have within := room.mpr (by omega)
                rcases accounts.place absent within
                  with ⟨index, next, places, nextAccounts, found, uris, keeps⟩
                refine ⟨some index, next,
                  aliases.note (some index) (heapStringPointer memory link), by simp [places], ?_⟩
                apply Admitted.kept within nextAccounts found rfl uris
                apply (sound.mono keeps (uris ▸ Finset.subset_insert _ _)).note
                · intro other same
                  cases same
                  rw [found]
                  rfl
                · simp
            · refine ⟨none, budget, _, rfl, .refused ?_ sound⟩
              intro within
              have := room.mp within
              simp only [maxTerminalHyperlinkBytes] at this
              omega

end Accounts

end TerminalHyperlinkBudget

end Condr
