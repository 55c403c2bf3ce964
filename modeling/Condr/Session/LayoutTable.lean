import Condr.Session.RoundTrip

/-!
# Tables that are trees

The check of a layout table walks it with a stack, entering and leaving every node. It gets to
the end exactly when the table is one tree, which takes each place of the table once, with the
Panes of the Tab for its leaves.
-/

namespace Condr

/-- What is left to enter: a tree for each entry of the stack that is not to be left, within
the depth limit, and all the places that they take. -/
inductive Waiting (nodes : List LayoutNodeSnapshot) :
    List (ℕ × ℕ × Bool) → List (PaneLayout F32) → List ℕ → Prop where
  | done : Waiting nodes [] [] []
  | leaving {index depth : ℕ} {stack : List (ℕ × ℕ × Bool)} {trees : List (PaneLayout F32)}
      {places : List ℕ} (later : Waiting nodes stack trees places) :
      Waiting nodes ((index, depth, true) :: stack) trees places
  | entering {index depth : ℕ} {stack : List (ℕ × ℕ × Bool)} {tree : PaneLayout F32}
      {trees : List (PaneLayout F32)} {own places : List ℕ}
      (occupies : Occupies nodes index tree own)
      (shallow : tree.depth + depth ≤ maxSnapshotLayoutDepth + 1)
      (later : Waiting nodes stack trees places) :
      Waiting nodes ((index, depth, false) :: stack) (tree :: trees) (own ++ places)

/-- What a walk to the end found. -/
structure Walked (nodes : List LayoutNodeSnapshot) (states : List VisitState)
    (panes : List PaneId) (stack : List (ℕ × ℕ × Bool)) (result : List VisitState × List PaneId)
    (trees : List (PaneLayout F32)) (places : List ℕ) : Prop where
  waiting : Waiting nodes stack trees places
  leaves : result.2 = panes ++ trees.flatMap PaneLayout.leaves
  distinct : panes.Nodup → result.2.Nodup
  ratios : ∀ tree ∈ trees, ∀ ratio ∈ tree.ratios, ratioInRange ratio = true
  placesNodup : places.Nodup
  unseen : ∀ place ∈ places, states[place]? = some .unseen
  left : ∀ place, result.1[place]? = some .unseen ↔
    states[place]? = some .unseen ∧ place ∉ places

variable {nodes : List LayoutNodeSnapshot} {states : List VisitState} {panes : List PaneId}
  {stack : List (ℕ × ℕ × Bool)} {result : List VisitState × List PaneId}
  {trees : List (PaneLayout F32)} {places : List ℕ} {index depth : ℕ}

theorem getElem?_set_eq_unseen {state : VisitState} (differs : state ≠ .unseen) (place : ℕ) :
    (states.set index state)[place]? = some .unseen ↔
      states[place]? = some .unseen ∧ place ≠ index := by
  by_cases same : place = index
  · subst same
    rw [List.getElem?_set_self']
    cases states[place]? <;> simp [differs]
  · rw [List.getElem?_set_ne (Ne.symm same)]
    simp [same]

namespace Walked

theorem nil : Walked nodes states panes [] (states, panes) [] [] where
  waiting := .done
  leaves := by simp
  distinct nodup := nodup
  ratios := by simp
  placesNodup := List.nodup_nil
  unseen := by simp
  left := by simp

/-- A node that is left was entered before. -/
theorem leave (walked : Walked nodes (states.set index .finished) panes stack result trees places)
    (entered : states[index]? ≠ some .unseen) :
    Walked nodes states panes ((index, depth, true) :: stack) result trees places := by
  refine ⟨.leaving walked.waiting, walked.leaves, walked.distinct, walked.ratios,
    walked.placesNodup, ?_, ?_⟩
  · intro place member
    exact ((getElem?_set_eq_unseen VisitState.finished_ne place).mp (walked.unseen place member)).1
  · intro place
    rw [walked.left place, getElem?_set_eq_unseen VisitState.finished_ne]
    constructor
    · rintro ⟨⟨unseen, -⟩, outside⟩
      exact ⟨unseen, outside⟩
    · rintro ⟨unseen, outside⟩
      refine ⟨⟨unseen, ?_⟩, outside⟩
      rintro rfl
      exact entered unseen

theorem pane {id : PaneId}
    (walked : Walked nodes (states.set index .finished) (panes ++ [id]) stack result trees places)
    (found : nodes[index]? = some (.pane id)) (here : states[index]? = some .unseen)
    (shallow : depth ≤ maxSnapshotLayoutDepth) (fresh : id ∉ panes) :
    Walked nodes states panes ((index, depth, false) :: stack) result (.pane id :: trees)
      ([index] ++ places) := by
  have apart : index ∉ places := by
    intro member
    exact ((getElem?_set_eq_unseen VisitState.finished_ne index).mp
      (walked.unseen index member)).2 rfl
  refine ⟨.entering (.pane found) ?_ walked.waiting, ?_, ?_, ?_, ?_, ?_, ?_⟩
  · rw [PaneLayout.depth]
    omega
  · rw [walked.leaves, List.flatMap_cons, PaneLayout.leaves, List.append_assoc]
  · intro nodup
    apply walked.distinct
    exact List.nodup_append'.mpr ⟨nodup, by simp, List.disjoint_singleton.mpr fresh⟩
  · rw [List.forall_mem_cons]
    exact ⟨by simp, walked.ratios⟩
  · exact List.nodup_cons.mpr ⟨apart, walked.placesNodup⟩
  · rw [List.singleton_append, List.forall_mem_cons]
    refine ⟨here, ?_⟩
    intro place member
    exact ((getElem?_set_eq_unseen VisitState.finished_ne place).mp (walked.unseen place member)).1
  · intro place
    rw [walked.left place, getElem?_set_eq_unseen VisitState.finished_ne, List.singleton_append,
      List.mem_cons, not_or, and_assoc]

/-- The children of a split were entered after it, the first one before the second one. -/
theorem split {direction : SplitDirection} {ratio : F32} {first second : ℕ}
    (walked : Walked nodes (states.set index .entered) panes ((first, depth + 1, false) ::
      (second, depth + 1, false) :: (index, depth, true) :: stack) result trees places)
    (found : nodes[index]? = some (.split direction ratio first second))
    (here : states[index]? = some .unseen) (inRange : ratioInRange ratio = true) :
    ∃ tree others places, Walked nodes states panes ((index, depth, false) :: stack) result
      (tree :: others) places := by
  rcases walked with ⟨waiting, leaves, distinct, ratios, nodup, unseen, left⟩
  cases waiting with
  | @entering _ _ _ firstTree _ firstPlaces _ firstOccupies firstShallow rest =>
      cases rest with
      | @entering _ _ _ secondTree others secondPlaces rest secondOccupies secondShallow last =>
          cases last with
          | leaving later =>
              have apart : index ∉ firstPlaces ++ (secondPlaces ++ rest) := by
                intro member
                exact ((getElem?_set_eq_unseen VisitState.entered_ne index).mp
                  (unseen index member)).2 rfl
              refine ⟨.split direction ratio firstTree secondTree, others,
                (index :: (firstPlaces ++ secondPlaces)) ++ rest,
                .entering (.split found firstOccupies secondOccupies) ?_ later, ?_, distinct, ?_,
                ?_, ?_, ?_⟩
              · rw [PaneLayout.depth]
                omega
              · rw [leaves, List.flatMap_cons, List.flatMap_cons, List.flatMap_cons,
                  PaneLayout.leaves, List.append_assoc]
              · simp only [List.forall_mem_cons] at ratios ⊢
                refine ⟨?_, ratios.2.2⟩
                intro other member
                simp only [PaneLayout.ratios, List.mem_cons, List.mem_append] at member
                rcases member with rfl | inFirst | inSecond
                · exact inRange
                · exact ratios.1 other inFirst
                · exact ratios.2.1 other inSecond
              · rw [List.cons_append, List.append_assoc]
                exact List.nodup_cons.mpr ⟨apart, nodup⟩
              · rw [List.cons_append, List.append_assoc, List.forall_mem_cons]
                refine ⟨here, ?_⟩
                intro place member
                exact ((getElem?_set_eq_unseen VisitState.entered_ne place).mp
                  (unseen place member)).1
              · intro place
                rw [left place, getElem?_set_eq_unseen VisitState.entered_ne, List.cons_append,
                  List.append_assoc, List.mem_cons, not_or, and_assoc]

end Walked

/-- A walk that got to the end found trees for everything it had to enter. -/
theorem walked_of_visitLayout (visited : visitLayout nodes states panes stack = .ok result)
    (entered : ∀ index depth, (index, depth, true) ∈ stack → states[index]? ≠ some .unseen) :
    ∃ trees places, Walked nodes states panes stack result trees places := by
  induction states, panes, stack using visitLayout.induct nodes with
  | case1 states panes =>
      rw [visitLayout] at visited
      cases visited
      exact ⟨[], [], .nil⟩
  | case2 states panes index depth exiting stack missing =>
      rw [visitLayout] at visited
      simp [missing] at visited
  | case3 states panes index depth stack node found ih =>
      rw [visitLayout] at visited
      simp only [found, if_true] at visited
      rcases ih visited (by
        intro other otherDepth member unseen
        rw [getElem?_set_eq_unseen VisitState.finished_ne] at unseen
        exact entered other otherDepth (List.mem_cons_of_mem _ member) unseen.1)
        with ⟨trees, places, walked⟩
      exact ⟨trees, places, walked.leave (entered index depth List.mem_cons_self)⟩
  | case4 states panes index depth exiting stack node found entering here tooDeep =>
      rw [visitLayout] at visited
      simp [found, entering, here, tooDeep] at visited
  | case5 states panes index depth exiting stack entering here shallow id repeated found =>
      rw [visitLayout] at visited
      simp [found, entering, here, shallow, repeated] at visited
  | case6 states panes index depth exiting stack entering here shallow id fresh found ih =>
      rw [visitLayout] at visited
      simp only [found, entering, here, shallow, fresh, if_false, dif_pos] at visited
      rcases ih (by simpa using visited) (by
        intro other otherDepth member unseen
        rw [getElem?_set_eq_unseen VisitState.finished_ne] at unseen
        exact entered other otherDepth (List.mem_cons_of_mem _ member) unseen.1)
        with ⟨trees, places, walked⟩
      rw [Bool.not_eq_true] at entering
      subst entering
      exact ⟨_, _, walked.pane found here (not_lt.mp shallow) fresh⟩
  | case7 states panes index depth exiting stack entering here shallow direction ratio first second
      outside found =>
      rw [visitLayout] at visited
      simp [found, entering, here, shallow, outside] at visited
  | case8 states panes index depth exiting stack entering here shallow direction ratio first second
      inside found ih =>
      rw [visitLayout] at visited
      simp only [found, entering, here, shallow, inside, if_false, dif_pos] at visited
      rcases ih (by simpa using visited) (by
        intro other otherDepth member unseen
        rw [getElem?_set_eq_unseen VisitState.entered_ne] at unseen
        simp only [List.mem_cons, Prod.mk.injEq, Bool.true_eq_false, and_false, false_or] at member
        rcases member with ⟨same, -⟩ | before
        · exact unseen.2 same
        · exact entered other otherDepth (List.mem_cons_of_mem _ before) unseen.1)
        with ⟨trees, places, walked⟩
      rw [Bool.not_eq_true] at entering
      subst entering
      rcases walked.split found here (by simpa using inside) with ⟨tree, others, all, walked⟩
      exact ⟨_, _, walked⟩
  | case9 states panes index depth exiting stack node found entering here before =>
      rw [visitLayout] at visited
      simp [found, entering, before] at visited
  | case10 states panes index depth exiting stack node found entering here before =>
      rw [visitLayout] at visited
      simp [found, entering, here, before] at visited

/-! ## The check of a table -/

/-- The indices that a node refers to. -/
def LayoutNodeSnapshot.references : LayoutNodeSnapshot → List ℕ
  | pane _ => []
  | split _ _ first second => [first, second]

/-- A tree refers to each of its places once, but for its root. -/
theorem Occupies.references {tree : PaneLayout F32}
    (occupies : Occupies nodes index tree places) :
    (index :: places.flatMap fun place =>
      (nodes[place]?.map LayoutNodeSnapshot.references).getD []).Perm places := by
  induction occupies with
  | pane found => simp [found, LayoutNodeSnapshot.references]
  | @split index first second _ _ _ _ firstPlaces secondPlaces found _ _ ihFirst ihSecond =>
      apply List.Perm.cons
      rw [List.flatMap_cons, found, List.flatMap_append]
      refine List.Perm.trans ?_ (ihFirst.append ihSecond)
      simp only [Option.map_some, Option.getD_some, LayoutNodeSnapshot.references,
        List.cons_append, List.nil_append]
      exact (List.perm_middle.symm).cons _

theorem LayoutSnapshot.Holds.references {table : LayoutSnapshot} {expectedPanes : List PaneId}
    {tree : PaneLayout F32} (holds : table.Holds expectedPanes tree) :
    (table.root :: table.nodes.flatMap LayoutNodeSnapshot.references).Perm
      (List.range table.nodes.length) := by
  rcases holds.places with ⟨places, occupies, all⟩
  refine List.Perm.trans ?_ (occupies.references.trans all)
  apply List.Perm.cons
  refine List.Perm.trans ?_ (all.flatMap_right _).symm
  have reads : (List.range table.nodes.length).map (fun place => table.nodes[place]?) =
      table.nodes.map some := by
    apply List.ext_getElem?
    intro place
    by_cases inBounds : place < table.nodes.length
    · simp [inBounds]
    · simp [not_lt.mp inBounds]
  have listed : (List.range table.nodes.length).flatMap (fun place =>
      (table.nodes[place]?.map LayoutNodeSnapshot.references).getD []) =
        table.nodes.flatMap LayoutNodeSnapshot.references := by
    rw [← List.flatMap_map (fun place => table.nodes[place]?)
      (fun node => (node.map LayoutNodeSnapshot.references).getD []), reads, List.flatMap_map]
    rfl
  rw [listed]

/-- A table that gets through the check is filled by a tree. -/
theorem LayoutSnapshot.holds_of_validates {table : LayoutSnapshot} {expectedPanes : List PaneId}
    (distinct : expectedPanes.Nodup)
    (validates : validateLayoutSnapshot table expectedPanes = .ok ()) :
    ∃ tree, table.Holds expectedPanes tree := by
  simp only [validateLayoutSnapshot, invalid_bind, check_eq_ok, Lists.bind_eq_ok] at validates
  rcases validates with ⟨-, -, -, result, visited, allSeen, same⟩
  rcases walked_of_visitLayout visited (by simp) with ⟨trees, places, walked⟩
  rcases walked with ⟨waiting, leaves, nodup, ratios, placesNodup, unseen, left⟩
  cases waiting with
  | @entering _ _ _ tree _ own _ occupies shallow later =>
      cases later
      rw [List.append_nil] at placesNodup unseen left
      have places : own.Perm (List.range table.nodes.length) := by
        apply (List.perm_ext_iff_of_nodup placesNodup List.nodup_range).mpr
        intro place
        rw [List.mem_range]
        constructor
        · intro member
          have inBounds := (List.getElem?_eq_some_iff.mp (unseen place member)).1
          rwa [List.length_replicate] at inBounds
        · intro inBounds
          by_contra outside
          apply allSeen
          apply List.mem_of_getElem?
          exact (left place).mpr ⟨by simp [inBounds], outside⟩
      have leavesEq : result.2 = tree.leaves := by simpa using leaves
      have treeNodup : tree.leaves.Nodup := leavesEq ▸ nodup List.nodup_nil
      rw [leavesEq] at same
      have sets : tree.leaves ⊆ expectedPanes ∧ expectedPanes ⊆ tree.leaves := by
        by_contra differ
        simp [differ, pure, Except.pure] at same
      refine ⟨tree, ⟨own, occupies, places⟩, ?_, by omega, ?_⟩
      · exact ratios tree List.mem_cons_self
      · apply (List.perm_ext_iff_of_nodup treeNodup distinct).mpr
        intro id
        exact ⟨fun member => sets.1 member, fun member => sets.2 member⟩

/-- The check accepts a table exactly when it is one tree with the expected Panes, in which every
node is referred to once. That tree is what is restored, and what is restored from its own
table. -/
theorem layout_tables_are_trees {expectedPanes : List PaneId} (distinct : expectedPanes.Nodup)
    (table : LayoutSnapshot) :
    (validateLayoutSnapshot table expectedPanes = .ok () ↔
      ∃ tree, table.Holds expectedPanes tree) ∧
    (validateLayoutSnapshot table expectedPanes = .ok () →
      (table.root :: table.nodes.flatMap LayoutNodeSnapshot.references).Perm
          (List.range table.nodes.length) ∧
        ∃ tree, table.Holds expectedPanes tree ∧ restoreLayout table = some tree ∧
          validateLayoutSnapshot (.fromLayout tree) expectedPanes = .ok () ∧
          restoreLayout (.fromLayout tree) = some tree) := by
  refine ⟨⟨LayoutSnapshot.holds_of_validates distinct, ?_⟩, ?_⟩
  · rintro ⟨tree, holds⟩
    exact holds.validates distinct
  · intro validates
    rcases LayoutSnapshot.holds_of_validates distinct validates with ⟨tree, holds⟩
    refine ⟨holds.references, tree, holds, ?_, ?_, restoreLayout_fromLayout holds.depth⟩
    · rcases holds.places with ⟨places, occupies, -⟩
      exact restoreNode_eq_some.mpr ⟨occupies.describes, holds.depth⟩
    · exact validateLayoutSnapshot_fromLayout holds.leaves distinct holds.ratios holds.depth

/-- A split of two Panes, the second of which comes first in the table. -/
def smallTable : LayoutSnapshot where
  root := 1
  nodes := [.pane ⟨12⟩, .split .vertical (.finite (1 / 4)) 2 0, .pane ⟨11⟩]

theorem layout_tables_are_trees_example :
    ∃ tree, smallTable.Holds [⟨11⟩, ⟨12⟩] tree ∧ restoreLayout smallTable = some tree := by
  have inRange : ratioInRange (F32.finite 4⁻¹) = true := by
    rw [ratioInRange_finite]
    norm_num
  have accepted : validateLayoutSnapshot smallTable [⟨11⟩, ⟨12⟩] = .ok () := by
    simp [validateLayoutSnapshot, smallTable, visitLayout, inRange, maxSnapshotLayoutDepth,
      List.replicate, pure, Except.pure, bind, Except.bind]
  rcases (layout_tables_are_trees (by decide) smallTable).2 accepted with ⟨-, tree, holds, restores, -⟩
  exact ⟨tree, holds, restores⟩

end Condr
