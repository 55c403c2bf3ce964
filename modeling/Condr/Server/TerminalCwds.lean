import Condr.Protocol.SessionSnapshot
import Condr.Server.ClientWriter
import Condr.Session.Moving
import Condr.Session.Zoom

/-!
# Working directories of terminals

The Server records where the programs of its Panes are. All observations go into one
candidate first; when that is too large to be stored, they are tried one by one, and the
ones the Session has no room for are taken back.
-/

namespace Condr

open ClientWriter (maxFrameSize)

def bootstrapMetadataHeadroom : ℕ := 64 * 1024

def maxPersistedSnapshotBytes : ℕ := maxFrameSize - bootstrapMetadataHeadroom

def validatePersistableSnapshot (snapshot : SessionSnapshot) : Except String Unit :=
  match snapshot.toBytes with
  | .error error => .error ("Session Snapshot cannot be encoded: " ++ error)
  | .ok bytes =>
      if maxPersistedSnapshotBytes < bytes.length then
        .error ("Session Snapshot is " ++ toString bytes.length ++ " bytes; Server limit is " ++
          toString maxPersistedSnapshotBytes ++ " bytes")
      else .ok ()

def Session.Persistable (session : Session) : Prop :=
  validatePersistableSnapshot session.snapshot = .ok ()

/-- What recording leaves: whether something changed, the Session, and the snapshot that is
scheduled to be stored. -/
structure RecordedCwds where
  changed : Bool
  session : Session
  scheduled : Option SessionSnapshot

section Recording

-- the equality of paths compares the components the platform sees in them
variable (samePath : PathBuf → PathBuf → Bool)

/-- The body of the first loop: the candidate, and the updates it has. -/
def observeCwd (turn : Session × List (PaneId × PathBuf)) (observed : PaneId × PathBuf) :
    Session × List (PaneId × PathBuf) :=
  match turn.1.pane observed.1 with
  | none => turn
  | some pane =>
      if pane.cwd.any (samePath · observed.2) then turn
      else if observed.2.toStr.isNone then turn
      else ((turn.1.setPaneCwd observed.1 (some observed.2)).2, turn.2 ++ [observed])

/-- The body of the second loop: the candidate, and the snapshot of the last update that was
accepted. -/
def acceptCwd (turn : Session × Option SessionSnapshot) (update : PaneId × PathBuf) :
    Session × Option SessionSnapshot :=
  let previous := (turn.1.pane update.1).bind (·.cwd)
  let candidate := (turn.1.setPaneCwd update.1 (some update.2)).2
  let snapshot := candidate.snapshot
  match validatePersistableSnapshot snapshot with
  | .ok () => (candidate, some snapshot)
  | .error _ => ((candidate.setPaneCwd update.1 previous).2, turn.2)

def recordTerminalCwds (session : Session) (cwds : List (PaneId × PathBuf)) : RecordedCwds :=
  let (candidate, updates) := cwds.foldl (observeCwd samePath) (session, [])
  if updates.isEmpty then ⟨false, session, none⟩
  else
    let snapshot := candidate.snapshot
    match validatePersistableSnapshot snapshot with
    | .ok () => ⟨true, candidate, some snapshot⟩
    | .error _ =>
        match updates.foldl acceptCwd (session, none) with
        | (candidate, some accepted) => ⟨true, candidate, some accepted⟩
        | (_, none) => ⟨false, session, none⟩

end Recording

/-! ## A Session without its directories -/

def TabContent.withoutCwds : TabContent → TabContent
  | .terminals layout =>
      .terminals { layout with panes := layout.panes.map fun pane => { pane with cwd := none } }
  | .diff path => .diff path
  | .file path => .file path

def Tab.withoutCwds (tab : Tab) : Tab := { tab with content := tab.content.withoutCwds }

/-- All of a Session but the working directories of its Panes. -/
def Session.withoutCwds (session : Session) : Session :=
  ⟨session.workspaces.map fun workspace =>
    { workspace with tabs := workspace.tabs.map Tab.withoutCwds }⟩

/-- The Sessions differ in working directories only, and each is the old one of its Pane or
one that was observed for it. -/
structure Session.CwdsFrom (cwds : List (PaneId × PathBuf)) (before after : Session) : Prop where
  rest : after.withoutCwds = before.withoutCwds
  each : List.Forall₂ (fun old new => new = { old with cwd := new.cwd } ∧
    (new.cwd = old.cwd ∨ ∃ cwd, (old.id, cwd) ∈ cwds ∧ new.cwd = some cwd))
    before.panes after.panes

/-! ## Setting one directory -/

namespace Session

variable {session : Session} {paneId : PaneId}

theorem pane_eq_findSome? (session : Session) (paneId : PaneId) :
    session.pane paneId = session.workspaces.findSome? fun workspace =>
      workspace.tabs.findSome? fun tab => tab.panes.find? (·.id = paneId) := by
  simp only [pane, panes, tabs, List.flatMap_assoc, List.find?_flatMap]

/-- `find_pane` and `pane` find the same Pane. -/
theorem pane_of_findPane {workspaceIx tabIx paneIx : ℕ}
    (found : session.findPane paneId = some (workspaceIx, tabIx, paneIx)) :
    ∃ workspace tab terminals pane,
      session.Located paneId workspaceIx tabIx paneIx workspace tab terminals pane ∧
        session.pane paneId = some pane := by
  rcases findPane_located found with ⟨workspace, tab, terminals, pane, located⟩
  refine ⟨workspace, tab, terminals, pane, located, ?_⟩
  have inTab : ∀ tab : Tab, tab.panes.findIdx? (·.id = paneId) = none →
      tab.panes.find? (·.id = paneId) = none := by
    intro tab absent
    rw [List.findIdx?_eq_none_iff] at absent
    exact List.find?_eq_none.mpr fun pane contained => by simpa using absent pane contained
  have inWorkspace : ∀ (workspace : Workspace) (index : ℕ),
      (workspace.tabs.zipIdx.findSome? fun place =>
        (place.1.panes.findIdx? (·.id = paneId)).map (index, place.2, ·)) = none →
      (workspace.tabs.findSome? fun tab => tab.panes.find? (·.id = paneId)) = none := by
    intro workspace index absent
    rw [List.findSome?_eq_none_iff] at absent ⊢
    intro tab contained
    rcases List.getElem?_of_mem contained with ⟨position, tabAt⟩
    have missing := absent (tab, position) (List.mem_zipIdx_iff_getElem?.mpr tabAt)
    exact inTab tab (Option.map_eq_none_iff.mp missing)
  rcases Lists.findSome?_zipIdx inWorkspace found
    with ⟨workspace', index, workspaceAt, tabFound, firstWorkspace⟩
  rcases @Lists.findSome?_zipIdx _ _ _ _ _ (fun tab : Tab => tab.panes.find? (·.id = paneId)) _
    (fun tab index absent => inTab tab (Option.map_eq_none_iff.mp absent)) tabFound
    with ⟨tab', position, tabAt, paneFound, firstTab⟩
  simp only [Option.map_eq_some_iff, Prod.mk.injEq] at paneFound
  rcases paneFound with ⟨place, placeEq, rfl, rfl, rfl⟩
  obtain rfl : workspace' = workspace := by
    rw [located.workspaceAt] at workspaceAt
    exact (Option.some.inj workspaceAt).symm
  obtain rfl : tab' = tab := by
    rw [located.tabAt] at tabAt
    exact (Option.some.inj tabAt).symm
  have panes : tab'.panes = terminals.panes := by
    simp [Tab.panes, Tab.terminals, located.content]
  have here := Lists.find?_of_findIdx? placeEq (by rw [panes]; exact located.paneAt)
  have tabHas := firstTab (by rw [here]; simp)
  rw [pane_eq_findSome?, firstWorkspace (by rw [tabHas, here]; simp), tabHas, here]

theorem withoutCwds_setTerminals {workspaceIx tabIx paneIx : ℕ} {workspace : Workspace} {tab : Tab}
    {terminals : TerminalLayout} {pane : Pane}
    (located : session.Located paneId workspaceIx tabIx paneIx workspace tab terminals pane)
    (cwd : Option PathBuf) :
    (session.setTerminals workspaceIx tabIx
      (terminals.modifyPane paneIx fun pane => { pane with cwd })).withoutCwds =
      session.withoutCwds := by
  apply congrArg Session.mk
  apply Lists.map_modify_of_same
  intro found foundAt
  rw [located.workspaceAt, Option.some.injEq] at foundAt
  subst foundAt
  congr 1
  apply Lists.map_modify_of_same
  intro shown shownAt
  rw [located.tabAt, Option.some.injEq] at shownAt
  subst shownAt
  simp only [Tab.withoutCwds, located.content, TabContent.withoutCwds]
  congr 3
  exact Lists.map_modify_of_same fun _ _ => rfl

theorem panes_setTerminals {workspaceIx tabIx paneIx : ℕ} {workspace : Workspace} {tab : Tab}
    {terminals : TerminalLayout} {pane : Pane}
    (located : session.Located paneId workspaceIx tabIx paneIx workspace tab terminals pane)
    (change : Pane → Pane) :
    ∃ front back, session.panes = front ++ pane :: back ∧
      (session.setTerminals workspaceIx tabIx (terminals.modifyPane paneIx change)).panes =
        front ++ change pane :: back := by
  rcases Lists.exists_segments located.workspaceAt with ⟨above, below, workspaces, -, workspaceSet, -⟩
  rcases Lists.exists_segments located.tabAt with ⟨left, right, tabs, -, tabSet, -⟩
  rcases Lists.exists_segments located.paneAt with ⟨first, last, panes, -, paneSet, -⟩
  have before : tab.panes = first ++ pane :: last := by
    simp [Tab.panes, Tab.terminals, located.content, panes]
  refine ⟨above.flatMap (·.tabs.flatMap Tab.panes) ++ left.flatMap Tab.panes ++ first,
    last ++ right.flatMap Tab.panes ++ below.flatMap (·.tabs.flatMap Tab.panes), ?_, ?_⟩
  · simp [Session.panes, Session.tabs, List.flatMap_assoc, workspaces, tabs, before]
  · simp [Session.panes, Session.tabs, List.flatMap_assoc, setTerminals, modifyTab,
      modifyWorkspace, workspaceSet, tabSet, TerminalLayout.modifyPane, paneSet, Tab.panes,
      Tab.terminals]

/-- What setting a directory can do: nothing where there is no such Pane; else the first such
Pane has it, and setting its old one undoes the change. -/
theorem setPaneCwd_cases (session : Session) (paneId : PaneId) (cwd : Option PathBuf) :
    (session.pane paneId = none ∧ session.setPaneCwd paneId cwd = (false, session)) ∨
      ∃ pane front back next, session.pane paneId = some pane ∧ pane.id = paneId ∧
        session.setPaneCwd paneId cwd = (true, next) ∧
        session.panes = front ++ pane :: back ∧
        next.panes = front ++ { pane with cwd } :: back ∧
        next.withoutCwds = session.withoutCwds ∧
        next.setPaneCwd paneId pane.cwd = (true, session) := by
  cases found : session.findPane paneId with
  | none =>
      left
      refine ⟨?_, by rw [setPaneCwd, found]⟩
      rw [findPane_eq_none] at found
      rw [Session.pane, List.find?_eq_none]
      intro pane contained same
      apply found
      rcases List.mem_flatMap.mp contained with ⟨tab, tabMem, paneMem⟩
      exact List.mem_flatMap.mpr ⟨tab, tabMem,
        List.mem_map.mpr ⟨pane, paneMem, of_decide_eq_true same⟩⟩
  | some place =>
      rcases place with ⟨workspaceIx, tabIx, paneIx⟩
      right
      rcases pane_of_findPane found with ⟨workspace, tab, terminals, pane, located, first⟩
      rcases panes_setTerminals located (fun pane => { pane with cwd })
        with ⟨front, back, before, after⟩
      have layout := located.terminalLayout
      refine ⟨pane, front, back, _, first, located.id, by rw [setPaneCwd, found]; simp only [layout],
        before, after, withoutCwds_setTerminals located cwd, ?_⟩
      have ids : (terminals.modifyPane paneIx fun pane => { pane with cwd }).paneIds =
          terminals.paneIds := Lists.map_modify_of_same fun _ _ => rfl
      have again := findPane_setTerminals layout ids paneId
      rw [setPaneCwd, again, found]
      simp only [located.terminalLayout_setTerminals]
      have restored : (terminals.modifyPane paneIx fun pane => { pane with cwd }).modifyPane paneIx
          (fun other => { other with cwd := pane.cwd }) = terminals := by
        rw [TerminalLayout.modifyPane, TerminalLayout.modifyPane]
        simp only [List.modify_modify_eq]
        rw [Lists.modify_eq_self]
        intro other otherAt
        rw [located.paneAt, Option.some.injEq] at otherAt
        subst otherAt
        rfl
      rw [restored, located.setTerminals_setTerminals]

/-- Setting the directory it had takes a change back. -/
theorem setPaneCwd_previous (session : Session) (paneId : PaneId) (cwd : Option PathBuf) :
    ((session.setPaneCwd paneId cwd).2.setPaneCwd paneId
      ((session.pane paneId).bind (·.cwd))).2 = session := by
  rcases session.setPaneCwd_cases paneId cwd with
    ⟨absent, unchanged⟩ | ⟨pane, -, -, next, found, -, changed, -, -, -, back⟩
  · rw [unchanged]
    rcases session.setPaneCwd_cases paneId ((session.pane paneId).bind (·.cwd)) with
      ⟨-, same⟩ | ⟨pane, -, -, -, found, -⟩
    · rw [same]
    · rw [absent] at found
      cases found
  · rw [changed, found]
    exact congrArg Prod.snd back

namespace CwdsFrom

variable {cwds : List (PaneId × PathBuf)} {before after : Session}

theorem refl (session : Session) : session.CwdsFrom cwds session where
  rest := rfl
  each := List.forall₂_same.mpr fun _ _ => ⟨rfl, .inl rfl⟩

theorem setPaneCwd (derived : before.CwdsFrom cwds after) {cwd : PathBuf}
    (observed : (paneId, cwd) ∈ cwds) :
    before.CwdsFrom cwds (after.setPaneCwd paneId (some cwd)).2 := by
  rcases after.setPaneCwd_cases paneId (some cwd) with
    ⟨-, unchanged⟩ | ⟨pane, front, back, next, -, id, changed, panes, nextPanes, rest, -⟩
  · rw [unchanged]
    exact derived
  · rw [changed]
    refine ⟨rest.trans derived.rest, ?_⟩
    have each := derived.each
    rw [panes] at each
    rw [nextPanes]
    apply Lists.forall₂_replace each
    rintro old ⟨same, -⟩
    have oldId : old.id = paneId := by
      rw [← id, same]
    exact ⟨by rw [same], .inr ⟨cwd, by rw [oldId]; exact observed, rfl⟩⟩

/-- The same Panes are in both. -/
theorem pane_isSome (derived : before.CwdsFrom cwds after) (paneId : PaneId) :
    (after.pane paneId).isSome = (before.pane paneId).isSome := by
  unfold Session.pane
  have each := derived.each
  generalize before.panes = olds, after.panes = news at each ⊢
  induction each with
  | nil => rfl
  | @cons old new olds news head _ induction =>
      have id : new.id = old.id := by rw [head.1]
      rw [List.find?_cons, List.find?_cons, id]
      by_cases here : old.id = paneId
      · simp [here]
      · simpa [here] using induction

end CwdsFrom

end Session

/-! ## The loops -/

section Recording

variable (samePath : PathBuf → PathBuf → Bool) {session : Session} {cwds : List (PaneId × PathBuf)}

theorem observeCwd_derived {turn : Session × List (PaneId × PathBuf)} {observed : PaneId × PathBuf}
    (contained : observed ∈ cwds) (derived : session.CwdsFrom cwds turn.1)
    (updates : turn.2 ⊆ cwds) :
    session.CwdsFrom cwds (observeCwd samePath turn observed).1 ∧
      (observeCwd samePath turn observed).2 ⊆ cwds := by
  unfold observeCwd
  split
  · exact ⟨derived, updates⟩
  split_ifs
  · exact ⟨derived, updates⟩
  · exact ⟨derived, updates⟩
  · exact ⟨derived.setPaneCwd contained, List.append_subset.mpr ⟨updates, by simpa using contained⟩⟩

theorem foldl_observeCwd {observed : List (PaneId × PathBuf)}
    {turn : Session × List (PaneId × PathBuf)} (contained : observed ⊆ cwds)
    (derived : session.CwdsFrom cwds turn.1) (updates : turn.2 ⊆ cwds) :
    session.CwdsFrom cwds (observed.foldl (observeCwd samePath) turn).1 ∧
      (observed.foldl (observeCwd samePath) turn).2 ⊆ cwds := by
  induction observed generalizing turn with
  | nil => exact ⟨derived, updates⟩
  | cons first observed induction =>
      rw [List.cons_subset] at contained
      rcases observeCwd_derived samePath contained.1 derived updates with ⟨derived, updates⟩
      exact induction contained.2 derived updates

/-- What the second loop keeps: the candidate is as storable as the Session, and it is what the
last accepted snapshot shows. -/
structure Accepted (session : Session) (cwds : List (PaneId × PathBuf))
    (turn : Session × Option SessionSnapshot) : Prop where
  derived : session.CwdsFrom cwds turn.1
  persistable : session.Persistable → turn.1.Persistable
  shown : ∀ snapshot, turn.2 = some snapshot → snapshot = turn.1.snapshot ∧ turn.1.Persistable

theorem Accepted.acceptCwd {turn : Session × Option SessionSnapshot} {update : PaneId × PathBuf}
    (accepted : Accepted session cwds turn) (contained : update ∈ cwds) :
    Accepted session cwds (acceptCwd turn update) := by
  unfold Condr.acceptCwd
  dsimp only
  split
  next storable =>
    exact ⟨accepted.derived.setPaneCwd contained, fun _ => storable, fun snapshot shown =>
      ⟨(Option.some.inj shown).symm, storable⟩⟩
  next error _ =>
    rw [Session.setPaneCwd_previous]
    exact accepted

theorem Accepted.foldl {updates : List (PaneId × PathBuf)}
    {turn : Session × Option SessionSnapshot} (accepted : Accepted session cwds turn)
    (contained : updates ⊆ cwds) : Accepted session cwds (updates.foldl Condr.acceptCwd turn) := by
  induction updates generalizing turn with
  | nil => exact accepted
  | cons update updates induction =>
      rw [List.cons_subset] at contained
      exact induction (accepted.acceptCwd contained.1) contained.2

/-- An observation for no Pane of the Session is as good as none. -/
theorem foldl_observeCwd_filter {observed : List (PaneId × PathBuf)}
    {turn : Session × List (PaneId × PathBuf)} (contained : observed ⊆ cwds)
    (derived : session.CwdsFrom cwds turn.1) (updates : turn.2 ⊆ cwds) :
    (observed.filter fun observed => (session.pane observed.1).isSome).foldl (observeCwd samePath)
        turn = observed.foldl (observeCwd samePath) turn := by
  induction observed generalizing turn with
  | nil => rfl
  | cons first observed induction =>
      rw [List.cons_subset] at contained
      by_cases inside : (session.pane first.1).isSome
      · rcases observeCwd_derived samePath contained.1 derived updates
          with ⟨nextDerived, nextUpdates⟩
        rw [List.filter_cons, if_pos inside, List.foldl_cons, List.foldl_cons,
          induction contained.2 nextDerived nextUpdates]
      · have skipped : observeCwd samePath turn first = turn := by
          rw [← derived.pane_isSome, Option.not_isSome_iff_eq_none] at inside
          rw [observeCwd, inside]
        rw [List.filter_cons, if_neg inside, List.foldl_cons, skipped,
          induction contained.2 derived updates]

/-- Recording directories changes directories only, each to one that was observed for its Pane
in the Session, and leaves a Session that can be stored if the old one could; what is scheduled
is the snapshot of that Session. -/
theorem recordTerminalCwds_persistable (session : Session) (cwds : List (PaneId × PathBuf)) :
    session.CwdsFrom cwds (recordTerminalCwds samePath session cwds).session ∧
      (session.Persistable → (recordTerminalCwds samePath session cwds).session.Persistable) ∧
      (∀ snapshot, (recordTerminalCwds samePath session cwds).scheduled = some snapshot →
        snapshot = (recordTerminalCwds samePath session cwds).session.snapshot ∧
          (recordTerminalCwds samePath session cwds).session.Persistable) ∧
      recordTerminalCwds samePath session cwds =
        recordTerminalCwds samePath session
          (cwds.filter fun observed => (session.pane observed.1).isSome) := by
  have start : session.CwdsFrom cwds session := Session.CwdsFrom.refl session
  rw [← and_assoc, ← and_assoc]
  refine ⟨?_, ?_⟩
  · rcases @foldl_observeCwd samePath session cwds cwds (session, []) (List.Subset.refl cwds) start
        (List.nil_subset _)
      with ⟨derived, contained⟩
    have begun : Accepted session cwds (session, none) :=
      ⟨start, fun storable => storable, fun snapshot shown => by cases shown⟩
    have accepted := begun.foldl contained
    unfold recordTerminalCwds
    dsimp only
    split_ifs
    · exact ⟨⟨start, fun storable => storable⟩, fun snapshot shown => by cases shown⟩
    split
    next storable =>
      exact ⟨⟨derived, fun _ => storable⟩, fun snapshot shown =>
        ⟨(Option.some.inj shown).symm, storable⟩⟩
    split
    next candidate snapshot result =>
      rw [result] at accepted
      exact ⟨⟨accepted.derived, accepted.persistable⟩, accepted.shown⟩
    · exact ⟨⟨start, fun storable => storable⟩, fun snapshot shown => by cases shown⟩
  · unfold recordTerminalCwds
    rw [@foldl_observeCwd_filter samePath session cwds cwds (session, []) (List.Subset.refl cwds) start
      (List.nil_subset _)]

end Recording

end Condr
