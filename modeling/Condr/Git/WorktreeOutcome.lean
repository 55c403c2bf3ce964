import Condr.Git.WorktreeSafety

/-!
# How a creation ends

A call that fails undoes what it reserved and no more; a call that succeeds leaves a
registration and a checkout that name each other. A destination is a directory of its own in
the container, unless a dot is all that a branch leaves for it.
-/

namespace Condr.Worktree

open FilePath FileTree

/-! ## Files that name each other -/

/-- `git_path` of the path names it: it is absolute, UTF-8 and without a backslash. -/
def Spelled (path : FilePath) : Prop :=
  path.absolute = true ∧ ∀ part ∈ path.parts, Legible part ∧ '\\' ∉ part.toStringLossy

/-- The checkout that a registration's `gitdir` file names. -/
def readGitdir (text : List Char) : FilePath := ofText text.dropLast

/-- The registration that a checkout's `.git` file names. -/
def readDotGit (text : List Char) : Option FilePath :=
  if "gitdir: ".toList.isPrefixOf text then some (ofText (text.drop 8).dropLast) else none

theorem mem_intercalate {texts : List (List Char)} {character : Char}
    (contained : character ∈ ['/'].intercalate texts) :
    character = '/' ∨ ∃ text ∈ texts, character ∈ text := by
  induction texts with
  | nil => cases contained
  | cons text rest ih =>
      cases rest with
      | nil => exact Or.inr ⟨text, by simp, by simpa [List.intercalate] using contained⟩
      | cons next others =>
          have split : ['/'].intercalate (text :: next :: others) =
              text ++ '/' :: ['/'].intercalate (next :: others) := by simp [List.intercalate]
          rw [split, List.mem_append, List.mem_cons] at contained
          rcases contained with here | rfl | later
          · exact Or.inr ⟨text, by simp, here⟩
          · exact Or.inl rfl
          · rcases ih later with separator | ⟨found, inRest, within⟩
            · exact Or.inl separator
            · exact Or.inr ⟨found, List.mem_cons_of_mem _ inRest, within⟩

theorem gitPath_of_spelled {path : FilePath} (spelled : Spelled path) :
    gitPath path = path.toStringLossy := by
  unfold gitPath
  conv_rhs => rw [← List.map_id path.toStringLossy]
  apply List.map_congr_left
  intro character contained
  have plain : character ≠ '\\' := by
    rintro rfl
    unfold toStringLossy at contained
    rw [if_pos spelled.1] at contained
    rcases List.mem_append.mp contained with separator | inParts
    · exact absurd separator (by decide)
    · rcases mem_intercalate inParts with separator | ⟨text, inTexts, within⟩
      · exact absurd separator (by decide)
      · rcases List.mem_map.mp inTexts with ⟨part, inPath, rfl⟩
        exact (spelled.2 part inPath).2 within
  rw [if_neg plain]
  rfl

theorem ofText_gitPath {path : FilePath} (spelled : Spelled path) : ofText (gitPath path) = path := by
  rw [gitPath_of_spelled spelled]
  exact ofText_toStringLossy spelled.1 fun part inPath => (spelled.2 part inPath).1

theorem Spelled.child {path : FilePath} (spelled : Spelled path) {text : List Char}
    (plain : Plain text) (slashed : '\\' ∉ text) : Spelled (path.child (nameOf text plain)) := by
  refine ⟨spelled.1, ?_⟩
  intro part contained
  rcases List.mem_append.mp contained with earlier | here
  · exact spelled.2 part earlier
  · rw [List.mem_singleton.mp here]
    refine ⟨nofun, ?_⟩
    simpa [FilePart.toStringLossy, OsName.toStringLossy] using slashed

theorem Plan.backslash_not_mem_adminId {plan : Plan} (spelled : Spelled plan.destination)
    (suffix : ℕ) : '\\' ∉ plan.adminId suffix := by
  have base : '\\' ∉ plan.baseId := by
    have fallback : '\\' ∉ "worktree".toList := by decide
    unfold Plan.baseId
    rcases named : plan.destination.fileName with _ | ⟨text | bytes, ordinary⟩
    · exact fallback
    · -- the name is the last component of the destination
      have last : plan.destination.parts.getLast? = some (.normal ⟨.utf8 text, ordinary⟩) := by
        unfold FilePath.fileName at named
        split at named
        · next found =>
            rw [found, Option.some.inj named]
        · cases named
      exact (spelled.2 _ (List.mem_of_getLast? last)).2
    · exact fallback
  unfold Plan.adminId
  split_ifs
  · exact base
  · intro contained
    rcases List.mem_append.mp contained with inBase | inDigits
    · exact base inBase
    · rw [Nat.toList_repr] at inDigits
      exact absurd (Nat.isDigit_of_mem_toDigits (by decide) (by decide) inDigits) (by decide)

theorem Plan.spelled_adminPath {plan : Plan} (worktrees : Spelled plan.worktrees)
    (destination : Spelled plan.destination) (suffix : ℕ) : Spelled (plan.adminPath suffix) := by
  rw [Plan.adminPath, join_ofText_plain (plan.plain_adminId suffix)]
  exact worktrees.child _ (plan.backslash_not_mem_adminId destination suffix)

theorem readGitdir_gitdir {plan : Plan} {admin : FilePath} (spelled : Spelled plan.destination) :
    readGitdir (plan.fileText admin .gitdir) = plan.destination.child dotGitName := by
  have plain : Plain ".git".toList := by decide
  have slashed : '\\' ∉ ".git".toList := by decide
  have named : Spelled (plan.destination.child dotGitName) := spelled.child plain slashed
  have text : plan.fileText admin .gitdir =
      gitPath (plan.destination.child dotGitName) ++ ['\n'] := rfl
  rw [text, readGitdir, List.dropLast_concat]
  exact ofText_gitPath named

theorem readDotGit_dotGit {plan : Plan} {admin : FilePath} (spelled : Spelled admin) :
    readDotGit (plan.fileText admin .dotGit) = some admin := by
  have text : plan.fileText admin .dotGit =
      "gitdir: ".toList ++ (gitPath admin ++ ['\n']) := List.append_assoc _ _ _
  have marked : "gitdir: ".toList.isPrefixOf ("gitdir: ".toList ++ (gitPath admin ++ ['\n'])) =
      true := List.isPrefixOf_iff_prefix.mpr (List.prefix_append _ _)
  rw [readDotGit, text, if_pos marked]
  rw [List.drop_left' (by rfl), List.dropLast_concat, ofText_gitPath spelled]

/-! ## How calls end -/

section

variable {Call : Type} [DecidableEq Call] {cwd : Place} {plans : Call → Plan}
variable {origin : Files Call} {state : State Call}

/-- How calls end whose directories are apart. -/
structure Tidy (cwd : Place) (plans : Call → Plan) (origin : Files Call) (state : State Call) :
    Prop where
  /-- No step touches what another call made. -/
  others : ∀ label after, (system cwd plans origin).step state label after →
    ∀ place entry other, find place state.files = some entry → entry.creator = some other →
      other ≠ label.1 → find place after.files = some entry
  /-- Of a call whose rollback succeeded only shared directories are left. -/
  failed : ∀ call error, (state.creations call).result = some (.error error) →
    (state.creations call).failures = [] →
    ∀ place entry, find place state.files = some entry → entry.creator = some call →
      entry.kind = .directory ∧ ∃ above ∈ (plans call).shared cwd, place <+: above
  /-- A call that succeeded leaves its directories in place, which name each other. -/
  created : ∀ call admin, (state.creations call).result = some (.ok admin) →
    find (admin.resolve cwd) state.files = some ⟨some call, .directory⟩ ∧
    find ((plans call).destination.resolve cwd) state.files = some ⟨some call, .directory⟩ ∧
    ∃ gitdir dotGit,
      find ((admin.child gitdirName).resolve cwd) state.files =
        some ⟨some call, .leaf gitdir⟩ ∧
      find (((plans call).destination.child dotGitName).resolve cwd) state.files =
        some ⟨some call, .leaf dotGit⟩ ∧
      (Spelled (plans call).worktrees → Spelled (plans call).destination →
        readGitdir gitdir = (plans call).destination.child dotGitName ∧
          readDotGit dotGit = some admin)
  /-- Calls that succeeded share neither. -/
  distinct : ∀ call other admin registration, call ≠ other →
    (state.creations call).result = some (.ok admin) →
    (state.creations other).result = some (.ok registration) →
    admin.resolve cwd ≠ registration.resolve cwd ∧
      (plans call).destination.resolve cwd ≠ (plans other).destination.resolve cwd

theorem Creation.result_ok {creation : Creation} {admin : FilePath}
    (returned : creation.result = some (.ok admin)) : creation.phase = .created admin := by
  unfold Creation.result at returned
  split at returned
  · next found =>
      cases returned
      exact found
  · cases returned
  · cases returned

theorem Creation.result_error {creation : Creation} {error : String}
    (returned : creation.result = some (.error error)) :
    ∃ message, creation.phase = .failed message := by
  unfold Creation.result at returned
  split at returned
  · cases returned
  · next message found => exact ⟨message, found⟩
  · cases returned

theorem Creation.standing_of_created (plan : Plan) {creation : Creation} {admin : FilePath}
    (phase : creation.phase = .created admin) :
    plan.destination ∈ creation.standing plan ∧ admin ∈ creation.standing plan := by
  simp [Creation.standing, phase, Phase.registration]

/-- A call that failed answers for what it could not remove. -/
theorem Shaped.held_of_failed {plan : Plan} {creation : Creation} (shaped : Shaped plan creation)
    {error : String} (phase : creation.phase = .failed error) :
    creation.held plan = creation.failures.map Prod.fst := by
  have reserved := shaped.unreserved (by rw [phase]; rfl)
  simp only [Option.isSome_eq_false_iff, Option.isNone_iff_eq_none] at reserved
  simp [Creation.held, Creation.standing, Creation.owned, reserved, phase, Phase.registration]

theorem tidy_of_separate (apart : Apart cwd plans) (untouched : Untouched origin)
    (kept : Kept cwd plans origin state) (separate : Separate cwd plans state) :
    Tidy cwd plans origin state := by
  have standing : ∀ call admin, (state.creations call).result = some (.ok admin) →
      find (admin.resolve cwd) state.files = some ⟨some call, .directory⟩ ∧
        find ((plans call).destination.resolve cwd) state.files =
          some ⟨some call, .directory⟩ := by
    intro call admin returned
    have phase := Creation.result_ok returned
    have both := Creation.standing_of_created (plans call) phase
    exact ⟨separate.stands call _ both.2, separate.stands call _ both.1⟩
  refine ⟨?_, ?_, ?_, ?_⟩
  · intro label after steps place entry other found made distinct
    rcases exists_step steps with ⟨files, later, step, rfl⟩
    exact separate.others apart untouched kept step found made distinct
  · intro call error returned clean place entry found made
    rcases Creation.result_error returned with ⟨message, phase⟩
    rcases separate.made call place entry found made with shared | ⟨root, held, -⟩
    · exact shared
    · rw [(kept.shaped call).held_of_failed phase, clean] at held
      cases held
  · intro call admin returned
    have phase := Creation.result_ok returned
    rcases standing call admin returned with ⟨registered, checkedOut⟩
    have written : ∀ file, find (((plans call).filePath admin file).resolve cwd) state.files =
        some ⟨some call, .leaf ((plans call).fileText admin file)⟩ := by
      intro file
      apply separate.written call file admin
      · rw [phase]
        cases file <;> simp [Phase.written]
      · exact Or.inr (by rw [phase]; rfl)
    refine ⟨registered, checkedOut, _, _, written .gitdir, written .dotGit, ?_⟩
    intro worktrees destination
    rcases (kept.shaped call).admin admin (Or.inr (by rw [phase]; rfl)) with ⟨suffix, rfl⟩
    exact ⟨readGitdir_gitdir destination,
      readDotGit_dotGit (Plan.spelled_adminPath worktrees destination suffix)⟩
  · intro call other admin registration apart mine theirs
    rcases standing call admin mine with ⟨registered, checkedOut⟩
    rcases standing other registration theirs with ⟨registered', checkedOut'⟩
    have differ : ∀ place, find place state.files = some ⟨some call, .directory⟩ →
        find place state.files ≠ some ⟨some other, .directory⟩ := by
      intro place found found'
      rw [found] at found'
      simp only [Option.some.injEq, Entry.mk.injEq, and_true] at found'
      exact apart found'
    refine ⟨?_, ?_⟩
    · intro same
      exact differ _ registered (same ▸ registered')
    · intro same
      exact differ _ checkedOut (same ▸ checkedOut')

/-! ## Calls of one repository -/

omit [DecidableEq Call] in
/-- Calls of one repository into one container are apart, unless one of the registrations'
directory and the container is within the other. -/
theorem apart_of_container {worktrees : FilePath} (container : FilePath)
    (registers : ∀ call, (plans call).worktrees = worktrees)
    (lands : ∀ call, ∃ name, (plans call).destination = container.child name)
    (outside : ¬container.resolve cwd <+: worktrees.resolve cwd)
    (beside : ¬worktrees.resolve cwd <+: container.resolve cwd) : Apart cwd plans := by
  have before : ∀ {place above : Place} {name : FileName}, place ++ [name] <+: above →
      place <+: above := fun within => (List.prefix_append _ _).trans within
  have longer : ∀ (place : Place) (name : FileName), ¬place ++ [name] <+: place := by
    intro place name within
    have := within.length_le
    simp only [List.length_append, List.length_singleton] at this
    omega
  intro call other _ root mine
  rcases lands call with ⟨name, here⟩
  rcases lands other with ⟨name', there⟩
  have shared : (plans other).shared cwd = [worktrees.resolve cwd, container.resolve cwd] := by
    simp [Plan.shared, registers other, there]
  have reserved : root = container.resolve cwd ++ [name] ∨
      ∃ id, root = worktrees.resolve cwd ++ [id] := by
    rcases mine with rfl | ⟨id, rfl⟩
    · exact Or.inl (by rw [here, resolve_child])
    · exact Or.inr ⟨id, by rw [registers call]⟩
  refine ⟨?_, ?_⟩
  · intro above contained within
    rw [shared] at contained
    rcases List.mem_pair.mp contained with rfl | rfl
    · rcases reserved with rfl | ⟨id, rfl⟩
      · exact outside (before within)
      · exact longer _ _ within
    · rcases reserved with rfl | ⟨id, rfl⟩
      · exact longer _ _ within
      · exact beside (before within)
  · intro within
    rw [there, resolve_child] at within ⊢
    rcases List.prefix_concat_iff.mp within with same | inContainer
    · exact same
    · rcases reserved with rfl | ⟨id, rfl⟩
      · exact absurd inContainer (longer _ _)
      · exact absurd (before inContainer) beside

/-! ## Every run -/

/-- In every run of any calls on any tree: what was there before stays; a step changes and
removes only what is at or below a directory the call reserved itself; a directory it no longer
answers for is gone with what was in it. And where no directory that one call may reserve is
above what another needs, calls end tidily. -/
theorem creation_undoes_itself (untouched : Untouched origin)
    (reached : (system cwd plans origin).Reachable state) :
    (∀ place entry, find place origin = some entry → find place state.files = some entry) ∧
    (∀ label after, (system cwd plans origin).step state label after →
      (∀ place, find place state.files ≠ none → find place after.files ≠ find place state.files →
        ∃ root ∈ (state.creations label.1).owned,
          find (root.resolve cwd) origin = none ∧ root.resolve cwd <+: place) ∧
      ∀ root ∈ (state.creations label.1).held (plans label.1),
        root ∈ (after.creations label.1).held (plans label.1) ∨
          ∀ place, root.resolve cwd <+: place → find place after.files = none) ∧
    (∀ call error, (state.creations call).result = some (.error error) →
      (state.creations call).held (plans call) =
        (state.creations call).failures.map Prod.fst) ∧
    (Apart cwd plans → Tidy cwd plans origin state) := by
  have kept := kept_of_reachable untouched reached
  refine ⟨kept.old, ?_, ?_, ?_⟩
  · intro label after steps
    have closed := (kept_step untouched kept steps).closed
    rcases exists_step steps with ⟨files, later, step, rfl⟩
    constructor
    · intro place present changed
      rcases step.changes (kept.shaped label.1) present changed with ⟨root, owned, below⟩
      exact ⟨root, owned, kept.fresh label.1 root (List.mem_append_left _ owned), below⟩
    · intro root held
      rcases step.held (kept.shaped label.1) held with still | gone
      · apply Or.inl
        simpa using still
      · exact Or.inr fun place below => closed.absent_below gone below
  · intro call error returned
    rcases Creation.result_error returned with ⟨message, phase⟩
    exact (kept.shaped call).held_of_failed phase
  · intro apart
    exact tidy_of_separate apart untouched kept (separate_of_reachable apart untouched reached)

end

/-! ## Runs -/

theorem untouched_of_all {Call : Type} {files : Files Call}
    (closed : files.all (fun entry => entry.1.isEmpty || isDirectory entry.1.dropLast files) = true)
    (unmade : files.all (fun entry => entry.2.creator.isNone) = true) : Untouched files where
  closed := closed_of_all closed
  unmade place entry found := by
    simpa using List.all_eq_true.mp unmade _ (Entries.mem_of_get found)

/-- A run of labels that can be taken in turn reaches a state. -/
theorem exists_reachable {Call : Type} [DecidableEq Call] {cwd : Place} {plans : Call → Plan}
    {origin : Files Call} {labels : List (Call × Move)} {Seen : Type} {see : State Call → Seen}
    {seen : Seen}
    (runs : (Transition.System.runLabels (next cwd plans) ⟨origin, fun _ => .init⟩ labels).map see =
      some seen) :
    ∃ state, (system cwd plans origin).Reachable state ∧ see state = seen := by
  rcases Option.map_eq_some_iff.mp runs with ⟨state, reached, saw⟩
  exact ⟨state, .of_runLabels (fun _ _ _ steps => steps) (.start ⟨rfl, rfl⟩) reached, saw⟩

def placeOf (path : String) : Place := (ofText path.toList).resolve []

def exampleRepository : GitRepository where
  root := ofText "/w/r".toList
  commonDirectory := ofText "/w/r/.git".toList
  linkedWorktree := false

def exampleFiles : Files Bool :=
  ["/", "/w", "/w/r", "/w/r/.git"].map fun path => (placeOf path, ⟨none, .directory⟩)

theorem exampleFiles_untouched : Untouched exampleFiles :=
  untouched_of_all (by decide +kernel) (by decide +kernel)

/-- One call's destination is in the other's. -/
def nestedPlans (call : Bool) : Plan where
  worktrees := ofText "/w/r/.git/worktrees".toList
  destination := if call then ofText "/c/r/a".toList else ofText "/c/r/a/r/b".toList
  reference := if call then "refs/heads/a".toList else "refs/heads/b".toList

def nestedMoves : List (Bool × Move) :=
  [(true, .proceed), (true, .proceed), (true, .proceed), (true, .ancestor (placeOf "/c")),
    (true, .proceed), (true, .proceed)] ++
  List.replicate 11 (false, .proceed) ++
  [(true, .fail "No space left on device (os error 28)"),
    (true, .clear (placeOf "/c/r/a/r/b/.git")), (true, .clear (placeOf "/c/r/a/r/b")),
    (true, .clear (placeOf "/c/r/a/r")), (true, .proceed), (true, .proceed), (true, .proceed)]

/-- A rollback takes along the checkout that another call has placed in its destination. -/
theorem rollback_takes_nested_checkout :
    prepare gitRefName none exampleRepository "a" (some (ofText "/c".toList)) =
      .ok (nestedPlans true) ∧
    prepare gitRefName none exampleRepository "b" (some (ofText "/c/r/a".toList)) =
      .ok (nestedPlans false) ∧
    ¬∀ state, (system [] nestedPlans exampleFiles).Reachable state →
      ∀ call admin, (state.creations call).result = some (.ok admin) →
        find ((nestedPlans call).destination.resolve []) state.files ≠ none := by
  refine ⟨rfl, rfl, ?_⟩
  intro stays
  have runs : (Transition.System.runLabels (next [] nestedPlans) ⟨exampleFiles, fun _ => .init⟩
      nestedMoves).map (fun state => ((state.creations false).phase,
        find ((nestedPlans false).destination.resolve []) state.files)) =
      some (.created (ofText "/w/r/.git/worktrees/b".toList), none) := by decide +kernel
  rcases exists_reachable runs with ⟨state, reached, saw⟩
  rcases Prod.mk.inj saw with ⟨phase, gone⟩
  apply stays state reached false (ofText "/w/r/.git/worktrees/b".toList) _ gone
  rw [Creation.result, phase]

/-- What is asked for the branch `x`. -/
def racingPlan : Plan where
  worktrees := ofText "/w/r/.git/worktrees".toList
  destination := ofText "/w/r.worktrees/x".toList
  reference := "refs/heads/x".toList

theorem prepare_racingPlan :
    prepare gitRefName none exampleRepository "x" none = .ok racingPlan := rfl

/-- Two calls for one destination: one finds it taken. -/
def racingMoves : List (Bool × Move) :=
  [(true, .proceed), (true, .proceed), (true, .proceed), (false, .proceed), (false, .proceed),
    (false, .occupied), (false, .proceed), (true, .proceed), (true, .proceed), (false, .proceed),
    (false, .fail "File exists (os error 17)"), (false, .proceed), (false, .proceed),
    (true, .proceed), (true, .proceed), (true, .proceed), (true, .proceed),
    (true, .checkout (.write (placeOf "/w/r.worktrees/x/README") "text".toList)),
    (true, .proceed), (true, .proceed)]

theorem creation_undoes_itself_example :
    ∃ state, (system [] (fun _ : Bool => racingPlan) exampleFiles).Reachable state ∧
      (state.creations true).result =
        some (.ok (ofText "/w/r/.git/worktrees/x".toList)) ∧
      (state.creations false).result =
        some (.error "failed to register worktree: File exists (os error 17)") ∧
      Tidy [] (fun _ : Bool => racingPlan) exampleFiles state := by
  have runs : (Transition.System.runLabels (next [] fun _ : Bool => racingPlan)
      ⟨exampleFiles, fun _ => .init⟩ racingMoves).map (fun state =>
        ((state.creations true).phase, (state.creations false).phase,
          (state.creations false).failures)) =
      some (.created (ofText "/w/r/.git/worktrees/x".toList),
        .failed "failed to register worktree: File exists (os error 17)", []) := by
    decide +kernel
  rcases exists_reachable runs with ⟨state, reached, saw⟩
  simp only [Prod.mk.injEq] at saw
  have apart : Apart [] fun _ : Bool => racingPlan :=
    apart_of_container (ofText "/w/r.worktrees".toList) (fun _ => rfl)
      (fun _ => ⟨nameOf "x".toList (by decide), rfl⟩) (by decide +kernel) (by decide +kernel)
  refine ⟨state, reached, ?_, ?_, ?_⟩
  · rw [Creation.result, saw.1]
  · rw [Creation.result, saw.2.1]
    simp [saw.2.2]
  · exact (creation_undoes_itself exampleFiles_untouched reached).2.2.2 apart

/-! ## Where a checkout lands -/

section

variable {Call : Type} [DecidableEq Call] {cwd : Place} {plans : Call → Plan}
variable {origin : Files Call} {state after : State Call}

omit [DecidableEq Call] in
/-- A call whose destination was there before does not succeed. -/
theorem Kept.refused (kept : Kept cwd plans origin state) {call : Call}
    (present : find ((plans call).destination.resolve cwd) origin ≠ none) (admin : FilePath) :
    (state.creations call).result ≠ some (.ok admin) := by
  intro returned
  have both := Creation.standing_of_created (plans call) (Creation.result_ok returned)
  exact present (kept.fresh call _ both.1)

/-- What a call makes are directories on the way to its registrations and its destination's
parent, its registration, its destination and what is in them; and it removes only these. -/
theorem Kept.confined (kept : Kept cwd plans origin state) {call : Call} {move : Move}
    (steps : (system cwd plans origin).step state (call, move) after) (place : Place) :
    (find place state.files = none → find place after.files ≠ none →
      (∃ above ∈ (plans call).shared cwd, place <+: above) ∨
        ∃ root ∈ (after.creations call).owned, root.resolve cwd <+: place) ∧
    (find place state.files ≠ none → find place after.files ≠ find place state.files →
      ∃ root ∈ (state.creations call).owned, root.resolve cwd <+: place) := by
  rcases exists_step steps with ⟨files, later, step, rfl⟩
  refine ⟨?_, ?_⟩
  · intro absent present
    rcases Option.ne_none_iff_exists'.mp present with ⟨entry, found⟩
    rcases (step.makes (kept.shaped call) absent found).2 with
      ⟨-, above, shared, within⟩ | ⟨root, owned, below, -⟩
    · exact Or.inl ⟨above, shared, within⟩
    · exact Or.inr ⟨root, by simpa using owned, below⟩
  · intro present changed
    exact step.changes (kept.shaped call) present changed

end

/-- The destination of a branch that git takes, a lone dot apart, is a directory of its own in
the container that the configuration names. If something is there, the repository for one, the
call does not succeed. In every run it makes and removes only that directory and its own
registration, with what is in them, and makes the directories missing on the way. -/
theorem worktree_lands_in_container {accepts : List Char → Bool}
    (rules : ∀ name, accepts name = true → gitRefName name = true) {home : Option FilePath}
    {parent : GitRepository} {branch : String} {worktreeRoot : Option FilePath} {plan : Plan}
    (prepared : prepare accepts home parent branch worktreeRoot = .ok plan)
    (more : ¬LoneDot (trim branch).toList) (cwd : Place) :
    ∃ (container : FilePath) (name : FileName),
      container = worktreeContainer home parent.root worktreeRoot ∧
      ofText (branchSlug (trim branch).toList) = ⟨false, [.normal name]⟩ ∧
      plan.destination = container.child name ∧
      plan.destination.resolve cwd = container.resolve cwd ++ [name] ∧
      plan.destination.resolve cwd ≠ container.resolve cwd ∧
      plan.destination.resolve cwd ≠ (container.resolve cwd).dropLast ∧
      ∀ (Call : Type) [DecidableEq Call] (plans : Call → Plan) (origin : Files Call)
        (state : State Call) (call : Call), plans call = plan → Untouched origin →
        (system cwd plans origin).Reachable state →
        (find (plan.destination.resolve cwd) origin ≠ none →
          ∀ admin, (state.creations call).result ≠ some (.ok admin)) ∧
        (∀ root ∈ (state.creations call).owned, root = plan.destination ∨
          ∃ id, root.resolve cwd = plan.worktrees.resolve cwd ++ [id]) ∧
        ∀ move after, (system cwd plans origin).step state (call, move) after → ∀ place,
          (find place state.files = none → find place after.files ≠ none →
            place <+: plan.worktrees.resolve cwd ∨ place <+: container.resolve cwd ∨
              ∃ root ∈ (after.creations call).owned, root.resolve cwd <+: place) ∧
          (find place state.files ≠ none → find place after.files ≠ find place state.files →
            ∃ root ∈ (state.creations call).owned, root.resolve cwd <+: place) := by
  rcases prepare_eq_ok prepared with ⟨accepted, -, destination⟩
  have plain := plain_branchSlug (undotted_of_gitRefName (rules _ accepted)) more
  have lands : plan.destination =
      (worktreeContainer home parent.root worktreeRoot).child (nameOf _ plain) := by
    rw [destination, worktreeDestination_eq home parent.root worktreeRoot plain]
  have place := resolve_child cwd (worktreeContainer home parent.root worktreeRoot)
    (nameOf _ plain)
  rw [← lands] at place
  have sizes := congrArg List.length place
  rw [List.length_append, List.length_singleton] at sizes
  refine ⟨_, nameOf _ plain, rfl, ofText_plain plain, lands, place, ?_, ?_, ?_⟩
  · intro same
    rw [same] at sizes
    omega
  · intro same
    rw [same, List.length_dropLast] at sizes
    omega
  · intro Call _ plans origin state call same untouched reached
    have kept := kept_of_reachable untouched reached
    refine ⟨?_, ?_, ?_⟩
    · intro present
      rw [← same] at present
      exact kept.refused present
    · intro root owned
      rcases (kept.shaped call).root_eq (Creation.held_of_owned owned) with rfl | ⟨suffix, rfl⟩
      · exact Or.inl (by rw [same])
      · exact Or.inr ⟨_, by rw [Plan.resolve_adminPath, same]⟩
    · intro move after steps place
      have confined := kept.confined steps place
      refine ⟨?_, confined.2⟩
      intro absent present
      rcases confined.1 absent present with ⟨above, shared, within⟩ | made
      · rw [same, Plan.shared, lands, parent_child] at shared
        rcases List.mem_pair.mp shared with rfl | rfl
        · exact Or.inl within
        · exact Or.inr (Or.inl within)
      · exact Or.inr (Or.inr made)

/-- A branch may leave a dot alone, and the repository itself may be the destination. -/
theorem destination_may_be_container_or_repository :
    (∃ plan, prepare gitRefName none exampleRepository "é.é" none = .ok plan ∧
      plan.destination = worktreeContainer none exampleRepository.root none) ∧
    ∃ (parent : GitRepository) (plan : Plan),
      prepare gitRefName none parent "r" (some (ofText "/w".toList)) = .ok plan ∧
      plan.destination = parent.root := by
  refine ⟨⟨_, rfl, by decide +kernel⟩, ?_⟩
  exact ⟨⟨ofText "/w/r/r".toList, ofText "/w/r/r/.git".toList, false⟩, _, rfl, by decide +kernel⟩

theorem worktree_lands_in_container_example :
    ∃ (container : FilePath) (name : FileName) (state : State Bool),
      container = worktreeContainer none exampleRepository.root none ∧
      racingPlan.destination = container.child name ∧
      (system [] (fun _ => racingPlan) exampleFiles).Reachable state ∧
      (state.creations true).destination = some racingPlan.destination ∧
      ∀ root ∈ (state.creations true).owned, root = racingPlan.destination ∨
        ∃ id, root.resolve [] = racingPlan.worktrees.resolve [] ++ [id] := by
  rcases worktree_lands_in_container (fun _ accepted => accepted) prepare_racingPlan
    (by decide +kernel) [] with ⟨container, name, same, -, lands, -, -, -, runs⟩
  have reserves : (Transition.System.runLabels (next [] fun _ : Bool => racingPlan)
      ⟨exampleFiles, fun _ => .init⟩ (racingMoves.take 9)).map (fun state =>
        (state.creations true).destination) = some (some racingPlan.destination) := by
    decide +kernel
  rcases exists_reachable reserves with ⟨state, reached, destination⟩
  exact ⟨container, name, state, same, lands, reached, destination,
    (runs Bool _ exampleFiles state true rfl exampleFiles_untouched reached).2.1⟩

end Condr.Worktree
