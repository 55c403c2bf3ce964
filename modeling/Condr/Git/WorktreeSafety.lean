import Condr.Git.WorktreeOwnership

/-!
# What runs of creations keep

In every run the entries that were there before stay as they were. Where no directory
that one call may reserve is above what another needs, what a call owns is its own with
everything below, and what it made is in it or a directory that calls share.
-/

namespace Condr.Worktree

open FilePath FileTree

section

variable {Call : Type} [DecidableEq Call] {cwd : Place} {plans : Call → Plan}
variable {origin : Files Call} {state after : State Call}

/-- A tree before any call. -/
structure Untouched (files : Files Call) : Prop where
  closed : Closed files
  unmade : ∀ place entry, find place files = some entry → entry.creator = none

theorem exists_step {label : Call × Move}
    (steps : (system cwd plans origin).step state label after) :
    ∃ files later, Step cwd (plans label.1) label.1 state.files (state.creations label.1) files later ∧
      after = ⟨files, Function.update state.creations label.1 later⟩ := by
  rcases Option.map_eq_some_iff.mp steps with ⟨⟨files, later⟩, transitions, rfl⟩
  exact ⟨files, later, step_of_transition transitions, rfl⟩

/-- What every run keeps. -/
structure Kept (cwd : Place) (plans : Call → Plan) (origin : Files Call) (state : State Call) :
    Prop where
  closed : Closed state.files
  shaped : ∀ call, Shaped (plans call) (state.creations call)
  old : ∀ place entry, find place origin = some entry → find place state.files = some entry
  unmade : ∀ place entry, find place state.files = some entry → entry.creator = none →
    find place origin ≠ none
  fresh : ∀ call, ∀ root ∈ (state.creations call).standing (plans call),
    find (root.resolve cwd) origin = none

theorem kept_initial (untouched : Untouched origin)
    (starts : (system cwd plans origin).initial state) : Kept cwd plans origin state := by
  rcases state with ⟨files, creations⟩
  rcases starts with ⟨rfl, rfl⟩
  refine ⟨untouched.closed, fun _ => shaped_init, fun _ _ found => found, ?_, nofun⟩
  intro place entry found _ nothing
  rw [found] at nothing
  cases nothing

omit [DecidableEq Call] in
/-- What is at or below a directory that a call owns was not there before. -/
theorem Kept.absent (kept : Kept cwd plans origin state) (untouched : Untouched origin)
    {call : Call} {root : FilePath} (owned : root ∈ (state.creations call).owned) {place : Place}
    (below : root.resolve cwd <+: place) : find place origin = none :=
  untouched.closed.absent_below (kept.fresh call root (List.mem_append_left _ owned)) below

theorem kept_step (untouched : Untouched origin) (kept : Kept cwd plans origin state)
    {label : Call × Move} (steps : (system cwd plans origin).step state label after) :
    Kept cwd plans origin after := by
  rcases exists_step steps with ⟨files, later, step, rfl⟩
  rcases label with ⟨call, move⟩
  have shaped := kept.shaped call
  have unchanged : ∀ place entry, find place origin = some entry →
      find place files = find place state.files := by
    intro place entry found
    by_contra changed
    have present : find place state.files ≠ none := by simp [kept.old place entry found]
    rcases step.changes shaped present changed with ⟨root, owned, below⟩
    rw [kept.absent untouched owned below] at found
    cases found
  refine ⟨?_, ?_, ?_, ?_, ?_⟩
  · rcases step.performs shaped with rfl | ⟨operation, performs, -⟩
    · exact kept.closed
    · exact closed_perform performs kept.closed
  · intro other
    by_cases same : other = call
    · subst same
      simpa using shaped_step shaped step
    · simpa [same] using kept.shaped other
  · intro place entry found
    rw [unchanged place entry found]
    exact kept.old place entry found
  · intro place entry found anonymous
    rcases before : find place state.files with _ | earlier
    · rw [(step.makes shaped before found).1] at anonymous
      cases anonymous
    · apply kept.unmade place earlier before
      rcases step.performs shaped with rfl | ⟨operation, performs, -⟩
      · rw [before] at found
        rcases Option.some.inj found with rfl
        exact anonymous
      · rw [← (creator_perform performs before found).1, anonymous]
  · intro other root stands
    by_cases same : other = call
    · subst same
      simp only [Function.update_self] at stands
      rcases step.standing shaped stands with stood | ⟨absent, -⟩
      · exact kept.fresh other root stood
      · by_contra present
        rcases Option.ne_none_iff_exists'.mp present with ⟨entry, found⟩
        rw [kept.old _ entry found] at absent
        cases absent
    · exact kept.fresh other root (by simpa [same] using stands)

theorem kept_of_reachable (untouched : Untouched origin)
    (reached : (system cwd plans origin).Reachable state) : Kept cwd plans origin state :=
  reached.invariant _ (fun _ => kept_initial untouched)
    fun _ _ _ kept steps => kept_step untouched kept steps

/-! ## Calls whose directories are apart -/

/-- No directory that one call may reserve is above what another shares or above its
destination. -/
def Apart (cwd : Place) (plans : Call → Plan) : Prop :=
  ∀ call other, call ≠ other → ∀ root, (plans call).MayOwn cwd root →
    (∀ above ∈ (plans other).shared cwd, ¬root <+: above) ∧
      (root <+: (plans other).destination.resolve cwd →
        root = (plans other).destination.resolve cwd)

omit [DecidableEq Call] in
/-- Directories that different calls may reserve are the same or beside each other. -/
theorem Apart.eq_of_prefix (apart : Apart cwd plans) {call other : Call}
    (distinct : call ≠ other) {root place : Place} (mine : (plans call).MayOwn cwd root)
    (others : (plans other).MayOwn cwd place) (above : root <+: place) : root = place := by
  rcases apart call other distinct root mine with ⟨shared, destination⟩
  rcases others with rfl | ⟨name, rfl⟩
  · exact destination above
  · rcases List.prefix_concat_iff.mp above with same | within
    · exact same
    · exact absurd within (shared _ (by simp [Plan.shared]))

/-- What runs of calls apart keep. -/
structure Separate (cwd : Place) (plans : Call → Plan) (state : State Call) : Prop where
  stands : ∀ call, ∀ root ∈ (state.creations call).standing (plans call),
    find (root.resolve cwd) state.files = some ⟨some call, .directory⟩
  ordered : ∀ call, Ordered cwd (state.creations call)
  made : ∀ call place entry, find place state.files = some entry → entry.creator = some call →
    (entry.kind = .directory ∧ ∃ above ∈ (plans call).shared cwd, place <+: above) ∨
      ∃ root ∈ (state.creations call).held (plans call), root.resolve cwd <+: place ∧
        ∃ kind, find (root.resolve cwd) state.files = some ⟨some call, kind⟩
  written : ∀ call file admin, file ∈ (state.creations call).phase.written →
    (state.creations call).adminDirectory = some admin ∨
      (state.creations call).phase.registration = some admin →
    find (((plans call).filePath admin file).resolve cwd) state.files =
      some ⟨some call, .leaf ((plans call).fileText admin file)⟩

theorem separate_initial (untouched : Untouched origin)
    (starts : (system cwd plans origin).initial state) : Separate cwd plans state := by
  rcases state with ⟨files, creations⟩
  rcases starts with ⟨rfl, rfl⟩
  refine ⟨fun _ _ => nofun, fun _ _ _ => nofun, ?_, fun _ _ _ => nofun⟩
  intro call place entry found made
  rw [untouched.unmade place entry found] at made
  cases made

omit [DecidableEq Call] in
/-- At and below what a call owns everything is its own. -/
theorem Separate.creator (apart : Apart cwd plans) (untouched : Untouched origin)
    (kept : Kept cwd plans origin state) (separate : Separate cwd plans state) {call : Call}
    {root : FilePath} (owned : root ∈ (state.creations call).owned) {place : Place}
    (below : root.resolve cwd <+: place) {entry : Entry Call (List Char)}
    (found : find place state.files = some entry) : entry.creator = some call := by
  rcases creator : entry.creator with _ | other
  · exact absurd (kept.absent untouched owned below) (kept.unmade place entry found creator)
  · by_cases distinct : call = other
    · rw [distinct]
    · have mine := (kept.shaped call).mayOwn cwd (Creation.held_of_owned owned)
      have stands := separate.stands call root (List.mem_append_left _ owned)
      rcases separate.made other place entry found creator with
        ⟨-, above, shared, within⟩ | ⟨other', held, under, kind, made⟩
      · exact absurd (below.trans within)
          ((apart call other distinct _ mine).1 above shared)
      · -- two directories reserved above one place are one directory
        have theirs := (kept.shaped other).mayOwn cwd held
        have same : root.resolve cwd = other'.resolve cwd := by
          rcases List.prefix_or_prefix_of_prefix below under with before | after
          · exact apart.eq_of_prefix distinct mine theirs before
          · exact (apart.eq_of_prefix (Ne.symm distinct) theirs mine after).symm
        rw [same, made] at stands
        exact absurd (Option.some.inj (congrArg Entry.creator (Option.some.inj stands))).symm
          distinct

section Steps

variable {call : Call} {files : Files Call} {later : Creation}

omit [DecidableEq Call] in
/-- A step leaves alone what other calls made. -/
theorem Separate.others (apart : Apart cwd plans) (untouched : Untouched origin)
    (kept : Kept cwd plans origin state) (separate : Separate cwd plans state)
    (step : Step cwd (plans call) call state.files (state.creations call) files later)
    {place : Place} {entry : Entry Call (List Char)} {other : Call}
    (found : find place state.files = some entry) (made : entry.creator = some other)
    (distinct : other ≠ call) : find place files = some entry := by
  rw [← found]
  by_contra changed
  rcases step.changes (kept.shaped call) (by simp [found]) changed with ⟨root, owned, below⟩
  have mine := separate.creator apart untouched kept owned below found
  rw [made] at mine
  exact distinct (Option.some.inj mine)

omit [DecidableEq Call] in
theorem Separate.stands_step (kept : Kept cwd plans origin state)
    (separate : Separate cwd plans state)
    (step : Step cwd (plans call) call state.files (state.creations call) files later)
    {root : FilePath} (stands : root ∈ later.standing (plans call)) :
    find (root.resolve cwd) files = some ⟨some call, .directory⟩ := by
  rcases step.standing (kept.shaped call) stands with stood | ⟨-, reserved⟩
  · exact step.keeps_standing (separate.ordered call) stood stands
      (separate.stands call root stood)
  · exact reserved

omit [DecidableEq Call] in
theorem Separate.ordered_step (kept : Kept cwd plans origin state)
    (separate : Separate cwd plans state)
    (step : Step cwd (plans call) call state.files (state.creations call) files later) :
    Ordered cwd later := by
  have ordered := separate.ordered call
  have shaped := kept.shaped call
  have released : Ordered cwd (state.creations call).release := by
    intro destination admin owned
    rw [Creation.destination_release] at owned
    cases owned
  cases step with
  | goes leads => exact ordered
  | shares leads shared before performs => exact ordered
  | reservesAdmin phase performs =>
      have reserved := shaped.unreserved (by rw [phase]; rfl)
      intro destination admin owned
      have none : (state.creations call).destination = some destination := owned
      rw [none] at reserved
      cases reserved.2
  | reservesDestination phase performs =>
      intro destination admin ownedDestination ownedAdmin above
      rcases Option.some.inj ownedDestination with rfl
      have registered := separate.stands call admin
        (List.mem_append_left _ (Creation.mem_owned.mpr (Or.inr ownedAdmin)))
      have absent := kept.closed.absent_below (createDirectory_made performs).1 above
      rw [registered] at absent
      cases absent
  | writes phase owned performs leads => exact ordered
  | checksOut phase owned within leaf performs => exact ordered
  | commits phase owned => exact nofun
  | clears phase owned below apart performs => exact ordered
  | removes phase owned performs => exact released
  | misses phase owned absent => exact released
  | keeps phase owned => exact released

omit [DecidableEq Call] in
/-- What the call made is where it may be. -/
theorem Separate.made_step (kept : Kept cwd plans origin state)
    (separate : Separate cwd plans state)
    (step : Step cwd (plans call) call state.files (state.creations call) files later)
    (closed : Closed files) {place : Place} {entry : Entry Call (List Char)}
    (found : find place files = some entry) (mine : entry.creator = some call) :
    (entry.kind = .directory ∧ ∃ above ∈ (plans call).shared cwd, place <+: above) ∨
      ∃ root ∈ later.held (plans call), root.resolve cwd <+: place ∧
        ∃ kind, find (root.resolve cwd) files = some ⟨some call, kind⟩ := by
  have shaped := kept.shaped call
  have creators : ∀ {at_ : Place} {earlier now : Entry Call (List Char)},
      find at_ state.files = some earlier → find at_ files = some now →
      now.creator = earlier.creator ∧ (earlier.kind = .directory → now = earlier) := by
    intro at_ earlier now before after
    rcases step.performs shaped with rfl | ⟨operation, performs, -⟩
    · rw [before] at after
      rcases Option.some.inj after with rfl
      exact ⟨rfl, fun _ => rfl⟩
    · exact creator_perform performs before after
  rcases before : find place state.files with _ | earlier
  · rcases (step.makes shaped before found).2 with shared | ⟨root, owned, below, here | stood⟩
    · exact Or.inl shared
    · refine Or.inr ⟨root, Creation.held_of_owned owned, below, entry.kind, ?_⟩
      rw [← here, found, ← mine]
    · exact Or.inr ⟨root, Creation.held_of_owned owned, below, _,
        separate.stands_step kept step (List.mem_append_left _ owned)⟩
  · have same := creators before found
    rcases separate.made call place earlier before (same.1 ▸ mine) with
      ⟨directory, shared⟩ | ⟨root, held, below, kind, made⟩
    · rw [same.2 directory]
      exact Or.inl ⟨directory, shared⟩
    · -- the directory it is in is there as long as it is
      have present := closed.present_above (by simp [found]) below
      rcases Option.ne_none_iff_exists'.mp present with ⟨⟨creator, now⟩, after⟩
      rcases step.held shaped held with still | gone
      · rcases (creators made after).1 with rfl
        exact Or.inr ⟨root, still, below, now, after⟩
      · exact absurd gone present

omit [DecidableEq Call] in
theorem Separate.made_other (apart : Apart cwd plans) (untouched : Untouched origin)
    (kept : Kept cwd plans origin state) (separate : Separate cwd plans state)
    (step : Step cwd (plans call) call state.files (state.creations call) files later)
    {place : Place} {entry : Entry Call (List Char)} {other : Call} (distinct : other ≠ call)
    (found : find place files = some entry) (made : entry.creator = some other) :
    (entry.kind = .directory ∧ ∃ above ∈ (plans other).shared cwd, place <+: above) ∨
      ∃ root ∈ (state.creations other).held (plans other), root.resolve cwd <+: place ∧
        ∃ kind, find (root.resolve cwd) files = some ⟨some other, kind⟩ := by
  rcases before : find place state.files with _ | earlier
  · have mine := (step.makes (kept.shaped call) before found).1
    rw [made] at mine
    exact absurd (Option.some.inj mine) distinct
  · have stays : earlier.creator = some other → earlier = entry := by
      intro theirs
      have after := separate.others apart untouched kept step before theirs distinct
      rw [found] at after
      exact (Option.some.inj after).symm
    have same : earlier.creator = entry.creator := by
      rcases step.performs (kept.shaped call) with rfl | ⟨operation, performs, -⟩
      · rw [before] at found
        rw [Option.some.inj found]
      · exact (creator_perform performs before found).1.symm
    rcases stays (same.trans made) with rfl
    rcases separate.made other place earlier before made with
      shared | ⟨root, held, below, kind, reserved⟩
    · exact Or.inl shared
    · exact Or.inr ⟨root, held, below, kind,
        separate.others apart untouched kept step reserved rfl distinct⟩

omit [DecidableEq Call] in
/-- The files of the registration stay as the call wrote them. -/
theorem Separate.written_step (apart : Apart cwd plans) (untouched : Untouched origin)
    (kept : Kept cwd plans origin state) (separate : Separate cwd plans state)
    (step : Step cwd (plans call) call state.files (state.creations call) files later)
    {file : RegistrationFile} {admin : FilePath} (wrote : file ∈ later.phase.written)
    (registered : later.adminDirectory = some admin ∨ later.phase.registration = some admin) :
    find (((plans call).filePath admin file).resolve cwd) files =
      some ⟨some call, .leaf ((plans call).fileText admin file)⟩ := by
  have shaped := kept.shaped call
  cases step with
  | goes leads =>
      apply separate.written call file admin (leads.written wrote)
      rcases registered with owned | registered
      · exact Or.inl owned
      · rw [Creation.enter, leads.settles] at registered
        cases registered
  | @shares phase place above _ leads shared before performs =>
      have stays := separate.written call file admin (leads.written wrote) (by
        rcases registered with owned | registered
        · exact Or.inl owned
        · rw [Creation.enter, leads.settles] at registered
          cases registered)
      rw [find_perform_of_ne performs, stays]
      rintro rfl
      rw [(createDirectory_made performs).1] at stays
      cases stays
  | reservesAdmin phase performs => cases wrote
  | reservesDestination phase performs => cases wrote
  | @writes current admin' text entered _ phase owned performs leads =>
      have same : admin' = admin := by
        rcases registered with now | registered
        · exact Option.some.inj (owned.symm.trans now)
        · rcases leads with ⟨rfl, -⟩ | rfl
          · cases current <;> cases registered
          · cases registered
      subst same
      by_cases here : file = current
      · subst here
        rcases leads with ⟨rfl, rfl⟩ | rfl
        · rcases write_made performs with ⟨-, made⟩ | ⟨entry, before, made⟩
          · exact made
          · have home := shaped.fileHome_owned phase owned
            have mine := separate.creator apart untouched kept home
              (by rw [Plan.resolve_filePath]; exact List.prefix_append _ _) before
            rw [made, mine]
        · exact absurd wrote (Phase.not_mem_written file)
      · have earlier : file ∈ (state.creations call).phase.written := by
          rw [phase]
          rcases leads with ⟨rfl, -⟩ | rfl
          · have enters : file ∈ current.after.written := wrote
            revert enters here
            cases current <;> cases file <;> decide
          · exact wrote
        rw [find_perform_of_ne performs, separate.written call file admin' earlier (Or.inl owned)]
        intro place
        exact here (Plan.file_eq_of_place place)
  | @checksOut operation admin' _ phase owned within leaf performs =>
      have same : admin' = admin := by
        rcases registered with now | registered
        · exact Option.some.inj (owned.symm.trans now)
        · rw [phase] at registered
          cases registered
      subst same
      have destination := shaped.both (by rw [phase]; rfl)
      have outside := Plan.checkoutWrites_filePath
        (separate.ordered call _ _ destination owned) file
      rw [find_perform_of_ne performs, separate.written call file admin' wrote (Or.inl owned)]
      intro place
      rw [place, within] at outside
      cases outside
  | @commits admin' phase owned =>
      apply separate.written call file admin
      · rw [phase]
        exact wrote
      · rcases registered with nothing | registered
        · cases nothing
        · rw [← Option.some.inj registered]
          exact Or.inl owned
  | clears phase owned below apart performs =>
      rw [phase] at wrote
      cases wrote
  | removes phase owned performs =>
      rw [Creation.phase_release, phase] at wrote
      cases wrote
  | misses phase owned absent =>
      rw [Creation.phase_release, phase] at wrote
      cases wrote
  | @keeps error message root rest phase owned =>
      have empty : file ∈ (state.creations call).release.phase.written := wrote
      rw [Creation.phase_release, phase] at empty
      cases empty

end Steps

theorem separate_step (apart : Apart cwd plans) (untouched : Untouched origin)
    (kept : Kept cwd plans origin state) (separate : Separate cwd plans state)
    {label : Call × Move} (steps : (system cwd plans origin).step state label after) :
    Separate cwd plans after := by
  have closed := (kept_step untouched kept steps).closed
  rcases exists_step steps with ⟨files, later, step, rfl⟩
  rcases label with ⟨call, move⟩
  refine ⟨?_, ?_, ?_, ?_⟩
  · intro other root stands
    by_cases same : other = call
    · subst same
      simp only [Function.update_self] at stands
      exact separate.stands_step kept step stands
    · simp only [Function.update_of_ne same] at stands
      exact separate.others apart untouched kept step (separate.stands other root stands) rfl same
  · intro other
    by_cases same : other = call
    · subst same
      simpa using separate.ordered_step kept step
    · simpa [same] using separate.ordered other
  · intro other place entry found made
    by_cases same : other = call
    · subst same
      simpa using separate.made_step kept step closed found made
    · simpa [same] using separate.made_other apart untouched kept step same found made
  · intro other file admin wrote registered
    by_cases same : other = call
    · subst same
      simp only [Function.update_self] at wrote registered
      exact separate.written_step apart untouched kept step wrote registered
    · simp only [Function.update_of_ne same] at wrote registered
      exact separate.others apart untouched kept step
        (separate.written other file admin wrote registered) rfl same

theorem separate_of_reachable (apart : Apart cwd plans) (untouched : Untouched origin)
    (reached : (system cwd plans origin).Reachable state) : Separate cwd plans state := by
  have both : Kept cwd plans origin state ∧ Separate cwd plans state := by
    apply reached.invariant fun state => Kept cwd plans origin state ∧ Separate cwd plans state
    · intro first starts
      exact ⟨kept_initial untouched starts, separate_initial untouched starts⟩
    · intro before label later invariant steps
      exact ⟨kept_step untouched invariant.1 steps,
        separate_step apart untouched invariant.1 invariant.2 steps⟩
  exact both.2

end

end Condr.Worktree
