import Condr.Server.GitWatcher

/-!
# What messages and scans do

A message keeps what an entry owes; an event adds what it reports, or drops it from a full
window. A scan takes the window when it is due, and is idle, skips the window, or publishes.
-/

namespace Condr.GitWatcher

variable {Git Fingerprint : Type}

/-! ## Events -/

namespace Watched

/-- What is not scanned yet has a filesystem scan due. -/
def Due (entry : Watched Fingerprint) : Prop :=
  entry.forced = true ∨ entry.overflow = true ∨ entry.pending ≠ [] →
    entry.filesystemDue.isSome

/-- What events change of an entry. -/
structure Notes (before after : Watched Fingerprint) : Prop where
  root : after.root = before.root
  realRoot : after.realRoot = before.realRoot
  gitDir : after.gitDir = before.gitDir
  forced : after.forced = before.forced
  storm : after.storm = before.storm
  pending : before.pending ⊆ after.pending
  overflow : before.overflow = true → after.overflow = true
  due : before.filesystemDue.isSome → after.filesystemDue.isSome

theorem Notes.refl (entry : Watched Fingerprint) : entry.Notes entry :=
  ⟨rfl, rfl, rfl, rfl, rfl, fun _ => id, id, id⟩

theorem Notes.trans {first second third : Watched Fingerprint} (front : first.Notes second)
    (back : second.Notes third) : first.Notes third where
  root := back.root.trans front.root
  realRoot := back.realRoot.trans front.realRoot
  gitDir := back.gitDir.trans front.gitDir
  forced := back.forced.trans front.forced
  storm := back.storm.trans front.storm
  pending _ mem := back.pending (front.pending mem)
  overflow := back.overflow ∘ front.overflow
  due := back.due ∘ front.due

theorem Notes.relevantChange {before after : Watched Fingerprint} (notes : before.Notes after)
    (path : Path) : after.relevantChange path = before.relevantChange path := by
  unfold Watched.relevantChange
  rw [notes.root, notes.realRoot, notes.gitDir]

/-- A relevant path is kept, or is dropped from a full window. -/
theorem notes_notePath (now : ℕ) (entry : Watched Fingerprint) (path : Path) :
    entry.Notes (entry.notePath now path) ∧ (entry.Due → (entry.notePath now path).Due) ∧
      ∀ relative, entry.relevantChange path = some relative →
        relative ∈ (entry.notePath now path).pending ∨
          (entry.notePath now path).overflow = true := by
  unfold notePath
  cases entry.relevantChange path with
  | none => exact ⟨.refl entry, id, nofun⟩
  | some relative =>
      dsimp only
      by_cases room : entry.pending.length < maxPendingPaths
      · rw [if_pos room]
        have kept : ∀ other, some relative = some other →
            other ∈ entry.pending ++ [relative] := by
          intro other same
          rcases Option.some.inj same with rfl
          exact List.mem_append_right _ (List.mem_singleton_self relative)
        by_cases forced : entry.forced = true
        · rw [if_pos forced]
          refine ⟨⟨rfl, rfl, rfl, rfl, rfl, ?_, id, id⟩, ?_, ?_⟩
          · exact List.subset_append_left _ _
          · exact fun due _ => due (.inl forced)
          · exact fun other same => .inl (kept other same)
        · rw [if_neg forced]
          refine ⟨⟨rfl, rfl, rfl, rfl, rfl, ?_, id, fun _ => rfl⟩, fun _ _ => rfl, ?_⟩
          · exact List.subset_append_left _ _
          · exact fun other same => .inl (kept other same)
      · rw [if_neg room]
        by_cases forced : entry.forced = true
        · rw [if_pos forced]
          refine ⟨⟨rfl, rfl, rfl, rfl, rfl, fun _ => id, fun _ => rfl, id⟩, ?_, ?_⟩
          · exact fun due _ => due (.inl forced)
          · exact fun _ _ => .inr rfl
        · rw [if_neg forced]
          exact ⟨⟨rfl, rfl, rfl, rfl, rfl, fun _ => id, fun _ => rfl, fun _ => rfl⟩,
            fun _ _ => rfl, fun _ _ => .inr rfl⟩

/-- The same of all the paths of an event. -/
theorem notes_paths (now : ℕ) (paths : List Path) (entry : Watched Fingerprint) :
    entry.Notes (paths.foldl (notePath now) entry) ∧
      (entry.Due → (paths.foldl (notePath now) entry).Due) ∧
        ∀ path ∈ paths, ∀ relative, entry.relevantChange path = some relative →
          relative ∈ (paths.foldl (notePath now) entry).pending ∨
            (paths.foldl (notePath now) entry).overflow = true := by
  induction paths generalizing entry with
  | nil => exact ⟨.refl entry, id, nofun⟩
  | cons path rest induction =>
      rcases notes_notePath now entry path with ⟨first, firstDue, firstKept⟩
      rcases induction (entry.notePath now path) with ⟨later, laterDue, laterKept⟩
      refine ⟨first.trans later, laterDue ∘ firstDue, ?_⟩
      intro other mem relative relevant
      rcases List.mem_cons.mp mem with rfl | mem
      · rcases firstKept relative relevant with kept | dropped
        · exact .inl (later.pending kept)
        · exact .inr (later.overflow dropped)
      · apply laterKept other mem relative
        rw [first.relevantChange]
        exact relevant

end Watched

section

variable (ignored : Path → Bool)

/-- A path that counts is relevant, is neither `.git` nor ignored. -/
theorem countedPath_spec {entry : Watched Fingerprint} {path relative : Path}
    (counted : countedPath ignored entry path = some relative) :
    entry.relevantChange path = some relative ∧ relative ≠ dotGit ∧
      ignored relative = false := by
  unfold countedPath at counted
  split at counted
  · cases counted
  · next found inside =>
      split_ifs at counted with refused
      rcases Option.some.inj counted with rfl
      push Not at refused
      rcases refused with ⟨plain, outside, lasting, apart⟩
      refine ⟨?_, ?_, by simpa using plain⟩
      · have elsewhere : (entry.gitDir.bind fun gitDir => relativeTo gitDir path) = none := by
          cases directory : entry.gitDir with
          | none => rfl
          | some gitDir =>
              rw [directory] at apart
              simpa [relativeTo] using apart
        unfold Watched.relevantChange
        rw [elsewhere, inside]
        simp [outside, lasting]
      · rintro rfl
        exact outside rfl

end

/-! ## What is owed -/

namespace Watched

/-- The change will be scanned with its window, or with the next quiet one. -/
def Owes (entry : Watched Fingerprint) (relative : Path) : Prop :=
  (entry.filesystemDue.isSome ∧
      (entry.forced = true ∨ relative ∈ entry.pending ∨ entry.overflow = true)) ∨
    entry.storm = true

end Watched

/-- A message neither drops what is owed nor announces anything. -/
theorem owes_handle {entry : Watched Fingerprint} (now : ℕ) (message : WatchMessage)
    (stays : ∀ root realRoot gitDir, message = .watch root realRoot gitDir →
      root = entry.root) (due : entry.Due) :
    (entry.handle now message).root = entry.root ∧ (entry.handle now message).Due ∧
      (∀ relative, entry.Owes relative → (entry.handle now message).Owes relative) ∧
        ∀ path ∈ message.paths, ∀ relative, entry.relevantChange path = some relative →
          (entry.handle now message).Owes relative := by
  cases message with
  | watch root realRoot gitDir =>
      have same := stays root realRoot gitDir rfl
      subst same
      have kept : entry.handle now (.watch entry.root realRoot gitDir) =
          { entry with gitDir := gitDir.or entry.gitDir } := by
        cases gitDir <;> simp [Watched.handle]
      rw [kept]
      exact ⟨rfl, due, fun _ => id, nofun⟩
  | refresh =>
      refine ⟨rfl, fun _ => rfl, ?_, nofun⟩
      intro relative owes
      exact .inl ⟨rfl, .inl rfl⟩
  | terminalActivity activity =>
      cases activity with
      | none => exact ⟨rfl, due, fun _ => id, nofun⟩
      | some activity =>
          have kept : ∃ later, entry.terminalActivity activity =
              { entry with terminalDue := later } := by
            unfold Watched.terminalActivity
            split_ifs
            · exact ⟨entry.terminalDue, rfl⟩
            · exact ⟨_, rfl⟩
          have same : entry.handle now (.terminalActivity (some activity)) =
              entry.terminalActivity activity := rfl
          rcases kept with ⟨later, kept⟩
          rw [same, kept]
          exact ⟨rfl, due, fun _ => id, nofun⟩
  | filesystem event =>
      cases event with
      | error reason => exact ⟨rfl, due, fun _ => id, nofun⟩
      | ok paths =>
          rcases Watched.notes_paths now paths entry with ⟨notes, later, kept⟩
          refine ⟨notes.root, later due, ?_, ?_⟩
          · rintro relative (⟨scheduled, why⟩ | storm)
            · refine .inl ⟨notes.due scheduled, ?_⟩
              rcases why with forced | pending | overflow
              · exact .inl (notes.forced.trans forced)
              · exact .inr (.inl (notes.pending pending))
              · exact .inr (.inr (notes.overflow overflow))
            · exact .inr (notes.storm.trans storm)
          · intro path mem relative relevant
            rcases kept path mem relative relevant with pending | overflow
            · have scheduled := later due (.inr (.inr (List.ne_nil_of_mem pending)))
              exact .inl ⟨scheduled, .inr (.inl pending)⟩
            · have scheduled := later due (.inr (.inl overflow))
              exact .inl ⟨scheduled, .inr (.inr overflow)⟩

/-! ## Scans -/

namespace Watched

section

variable (entry : Watched Fingerprint) (runtime : Runtime Git) (scan : Scan Git Fingerprint)

/-- The entry once the window is taken and terminal activity is accounted for. -/
def begun : Watched Fingerprint :=
  let taken := if entry.filesystemIsDue scan.now then entry.takeWindow else entry
  if entry.terminalIsDue scan.now then
    taken.recordScan scan.now (knownFingerprint runtime scan)
  else taken

/-- A scan takes the window when it is due, and leaves it when it is not. -/
structure Takes (entry after : Watched Fingerprint) (now : ℕ) : Prop where
  root : after.root = entry.root
  pending : after.pending = if entry.filesystemIsDue now then [] else entry.pending
  filesystemDue : after.filesystemDue =
    if entry.filesystemIsDue now then none else entry.filesystemDue
  forced : after.forced = if entry.filesystemIsDue now then false else entry.forced
  overflow : after.overflow = if entry.filesystemIsDue now then false else entry.overflow

theorem takes_begun : entry.Takes (entry.begun runtime scan) scan.now ∧
    (entry.begun runtime scan).storm = entry.storm := by
  unfold begun
  by_cases due : entry.filesystemIsDue scan.now = true
  · refine ⟨⟨?_, ?_, ?_, ?_, ?_⟩, ?_⟩
    all_goals
      simp only [if_pos due]
      split <;> rfl
  · refine ⟨⟨?_, ?_, ?_, ?_, ?_⟩, ?_⟩
    all_goals
      simp only [if_neg due]
      split <;> rfl

end

end Watched

/-- A window that is not due keeps what is owed by it. -/
theorem owes_of_early {entry after : Watched Fingerprint} {now : ℕ}
    (takes : entry.Takes after now) (early : entry.filesystemIsDue now = false)
    {relative : Path} (scheduled : entry.filesystemDue.isSome)
    (why : entry.forced = true ∨ relative ∈ entry.pending ∨ entry.overflow = true) :
    after.Owes relative := by
  refine .inl ⟨?_, ?_⟩
  · rw [takes.filesystemDue, early]
    exact scheduled
  · rw [takes.forced, takes.pending, takes.overflow, early]
    exact why

/-- A path that counts makes its window a change of the working tree. -/
theorem not_onlyGit_of_mem {relative : Path} {pending : List Path} (kept : relative ∈ pending)
    (plain : relative ≠ dotGit) : Watched.onlyGit pending = false := by
  unfold Watched.onlyGit
  simp only [Bool.not_eq_false', List.any_eq_true, decide_eq_true_eq]
  exact ⟨relative, kept, plain⟩

/-- A window is not judged by ignored paths if it kept a path that counts. -/
theorem not_judged_of_mem {ignored : Path → Bool} {entry : Watched Fingerprint}
    {relative : Path} (kept : relative ∈ entry.pending) (plain : ignored relative = false) (now : ℕ) :
    entry.judged ignored now = false := by
  unfold Watched.judged ignoresAll
  have some : entry.pending.all ignored = false := by
    rw [List.all_eq_false]
    exact ⟨relative, kept, by simp [plain]⟩
  simp [some]

theorem judged_spec {ignored : Path → Bool} {entry : Watched Fingerprint} {now : ℕ}
    (judges : entry.judged ignored now = true) :
    entry.filesystemIsDue now = true ∧ entry.forced = false ∧
      (entry.overflow = true ∨ entry.storm = false) := by
  unfold Watched.judged at judges
  simp only [Bool.and_eq_true, Bool.or_eq_true, Bool.not_eq_true'] at judges
  exact ⟨judges.1.1.1, judges.1.1.2, judges.1.2⟩

section

variable [DecidableEq Fingerprint]

namespace Watched

/-- A scan goes on when the window is due or the ref files moved. -/
theorem proceeds_of {entry : Watched Fingerprint} {runtime : Runtime Git}
    {scan : Scan Git Fingerprint} (scans : entry.filesystemIsDue scan.now = true ∨
    entry.terminalChanged runtime scan = true) :
    ¬(!entry.filesystemIsDue scan.now && !entry.terminalChanged runtime scan) = true := by
  rcases scans with due | changed
  · simp [due]
  · simp [changed]

end Watched

variable [DecidableEq Git]

/-- What a scan publishes, while the Workspace is in the Session. -/
theorem publishScan_spec {runtime : Runtime Git} {root : Path} (stays : runtime.root = some root)
    (next : Option Git) (workingTreeChanged : Bool) :
    (publishScan runtime root next workingTreeChanged).1.root = some root ∧
      (next ≠ runtime.git → .workspaceGitChanged next ∈
        (publishScan runtime root next workingTreeChanged).2) ∧
        (workingTreeChanged = true → .workspaceFilesChanged ∈
          (publishScan runtime root next workingTreeChanged).2) := by
  unfold publishScan applyWorkspaceGitRefresh
  rw [if_neg (not_not.mpr stays)]
  by_cases same : runtime.git = next
  · rw [if_pos same]
    refine ⟨stays, fun differs => absurd same.symm differs, ?_⟩
    rintro rfl
    simp
  · rw [if_neg same]
    refine ⟨stays, fun _ => ?_, ?_⟩
    · cases workingTreeChanged <;> simp
    · rintro rfl
      simp

namespace Watched

variable (ignored : Path → Bool) {entry : Watched Fingerprint}
  {runtime : Runtime Git} {scan : Scan Git Fingerprint}

/-- A scan of a Workspace in the Session, once its window is taken. -/
theorem refreshWorkspace_eq (stays : runtime.root = some entry.root) :
    entry.refreshWorkspace ignored runtime scan =
      if !entry.filesystemIsDue scan.now && !entry.terminalChanged runtime scan then
        (entry.begun runtime scan, runtime, [])
      else match scan.discovered with
        | .error _ => ((entry.begun runtime scan).recordScan scan.now
            (knownFingerprint runtime scan), runtime, [])
        | .ok none => ((entry.begun runtime scan).recordScan scan.now
            (knownFingerprint runtime scan), publishScan runtime entry.root none
              (entry.filesystemIsDue scan.now && (entry.forced || !onlyGit entry.pending)))
        | .ok (some repository) =>
            if entry.judged ignored scan.now && !entry.terminalChanged runtime scan then
              ({ entry.begun runtime scan with storm := entry.overflow }, runtime, [])
            else
              let scanned := { entry.begun runtime scan with
                storm := false
                gitDir := some repository.gitDirectory }.recordScan scan.now
                  (knownFingerprint runtime scan)
              match repository.git with
              | .error _ => (scanned, runtime, [])
              | .ok git => (scanned, publishScan runtime entry.root (some git)
                  (entry.filesystemIsDue scan.now && (entry.forced || !onlyGit entry.pending) &&
                    !entry.judged ignored scan.now)) := by
  have taken : (if entry.filesystemIsDue scan.now then entry.takeWindow else entry).root =
      entry.root := by
    split <;> rfl
  have root := (entry.takes_begun runtime scan).1.root
  unfold refreshWorkspace
  dsimp only
  rw [if_neg (by rw [taken]; exact not_not.mpr stays), ← root]
  rfl

/-- Nothing is scanned when neither the window is due nor the ref files moved. -/
theorem refreshWorkspace_idle (stays : runtime.root = some entry.root)
    (early : entry.filesystemIsDue scan.now = false)
    (calm : entry.terminalChanged runtime scan = false) :
    entry.refreshWorkspace ignored runtime scan = (entry.begun runtime scan, runtime, []) := by
  rw [refreshWorkspace_eq ignored stays, early, calm]
  rfl

/-- A window is skipped for its ignored paths. -/
theorem refreshWorkspace_skips (stays : runtime.root = some entry.root)
    (judges : entry.judged ignored scan.now = true)
    (calm : entry.terminalChanged runtime scan = false) {repository : Repository Git}
    (found : scan.discovered = .ok (some repository)) :
    entry.refreshWorkspace ignored runtime scan =
      ({ entry.begun runtime scan with storm := entry.overflow }, runtime, []) := by
  have due := (judged_spec judges).1
  rw [refreshWorkspace_eq ignored stays, if_neg (proceeds_of (.inl due)), found]
  dsimp only
  rw [if_pos (by simp [judges, calm])]

/-- A directory that is no repository. -/
theorem refreshWorkspace_none (stays : runtime.root = some entry.root)
    (scans : entry.filesystemIsDue scan.now = true ∨ entry.terminalChanged runtime scan = true)
    (found : scan.discovered = .ok none) :
    entry.refreshWorkspace ignored runtime scan =
      ((entry.begun runtime scan).recordScan scan.now (knownFingerprint runtime scan),
        publishScan runtime entry.root none (entry.filesystemIsDue scan.now &&
          (entry.forced || !onlyGit entry.pending))) := by
  rw [refreshWorkspace_eq ignored stays, if_neg (proceeds_of scans), found]

/-- A repository that is scanned in full. -/
theorem refreshWorkspace_some (stays : runtime.root = some entry.root)
    (scans : entry.filesystemIsDue scan.now = true ∨ entry.terminalChanged runtime scan = true)
    (full : entry.judged ignored scan.now = true → entry.terminalChanged runtime scan = true)
    {repository : Repository Git} {git : Git}
    (found : scan.discovered = .ok (some repository)) (computed : repository.git = .ok git) :
    entry.refreshWorkspace ignored runtime scan =
      ({ entry.begun runtime scan with
          storm := false
          gitDir := some repository.gitDirectory }.recordScan scan.now
            (knownFingerprint runtime scan),
        publishScan runtime entry.root (some git) (entry.filesystemIsDue scan.now &&
          (entry.forced || !onlyGit entry.pending) && !entry.judged ignored scan.now)) := by
  have goesOn : ¬(entry.judged ignored scan.now &&
      !entry.terminalChanged runtime scan) = true := by
    intro skips
    simp only [Bool.and_eq_true, Bool.not_eq_true'] at skips
    exact absurd (full skips.1) (by simp [skips.2])
  rw [refreshWorkspace_eq ignored stays, if_neg (proceeds_of scans), found]
  dsimp only
  rw [if_neg goesOn, computed]

end Watched

end

end Condr.GitWatcher
