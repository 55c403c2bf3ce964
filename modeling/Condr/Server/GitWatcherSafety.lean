import Condr.Server.GitWatcherSteps

/-!
# What the Git watcher owes

Every change that was reported is announced by a scan begun after it, or is still owed: a
filesystem scan is due, or the entry remembers that a window was skipped. A change that was
dropped from a full window is owed by flags alone, and there are scans that clear them without
announcing it. In a run without these no change is lost.
-/

namespace Condr.GitWatcher

variable {Git Fingerprint : Type}

/-! ## The property -/

/-- A scan begun after the change published the Git state it found, if it differed, and that
files changed. -/
def ScanRecord.Announces (record : ScanRecord Git) (change : Reported) : Prop :=
  change.number < record.begun ∧ .workspaceFilesChanged ∈ record.events ∧
    (record.found ≠ record.before → .workspaceGitChanged record.found ∈ record.events)

def WatchRun.Announced (state : WatchRun Git Fingerprint) (change : Reported) : Prop :=
  ∃ record ∈ state.scans, record.Announces change

/-- Every reported change is announced, or a filesystem scan is due, or the next quiet window is
scanned in full. -/
def WatchRun.Accounted (state : WatchRun Git Fingerprint) : Prop :=
  ∀ change ∈ state.reported, state.Announced change ∨ state.entry.filesystemDue.isSome ∨
    state.entry.storm = true

def Scan.Succeeds (scan : Scan Git Fingerprint) : Prop :=
  scan.discovered = .ok none ∨
    ∃ repository git, scan.discovered = .ok (some repository) ∧ repository.git = .ok git

/-- The Workspace keeps its root, and no scan fails or panics. -/
def WatchRun.Assumed (state : WatchRun Git Fingerprint) : WatchStep Git Fingerprint → Prop
  | .message _ (.watch root _ _) _ => root = state.entry.root
  | .scan scan => scan.Succeeds
  | .panicked _ => False
  | _ => True

/-! ## The invariant -/

section

variable (ignored : Path → Bool)

namespace WatchRun

/-- A reported change that is not announced yet was dropped from its window. -/
def Hides (state : WatchRun Git Fingerprint) : Prop :=
  ∃ change ∈ state.reported, ¬state.Announced change ∧ change.relative ∉ state.entry.pending

/-- A scan that clears what a dropped change is owed by, and announces no files: it is judged by
ignored paths and goes on for the ref files; or its window kept nothing but `.git`; or it was
asked for by terminal output alone, with the mark of a skipped window. -/
def Forgets [DecidableEq Fingerprint] (state : WatchRun Git Fingerprint)
    (scan : Scan Git Fingerprint) : Prop :=
  let entry := state.entry
  let due := entry.filesystemIsDue scan.now = true ∧ entry.forced = false
  let moved := entry.terminalChanged state.runtime scan = true
  match scan.discovered with
  | .error _ => False
  | .ok none => due ∧ Watched.onlyGit entry.pending = true ∧ entry.storm = false
  | .ok (some _) =>
      due ∧ (if entry.judged ignored scan.now then moved else Watched.onlyGit entry.pending = true) ∨
        entry.filesystemIsDue scan.now = false ∧ moved ∧ entry.storm = true ∧
          entry.overflow = false

/-- What holds of every run without such scans. -/
structure Keeps (state : WatchRun Git Fingerprint) : Prop where
  root : state.runtime.root = some state.entry.root
  due : state.entry.Due
  numbers : ∀ change ∈ state.reported, change.number < state.made
  plain : ∀ change ∈ state.reported, change.relative ≠ dotGit ∧ ignored change.relative = false
  owed : ∀ change ∈ state.reported, state.Announced change ∨ state.entry.Owes change.relative

variable {ignored} {state next : WatchRun Git Fingerprint}

theorem not_forgets_of_skips [DecidableEq Fingerprint] {scan : Scan Git Fingerprint}
    {repository : Repository Git} (found : scan.discovered = .ok (some repository))
    (judged : state.entry.judged ignored scan.now = true)
    (still : state.entry.terminalChanged state.runtime scan = false) :
    ¬state.Forgets ignored scan := by
  simp [Forgets, found, judged, still]

theorem Keeps.accounted (keeps : state.Keeps ignored) : state.Accounted := by
  intro change reported
  rcases keeps.owed change reported with announced | ⟨due, -⟩ | storm
  · exact .inl announced
  · exact .inr (.inl due)
  · exact .inr (.inr storm)

theorem keeps_init (root realRoot : Path) (git : Option Git) :
    (init root realRoot git : WatchRun Git Fingerprint).Keeps ignored where
  root := rfl
  due := by
    rintro (forced | overflow | pending)
    · cases forced
    · cases overflow
    · exact absurd rfl pending
  numbers := nofun
  plain := nofun
  owed := nofun

/-! ### Steps -/

/-- What a scan keeps when its window stays, or is taken with everything told. -/
theorem Keeps.scanned {scan : Scan Git Fingerprint} {after : Watched Fingerprint}
    {runtime : Runtime Git} {events : List (Event Git)} (keeps : state.Keeps ignored)
    (takes : state.entry.Takes after scan.now)
    (root : runtime.root = some state.entry.root)
    (owed : ∀ change ∈ state.reported, ¬state.Announced change →
      state.entry.Owes change.relative →
        (.workspaceFilesChanged ∈ events ∧
          (scan.found ≠ state.runtime.git → .workspaceGitChanged scan.found ∈ events)) ∨
            after.Owes change.relative) :
    Keeps ignored { state with
      entry := after
      runtime
      scans := state.scans ++ [{
        begun := state.made
        before := state.runtime.git
        found := scan.found
        events }] } where
  root := root.trans (congrArg some takes.root.symm)
  due := by
    unfold Watched.Due
    dsimp only
    rw [takes.forced, takes.overflow, takes.pending, takes.filesystemDue]
    split_ifs
    · simp
    · exact keeps.due
  numbers := keeps.numbers
  plain := keeps.plain
  owed := by
    intro change reported
    by_cases announced : state.Announced change
    · rcases announced with ⟨record, listed, announces⟩
      exact .inl ⟨record, List.mem_append_left _ listed, announces⟩
    · have owes := (keeps.owed change reported).resolve_left announced
      rcases owed change reported announced owes with ⟨files, git⟩ | stillOwed
      · refine .inl ⟨_, List.mem_append_right _ (List.mem_singleton_self _), ?_⟩
        exact ⟨keeps.numbers change reported, files, git⟩
      · exact .inr stillOwed

/-- Nothing is scanned. -/
theorem Keeps.idle {scan : Scan Git Fingerprint} (keeps : state.Keeps ignored)
    (early : state.entry.filesystemIsDue scan.now = false) :
    Keeps ignored { state with
      entry := state.entry.begun state.runtime scan
      scans := state.scans ++ [{
        begun := state.made
        before := state.runtime.git
        found := scan.found
        events := [] }] } := by
  rcases state.entry.takes_begun state.runtime scan with ⟨takes, storm⟩
  refine keeps.scanned takes keeps.root ?_
  rintro change - - (⟨scheduled, why⟩ | marked)
  · exact .inr (owes_of_early takes early scheduled why)
  · exact .inr (.inr (storm.trans marked))

/-- A window is skipped, and the entry marked if paths were dropped from it. -/
theorem Keeps.skipped {scan : Scan Git Fingerprint} (keeps : state.Keeps ignored)
    (judges : state.entry.judged ignored scan.now = true) :
    Keeps ignored { state with
      entry := { state.entry.begun state.runtime scan with storm := state.entry.overflow }
      scans := state.scans ++ [{
        begun := state.made
        before := state.runtime.git
        found := scan.found
        events := [] }] } := by
  rcases state.entry.takes_begun state.runtime scan with ⟨takes, -⟩
  rcases judged_spec judges with ⟨-, unforced, dropped⟩
  have kept : state.entry.Takes
      { state.entry.begun state.runtime scan with storm := state.entry.overflow } scan.now :=
    ⟨takes.root, takes.pending, takes.filesystemDue, takes.forced, takes.overflow⟩
  refine keeps.scanned kept keeps.root ?_
  intro change reported _ owes
  refine .inr (.inr ?_)
  rcases owes with ⟨-, forced | pending | overflow⟩ | marked
  · rw [unforced] at forced
    cases forced
  · have plain := (keeps.plain change reported).2
    rw [not_judged_of_mem pending plain] at judges
    cases judges
  · exact overflow
  · rcases dropped with overflow | unmarked
    · exact overflow
    · rw [unmarked] at marked
      cases marked

end WatchRun

variable [DecidableEq Git] [DecidableEq Fingerprint]

namespace WatchRun

variable {ignored} {state next : WatchRun Git Fingerprint}

theorem Keeps.message (keeps : state.Keeps ignored) {now : ℕ} {message : WatchMessage}
    {numbers : List ℕ} (assumed : state.Assumed (.message now message numbers))
    (performs : state.perform ignored (.message now message numbers) = some next) :
    next.Keeps ignored := by
  simp only [perform] at performs
  split_ifs at performs with reports
  rcases Option.some.inj performs with rfl
  have stays : ∀ root realRoot gitDir, message = .watch root realRoot gitDir →
      root = state.entry.root := by
    rintro root realRoot gitDir rfl
    exact assumed
  rcases owes_handle now message stays keeps.due with ⟨root, due, old, new⟩
  -- a change that was reported before, or one that this event reports
  have reported : ∀ change ∈ state.reported ++ (numbers.zip message.paths).filterMap (fun report =>
        (countedPath ignored state.entry report.2).map fun relative =>
          { number := report.1, relative }),
      change ∈ state.reported ∨ (change.number < state.made ∧ ∃ path ∈ message.paths,
        countedPath ignored state.entry path = some change.relative) := by
    intro change mem
    rcases List.mem_append.mp mem with before | added
    · exact .inl before
    · rcases List.mem_filterMap.mp added with ⟨⟨number, path⟩, zipped, counted⟩
      rcases Option.map_eq_some_iff.mp counted with ⟨relative, found, rfl⟩
      rcases List.of_mem_zip zipped with ⟨numbered, listed⟩
      exact .inr ⟨reports.2 number numbered, path, listed, found⟩
  refine ⟨keeps.root.trans (congrArg some root.symm), due, ?_, ?_, ?_⟩
  · intro change mem
    rcases reported change mem with before | ⟨number, -⟩
    · exact keeps.numbers change before
    · exact number
  · intro change mem
    rcases reported change mem with before | ⟨-, path, -, counted⟩
    · exact keeps.plain change before
    · exact (countedPath_spec ignored counted).2
  · intro change mem
    rcases reported change mem with before | ⟨-, path, listed, counted⟩
    · rcases keeps.owed change before with announced | owes
      · exact .inl announced
      · exact .inr (old change.relative owes)
    · exact .inr (new path listed change.relative (countedPath_spec ignored counted).1)

/-- A directory that is no repository is announced like one, and leaves the mark. -/
theorem Keeps.scannedNone {scan : Scan Git Fingerprint} (keeps : state.Keeps ignored)
    (found : scan.discovered = .ok none)
    (careful : state.Hides → ¬state.Forgets ignored scan) :
    let published := publishScan state.runtime state.entry.root none
      (state.entry.filesystemIsDue scan.now &&
        (state.entry.forced || !Watched.onlyGit state.entry.pending))
    Keeps ignored { state with
      entry := (state.entry.begun state.runtime scan).recordScan scan.now
        (Watched.knownFingerprint state.runtime scan)
      runtime := published.1
      scans := state.scans ++ [{
        begun := state.made
        before := state.runtime.git
        found := scan.found
        events := published.2 }] } := by
  rcases state.entry.takes_begun state.runtime scan with ⟨takes, storm⟩
  have foundNone : scan.found = none := by
    unfold Scan.found
    rw [found]
  intro published
  have publishes := publishScan_spec keeps.root none (state.entry.filesystemIsDue scan.now &&
    (state.entry.forced || !Watched.onlyGit state.entry.pending))
  have kept : state.entry.Takes ((state.entry.begun state.runtime scan).recordScan scan.now
      (Watched.knownFingerprint state.runtime scan)) scan.now :=
    ⟨takes.root, takes.pending, takes.filesystemDue, takes.forced, takes.overflow⟩
  refine keeps.scanned kept publishes.1 ?_
  intro change reported unannounced owes
  rw [foundNone]
  cases due : state.entry.filesystemIsDue scan.now with
  | false =>
      rcases owes with ⟨scheduled, why⟩ | marked
      · exact .inr (owes_of_early kept due scheduled why)
      · exact .inr (.inr (storm.trans marked))
  | true =>
      by_cases tells : (state.entry.forced || !Watched.onlyGit state.entry.pending) = true
      · exact .inl ⟨publishes.2.2 (by rw [due, tells]; rfl), publishes.2.1⟩
      simp only [Bool.or_eq_true, Bool.not_eq_true', not_or, Bool.not_eq_false] at tells
      rcases tells with ⟨unforced, onlyGit⟩
      have dropped : change.relative ∉ state.entry.pending := by
        intro pending
        rw [not_onlyGit_of_mem pending (keeps.plain change reported).1] at onlyGit
        cases onlyGit
      -- without the mark this scan would forget the change
      have marked : state.entry.storm = true := by
        by_contra unmarked
        apply careful ⟨change, reported, unannounced, dropped⟩
        unfold Forgets
        rw [found]
        exact ⟨⟨due, by simpa using unforced⟩, onlyGit, by simpa using unmarked⟩
      exact .inr (.inr (storm.trans marked))

/-- A repository is scanned in full. -/
theorem Keeps.scannedSome {scan : Scan Git Fingerprint} (keeps : state.Keeps ignored)
    (scans : state.entry.filesystemIsDue scan.now = true ∨
      state.entry.terminalChanged state.runtime scan = true)
    (full : state.entry.judged ignored scan.now = true →
      state.entry.terminalChanged state.runtime scan = true)
    {repository : Repository Git} {git : Git}
    (found : scan.discovered = .ok (some repository)) (computed : repository.git = .ok git)
    (careful : state.Hides → ¬state.Forgets ignored scan) :
    let published := publishScan state.runtime state.entry.root (some git)
      (state.entry.filesystemIsDue scan.now &&
        (state.entry.forced || !Watched.onlyGit state.entry.pending) &&
          !state.entry.judged ignored scan.now)
    Keeps ignored { state with
      entry := { state.entry.begun state.runtime scan with
        storm := false
        gitDir := some repository.gitDirectory }.recordScan scan.now
          (Watched.knownFingerprint state.runtime scan)
      runtime := published.1
      scans := state.scans ++ [{
        begun := state.made
        before := state.runtime.git
        found := scan.found
        events := published.2 }] } := by
  rcases state.entry.takes_begun state.runtime scan with ⟨takes, -⟩
  have foundSome : scan.found = some git := by
    unfold Scan.found
    rw [found]
    dsimp only
    rw [computed]
    rfl
  intro published
  have publishes := publishScan_spec keeps.root (some git)
    (state.entry.filesystemIsDue scan.now &&
      (state.entry.forced || !Watched.onlyGit state.entry.pending) &&
        !state.entry.judged ignored scan.now)
  have kept : state.entry.Takes ({ state.entry.begun state.runtime scan with
      storm := false
      gitDir := some repository.gitDirectory }.recordScan scan.now
        (Watched.knownFingerprint state.runtime scan)) scan.now :=
    ⟨takes.root, takes.pending, takes.filesystemDue, takes.forced, takes.overflow⟩
  refine keeps.scanned kept publishes.1 ?_
  intro change reported unannounced owes
  have plain := keeps.plain change reported
  have forgets : change.relative ∉ state.entry.pending → ¬state.Forgets ignored scan :=
    fun dropped => careful ⟨change, reported, unannounced, dropped⟩
  unfold Forgets at forgets
  rw [found] at forgets
  rw [foundSome]
  cases due : state.entry.filesystemIsDue scan.now with
  | false =>
      refine .inr ?_
      have moved := scans.resolve_left (by simp [due])
      rcases owes with ⟨scheduled, why⟩ | marked
      · exact owes_of_early kept due scheduled why
      · -- the mark goes, so the change must be owed by its window
        by_cases pending : change.relative ∈ state.entry.pending
        · have scheduled := keeps.due (.inr (.inr (List.ne_nil_of_mem pending)))
          exact owes_of_early kept due scheduled (.inr (.inl pending))
        · have overflow : state.entry.overflow = true := by
            by_contra empty
            exact forgets pending (.inr ⟨due, moved, marked, by simpa using empty⟩)
          have scheduled := keeps.due (.inr (.inl overflow))
          exact owes_of_early kept due scheduled (.inr (.inr overflow))
  | true =>
      refine .inl ⟨publishes.2.2 ?_, publishes.2.1⟩
      cases forced : state.entry.forced with
      | true =>
          have free : state.entry.judged ignored scan.now = false := by
            by_contra judges
            have unforced := (judged_spec (by simpa using judges)).2.1
            rw [forced] at unforced
            cases unforced
          simp [due, free]
      | false =>
          by_cases pending : change.relative ∈ state.entry.pending
          · rw [due, not_judged_of_mem pending plain.2, not_onlyGit_of_mem pending plain.1]
            rfl
          · have told := forgets pending
            cases judges : state.entry.judged ignored scan.now with
            | true =>
                have moved := full judges
                exact absurd (.inl ⟨⟨due, forced⟩, by simpa [judges] using moved⟩) told
            | false =>
                have many : Watched.onlyGit state.entry.pending = false := by
                  by_contra only
                  exact told (.inl ⟨⟨due, forced⟩, by simpa [judges] using only⟩)
                simp [due, many]

theorem Keeps.scan {scan : Scan Git Fingerprint} (keeps : state.Keeps ignored)
    (succeeds : scan.Succeeds) (careful : state.Hides → ¬state.Forgets ignored scan)
    (performs : state.perform ignored (.scan scan) = some next) : next.Keeps ignored := by
  simp only [perform] at performs
  split_ifs at performs
  rcases Option.some.inj performs with rfl
  by_cases calm : state.entry.filesystemIsDue scan.now = false ∧
      state.entry.terminalChanged state.runtime scan = false
  · rw [Watched.refreshWorkspace_idle ignored keeps.root calm.1 calm.2]
    exact keeps.idle calm.1
  have scans : state.entry.filesystemIsDue scan.now = true ∨
      state.entry.terminalChanged state.runtime scan = true := by
    by_contra neither
    push Not at neither
    exact calm ⟨by simpa using neither.1, by simpa using neither.2⟩
  rcases succeeds with found | ⟨repository, git, found, computed⟩
  · rw [Watched.refreshWorkspace_none ignored keeps.root scans found]
    exact keeps.scannedNone found careful
  by_cases skips : state.entry.judged ignored scan.now = true ∧
      state.entry.terminalChanged state.runtime scan = false
  · rw [Watched.refreshWorkspace_skips ignored keeps.root skips.1 skips.2 found]
    exact keeps.skipped skips.1
  · have full : state.entry.judged ignored scan.now = true →
        state.entry.terminalChanged state.runtime scan = true := by
      intro judges
      by_contra moved
      exact skips ⟨judges, by simpa using moved⟩
    rw [Watched.refreshWorkspace_some ignored keeps.root scans full found computed]
    exact keeps.scannedSome scans full found computed careful

end WatchRun

end

/-! ## Events of one Workspace -/

/-- The file a build writes, which is ignored. -/
def buildOutput : Path := [.utf8 "work", .utf8 "target"]

def sourceFile : Path := [.utf8 "work", .utf8 "main.rs"]

def ignoresTarget (path : Path) : Bool := path = [.utf8 "target"]

/-- A scan of a repository whose fingerprint and state are numbers. -/
def scanAt (now fingerprint git : ℕ) : Scan ℕ ℕ where
  now
  fingerprint := some fingerprint
  discovered := .ok (some { gitDirectory := [.utf8 "work", .utf8 ".git"], git := .ok git })

def workspaceRun : WatchRun ℕ ℕ := .init [.utf8 "work"] [.utf8 "work"] (some 0)

section

variable {path relative : Path} {entry : Watched Fingerprint} (now : ℕ)

theorem notePath_room (relevant : entry.relevantChange path = some relative)
    (unforced : entry.forced = false) (room : entry.pending.length < maxPendingPaths) :
    entry.notePath now path =
      { entry with
        pending := entry.pending ++ [relative]
        filesystemDue := some (now + gitWatchDebounce) } := by
  unfold Watched.notePath
  rw [relevant]
  simp [unforced, room]

theorem notePath_full (relevant : entry.relevantChange path = some relative)
    (unforced : entry.forced = false) (full : entry.pending.length = maxPendingPaths) :
    entry.notePath now path =
      { entry with overflow := true, filesystemDue := some (now + gitWatchDebounce) } := by
  unfold Watched.notePath
  rw [relevant]
  simp [unforced, full]

/-- The paths of a window after as many events of one file. -/
theorem notePath_replicate (count : ℕ) (relevant : entry.relevantChange path = some relative)
    (unforced : entry.forced = false) (room : entry.pending.length + count < maxPendingPaths) :
    (List.replicate (count + 1) path).foldl (Watched.notePath now) entry =
      { entry with
        pending := entry.pending ++ List.replicate (count + 1) relative
        filesystemDue := some (now + gitWatchDebounce) } := by
  induction count generalizing entry with
  | zero => exact notePath_room now relevant unforced room
  | succ count induction =>
      have kept : (entry.pending ++ [relative]).length + count < maxPendingPaths := by
        rw [List.length_append, List.length_singleton]
        omega
      have rest := induction (show Watched.relevantChange { entry with
        pending := entry.pending ++ [relative]
        filesystemDue := some (now + gitWatchDebounce) } path = some relative from relevant)
        unforced kept
      rw [List.replicate_succ, List.foldl_cons, notePath_room now relevant unforced (by omega),
        rest, List.append_assoc]
      rfl

end

/-- A build writes until the window is full, and then a source file is saved. -/
def fullWindow : WatchMessage :=
  .filesystem (.ok (List.replicate maxPendingPaths buildOutput ++ [sourceFile]))

/-- The entry when the window is full and the source file was dropped. -/
def stormyEntry : Watched ℕ :=
  { Watched.init [.utf8 "work"] [.utf8 "work"] with
    pending := List.replicate maxPendingPaths [.utf8 "target"]
    filesystemDue := some 300
    overflow := true }

theorem handle_fullWindow : workspaceRun.entry.handle 0 fullWindow = stormyEntry := by
  have filled : (List.replicate maxPendingPaths buildOutput).foldl (Watched.notePath 0)
      workspaceRun.entry = { workspaceRun.entry with
        pending := [] ++ List.replicate maxPendingPaths [.utf8 "target"]
        filesystemDue := some 300 } :=
    notePath_replicate 0 255
      (show workspaceRun.entry.relevantChange buildOutput = some [.utf8 "target"] by decide)
      rfl (by decide)
  rw [List.nil_append] at filled
  have dropped : Watched.notePath 0 { workspaceRun.entry with
      pending := List.replicate maxPendingPaths [.utf8 "target"]
      filesystemDue := some 300 } sourceFile = stormyEntry :=
    notePath_full 0 (show _ = some [.utf8 "main.rs"] by rfl) rfl List.length_replicate
  show (List.replicate maxPendingPaths buildOutput ++ [sourceFile]).foldl (Watched.notePath 0)
    workspaceRun.entry = stormyEntry
  rw [List.foldl_append, filled, List.foldl_cons, List.foldl_nil]
  exact dropped

def saved : Reported := ⟨1, [.utf8 "main.rs"]⟩

/-- The events report the build's file and the one that was saved. -/
def fullRun : WatchRun ℕ ℕ :=
  { workspaceRun with entry := stormyEntry, made := 2, reported := [saved] }

/-- The full window was skipped for the paths it kept, and the entry is marked. -/
def skippedRun : WatchRun ℕ ℕ :=
  { fullRun with
    entry := { stormyEntry.begun workspaceRun.runtime (scanAt 300 1 1) with storm := true }
    scans := [⟨2, some 0, some 1, []⟩] }

theorem perform_fullWindow :
    WatchRun.perform ignoresTarget { workspaceRun with made := 2 }
      (.message 0 fullWindow (List.replicate maxPendingPaths 0 ++ [1])) = some fullRun := by
  have built : countedPath ignoresTarget workspaceRun.entry buildOutput = none := by decide
  have paths : fullWindow.paths = List.replicate maxPendingPaths buildOutput ++ [sourceFile] :=
    rfl
  have numbered : ∀ number ∈ List.replicate maxPendingPaths 0 ++ [1], number < 2 := by
    intro number mem
    rcases List.mem_append.mp mem with repeated | last
    · rw [List.eq_of_mem_replicate repeated]
      decide
    · rw [List.mem_singleton.mp last]
      decide
  have zipped : (List.replicate maxPendingPaths 0 ++ [1]).zip fullWindow.paths =
      List.replicate maxPendingPaths (0, buildOutput) ++ [(1, sourceFile)] := by
    rw [paths, List.zip_append (by simp), List.zip_replicate']
    rfl
  unfold WatchRun.perform
  dsimp only
  rw [if_pos ⟨by simp [paths], numbered⟩, zipped, handle_fullWindow, List.filterMap_append,
    List.filterMap_replicate_of_none (by simp [built])]
  rfl

theorem judged_fullRun : fullRun.entry.judged ignoresTarget (scanAt 300 1 1).now = true := by
  have allIgnored : ignoresAll ignoresTarget fullRun.entry.pending = true := by
    show ignoresAll ignoresTarget (List.replicate maxPendingPaths [.utf8 "target"]) = true
    unfold ignoresAll
    rw [List.all_replicate, if_neg (by decide)]
    rfl
  unfold Watched.judged
  rw [allIgnored]
  rfl

theorem perform_skipped :
    WatchRun.perform ignoresTarget fullRun (.scan (scanAt 300 1 1)) = some skippedRun := by
  have skips := Watched.refreshWorkspace_skips ignoresTarget
    (show fullRun.runtime.root = some fullRun.entry.root from rfl)
    judged_fullRun rfl rfl
  unfold WatchRun.perform
  dsimp only
  rw [if_pos (by decide), skips]
  rfl

/-! ## Runs -/

section

variable (ignored : Path → Bool) [DecidableEq Git] [DecidableEq Fingerprint]

/-- The watcher of a Workspace that stays in the Session with one root, whose scans succeed. -/
def watcherSystem : Transition.System (WatchRun Git Fingerprint) (WatchStep Git Fingerprint) where
  initial state := ∃ root realRoot git, state = .init root realRoot git
  step state action next := state.perform ignored action = some next ∧ state.Assumed action

/-- The runs in which no scan forgets a change that was dropped from its window. -/
def carefulWatchers :
    Transition.System (WatchRun Git Fingerprint) (WatchStep Git Fingerprint) where
  initial := (watcherSystem ignored).initial
  step state action next := (watcherSystem ignored).step state action next ∧
    ∀ scan, action = .scan scan → state.Hides → ¬state.Forgets ignored scan

/-- In every run in which no scan forgets a dropped change, every reported change is announced or
still owed. -/
theorem watcher_accounts (state : WatchRun Git Fingerprint)
    (reached : (carefulWatchers ignored).Reachable state) : state.Accounted := by
  have keeps := reached.invariant (WatchRun.Keeps ignored) ?_ ?_
  · exact keeps.accounted
  · rintro state ⟨root, realRoot, git, rfl⟩
    exact WatchRun.keeps_init root realRoot git
  · rintro state action next keeps ⟨⟨performs, assumed⟩, careful⟩
    cases action with
    | change count =>
        rcases Option.some.inj performs with rfl
        refine ⟨keeps.root, keeps.due, ?_, keeps.plain, keeps.owed⟩
        intro change reported
        have number := keeps.numbers change reported
        exact Nat.lt_add_right count number
    | message now message numbers => exact keeps.message assumed performs
    | scan scan => exact keeps.scan assumed (careful scan rfl) performs
    | panicked now => exact assumed.elim

end

/-- A full window drops a file that is saved, and is skipped. The next window is scanned in full for
it. -/
theorem watcher_accounts_example :
    skippedRun.Accounted ∧ ¬skippedRun.Announced saved ∧ skippedRun.entry.filesystemDue = none ∧
      ∃ state : WatchRun ℕ ℕ, state.Accounted ∧ state.Announced saved ∧
        state.entry.storm = false ∧ state.entry.filesystemDue = none := by
  have started : (carefulWatchers ignoresTarget).Reachable workspaceRun := .start ⟨_, _, _, rfl⟩
  have changed := started.next
    (show (carefulWatchers ignoresTarget).step _ (.change 2) _ from ⟨⟨rfl, trivial⟩, nofun⟩)
  have reported := changed.next
    (show (carefulWatchers ignoresTarget).step _
        (.message 0 fullWindow (List.replicate maxPendingPaths 0 ++ [1])) _ from
      ⟨⟨perform_fullWindow, trivial⟩, nofun⟩)
  have skipped := reported.next
    (show (carefulWatchers ignoresTarget).step _ (.scan (scanAt 300 1 1)) _ from
      ⟨⟨perform_skipped, .inr ⟨_, _, rfl, rfl⟩⟩, ?_⟩)
  · have built := skipped.next
      (show (carefulWatchers ignoresTarget).step _
          (.message 500 (.filesystem (.ok [buildOutput])) [0]) _ from ⟨⟨rfl, trivial⟩, nofun⟩)
    have scanned := built.next
      (show (carefulWatchers ignoresTarget).step _ (.scan (scanAt 800 1 1)) _ from
        ⟨⟨rfl, .inr ⟨_, _, rfl, rfl⟩⟩, ?_⟩)
    · refine ⟨watcher_accounts ignoresTarget _ skipped, ?_, rfl, _,
        watcher_accounts ignoresTarget _ scanned, ?_, rfl, rfl⟩
      · rintro ⟨record, listed, -, files, -⟩
        rcases List.mem_singleton.mp listed with rfl
        cases files
      · refine ⟨_, List.mem_append_right _ (List.mem_singleton_self _), by decide, ?_, fun _ => ?_⟩
        · exact List.mem_cons_of_mem _ (List.mem_singleton_self _)
        · exact List.mem_cons_self
    · rintro scan same -
      cases same
      rintro (⟨-, forgotten⟩ | ⟨early, -⟩)
      · rw [if_neg (by decide)] at forgotten
        cases forgotten
      · cases early
  · rintro scan same -
    cases same
    exact WatchRun.not_forgets_of_skips rfl judged_fullRun rfl

/-- A change that was dropped from a window full of ignored paths is forgotten by a scan that
terminal output asked for: it publishes the Git state alone. -/
theorem watcher_forgets_dropped :
    ¬∀ state : WatchRun ℕ ℕ, (watcherSystem ignoresTarget).Reachable state → state.Accounted := by
  intro all
  have started : (watcherSystem ignoresTarget).Reachable workspaceRun := .start ⟨_, _, _, rfl⟩
  have changed := started.next
    (show (watcherSystem ignoresTarget).step _ (.change 2) _ from ⟨rfl, trivial⟩)
  have reported := changed.next
    (show (watcherSystem ignoresTarget).step _
        (.message 0 fullWindow (List.replicate maxPendingPaths 0 ++ [1])) _ from
      ⟨perform_fullWindow, trivial⟩)
  have skipped := reported.next
    (show (watcherSystem ignoresTarget).step _ (.scan (scanAt 300 1 1)) _ from
      ⟨perform_skipped, .inr ⟨_, _, rfl, rfl⟩⟩)
  have asked := skipped.next
    (show (watcherSystem ignoresTarget).step _ (.message 400 (.terminalActivity (some 400)) [])
      _ from ⟨rfl, trivial⟩)
  have scanned := asked.next
    (show (watcherSystem ignoresTarget).step _ (.scan (scanAt 400 1 1)) _ from
      ⟨rfl, .inr ⟨_, _, rfl, rfl⟩⟩)
  rcases all _ scanned saved (List.mem_singleton_self _) with
    announced | due | storm
  · rcases announced with ⟨record, listed, -, files, -⟩
    rcases List.mem_cons.mp listed with rfl | listed
    · cases files
    · rcases List.mem_singleton.mp listed with rfl
      rcases List.mem_singleton.mp files with same
      cases same
  · cases due
  · cases storm

end Condr.GitWatcher
