import Condr.Git.Worktree

/-!
# What a step of a creation does

Every step changes the tree in at most one place: a directory that calls share, one that the
call reserves, or at or below one it has reserved. What a call holds are the directories
it owns, those whose removal failed and, after its success, both.
-/

namespace Condr.Worktree

open FilePath FileTree

/-! ## Phases -/

namespace Phase

/-- The files of the registration that are written. -/
def written : Phase → List RegistrationFile
  | .writing .commondir => [.head]
  | .writing .gitdir => [.head, .commondir]
  | .writing .dotGit => [.head, .commondir, .gitdir]
  | .checkingOut | .validating | .created _ => [.head, .commondir, .gitdir, .dotGit]
  | _ => []

/-- Whether the registration and the destination are reserved. -/
def reserves : Phase → Option (Bool × Bool)
  | .checking | .makingWorktrees | .reservingAdmin _ => some (false, false)
  | .makingParent | .reservingDestination => some (true, false)
  | .writing _ | .checkingOut | .validating => some (true, true)
  | .rollingBack _ => none
  | .created _ | .failed _ => some (false, false)

theorem not_mem_written (file : RegistrationFile) : file ∉ (Phase.writing file).written := by
  cases file <;> decide

/-- The registration of a call that succeeded. -/
def registration : Phase → Option FilePath
  | .created admin => some admin
  | _ => none

end Phase

/-! ## Directories of a call -/

namespace Plan

variable (cwd : Place) (plan : Plan)

/-- The directories that `create_dir_all` makes. -/
def shared : List Place :=
  plan.worktrees.resolve cwd :: (plan.destination.parent.map fun parent =>
    parent.resolve cwd).toList

/-- Directories that the call may reserve. -/
def MayOwn (place : Place) : Prop :=
  place = plan.destination.resolve cwd ∨
    ∃ name, place = plan.worktrees.resolve cwd ++ [name]

theorem plain_baseId : Plain plan.baseId := by
  have fallback : Plain "worktree".toList := by decide
  unfold baseId
  rcases plan.destination.fileName with _ | ⟨text | bytes, ordinary⟩
  · exact fallback
  · rw [Plain]
    simpa [OsName.toStr] using ordinary
  · exact fallback

theorem plain_adminId (suffix : ℕ) : Plain (plan.adminId suffix) := by
  unfold adminId
  split_ifs with first
  · exact plan.plain_baseId
  · rw [Nat.toList_repr]
    have digits : ∀ character ∈ Nat.toDigits 10 suffix, character.isDigit = true :=
      fun _ contained => Nat.isDigit_of_mem_toDigits (by decide) (by decide) contained
    rcases List.exists_mem_of_ne_nil _ (Nat.toDigits_ne_nil (n := suffix) (b := 10))
      with ⟨digit, contained⟩
    apply plan.plain_baseId.append
    · intro separator
      exact absurd (digits _ separator) (by decide)
    · refine ⟨digit, contained, ?_⟩
      rintro rfl
      exact absurd (digits _ contained) (by decide)

theorem resolve_adminPath (suffix : ℕ) :
    (plan.adminPath suffix).resolve cwd =
      plan.worktrees.resolve cwd ++ [nameOf _ (plan.plain_adminId suffix)] := by
  rw [adminPath, join_ofText_plain (plan.plain_adminId suffix), resolve_child]

end Plan

/-! ## Steps -/

namespace Creation

/-- What a call owns and, once it has succeeded, what it made. -/
def standing (plan : Plan) (creation : Creation) : List FilePath :=
  creation.owned ++
    (creation.phase.registration.map fun admin => [plan.destination, admin]).getD []

/-- The directories a call answers for: those and what it could not remove. -/
def held (plan : Plan) (creation : Creation) : List FilePath :=
  creation.standing plan ++ creation.failures.map Prod.fst

/-- The call goes on without another reservation. -/
structure Leads (creation : Creation) (phase : Phase) : Prop where
  written : phase.written ⊆ creation.phase.written
  reserves : ∀ reserved, phase.reserves = some reserved →
    creation.phase.reserves = some reserved ∨ (reserved = (false, false) ∧ creation.owned = [])
  unsettled : creation.phase.registration = none
  settles : phase.registration = none

end Creation

section

variable {Call : Type} (cwd : Place) (plan : Plan) (call : Call)

/-- What a step of a call may do. -/
inductive Step (files : Files Call) (creation : Creation) : Files Call → Creation → Prop where
  | goes {phase : Phase} (leads : creation.Leads phase) :
      Step files creation files (creation.enter phase)
  | shares {phase : Phase} {place above : Place} {after : Files Call}
      (leads : creation.Leads phase) (shared : above ∈ plan.shared cwd) (before : place <+: above)
      (performs : perform call files (.createDirectory place) = some after) :
      Step files creation after (creation.enter phase)
  | reservesAdmin {suffix : ℕ} {after : Files Call} (phase : creation.phase = .reservingAdmin suffix)
      (performs : perform call files
        (.createDirectory ((plan.adminPath suffix).resolve cwd)) = some after) :
      Step files creation after
        { creation with phase := .makingParent, adminDirectory := some (plan.adminPath suffix) }
  | reservesDestination {after : Files Call} (phase : creation.phase = .reservingDestination)
      (performs : perform call files
        (.createDirectory (plan.destination.resolve cwd)) = some after) :
      Step files creation after
        { creation with phase := .writing .head, destination := some plan.destination }
  | writes {file : RegistrationFile} {admin : FilePath} {text : List Char} {later : Phase}
      {after : Files Call} (phase : creation.phase = .writing file)
      (owned : creation.adminDirectory = some admin)
      (performs : perform call files
        (.write ((plan.filePath admin file).resolve cwd) text) = some after)
      (leads : (later = file.after ∧ text = plan.fileText admin file) ∨ later = .writing file) :
      Step files creation after (creation.enter later)
  | checksOut {operation : Operation FileName (List Char)} {admin : FilePath}
      {after : Files Call} (phase : creation.phase = .checkingOut)
      (owned : creation.adminDirectory = some admin)
      (within : plan.checkoutWrites cwd admin operation.place = true)
      (leaf : isDirectory operation.place files = false)
      (performs : perform call files operation = some after) :
      Step files creation after creation
  | commits {admin : FilePath} (phase : creation.phase = .validating)
      (owned : creation.adminDirectory = some admin) :
      Step files creation files
        { creation with phase := .created admin, adminDirectory := none, destination := none }
  | clears {error : String} {root : FilePath} {rest : List FilePath} {place : Place}
      {after : Files Call} (phase : creation.phase = .rollingBack error)
      (owned : creation.owned = root :: rest) (below : root.resolve cwd <+: place)
      (apart : place ≠ root.resolve cwd)
      (performs : perform call files (.remove place) = some after) :
      Step files creation after creation
  | removes {error : String} {root : FilePath} {rest : List FilePath} {after : Files Call}
      (phase : creation.phase = .rollingBack error) (owned : creation.owned = root :: rest)
      (performs : perform call files (.remove (root.resolve cwd)) = some after) :
      Step files creation after creation.release
  | misses {error : String} {root : FilePath} {rest : List FilePath}
      (phase : creation.phase = .rollingBack error) (owned : creation.owned = root :: rest)
      (absent : find (root.resolve cwd) files = none) :
      Step files creation files creation.release
  | keeps {error message : String} {root : FilePath} {rest : List FilePath}
      (phase : creation.phase = .rollingBack error) (owned : creation.owned = root :: rest) :
      Step files creation files
        { creation.release with failures := creation.failures ++ [(root, message)] }

variable {cwd plan call} {files after : Files Call} {creation later : Creation}

theorem Creation.Leads.of_unreserved {phase : Phase} (same : phase.reserves = creation.phase.reserves)
    (nothing : phase.written = []) (unsettled : creation.phase.registration = none)
    (settles : phase.registration = none) : creation.Leads phase where
  written := by simp [nothing]
  reserves _ reserved := Or.inl (same ▸ reserved)
  unsettled
  settles

/-- A step that fails leads to the rollback. -/
theorem Creation.Leads.of_failure {error : String} (unsettled : creation.phase.registration = none) :
    creation.Leads (.rollingBack error) where
  written := by simp [Phase.written]
  reserves _ reserved := nomatch reserved
  unsettled
  settles := rfl

theorem step_ensureDirectory {path : FilePath} {phase : Phase}
    (ensured : ensureDirectory cwd call path files = some after) (leads : creation.Leads phase)
    (shared : path.resolve cwd ∈ plan.shared cwd) :
    Step cwd plan call files creation after (creation.enter phase) := by
  unfold ensureDirectory at ensured
  split_ifs at ensured
  · cases ensured
    exact .goes leads
  · exact .shares leads shared List.prefix_rfl ensured

theorem step_makeAncestor {path : FilePath} {place : Place}
    (made : makeAncestor cwd call path place files = some after)
    (leads : creation.Leads creation.phase) (shared : path.resolve cwd ∈ plan.shared cwd) :
    Step cwd plan call files creation after creation := by
  unfold makeAncestor at made
  split_ifs at made with before
  exact .shares leads shared (List.isPrefixOf_iff_prefix.mp before) made

theorem step_proceed
    (steps : transition cwd plan call files creation .proceed = some (after, later)) :
    Step cwd plan call files creation after later := by
  have worktrees : plan.worktrees.resolve cwd ∈ plan.shared cwd := by simp [Plan.shared]
  cases phase : creation.phase with
  | checking =>
      simp only [transition, phase] at steps
      split_ifs at steps <;> cases steps
      · exact .goes (.of_unreserved (by rw [phase]; rfl) rfl (by rw [phase]; rfl) rfl)
      · exact .goes (.of_unreserved (by rw [phase]; rfl) rfl (by rw [phase]; rfl) rfl)
  | makingWorktrees =>
      simp only [transition, phase] at steps
      rcases Option.map_eq_some_iff.mp steps with ⟨files', ensured, same⟩
      cases same
      exact step_ensureDirectory ensured
        (.of_unreserved (by rw [phase]; rfl) rfl (by rw [phase]; rfl) rfl) worktrees
  | reservingAdmin suffix =>
      simp only [transition, phase] at steps
      rcases Option.map_eq_some_iff.mp steps with ⟨files', performs, same⟩
      cases same
      exact .reservesAdmin phase performs
  | makingParent =>
      simp only [transition, phase] at steps
      have leads : creation.Leads .reservingDestination :=
        .of_unreserved (by rw [phase]; rfl) rfl (by rw [phase]; rfl) rfl
      split at steps
      · cases steps
        exact .goes leads
      · next parent found =>
          rcases Option.map_eq_some_iff.mp steps with ⟨files', ensured, same⟩
          cases same
          exact step_ensureDirectory ensured leads (by simp [Plan.shared, found])
  | reservingDestination =>
      simp only [transition, phase] at steps
      rcases Option.map_eq_some_iff.mp steps with ⟨files', performs, same⟩
      cases same
      exact .reservesDestination phase performs
  | writing file =>
      simp only [transition, phase] at steps
      rcases Option.bind_eq_some_iff.mp steps with ⟨admin, owned, wrote⟩
      rcases Option.map_eq_some_iff.mp wrote with ⟨files', performs, same⟩
      cases same
      exact .writes phase owned performs (Or.inl ⟨rfl, rfl⟩)
  | checkingOut =>
      simp only [transition, phase] at steps
      cases steps
      refine .goes ⟨?_, fun reserved same => Or.inl ?_, by rw [phase]; rfl, rfl⟩
      · rw [phase]
        exact fun _ contained => contained
      · rwa [phase]
  | validating =>
      simp only [transition, phase] at steps
      rcases Option.map_eq_some_iff.mp steps with ⟨admin, owned, same⟩
      cases same
      exact .commits phase owned
  | rollingBack error =>
      simp only [transition, phase] at steps
      split at steps
      · next nothing =>
          cases steps
          refine .goes ⟨by simp [Phase.written], fun reserved same => Or.inr ⟨?_, nothing⟩,
            by rw [phase]; rfl, rfl⟩
          exact (Option.some.inj same).symm
      · next root rest owned =>
          split_ifs at steps with absent
          · cases steps
            exact .misses phase owned absent
          · rcases Option.map_eq_some_iff.mp steps with ⟨files', performs, same⟩
            cases same
            exact .removes phase owned performs
  | created admin => simp [transition, phase] at steps
  | failed error => simp [transition, phase] at steps

theorem step_fail {message : String}
    (steps : transition cwd plan call files creation (.fail message) = some (after, later)) :
    Step cwd plan call files creation after later := by
  cases phase : creation.phase with
  | rollingBack error =>
      simp only [transition, phase] at steps
      split at steps
      · cases steps
      · next root rest owned =>
          cases steps
          exact .keeps phase owned
  | checking =>
      simp only [transition, phase] at steps
      cases steps
      exact .goes (.of_unreserved (by rw [phase]; rfl) rfl (by rw [phase]; rfl) rfl)
  | created admin => simp [transition, phase] at steps
  | failed error => simp [transition, phase] at steps
  | _ =>
      simp only [transition, phase] at steps
      cases steps
      exact .goes (.of_failure (by rw [phase]; rfl))

/-- A step is one of these. -/
theorem step_of_transition {move : Move}
    (steps : transition cwd plan call files creation move = some (after, later)) :
    Step cwd plan call files creation after later := by
  cases move with
  | proceed => exact step_proceed steps
  | fail message => exact step_fail steps
  | overlook =>
      simp only [transition] at steps
      split at steps
      · next phase =>
          cases steps
          exact .goes (.of_unreserved (by rw [phase]; rfl) rfl (by rw [phase]; rfl) rfl)
      · cases steps
  | ancestor place =>
      simp only [transition] at steps
      split at steps
      · next phase =>
          rcases Option.map_eq_some_iff.mp steps with ⟨files', made, same⟩
          cases same
          exact step_makeAncestor made
            (.of_unreserved rfl (by rw [phase]; rfl) (by rw [phase]; rfl) (by rw [phase]; rfl))
            (by simp [Plan.shared])
      · next phase =>
          rcases Option.bind_eq_some_iff.mp steps with ⟨parent, found, steps⟩
          rcases Option.map_eq_some_iff.mp steps with ⟨files', made, same⟩
          cases same
          exact step_makeAncestor made
            (.of_unreserved rfl (by rw [phase]; rfl) (by rw [phase]; rfl) (by rw [phase]; rfl))
            (by simp [Plan.shared, found])
      · cases steps
  | occupied =>
      simp only [transition] at steps
      split at steps
      · next suffix phase =>
          split_ifs at steps
          cases steps
          exact .goes (.of_unreserved (by rw [phase]; rfl) rfl (by rw [phase]; rfl) rfl)
      · cases steps
  | partly text =>
      simp only [transition] at steps
      split at steps
      · next file phase =>
          rcases Option.bind_eq_some_iff.mp steps with ⟨admin, owned, wrote⟩
          rcases Option.map_eq_some_iff.mp wrote with ⟨files', performs, same⟩
          cases same
          have stays : Step cwd plan call files creation after (creation.enter creation.phase) :=
            .writes phase owned performs (Or.inr phase)
          exact stays
      · cases steps
  | checkout operation =>
      simp only [transition] at steps
      split at steps
      · next phase =>
          rcases Option.bind_eq_some_iff.mp steps with ⟨admin, owned, checks⟩
          split_ifs at checks with within
          rcases Option.map_eq_some_iff.mp checks with ⟨files', performs, same⟩
          cases same
          simp only [Bool.and_eq_true, Bool.not_eq_true'] at within
          exact .checksOut phase owned within.1 within.2 performs
      · cases steps
  | clear place =>
      simp only [transition] at steps
      split at steps
      · next error root rest phase owned =>
          split_ifs at steps with within
          rcases Option.map_eq_some_iff.mp steps with ⟨files', performs, same⟩
          cases same
          simp only [Bool.and_eq_true, bne_iff_ne, List.isPrefixOf_iff_prefix] at within
          exact .clears phase owned within.1 within.2 performs
      · cases steps

end

end Condr.Worktree
