import Condr.Git.WorktreeSteps

/-!
# What a creation owns

The fields of a `WorktreeCreation` hold its destination and a registration under the id it
found free, as its phase says. From this follows what a step may make, change and remove: only
at or below what the call owns does anything go or change, and what it makes elsewhere
are directories that calls share.
-/

namespace Condr.Worktree

open FilePath FileTree

/-! ## Where the files of a registration are -/

def RegistrationFile.name : RegistrationFile → FileName
  | .head => headName
  | .commondir => commondirName
  | .gitdir => gitdirName
  | .dotGit => dotGitName

theorem RegistrationFile.name_injective {file other : RegistrationFile}
    (same : file.name = other.name) : file = other := by
  cases file <;> cases other <;> first | rfl | exact absurd same (by decide)

namespace Plan

variable {cwd : Place} {plan : Plan} {admin : FilePath}

/-- The directory of a file of the registration. -/
def fileHome (plan : Plan) (admin : FilePath) : RegistrationFile → FilePath
  | .dotGit => plan.destination
  | _ => admin

theorem resolve_filePath (file : RegistrationFile) :
    (plan.filePath admin file).resolve cwd =
      (plan.fileHome admin file).resolve cwd ++ [file.name] := by
  cases file <;> exact resolve_child _ _ _

theorem file_eq_of_place {file other : RegistrationFile}
    (same : (plan.filePath admin file).resolve cwd = (plan.filePath admin other).resolve cwd) :
    file = other := by
  rw [resolve_filePath, resolve_filePath] at same
  exact RegistrationFile.name_injective (List.singleton_inj.mp (List.append_inj' same rfl).2)

/-- A checkout leaves the registration's files alone. -/
theorem checkoutWrites_filePath
    (apart : ¬plan.destination.resolve cwd <+: admin.resolve cwd) (file : RegistrationFile) :
    plan.checkoutWrites cwd admin ((plan.filePath admin file).resolve cwd) = false := by
  rw [← Bool.not_eq_true]
  intro writes
  simp only [checkoutWrites, Bool.or_eq_true, Bool.and_eq_true, Bool.not_eq_true', bne_iff_ne,
    beq_iff_eq, List.isPrefixOf_iff_prefix, resolve_filePath] at writes
  have others : file.name ≠ indexName ∧ file.name ≠ indexLockName := by
    cases file <;> decide
  have named : ∀ {home : Place} {name : FileName},
      (plan.fileHome admin file).resolve cwd ++ [file.name] = home ++ [name] →
        file.name = name :=
    fun same => List.singleton_inj.mp (List.append_inj' same rfl).2
  rcases writes with (⟨⟨below, proper⟩, outside⟩ | index) | lock
  · cases file with
    | dotGit =>
        have inside : (plan.destination.resolve cwd ++ [dotGitName]).isPrefixOf
            (plan.destination.resolve cwd ++ [dotGitName]) = true :=
          List.isPrefixOf_iff_prefix.mpr List.prefix_rfl
        rw [show plan.fileHome admin .dotGit = plan.destination from rfl,
          show RegistrationFile.dotGit.name = dotGitName from rfl, inside] at outside
        cases outside
    | _ =>
        rcases List.prefix_concat_iff.mp below with whole | within
        · exact proper whole.symm
        · exact apart within
  · exact others.1 (named index)
  · exact others.2 (named lock)

end Plan

/-! ## The shape of a creation -/

structure Shaped (plan : Plan) (creation : Creation) : Prop where
  admin : ∀ admin, creation.adminDirectory = some admin ∨
    creation.phase.registration = some admin → ∃ suffix, admin = plan.adminPath suffix
  destination : ∀ destination, creation.destination = some destination →
    destination = plan.destination
  failures : ∀ failure ∈ creation.failures, failure.1 = plan.destination ∨
    ∃ suffix, failure.1 = plan.adminPath suffix
  reserves : ∀ reserved, creation.phase.reserves = some reserved →
    (creation.adminDirectory.isSome, creation.destination.isSome) = reserved

namespace Creation

variable {creation : Creation} {plan : Plan}

theorem mem_owned {root : FilePath} :
    root ∈ creation.owned ↔
      creation.destination = some root ∨ creation.adminDirectory = some root := by
  simp [owned, Option.mem_toList]

/-- The first of what is owned is the destination, if any. -/
theorem owned_cases {root : FilePath} {rest : List FilePath}
    (owned : creation.owned = root :: rest) :
    (creation.destination = some root ∧ rest = creation.adminDirectory.toList ∧
      creation.release = { creation with destination := none }) ∨
    (creation.destination = none ∧ creation.adminDirectory = some root ∧ rest = [] ∧
      creation.release = { creation with adminDirectory := none }) := by
  rcases creation with ⟨phase, _ | admin, _ | destination, failures⟩
  · cases owned
  · rcases List.cons.inj owned with ⟨rfl, rfl⟩
    exact Or.inl ⟨rfl, rfl, rfl⟩
  · rcases List.cons.inj owned with ⟨rfl, rfl⟩
    exact Or.inr ⟨rfl, rfl, rfl, rfl⟩
  · rcases List.cons.inj owned with ⟨rfl, rfl⟩
    exact Or.inl ⟨rfl, rfl, rfl⟩

theorem owned_release {root : FilePath} {rest : List FilePath}
    (owned : creation.owned = root :: rest) : creation.release.owned = rest := by
  rcases owned_cases owned with ⟨-, rfl, released⟩ | ⟨nothing, -, rfl, released⟩
  · rw [released]
    rfl
  · rw [released, Creation.owned]
    simp [nothing]

theorem destination_release : creation.release.destination = none := by
  unfold release
  split
  · rfl
  · assumption

theorem phase_release : creation.release.phase = creation.phase := by
  unfold release
  split <;> rfl

theorem failures_release : creation.release.failures = creation.failures := by
  unfold release
  split <;> rfl

theorem standing_eq_owned (unsettled : creation.phase.registration = none) :
    creation.standing plan = creation.owned := by
  simp [standing, unsettled]

end Creation

section

variable {Call : Type} {cwd : Place} {plan : Plan} {call : Call}
variable {files after : Files Call} {creation later : Creation}

theorem shaped_init : Shaped plan .init where
  admin _ := by
    rintro (owned | registered)
    · cases owned
    · cases registered
  destination _ := nofun
  failures _ := nofun
  reserves _ reserved := Option.some.inj reserved

theorem Shaped.enter (shaped : Shaped plan creation) {phase : Phase}
    (reserves : ∀ reserved, phase.reserves = some reserved →
      (creation.adminDirectory.isSome, creation.destination.isSome) = reserved)
    (settles : phase.registration = none) : Shaped plan (creation.enter phase) where
  admin admin := by
    rintro (owned | registered)
    · exact shaped.admin admin (Or.inl owned)
    · rw [Creation.enter, settles] at registered
      cases registered
  destination := shaped.destination
  failures := shaped.failures
  reserves := reserves

theorem Shaped.leads (shaped : Shaped plan creation) {phase : Phase}
    (leads : creation.Leads phase) : Shaped plan (creation.enter phase) := by
  apply shaped.enter _ leads.settles
  intro reserved same
  rcases leads.reserves reserved same with before | ⟨rfl, nothing⟩
  · exact shaped.reserves reserved before
  · simp only [Creation.owned, List.append_eq_nil_iff, Option.toList_eq_nil_iff] at nothing
    simp [nothing]

theorem Shaped.release (shaped : Shaped plan creation) {error : String}
    (phase : creation.phase = .rollingBack error) : Shaped plan creation.release where
  admin admin := by
    rintro (owned | registered)
    · apply shaped.admin admin
      unfold Creation.release at owned
      split at owned
      · exact Or.inl owned
      · cases owned
    · rw [Creation.phase_release, phase] at registered
      cases registered
  destination destination owned := by
    apply shaped.destination
    unfold Creation.release at owned
    split at owned
    · cases owned
    · exact owned
  failures := by
    rw [Creation.failures_release]
    exact shaped.failures
  reserves reserved same := by
    rw [Creation.phase_release, phase] at same
    cases same

/-- What the call owns it may. -/
theorem Shaped.root_eq (shaped : Shaped plan creation) {root : FilePath}
    (contained : root ∈ creation.held plan) :
    root = plan.destination ∨ ∃ suffix, root = plan.adminPath suffix := by
  simp only [Creation.held, Creation.standing, List.mem_append] at contained
  rcases contained with (owned | standing) | failed
  · rcases Creation.mem_owned.mp owned with destination | admin
    · exact Or.inl (shaped.destination root destination)
    · exact Or.inr (shaped.admin root (Or.inl admin))
  · rcases registered : creation.phase.registration with _ | admin
    · rw [registered] at standing
      cases standing
    · rw [registered] at standing
      simp only [Option.map_some, Option.getD_some, List.mem_cons, List.not_mem_nil,
        or_false] at standing
      rcases standing with rfl | rfl
      · exact Or.inl rfl
      · exact Or.inr (shaped.admin _ (Or.inr registered))
  · rcases List.mem_map.mp failed with ⟨failure, inFailures, rfl⟩
    exact shaped.failures failure inFailures

theorem Shaped.mayOwn (shaped : Shaped plan creation) (cwd : Place) {root : FilePath}
    (contained : root ∈ creation.held plan) : plan.MayOwn cwd (root.resolve cwd) := by
  rcases shaped.root_eq contained with rfl | ⟨suffix, rfl⟩
  · exact Or.inl rfl
  · exact Or.inr ⟨_, plan.resolve_adminPath cwd suffix⟩

theorem Creation.held_of_owned {root : FilePath} (owned : root ∈ creation.owned) :
    root ∈ creation.held plan :=
  List.mem_append_left _ (List.mem_append_left _ owned)

theorem Shaped.unreserved (shaped : Shaped plan creation) {admin destination : Bool}
    (reserves : creation.phase.reserves = some (admin, destination)) :
    creation.adminDirectory.isSome = admin ∧ creation.destination.isSome = destination :=
  Prod.mk.inj (shaped.reserves _ reserves)

/-- From the reservation to the commit both directories are owned. -/
theorem Shaped.both (shaped : Shaped plan creation)
    (reserves : creation.phase.reserves = some (true, true)) :
    creation.destination = some plan.destination := by
  rcases Option.isSome_iff_exists.mp (shaped.unreserved reserves).2 with ⟨destination, owned⟩
  rw [owned, shaped.destination destination owned]

theorem shaped_step (shaped : Shaped plan creation)
    (step : Step cwd plan call files creation after later) : Shaped plan later := by
  cases step with
  | goes leads => exact shaped.leads leads
  | shares leads shared before performs => exact shaped.leads leads
  | @reservesAdmin suffix _ phase performs =>
      have reserved := shaped.unreserved (by rw [phase]; rfl)
      refine ⟨?_, shaped.destination, shaped.failures, ?_⟩
      · rintro admin (owned | registered)
        · exact ⟨suffix, (Option.some.inj owned).symm⟩
        · cases registered
      · intro reserved' same
        cases same
        rw [reserved.2]
        rfl
  | reservesDestination phase performs =>
      have reserved := shaped.unreserved (by rw [phase]; rfl)
      refine ⟨?_, ?_, shaped.failures, ?_⟩
      · rintro admin (owned | registered)
        · exact shaped.admin admin (Or.inl owned)
        · cases registered
      · intro destination owned
        exact (Option.some.inj owned).symm
      · intro reserved' same
        cases same
        rw [reserved.1]
        rfl
  | @writes file admin text entered _ phase owned performs leads =>
      have reserves : entered.reserves = some (true, true) ∧ entered.registration = none := by
        rcases leads with ⟨rfl, -⟩ | rfl
        · cases file <;> exact ⟨rfl, rfl⟩
        · exact ⟨rfl, rfl⟩
      apply shaped.enter _ reserves.2
      intro reserved same
      rw [reserves.1] at same
      cases same
      exact shaped.reserves _ (by rw [phase]; rfl)
  | checksOut phase owned within leaf performs => exact shaped
  | @commits admin phase owned =>
      refine ⟨?_, nofun, shaped.failures, ?_⟩
      · rintro made (nothing | registered)
        · cases nothing
        · rw [← Option.some.inj registered]
          exact shaped.admin admin (Or.inl owned)
      · intro reserved same
        cases same
        rfl
  | clears phase owned below apart performs => exact shaped
  | removes phase owned performs => exact shaped.release phase
  | misses phase owned absent => exact shaped.release phase
  | @keeps error message root rest phase owned =>
      have released := shaped.release phase
      refine ⟨released.admin, released.destination, ?_, released.reserves⟩
      intro failure contained
      rcases List.mem_append.mp contained with earlier | here
      · exact shaped.failures failure earlier
      · rw [List.mem_singleton.mp here]
        exact shaped.root_eq (Creation.held_of_owned (by rw [owned]; exact List.mem_cons_self))

/-! ## What a step may do to the tree -/

/-- The operation makes a directory on the way to what calls share, reserves one, or is at or
below one that the call owns. -/
inductive Permitted (cwd : Place) (plan : Plan) (creation later : Creation)
    (operation : Operation FileName (List Char)) : Prop where
  | shared {place above : Place} (making : operation = .createDirectory place)
      (shared : above ∈ plan.shared cwd) (before : place <+: above)
  | reserved {root : FilePath} (making : operation = .createDirectory (root.resolve cwd))
      (owned : root ∈ later.owned)
  | within {root : FilePath} (owned : root ∈ creation.owned)
      (kept : root ∈ later.owned ∨ operation = .remove (root.resolve cwd))
      (below : root.resolve cwd <+: operation.place)

theorem Shaped.fileHome_owned (shaped : Shaped plan creation) {file : RegistrationFile}
    {admin : FilePath} (phase : creation.phase = .writing file)
    (owned : creation.adminDirectory = some admin) : plan.fileHome admin file ∈ creation.owned := by
  have destination := shaped.both (by rw [phase]; rfl)
  rw [Creation.mem_owned]
  cases file with
  | dotGit => exact Or.inl destination
  | _ => exact Or.inr owned

theorem Shaped.checkout_owned (shaped : Shaped plan creation) {admin : FilePath} {place : Place}
    (phase : creation.phase = .checkingOut) (owned : creation.adminDirectory = some admin)
    (within : plan.checkoutWrites cwd admin place = true) :
    ∃ root ∈ creation.owned, root.resolve cwd <+: place := by
  have destination := shaped.both (by rw [phase]; rfl)
  simp only [Plan.checkoutWrites, Bool.or_eq_true, Bool.and_eq_true, beq_iff_eq,
    List.isPrefixOf_iff_prefix] at within
  rcases within with (⟨⟨below, -⟩, -⟩ | index) | lock
  · exact ⟨_, Creation.mem_owned.mpr (Or.inl destination), below⟩
  · exact ⟨_, Creation.mem_owned.mpr (Or.inr owned), index ▸ List.prefix_append _ _⟩
  · exact ⟨_, Creation.mem_owned.mpr (Or.inr owned), lock ▸ List.prefix_append _ _⟩

theorem Step.performs (shaped : Shaped plan creation)
    (step : Step cwd plan call files creation after later) :
    after = files ∨ ∃ operation, perform call files operation = some after ∧
      Permitted cwd plan creation later operation := by
  cases step with
  | goes leads => exact Or.inl rfl
  | shares leads shared before performs =>
      exact Or.inr ⟨_, performs, .shared rfl shared before⟩
  | reservesAdmin phase performs =>
      exact Or.inr ⟨_, performs, .reserved rfl (Creation.mem_owned.mpr (Or.inr rfl))⟩
  | reservesDestination phase performs =>
      exact Or.inr ⟨_, performs, .reserved rfl (Creation.mem_owned.mpr (Or.inl rfl))⟩
  | @writes file admin text entered _ phase owned performs leads =>
      have home := shaped.fileHome_owned phase owned
      refine Or.inr ⟨_, performs, .within home (Or.inl home) ?_⟩
      rw [Operation.place, Plan.resolve_filePath]
      exact List.prefix_append _ _
  | checksOut phase owned within leaf performs =>
      rcases shaped.checkout_owned phase owned within with ⟨root, inOwned, below⟩
      exact Or.inr ⟨_, performs, .within inOwned (Or.inl inOwned) below⟩
  | commits phase owned => exact Or.inl rfl
  | clears phase owned below apart performs =>
      have first := owned ▸ List.mem_cons_self
      exact Or.inr ⟨_, performs, .within first (Or.inl first) below⟩
  | removes phase owned performs =>
      exact Or.inr ⟨_, performs, .within (owned ▸ List.mem_cons_self) (Or.inr rfl) List.prefix_rfl⟩
  | misses phase owned absent => exact Or.inl rfl
  | keeps phase owned => exact Or.inl rfl

/-- A step changes nothing that was there but at or below what the call owns. -/
theorem Step.changes (shaped : Shaped plan creation)
    (step : Step cwd plan call files creation after later) {place : Place}
    (present : find place files ≠ none) (changed : find place after ≠ find place files) :
    ∃ root ∈ creation.owned, root.resolve cwd <+: place := by
  rcases step.performs shaped with rfl | ⟨operation, performs, permitted⟩
  · exact absurd rfl changed
  · have here : place = operation.place := by
      by_contra elsewhere
      exact changed (find_perform_of_ne performs elsewhere)
    subst here
    rcases permitted with ⟨rfl, -, -⟩ | ⟨rfl, -⟩ | ⟨owned, -, below⟩
    · exact absurd (createDirectory_made performs).1 present
    · exact absurd (createDirectory_made performs).1 present
    · exact ⟨_, owned, below⟩

/-- What a step makes is a directory that calls share, one that it reserves, or below what the
call owns. -/
theorem Step.makes (shaped : Shaped plan creation)
    (step : Step cwd plan call files creation after later) {place : Place}
    {entry : Entry Call (List Char)} (before : find place files = none)
    (now : find place after = some entry) :
    entry.creator = some call ∧
      ((entry.kind = .directory ∧ ∃ above ∈ plan.shared cwd, place <+: above) ∨
        ∃ root ∈ later.owned, root.resolve cwd <+: place ∧
          (place = root.resolve cwd ∨ root ∈ creation.owned)) := by
  rcases step.performs shaped with rfl | ⟨operation, performs, permitted⟩
  · rw [before] at now
    cases now
  · rcases created_perform performs before now with ⟨rfl, made, -⟩
    refine ⟨made, ?_⟩
    rcases permitted with ⟨rfl, shared, within⟩ | ⟨rfl, owned⟩ | ⟨owned, kept | rfl, below⟩
    · have same := now.symm.trans (createDirectory_made performs).2
      rcases Option.some.inj same with rfl
      exact Or.inl ⟨rfl, _, shared, within⟩
    · exact Or.inr ⟨_, owned, List.prefix_rfl, Or.inl rfl⟩
    · exact Or.inr ⟨_, kept, below, Or.inr owned⟩
    · exact absurd before (remove_removes performs).1

/-! ## What a step does to what stands -/

/-- A call that has both directories has not made its destination above the registration. -/
def Ordered (cwd : Place) (creation : Creation) : Prop :=
  ∀ destination admin, creation.destination = some destination →
    creation.adminDirectory = some admin → ¬destination.resolve cwd <+: admin.resolve cwd

/-- After the first of what is owned comes nothing it is above. -/
theorem Ordered.rest (ordered : Ordered cwd creation) {root other : FilePath}
    {rest : List FilePath} (owned : creation.owned = root :: rest) (later : other ∈ rest) :
    ¬root.resolve cwd <+: other.resolve cwd := by
  rcases Creation.owned_cases owned with ⟨destination, rfl, -⟩ | ⟨-, -, rfl, -⟩
  · exact ordered _ _ destination (Option.mem_toList.mp later)
  · cases later

theorem Phase.unregistered {phase : Phase} {error : String} (same : phase = .rollingBack error) :
    phase.registration = none := by
  rw [same]
  rfl

theorem Creation.mem_standing_release {root first : FilePath} {rest : List FilePath}
    {error : String} (phase : creation.phase = .rollingBack error)
    (owned : creation.owned = first :: rest) :
    root ∈ creation.release.standing plan ↔ root ∈ rest := by
  rw [Creation.standing_eq_owned, Creation.owned_release owned]
  rw [Creation.phase_release]
  exact Phase.unregistered phase

/-- What stands after a step stood before or has just been reserved. -/
theorem Step.standing (shaped : Shaped plan creation)
    (step : Step cwd plan call files creation after later) {root : FilePath}
    (stands : root ∈ later.standing plan) :
    root ∈ creation.standing plan ∨ (find (root.resolve cwd) files = none ∧
      find (root.resolve cwd) after = some ⟨some call, .directory⟩) := by
  cases step with
  | goes leads =>
      rw [Creation.standing_eq_owned leads.settles] at stands
      rw [Creation.standing_eq_owned leads.unsettled]
      exact Or.inl stands
  | shares leads shared before performs =>
      rw [Creation.standing_eq_owned leads.settles] at stands
      rw [Creation.standing_eq_owned leads.unsettled]
      exact Or.inl stands
  | reservesAdmin phase performs =>
      rw [Creation.standing_eq_owned rfl, Creation.mem_owned] at stands
      rcases stands with destination | admin
      · exact Or.inl (List.mem_append_left _ (Creation.mem_owned.mpr (Or.inl destination)))
      · rcases Option.some.inj admin with rfl
        exact Or.inr (createDirectory_made performs)
  | reservesDestination phase performs =>
      rw [Creation.standing_eq_owned rfl, Creation.mem_owned] at stands
      rcases stands with destination | admin
      · rcases Option.some.inj destination with rfl
        exact Or.inr (createDirectory_made performs)
      · exact Or.inl (List.mem_append_left _ (Creation.mem_owned.mpr (Or.inr admin)))
  | @writes file admin text entered _ phase owned performs leads =>
      have settles : entered.registration = none := by
        rcases leads with ⟨rfl, -⟩ | rfl
        · cases file <;> rfl
        · rfl
      rw [Creation.standing_eq_owned settles] at stands
      exact Or.inl (List.mem_append_left _ stands)
  | checksOut phase owned within leaf performs => exact Or.inl stands
  | commits phase owned =>
      have destination := shaped.both (by rw [phase]; rfl)
      simp only [Creation.standing, Creation.owned, Phase.registration, Option.toList_none,
        List.append_nil, List.nil_append, Option.map_some, Option.getD_some, List.mem_cons,
        List.not_mem_nil, or_false] at stands
      apply Or.inl
      apply List.mem_append_left
      rw [Creation.mem_owned]
      rcases stands with rfl | rfl
      · exact Or.inl destination
      · exact Or.inr owned
  | clears phase owned below apart performs => exact Or.inl stands
  | removes phase owned performs =>
      rw [Creation.mem_standing_release phase owned] at stands
      exact Or.inl (List.mem_append_left _ (owned ▸ List.mem_cons_of_mem _ stands))
  | misses phase owned absent =>
      rw [Creation.mem_standing_release phase owned] at stands
      exact Or.inl (List.mem_append_left _ (owned ▸ List.mem_cons_of_mem _ stands))
  | @keeps error message first rest phase owned =>
      have same : root ∈ creation.release.standing plan := stands
      rw [Creation.mem_standing_release phase owned] at same
      exact Or.inl (List.mem_append_left _ (owned ▸ List.mem_cons_of_mem _ same))

/-- What stands before and after a step has not been touched. -/
theorem Step.keeps_standing (ordered : Ordered cwd creation)
    (step : Step cwd plan call files creation after later) {root : FilePath}
    (stood : root ∈ creation.standing plan) (stands : root ∈ later.standing plan)
    {creator : Option Call}
    (before : find (root.resolve cwd) files = some ⟨creator, .directory⟩) :
    find (root.resolve cwd) after = some ⟨creator, .directory⟩ := by
  cases step with
  | goes leads => exact before
  | shares leads shared within performs => exact directory_perform performs before nofun
  | reservesAdmin phase performs => exact directory_perform performs before nofun
  | reservesDestination phase performs => exact directory_perform performs before nofun
  | writes phase owned performs leads => exact directory_perform performs before nofun
  | checksOut phase owned within leaf performs =>
      apply directory_perform performs before
      rintro rfl
      rw [Operation.place, isDirectory, before] at leaf
      cases leaf
  | commits phase owned => exact before
  | clears phase owned below apart performs =>
      apply directory_perform performs before
      intro same
      have here := Operation.remove.inj same
      rw [Creation.standing_eq_owned (Phase.unregistered phase), owned] at stood
      rcases List.mem_cons.mp stood with rfl | rest
      · exact apart here
      · exact ordered.rest owned rest (here ▸ below)
  | removes phase owned performs =>
      apply directory_perform performs before
      intro same
      rw [Creation.mem_standing_release phase owned] at stands
      exact ordered.rest owned stands (Operation.remove.inj same ▸ List.prefix_rfl)
  | misses phase owned absent => exact before
  | keeps phase owned => exact before

/-- What a call no longer answers for is gone. -/
theorem Step.held (shaped : Shaped plan creation)
    (step : Step cwd plan call files creation after later) {root : FilePath}
    (held : root ∈ creation.held plan) :
    root ∈ later.held plan ∨ find (root.resolve cwd) after = none := by
  have split : (root ∈ creation.owned ∨ root ∈ (creation.phase.registration.map fun admin =>
      [plan.destination, admin]).getD []) ∨ root ∈ creation.failures.map Prod.fst := by
    simpa only [Creation.held, Creation.standing, List.mem_append] using held
  have unsettled : creation.phase.registration = none →
      root ∈ creation.owned ∨ root ∈ creation.failures.map Prod.fst := by
    intro nothing
    rw [nothing] at split
    rcases split with (owned | registered) | failed
    · exact Or.inl owned
    · cases registered
    · exact Or.inr failed
  have stays : ∀ {entered : Creation}, creation.phase.registration = none →
      (root ∈ creation.owned → root ∈ entered.owned) →
      creation.failures = entered.failures → root ∈ entered.held plan := by
    intro entered nothing owns same
    rcases unsettled nothing with owned | failed
    · exact Creation.held_of_owned (owns owned)
    · exact List.mem_append_right _ (same ▸ failed)
  cases step with
  | goes leads => exact Or.inl (stays leads.unsettled id rfl)
  | shares leads shared before performs => exact Or.inl (stays leads.unsettled id rfl)
  | reservesAdmin phase performs =>
      have reserved := shaped.unreserved (by rw [phase]; rfl)
      refine Or.inl (stays (by rw [phase]; rfl) (fun owned => ?_) rfl)
      rcases Creation.mem_owned.mp owned with destination | admin
      · exact Creation.mem_owned.mpr (Or.inl destination)
      · rw [admin] at reserved
        cases reserved.1
  | reservesDestination phase performs =>
      have reserved := shaped.unreserved (by rw [phase]; rfl)
      refine Or.inl (stays (by rw [phase]; rfl) (fun owned => ?_) rfl)
      rcases Creation.mem_owned.mp owned with destination | admin
      · rw [destination] at reserved
        cases reserved.2
      · exact Creation.mem_owned.mpr (Or.inr admin)
  | writes phase owned performs leads => exact Or.inl (stays (by rw [phase]; rfl) id rfl)
  | checksOut phase owned within leaf performs => exact Or.inl held
  | @commits admin phase owned =>
      apply Or.inl
      rcases unsettled (by rw [phase]; rfl) with before | failed
      · apply List.mem_append_left
        simp only [Creation.standing, Creation.owned, Phase.registration, Option.toList_none,
          List.append_nil, List.nil_append, Option.map_some, Option.getD_some, List.mem_cons,
          List.not_mem_nil, or_false]
        rcases Creation.mem_owned.mp before with destination | registration
        · exact Or.inl (shaped.destination root destination)
        · exact Or.inr (Option.some.inj (registration.symm.trans owned))
      · exact List.mem_append_right _ failed
  | clears phase owned below apart performs => exact Or.inl held
  | @removes error first rest _ phase owned performs =>
      by_cases same : root = first
      · subst same
        exact Or.inr (remove_removes performs).2
      · refine Or.inl (stays (Phase.unregistered phase) (fun before => ?_)
          Creation.failures_release.symm)
        rw [Creation.owned_release owned]
        rw [owned] at before
        exact List.mem_of_ne_of_mem same before
  | @misses error first rest phase owned absent =>
      by_cases same : root = first
      · subst same
        exact Or.inr absent
      · refine Or.inl (stays (Phase.unregistered phase) (fun before => ?_)
          Creation.failures_release.symm)
        rw [Creation.owned_release owned]
        rw [owned] at before
        exact List.mem_of_ne_of_mem same before
  | @keeps error message first rest phase owned =>
      apply Or.inl
      by_cases same : root = first
      · subst same
        exact List.mem_append_right _ (by simp)
      · rcases unsettled (Phase.unregistered phase) with before | failed
        · apply Creation.held_of_owned
          have rest : root ∈ creation.release.owned := by
            rw [Creation.owned_release owned]
            rw [owned] at before
            exact List.mem_of_ne_of_mem same before
          exact rest
        · apply List.mem_append_right
          rw [List.map_append]
          exact List.mem_append_left _ failed

end

end Condr.Worktree
