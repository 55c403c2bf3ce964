import Condr.Files.FilePath
import Mathlib.Data.List.DropRight
import Mathlib.Data.List.Infix

/-!
# Where a worktree goes

The directory of a new checkout: a container that the configured root names, and in it
one component made of the branch's name. Checking a reference's name is gix's part; what
is used of it is that the names it takes follow git's own rules.
-/

namespace Condr.Worktree

open FilePath

/-! ## Branch names -/

/-- Characters `branch_slug` keeps and never makes of others. -/
def isOrdinary (character : Char) : Bool :=
  character.isAlphanum || character == '.' || character == '_'

/-- One character of `branch_slug`'s loop. -/
def slugStep (slug : List Char) (character : Char) : List Char :=
  if isOrdinary character || character == '-' then slug ++ [character]
  else if slug.getLast? = some '-' then slug
  else slug ++ ['-']

/-- `trim_matches('-')`. -/
def trimDashes (text : List Char) : List Char :=
  (text.dropWhile (· == '-')).rdropWhile (· == '-')

def branchSlug (branch : List Char) : List Char :=
  let slug := trimDashes (branch.foldl slugStep [])
  if slug = [] then "worktree".toList else slug

/-- A component of a reference's name. -/
def refComponentAllowed (component : List Char) : Bool :=
  !component.isEmpty && component.head? != some '.' && !(".lock".toList.isSuffixOf component)

def refCharacterAllowed (character : Char) : Bool :=
  32 < character.toNat && character.toNat != 127 &&
    !([':', '~', '^', '?', '*', '[', '\\'].contains character)

/-- The rules of `git check-ref-format`. -/
def gitRefName (name : List Char) : Bool :=
  name.contains '/' && (name.splitOn '/').all refComponentAllowed &&
    name.all refCharacterAllowed && !decide (['.', '.'] <:+: name) &&
    !decide (['@', '\x7b'] <:+: name) && name.getLast? != some '.'

/-- The `refs/heads/` name for a user-typed branch. `accepts` is what
`gix::refs::FullName::try_from` takes. -/
def branchRefName (accepts : List Char → Bool) (branch : List Char) :
    Except String (List Char) :=
  if branch.head? = some '-' then
    .error ("invalid branch name: " ++ String.ofList branch)
  else if accepts ("refs/heads/".toList ++ branch) then .ok ("refs/heads/".toList ++ branch)
  else .error ("invalid branch name: " ++ String.ofList branch)

/-! ## The destination -/

/-- The name a repository's directory groups its checkouts under. -/
def repoName (parent : FilePath) : String :=
  ((parent.fileName.bind fun name => name.name.toStr).filter fun name =>
    !name.isEmpty).getD "repository"

/-- `worktree_destination`, of the home directory `dirs::home_dir` finds. -/
def worktreeDestination (home : Option FilePath) (parent : FilePath) (branch : List Char)
    (worktreeRoot : Option FilePath) : FilePath :=
  let name := (repoName parent).toList
  let slug := branchSlug branch
  match worktreeRoot with
  | some root =>
      match root.stripPart (FilePart.ofSegment ['~']) with
      | some rest => (((home.getD parent).join rest).join (ofText name)).join (ofText slug)
      | none =>
          if root.absolute then (root.join (ofText name)).join (ofText slug)
          else (parent.join root).join (ofText slug)
  | none =>
      ((parent.parent.getD parent).join (ofText (name ++ ".worktrees".toList))).join (ofText slug)

/-! ## What a slug is made of -/

theorem foldl_slugStep_concat (branch : List Char) (character : Char) :
    (branch ++ [character]).foldl slugStep [] = slugStep (branch.foldl slugStep []) character := by
  simp

/-- A step adds its character, a dash or nothing. -/
theorem slugStep_cases (slug : List Char) (character : Char) :
    (slugStep slug character = slug ++ [character] ∧
      (isOrdinary character = true ∨ character = '-')) ∨
    (isOrdinary character = false ∧ slugStep slug character = slug ∧ slug.getLast? = some '-') ∨
    (isOrdinary character = false ∧ slugStep slug character = slug ++ ['-']) := by
  unfold slugStep
  split_ifs with kept dashed
  · apply Or.inl
    simpa using kept
  · simp only [Bool.or_eq_true, not_or, Bool.not_eq_true] at kept
    exact Or.inr (Or.inl ⟨kept.1, rfl, dashed⟩)
  · simp only [Bool.or_eq_true, not_or, Bool.not_eq_true] at kept
    exact Or.inr (Or.inr ⟨kept.1, rfl⟩)

theorem filter_slugStep (slug : List Char) (character : Char) :
    (slugStep slug character).filter isOrdinary =
      slug.filter isOrdinary ++ [character].filter isOrdinary := by
  rcases slugStep_cases slug character with ⟨added, -⟩ | ⟨replaced, same, -⟩ | ⟨replaced, added⟩
  · rw [added, List.filter_append]
  · simp [same, replaced]
  · have dash : isOrdinary '-' = false := by decide
    simp [added, replaced, dash]

theorem filter_foldl_slugStep (branch : List Char) :
    (branch.foldl slugStep []).filter isOrdinary = branch.filter isOrdinary := by
  induction branch using List.reverseRecOn with
  | nil => rfl
  | append_singleton branch character ih =>
      rw [foldl_slugStep_concat, filter_slugStep, ih, List.filter_append]

theorem mem_foldl_slugStep {branch : List Char} {character : Char}
    (contained : character ∈ branch.foldl slugStep []) :
    isOrdinary character = true ∨ character = '-' := by
  induction branch using List.reverseRecOn with
  | nil => cases contained
  | append_singleton branch last ih =>
      rw [foldl_slugStep_concat] at contained
      rcases slugStep_cases (branch.foldl slugStep []) last with
        ⟨added, kept⟩ | ⟨-, same, -⟩ | ⟨-, added⟩
      · rw [added] at contained
        rcases List.mem_append.mp contained with earlier | here
        · exact ih earlier
        · rw [List.mem_singleton.mp here]
          exact kept
      · rw [same] at contained
        exact ih contained
      · rw [added] at contained
        rcases List.mem_append.mp contained with earlier | here
        · exact ih earlier
        · exact Or.inr (List.mem_singleton.mp here)

/-- Ordinary characters at the end of a slug end the branch too. -/
theorem suffix_of_foldl_slugStep {word branch : List Char}
    (ordinary : ∀ character ∈ word, isOrdinary character = true)
    (ends : word <:+ branch.foldl slugStep []) : word <:+ branch := by
  induction branch using List.reverseRecOn generalizing word with
  | nil => exact ends
  | append_singleton branch last ih =>
      rcases List.eq_nil_or_concat word with rfl | ⟨front, final, rfl⟩
      · exact List.nil_suffix
      · rw [List.concat_eq_append] at ordinary ends ⊢
        have undashed : isOrdinary final = true := ordinary final (by simp)
        have dash : isOrdinary '-' = false := by decide
        rw [foldl_slugStep_concat] at ends
        rcases slugStep_cases (branch.foldl slugStep []) last with
          ⟨added, -⟩ | ⟨-, same, dashed⟩ | ⟨-, added⟩
        · rw [added] at ends
          rcases List.suffix_concat_iff.mp ends with nothing | ⟨front', equal, earlier⟩
          · exact absurd nothing (by simp)
          · rcases List.append_inj' equal rfl with ⟨rfl, sameLast⟩
            rw [sameLast]
            rcases ih (fun character contained => ordinary character (by simp [contained])) earlier
              with ⟨before, rfl⟩
            exact ⟨before, by simp⟩
        · -- the slug ends with a dash, which the word does not
          rw [same] at ends
          rcases ends with ⟨before, equal⟩
          rw [← equal, ← List.append_assoc, List.getLast?_concat] at dashed
          rw [Option.some.inj dashed, dash] at undashed
          cases undashed
        · rw [added] at ends
          rcases ends with ⟨before, equal⟩
          rw [← List.append_assoc] at equal
          rw [List.singleton_inj.mp (List.append_inj' equal rfl).2, dash] at undashed
          cases undashed

/-- Ordinary characters that stand together in a slug stand together in the branch. -/
theorem infix_of_foldl_slugStep {word branch : List Char}
    (ordinary : ∀ character ∈ word, isOrdinary character = true)
    (within : word <:+: branch.foldl slugStep []) : word <:+: branch := by
  induction branch using List.reverseRecOn with
  | nil => exact within
  | append_singleton branch last ih =>
      rw [foldl_slugStep_concat] at within
      have earlier : word <:+: branch.foldl slugStep [] → word <:+: branch ++ [last] := by
        intro before
        exact (ih before).trans (List.prefix_append _ _).isInfix
      rcases slugStep_cases (branch.foldl slugStep []) last with
        ⟨added, -⟩ | ⟨-, same, -⟩ | ⟨-, added⟩
      · rw [added] at within
        rcases List.infix_concat_iff.mp within with ends | before
        · rw [← added, ← foldl_slugStep_concat] at ends
          exact (suffix_of_foldl_slugStep ordinary ends).isInfix
        · exact earlier before
      · rw [same] at within
        exact earlier within
      · rw [added] at within
        rcases List.infix_concat_iff.mp within with ends | before
        · rw [← added, ← foldl_slugStep_concat] at ends
          exact (suffix_of_foldl_slugStep ordinary ends).isInfix
        · exact earlier before

theorem filter_dropWhile_dashes (text : List Char) :
    (text.dropWhile (· == '-')).filter isOrdinary = text.filter isOrdinary := by
  have whole := @List.takeWhile_append_dropWhile _ (· == '-') text
  have dashes : (text.takeWhile (· == '-')).filter isOrdinary = [] := by
    rw [List.filter_eq_nil_iff]
    intro character contained
    have dash := List.all_eq_true.mp List.all_takeWhile character contained
    rw [beq_iff_eq.mp dash]
    decide
  conv_rhs => rw [← whole, List.filter_append, dashes, List.nil_append]

theorem filter_trimDashes (text : List Char) :
    (trimDashes text).filter isOrdinary = text.filter isOrdinary := by
  rw [trimDashes, List.rdropWhile, List.filter_reverse, filter_dropWhile_dashes,
    List.filter_reverse, List.reverse_reverse, filter_dropWhile_dashes]

theorem trimDashes_within (text : List Char) : trimDashes text <:+: text :=
  ( List.rdropWhile_prefix _ _).isInfix.trans (List.dropWhile_suffix _).isInfix

theorem getLast?_trimDashes (text : List Char) : (trimDashes text).getLast? ≠ some '-' := by
  intro dashed
  rcases List.getLast?_eq_some_iff.mp dashed with ⟨front, whole⟩
  have trimmed : trimDashes text ≠ [] := by simp [whole]
  have last := List.rdropWhile_last_not (· == '-') (text.dropWhile (· == '-')) trimmed
  apply last
  have final := List.getLast?_eq_some_getLast trimmed
  rw [dashed] at final
  simpa [trimDashes] using (Option.some.inj final).symm

theorem head?_trimDashes (text : List Char) : (trimDashes text).head? ≠ some '-' := by
  intro dashed
  rcases List.rdropWhile_prefix (· == '-') (text.dropWhile (· == '-')) with ⟨rest, whole⟩
  rcases List.head?_eq_some_iff.mp dashed with ⟨others, start⟩
  have first : (text.dropWhile (· == '-')).head? = some '-' := by
    rw [← whole]
    change (trimDashes text ++ rest).head? = some '-'
    rw [start]
    rfl
  have := List.head?_dropWhile_not (· == '-') text
  rw [first] at this
  simp at this

/-! ## A slug is one component -/

/-- The letters, digits, dots and underscores of a branch are a single dot. -/
def LoneDot (branch : List Char) : Prop := branch.filter isOrdinary = ['.']

instance : DecidablePred LoneDot := fun _ => inferInstanceAs (Decidable (_ = _))

theorem branchSlug_eq (branch : List Char) :
    (trimDashes (branch.foldl slugStep []) = [] ∧ branchSlug branch = "worktree".toList) ∨
    (trimDashes (branch.foldl slugStep []) ≠ [] ∧
      branchSlug branch = trimDashes (branch.foldl slugStep [])) := by
  by_cases nothing : trimDashes (branch.foldl slugStep []) = []
  · exact Or.inl ⟨nothing, if_pos nothing⟩
  · exact Or.inr ⟨nothing, if_neg nothing⟩

theorem branchSlug_ne_nil (branch : List Char) : branchSlug branch ≠ [] := by
  rcases branchSlug_eq branch with ⟨-, slug⟩ | ⟨something, slug⟩
  · rw [slug]
    decide
  · rwa [slug]

theorem mem_branchSlug {branch : List Char} {character : Char}
    (contained : character ∈ branchSlug branch) :
    isOrdinary character = true ∨ character = '-' := by
  rcases branchSlug_eq branch with ⟨-, slug⟩ | ⟨-, slug⟩
  · rw [slug] at contained
    have letters : ∀ letter ∈ "worktree".toList, isOrdinary letter = true := by
      simp [isOrdinary]
    exact Or.inl (letters character contained)
  · rw [slug] at contained
    exact mem_foldl_slugStep ((trimDashes_within _).subset contained)

/-- A slug is a dot alone only where the branch has nothing else to keep. -/
theorem branchSlug_eq_dot_iff (branch : List Char) :
    branchSlug branch = ['.'] ↔ LoneDot branch := by
  have kept : (trimDashes (branch.foldl slugStep [])).filter isOrdinary =
      branch.filter isOrdinary := by
    rw [filter_trimDashes, filter_foldl_slugStep]
  rw [LoneDot, ← kept]
  rcases branchSlug_eq branch with ⟨nothing, slug⟩ | ⟨-, slug⟩
  · rw [slug, nothing]
    decide
  · rw [slug]
    constructor
    · intro dot
      rw [dot]
      decide
    · intro dot
      have ends := getLast?_trimDashes (branch.foldl slugStep [])
      have starts := head?_trimDashes (branch.foldl slugStep [])
      have made : ∀ character ∈ trimDashes (branch.foldl slugStep []),
          isOrdinary character = true ∨ character = '-' := fun character contained =>
        mem_foldl_slugStep ((trimDashes_within _).subset contained)
      -- the first character is kept, so it is the dot and the rest are dashes
      rcases trimmed : trimDashes (branch.foldl slugStep []) with _ | ⟨first, rest⟩
      · rw [trimmed] at dot
        cases dot
      · rw [trimmed] at dot ends starts made
        have keptFirst : isOrdinary first = true := by
          rcases made first (by simp) with ordinary | dash
          · exact ordinary
          · exact absurd (by rw [dash]; rfl) starts
        rw [List.filter_cons_of_pos keptFirst] at dot
        rcases List.cons.inj dot with ⟨rfl, dashes⟩
        rcases List.eq_nil_or_concat rest with rfl | ⟨front, last, rfl⟩
        · rfl
        · rw [List.concat_eq_append] at ends made dashes
          rw [List.filter_eq_nil_iff] at dashes
          rcases made last (by simp) with ordinary | dash
          · exact absurd ordinary (dashes last (by simp))
          · exact absurd (by rw [dash, ← List.cons_append, List.getLast?_concat]) ends

theorem branchSlug_ne_dots {branch : List Char} (apart : ¬['.', '.'] <:+: branch) :
    branchSlug branch ≠ ['.', '.'] := by
  intro dots
  rcases branchSlug_eq branch with ⟨-, slug⟩ | ⟨-, slug⟩
  · rw [slug] at dots
    exact absurd dots (by decide)
  · rw [slug] at dots
    apply apart
    apply infix_of_foldl_slugStep
    · simp [isOrdinary]
    · rw [← dots]
      exact trimDashes_within _

/-- What a branch that git takes is squeezed into is one ordinary component, a lone dot apart. -/
theorem plain_branchSlug {branch : List Char} (apart : ¬['.', '.'] <:+: branch)
    (more : ¬LoneDot branch) : Plain (branchSlug branch) := by
  rw [plain_iff]
  refine ⟨branchSlug_ne_nil branch, ?_, ?_, branchSlug_ne_dots apart⟩
  · intro separator
    exact absurd (mem_branchSlug separator) (by decide)
  · intro dot
    exact more ((branchSlug_eq_dot_iff branch).mp dot)

theorem undotted_of_gitRefName {front branch : List Char}
    (allowed : gitRefName (front ++ branch) = true) : ¬['.', '.'] <:+: branch := by
  intro dots
  simp only [gitRefName, Bool.and_eq_true, Bool.not_eq_true', decide_eq_false_iff_not] at allowed
  apply allowed.1.1.2
  exact dots.trans (List.suffix_append _ _).isInfix

/-! ## The container -/

theorem plain_repoName (parent : FilePath) : Plain (repoName parent).toList := by
  have fallback : Plain "repository".toList := by decide
  unfold repoName
  rcases parent.fileName with _ | ⟨text | bytes, ordinary⟩
  · exact fallback
  · by_cases nothing : text.isEmpty = true
    · simpa only [Option.bind_some, OsName.toStr, Option.filter, nothing, Bool.not_true,
        Bool.false_eq_true, if_false, Option.getD_none] using fallback
    · have named : Plain text.toList := by
        rw [Plain, String.ofList_toList]
        exact ordinary
      simpa only [Option.bind_some, OsName.toStr, Option.filter, nothing, Bool.not_false,
        if_true, Option.getD_some] using named
  · exact fallback

theorem plain_worktrees (parent : FilePath) :
    Plain ((repoName parent).toList ++ ".worktrees".toList) :=
  (plain_repoName parent).append (by decide) ⟨'w', by decide, by decide⟩

/-- The directory that the configuration names for the checkouts of a repository. -/
def worktreeContainer (home : Option FilePath) (parent : FilePath) :
    Option FilePath → FilePath
  | none => (parent.parent.getD parent).child (nameOf _ (plain_worktrees parent))
  | some root =>
      match root.stripPart (FilePart.ofSegment ['~']) with
      | some rest => ((home.getD parent).join rest).child (nameOf _ (plain_repoName parent))
      | none =>
          if root.absolute then root.child (nameOf _ (plain_repoName parent))
          else parent.join root

/-- A checkout is a child of the container. -/
theorem worktreeDestination_eq (home : Option FilePath) (parent : FilePath)
    (worktreeRoot : Option FilePath) {branch : List Char} (plain : Plain (branchSlug branch)) :
    worktreeDestination home parent branch worktreeRoot =
      (worktreeContainer home parent worktreeRoot).child (nameOf _ plain) := by
  unfold worktreeDestination worktreeContainer
  rcases worktreeRoot with _ | root
  · simp only [join_ofText_plain (plain_worktrees parent), join_ofText_plain plain]
  · cases stripped : root.stripPart (FilePart.ofSegment ['~']) with
    | none =>
        by_cases absolute : root.absolute = true
        · simp only [stripped, absolute, if_true, join_ofText_plain (plain_repoName parent),
            join_ofText_plain plain]
        · simp only [stripped, absolute, if_false, Bool.false_eq_true, join_ofText_plain plain]
    | some rest =>
        simp only [stripped, join_ofText_plain (plain_repoName parent), join_ofText_plain plain]

/-! ## What a creation is asked for -/

/-- What is read of the parent repository. Its paths are real ones. -/
structure GitRepository where
  root : FilePath
  commonDirectory : FilePath
  linkedWorktree : Bool

/-- What a creation registers and where. -/
structure Plan where
  /-- The directory of the registrations. -/
  worktrees : FilePath
  destination : FilePath
  reference : List Char

/-- The checks of `create_worktree` before it opens the repository. -/
def prepare (accepts : List Char → Bool) (home : Option FilePath) (parent : GitRepository)
    (branch : String) (worktreeRoot : Option FilePath) : Except String Plan :=
  if parent.linkedWorktree then
    .error "create a worktree from the main repository Workspace"
  else if trim branch = "" then .error "branch name cannot be empty"
  else
    match branchRefName accepts (trim branch).toList with
    | .error message => .error message
    | .ok reference =>
        .ok {
          worktrees := parent.commonDirectory.join (ofText "worktrees".toList)
          destination :=
            worktreeDestination home parent.root (trim branch).toList worktreeRoot
          reference }

/-- What was asked for is a branch that git takes, under its full name. -/
theorem prepare_eq_ok {accepts : List Char → Bool} {home : Option FilePath}
    {parent : GitRepository} {branch : String} {worktreeRoot : Option FilePath} {plan : Plan}
    (prepared : prepare accepts home parent branch worktreeRoot = .ok plan) :
    accepts ("refs/heads/".toList ++ (trim branch).toList) = true ∧
      plan.worktrees = parent.commonDirectory.join (ofText "worktrees".toList) ∧
      plan.destination =
        worktreeDestination home parent.root (trim branch).toList worktreeRoot := by
  unfold prepare branchRefName at prepared
  split_ifs at prepared with linked empty dashed accepted
  cases prepared
  exact ⟨accepted, rfl, rfl⟩

end Condr.Worktree
