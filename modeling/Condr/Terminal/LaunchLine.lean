import Condr.Terminal.LaunchWords

/-!
# A launch line read by its shell

The line is read by the rules of the shell it is typed to, and gives back the program and its
arguments but where a word that is left bare means more to the shell: a program that is a reserved
word or looks like an assignment, a word after `=` in zsh, and `%self` in fish.
-/

namespace Condr.Launch

/-! ## Reading a line -/

/-- The shells whose rules are known here. -/
inductive Family where
  | posix (dialect : PosixShell.Dialect)
  | zsh
  | fish
  | powershell
deriving DecidableEq

def Family.of (shell : String) : Option Family :=
  if isPowershell shell then some .powershell
  else if shell = "fish" then some .fish
  else if shell = "zsh" then some .zsh
  else if shell = "bash" then some (.posix .bash)
  else if shell = "ksh" then some (.posix .ksh)
  else if shell = "mksh" then some (.posix .mksh)
  else if shell = "sh" || shell = "dash" then some (.posix .sh)
  else none

/-- A call of a program with arguments. -/
def powershellCall (line : List Char) : Option (List (List Char)) :=
  (PowerShell.splitter.split line).bind (ShellWord.literal PowerShell.isParameter fun _ => false)

/-- `Start-Process`, which starts a program with a line of arguments. -/
def startProcess (line : List Char) : Option (List (List Char)) := do
  let words ← PowerShell.splitter.split line
  match words with
  | [command, filePath, program, noNewWindow, wait] =>
      if [command, filePath, noNewWindow, wait] =
          ["Start-Process", "-FilePath", "-NoNewWindow", "-Wait"].map
            (fun word => .bare word.toList) && !PowerShell.isParameter program then
        some [program.text]
      else none
  | [command, filePath, program, argumentList, arguments, noNewWindow, wait] =>
      if [command, filePath, argumentList, noNewWindow, wait] =
          ["Start-Process", "-FilePath", "-ArgumentList", "-NoNewWindow", "-Wait"].map
            (fun word => .bare word.toList) && !PowerShell.isParameter program &&
            !PowerShell.isParameter arguments then
        (WindowsArguments.splitter.split arguments.text).map (program.text :: ·)
      else none
  | _ => none

/-- The program and the arguments that a shell makes of a line. -/
def Family.parse : Family → List Char → Option (List (List Char))
  | posix dialect, line => dialect.parse line
  | zsh, line => Zsh.parse line
  | fish, line => Fish.parse line
  | powershell, '&' :: line => powershellCall line
  | powershell, line => startProcess line

/-- What a shell reads a bare word as more than a word in. -/
def Family.Literal (program : List Char) (args : List (List Char)) : Family → Prop
  | posix dialect =>
      ¬ (staysPosix program ∧ (dialect.assigns program ∨ program ∈ dialect.reserved))
  | zsh =>
      ¬ (staysPosix program ∧ (Zsh.assigns program ∨ program ∈ Zsh.reserved)) ∧
        ∀ word ∈ program :: args, ¬ (staysPosix word ∧ Zsh.namesCommand word)
  | fish =>
      ¬ (staysPosix program ∧ (Fish.assigns program ∨ program ∈ Fish.reserved)) ∧
        ∀ word ∈ program :: args, word ≠ Fish.self
  | powershell => True

/-! ## What is read of the words -/

/-- Words that no rule reads more in are read as they were. -/
theorem literal_wordOf_iff {expands leads : ShellWord → Bool} {stays : List Char → Bool}
    (program : List Char) (args : List (List Char)) :
    ShellWord.literal expands leads ((program :: args).map (wordOf stays)) =
        some (program :: args) ↔
      (∀ word ∈ program :: args, expands (wordOf stays word) = false) ∧
        leads (wordOf stays program) = false := by
  have literal := @ShellWord.literal_eq_some_iff expands leads
    ((program :: args).map (wordOf stays))
  rw [map_text_wordOf] at literal
  rw [literal]
  simp

theorem leads_wordOf_iff {assigns : List Char → Bool} {reserved : List (List Char)}
    (empty : assigns [] = false) (program : List Char) :
    (assigns (wordOf staysPosix program).front ||
        (!(wordOf staysPosix program).quoted &&
          reserved.contains (wordOf staysPosix program).text)) = false ↔
      ¬ (staysPosix program ∧ (assigns program ∨ program ∈ reserved)) := by
  unfold wordOf
  split_ifs with bare
  · have unquoted : (ShellWord.bare program).quoted = false := rfl
    simp [bare, unquoted]
  · have quoted : (ShellWord.whole program).quoted = true := rfl
    simp [bare, quoted, empty]

theorem parse_posix_iff (dialect : PosixShell.Dialect) (program : List Char)
    (args : List (List Char)) :
    dialect.parse (join ((program :: args).map posixQuote)) = some (program :: args) ↔
      Family.Literal program args (.posix dialect) := by
  have reads := Splitter.reads_map reads_posixQuote (program :: args)
  rw [PosixShell.Dialect.parse, join, Splitter.split_join PosixShell.ends reads, Option.bind_some,
    literal_wordOf_iff]
  have leads := @leads_wordOf_iff dialect.assigns dialect.reserved rfl program
  constructor
  · rintro ⟨-, first⟩
    exact leads.mp first
  · intro literal
    exact ⟨fun word _ => shows_wordOf word, leads.mpr literal⟩

theorem expands_zsh_iff (word : List Char) :
    Zsh.expands (wordOf staysPosix word) = false ↔ ¬ (staysPosix word ∧ Zsh.namesCommand word) := by
  rw [Zsh.expands, shows_wordOf, Bool.false_or]
  unfold wordOf
  split_ifs with bare
  · simp only [bare, true_and, ShellWord.bare]
    rcases word with _ | ⟨first, _ | ⟨second, rest⟩⟩
    · simp [Zsh.namesCommand]
    · simp [Zsh.namesCommand]
    · by_cases equals : first = '='
      · subst equals
        simp [Zsh.namesCommand]
      · simp [Zsh.namesCommand, equals]
  · cases word with
    | nil => simp [ShellWord.whole, bare]
    | cons first rest => simp [ShellWord.whole, bare]

theorem parse_zsh_iff (program : List Char) (args : List (List Char)) :
    Zsh.parse (join ((program :: args).map posixQuote)) = some (program :: args) ↔
      Family.Literal program args .zsh := by
  have reads := Splitter.reads_map reads_posixQuote (program :: args)
  rw [Zsh.parse, join, Splitter.split_join PosixShell.ends reads, Option.bind_some,
    literal_wordOf_iff]
  have leads := @leads_wordOf_iff Zsh.assigns Zsh.reserved rfl program
  constructor
  · rintro ⟨plain, first⟩
    exact ⟨leads.mp first, fun word contained => (expands_zsh_iff word).mp (plain word contained)⟩
  · rintro ⟨first, plain⟩
    exact ⟨fun word contained => (expands_zsh_iff word).mpr (plain word contained),
      leads.mpr first⟩

theorem expands_fish_iff (word : List Char) :
    Fish.expands (wordOf staysPosix word) = false ↔ word ≠ Fish.self := by
  rw [Fish.expands, shows_wordOf, Bool.false_or, text_wordOf]
  have stays : staysPosix Fish.self = true := by decide
  unfold wordOf
  split_ifs with bare
  · have unquoted : (ShellWord.bare word).quoted = false := rfl
    simp [unquoted]
  · have quoted : (ShellWord.whole word).quoted = true := rfl
    simp only [quoted, Bool.not_true, Bool.false_and, true_iff]
    rintro rfl
    exact bare stays

theorem parse_fish_iff (program : List Char) (args : List (List Char)) :
    Fish.parse (join ((program :: args).map fishQuote)) = some (program :: args) ↔
      Family.Literal program args .fish := by
  have reads := Splitter.reads_map reads_fishQuote (program :: args)
  rw [Fish.parse, join, Splitter.split_join Fish.ends reads, Option.bind_some,
    literal_wordOf_iff]
  have leads := @leads_wordOf_iff Fish.assigns Fish.reserved rfl program
  constructor
  · rintro ⟨plain, first⟩
    exact ⟨leads.mp first, fun word contained => (expands_fish_iff word).mp (plain word contained)⟩
  · rintro ⟨first, plain⟩
    exact ⟨fun word contained => (expands_fish_iff word).mpr (plain word contained),
      leads.mpr first⟩

/-! ## PowerShell lines -/

/-- A call with the words behind a space, and perhaps one more space. -/
theorem powershellCall_join (program : List Char) (args : List (List Char)) :
    powershellCall (' ' :: join ((program :: args).map powershellQuote)) =
      some (program :: args) := by
  have reads := Splitter.reads_map reads_powershellQuote (program :: args)
  have space : PowerShell.splitter.step PowerShell.splitter.start ' ' =
      some (PowerShell.between []) := rfl
  rw [powershellCall, Splitter.split, Splitter.feed_cons_of _ space, join,
    Splitter.finish_join PowerShell.ends reads, Option.bind_some, List.nil_append,
    literal_wordOf_iff]
  exact ⟨fun word _ => isParameter_wordOf word, rfl⟩

theorem powershellCall_alone (program : List Char) :
    powershellCall (' ' :: (powershellQuote program ++ [' '])) = some [program] := by
  have space : PowerShell.splitter.step PowerShell.splitter.start ' ' =
      some (PowerShell.between []) := rfl
  rw [powershellCall, Splitter.split, Splitter.feed_cons_of _ space,
    Splitter.feed_append_of _ (reads_powershellQuote program []),
    Splitter.feed_cons_of [] (PowerShell.ends.space [] _), Splitter.feed_nil, Option.bind_some,
    PowerShell.ends.finishBetween, Option.bind_some, List.nil_append]
  have texts := @literal_wordOf_iff PowerShell.isParameter (fun _ => false) staysPowershell
    program []
  apply texts.mpr
  exact ⟨fun word _ => isParameter_wordOf word, rfl⟩

theorem startProcess_alone (program : List Char) :
    startProcess (join ["Start-Process".toList, "-FilePath".toList, powershellQuote program,
      "-NoNewWindow".toList, "-Wait".toList]) = some [program] := by
  have reads : List.Forall₂ (PowerShell.splitter.Reads PowerShell.between PowerShell.ended)
      ["Start-Process".toList, "-FilePath".toList, powershellQuote program,
        "-NoNewWindow".toList, "-Wait".toList]
      [.bare "Start-Process".toList, .bare "-FilePath".toList, wordOf staysPowershell program,
        .bare "-NoNewWindow".toList, .bare "-Wait".toList] :=
    .cons (reads_plain (by decide)) (.cons (reads_plain (by decide))
      (.cons (reads_powershellQuote program) (.cons (reads_plain (by decide))
        (.cons (reads_plain (by decide)) .nil))))
  rw [startProcess, join, Splitter.split_join PowerShell.ends reads]
  simp [isParameter_wordOf, text_wordOf]

theorem startProcess_list (program : List Char) (args : List (List Char)) :
    startProcess (join ["Start-Process".toList, "-FilePath".toList, powershellQuote program,
      "-ArgumentList".toList, powershellQuote (join (args.map windowsQuote)),
      "-NoNewWindow".toList, "-Wait".toList]) = some (program :: args) := by
  have reads : List.Forall₂ (PowerShell.splitter.Reads PowerShell.between PowerShell.ended)
      ["Start-Process".toList, "-FilePath".toList, powershellQuote program,
        "-ArgumentList".toList, powershellQuote (join (args.map windowsQuote)),
        "-NoNewWindow".toList, "-Wait".toList]
      [.bare "Start-Process".toList, .bare "-FilePath".toList, wordOf staysPowershell program,
        .bare "-ArgumentList".toList, wordOf staysPowershell (join (args.map windowsQuote)),
        .bare "-NoNewWindow".toList, .bare "-Wait".toList] :=
    .cons (reads_plain (by decide)) (.cons (reads_plain (by decide))
      (.cons (reads_powershellQuote program) (.cons (reads_plain (by decide))
        (.cons (reads_powershellQuote _) (.cons (reads_plain (by decide))
          (.cons (reads_plain (by decide)) .nil))))))
  rw [startProcess, join, Splitter.split_join PowerShell.ends reads]
  simp [isParameter_wordOf, text_wordOf, split_windowsQuote]

/-- A line that PowerShell starts with a command's name. -/
theorem parse_command (words : List (List Char)) :
    Family.powershell.parse (join ("Start-Process".toList :: words)) =
      startProcess (join ("Start-Process".toList :: words)) := by
  cases words with
  | nil => rfl
  | cons next rest =>
      rw [join, List.intercalate_cons_cons]
      rfl

/-- What PowerShell is given on Windows always gives the program and its arguments. -/
theorem parse_windowsCommand {program line : List Char} {args : List (List Char)}
    (produced : windowsCommand program args = .ok line) :
    Family.powershell.parse line = some (program :: args) := by
  unfold windowsCommand at produced
  dsimp only at produced
  split_ifs at produced with script batch none
  · cases produced
    cases args with
    | nil => exact powershellCall_alone program
    | cons first rest =>
        have line : "& ".toList ++ powershellQuote program ++
            ' ' :: join ((first :: rest).map powershellQuote) =
            '&' :: ' ' :: join ((program :: first :: rest).map powershellQuote) := by
          rw [join, join, List.map_cons, List.map_cons, List.map_cons, List.intercalate_cons_cons]
          rw [← List.map_cons, List.append_assoc, List.append_assoc]
          rfl
        rw [line]
        exact powershellCall_join program (first :: rest)
  · cases produced
    rw [List.isEmpty_iff] at none
    subst none
    have line : "Start-Process -FilePath ".toList ++ powershellQuote program ++ [] ++
        " -NoNewWindow -Wait".toList = join ["Start-Process".toList, "-FilePath".toList,
          powershellQuote program, "-NoNewWindow".toList, "-Wait".toList] := by
      simp [join, List.intercalate_cons_cons]
    rw [line, parse_command]
    exact startProcess_alone program
  · cases produced
    have line : "Start-Process -FilePath ".toList ++ powershellQuote program ++
        (" -ArgumentList ".toList ++ powershellQuote (join (args.map windowsQuote))) ++
        " -NoNewWindow -Wait".toList = join ["Start-Process".toList, "-FilePath".toList,
          powershellQuote program, "-ArgumentList".toList,
          powershellQuote (join (args.map windowsQuote)), "-NoNewWindow".toList,
          "-Wait".toList] := by
      simp [join, List.intercalate_cons_cons]
    rw [line, parse_command]
    exact startProcess_list program args

theorem parse_call (program : List Char) (args : List (List Char)) :
    Family.powershell.parse ("& ".toList ++ join ((program :: args).map powershellQuote)) =
      some (program :: args) :=
  powershellCall_join program args

/-! ## The line of a launch -/

theorem isPowershell_of_family {shell : String} {family : Family}
    (known : Family.of shell = some family) :
    isPowershell shell = true ↔ family = .powershell := by
  unfold Family.of at known
  split_ifs at known with powershell fish zsh bash ksh mksh sh <;> cases known <;>
    simp [powershell]

/-- A line that is typed as it is. -/
theorem parse_quoteFor_iff {shell : String} {family : Family}
    (known : Family.of shell = some family) (program : List Char) (args : List (List Char)) :
    family.parse ((if isPowershell shell then "& ".toList else []) ++
        join ((program :: args).map (quoteFor shell))) = some (program :: args) ↔
      family.Literal program args := by
  unfold Family.of at known
  split_ifs at known with powershell fish zsh bash ksh mksh sh <;> cases known
  · rw [if_pos powershell, quoteFor, if_pos powershell]
    exact ⟨fun _ => trivial, fun _ => parse_call program args⟩
  · rw [if_neg powershell, quoteFor, if_neg powershell, if_pos fish]
    exact parse_fish_iff program args
  · rw [if_neg powershell, quoteFor, if_neg powershell, if_neg fish]
    exact parse_zsh_iff program args
  · rw [if_neg powershell, quoteFor, if_neg powershell, if_neg fish]
    exact parse_posix_iff .bash program args
  · rw [if_neg powershell, quoteFor, if_neg powershell, if_neg fish]
    exact parse_posix_iff .ksh program args
  · rw [if_neg powershell, quoteFor, if_neg powershell, if_neg fish]
    exact parse_posix_iff .mksh program args
  · rw [if_neg powershell, quoteFor, if_neg powershell, if_neg fish]
    exact parse_posix_iff .sh program args

/-- Text without control characters is refused only to a batch shim on Windows. The line of a launch
gives back just the program and its arguments when none of the bare words means more to the shell,
and a Windows program always gets its arguments. -/
theorem shell_command_literal_iff {windows : Bool} {shell : String} {family : Family}
    {program : List Char} {args : List (List Char)} (known : Family.of shell = some family)
    (clean : ∀ word ∈ program :: args, ∀ char ∈ word, JsonText.isControl char = false) :
    ((windows = true ∧ family = .powershell ∧
        shellCommand windows shell program args = .error .batchShim) ∨
      ∃ line, shellCommand windows shell program args = .ok line ∧
        (family.parse line = some (program :: args) ↔ family.Literal program args)) ∧
      WindowsArguments.splitter.split (join (args.map windowsQuote)) = some args := by
  refine ⟨?_, split_windowsQuote args⟩
  have controls : ((program :: args).any fun arg => arg.any JsonText.isControl) = false := by
    rw [List.any_eq_false]
    intro word contained
    rw [Bool.not_eq_true, List.any_eq_false]
    intro char within
    rw [clean word contained char within]
    exact Bool.false_ne_true
  have foreign : shell ≠ "cmd" := by
    rintro rfl
    cases known
  have powershell := isPowershell_of_family known
  unfold shellCommand
  rw [controls, if_neg Bool.false_ne_true]
  by_cases runs : (windows && (isPowershell shell || shell = "cmd")) = true
  · rw [if_pos runs]
    simp only [foreign, decide_false, Bool.or_false, Bool.and_eq_true] at runs
    have isFamily := powershell.mp runs.2
    subst isFamily
    cases produced : windowsCommand program args with
    | error error =>
        left
        refine ⟨runs.1, rfl, ?_⟩
        unfold windowsCommand at produced
        dsimp only at produced
        split_ifs at produced
        cases produced
        rfl
    | ok script =>
        right
        refine ⟨script, ?_, ?_⟩
        · simp only [runs.2, if_true]
          rfl
        · exact ⟨fun _ => trivial, fun _ => parse_windowsCommand produced⟩
  · rw [if_neg runs]
    right
    exact ⟨_, rfl, parse_quoteFor_iff known program args⟩

theorem shell_command_literal_iff_codex :
    Family.parse (.posix .bash) (join (["codex".toList, "a'b".toList].map posixQuote)) =
        some ["codex".toList, "a'b".toList] ↔
      Family.Literal "codex".toList ["a'b".toList] (.posix .bash) := by
  have known : Family.of "bash" = some (.posix .bash) := by decide
  have clean : ∀ word ∈ ["codex".toList, "a'b".toList], ∀ char ∈ word,
      JsonText.isControl char = false := by
    have all : (["codex".toList, "a'b".toList].all fun word => word.all fun char =>
        !JsonText.isControl char) = true := by decide
    simpa only [List.all_eq_true, Bool.not_eq_true'] using all
  rcases (@shell_command_literal_iff false _ _ _ _ known clean).1 with
    ⟨windows, -⟩ | ⟨line, produced, iff⟩
  · cases windows
  · cases produced
    exact iff

/-- zsh takes a bare word after `=` for a command's path. -/
theorem equals_expands :
    shellCommand false "zsh" "codex".toList ["=ls".toList] = .ok "codex =ls".toList ∧
      Family.zsh.parse "codex =ls".toList ≠ some ["codex".toList, "=ls".toList] := by
  decide

end Condr.Launch
