import Condr.Foundation.ShellWords
import Condr.Foundation.WindowsArguments
import Condr.Terminal.Launch
import Mathlib.Data.List.Induction

/-!
# What a launch is read as

Each way of quoting makes one word for its shell, bare or quoted as a whole. The shell still reads
more than a word in some of the words that are left bare, and that is all that can go wrong; the
arguments of a Windows program always come back.
-/

namespace Condr.Launch

/-! ## Windows arguments -/

/-- The quoting so far is read up to the backslashes that are still to be written. -/
theorem feed_windowsQuoteStep (words : List (List Char)) (value : List Char) :
    ∃ text afterQuote,
      WindowsArguments.splitter.feed (WindowsArguments.between words)
        (value.foldl windowsQuoteStep (['"'], 0)).1 =
          some (WindowsArguments.inQuotes words text 0 afterQuote) ∧
      value = text ++ List.replicate (value.foldl windowsQuoteStep (['"'], 0)).2 '\\' := by
  induction value using List.reverseRecOn with
  | nil =>
      refine ⟨[], true, ?_, rfl⟩
      rw [List.foldl_nil, Splitter.feed_cons_of [] WindowsArguments.step_open]
      rfl
  | append_singleton value char ih =>
      rcases ih with ⟨text, afterQuote, fed, parts⟩
      rw [List.foldl_append, List.foldl_cons, List.foldl_nil]
      generalize value.foldl windowsQuoteStep (['"'], 0) = state at fed parts ⊢
      rcases state with ⟨quoted, backslashes⟩
      dsimp only at fed parts
      by_cases backslash : char = '\\'
      · refine ⟨text, afterQuote, ?_, ?_⟩
        · rw [windowsQuoteStep, if_pos backslash]
          exact fed
        · rw [windowsQuoteStep, if_pos backslash, parts, backslash, List.replicate_succ',
            List.append_assoc]
      · rw [windowsQuoteStep, if_neg backslash]
        by_cases quote : char = '"'
        · subst quote
          refine ⟨value ++ ['"'], true, ?_, by simp⟩
          dsimp only
          rw [if_pos rfl, List.append_assoc, Splitter.feed_append_of _ fed,
            Splitter.feed_append_of _ (WindowsArguments.feed_backslashes 0 _), Nat.zero_add]
          have odd : (afterQuote && decide (backslashes * 2 + 1 = 0)) = false := by simp
          rw [odd, Splitter.feed_cons_of [] (WindowsArguments.step_quote_odd backslashes), ← parts]
          rfl
        · refine ⟨value ++ [char], false, ?_, by simp⟩
          dsimp only
          rw [if_neg quote, List.append_assoc, Splitter.feed_append_of _ fed,
            Splitter.feed_append_of _ (WindowsArguments.feed_backslashes 0 _), Nat.zero_add,
            Splitter.feed_cons_of [] (WindowsArguments.step_inQuotes quote backslash), ← parts]
          rfl

theorem reads_windowsQuote (value : List Char) :
    WindowsArguments.splitter.Reads WindowsArguments.between WindowsArguments.ended
      (windowsQuote value) value := by
  intro words
  rcases feed_windowsQuoteStep words value with ⟨text, afterQuote, fed, parts⟩
  rw [windowsQuote]
  generalize value.foldl windowsQuoteStep (['"'], 0) = state at fed parts ⊢
  rcases state with ⟨quoted, backslashes⟩
  dsimp only at fed parts ⊢
  rw [List.append_assoc, Splitter.feed_append_of _ fed,
    Splitter.feed_append_of _ (WindowsArguments.feed_backslashes 0 _), Nat.zero_add,
    Splitter.feed_cons_of [] (WindowsArguments.step_quote_even backslashes ?_), ← parts]
  · rfl
  · intro still
    simp only [Bool.and_eq_true, decide_eq_true_eq] at still
    omega

/-- A program started with the joined arguments is given just these. -/
theorem split_windowsQuote (args : List (List Char)) :
    WindowsArguments.splitter.split (join (args.map windowsQuote)) = some args := by
  have reads := @Splitter.reads_map _ _ _ _ _ _ id reads_windowsQuote args
  rw [join, Splitter.split_join WindowsArguments.ends reads, List.map_id]

/-! ## Words -/

/-- A text as the word it is quoted as. -/
def wordOf (stays : List Char → Bool) (value : List Char) : ShellWord :=
  if stays value then .bare value else .whole value

theorem text_wordOf (stays : List Char → Bool) (value : List Char) :
    (wordOf stays value).text = value := by
  unfold wordOf
  split_ifs
  · exact ShellWord.text_bare value
  · exact ShellWord.text_whole value

theorem map_text_wordOf (stays : List Char → Bool) (values : List (List Char)) :
    (values.map (wordOf stays)).map ShellWord.text = values := by
  rw [List.map_map]
  exact List.map_id'' (text_wordOf stays) values

def staysPosix (value : List Char) : Bool := isBareWord value posixExtra

def staysPowershell (value : List Char) : Bool :=
  value.head? ≠ some '-' && isBareWord value powershellExtra

/-- No character of a bare word is one of those that none of the allowed ones is. -/
theorem not_mem_of_bare {value extra special : List Char} (bare : isBareWord value extra = true)
    (others : (special.any fun char => char.isAlphanum || extra.contains char) = false)
    {char : Char} (contained : char ∈ value) : char ∉ special := by
  intro isSpecial
  simp only [isBareWord, Bool.and_eq_true, List.all_eq_true] at bare
  exact List.any_eq_false.mp others char isSpecial (bare.2 char contained)

theorem ne_nil_of_bare {value extra : List Char} (bare : isBareWord value extra = true) :
    value ≠ [] := by
  rintro rfl
  simp [isBareWord] at bare

theorem isOrdinary_of_bare {value : List Char} (bare : staysPosix value = true) {char : Char}
    (contained : char ∈ value) : isOrdinary char = true := by
  have quotes := @not_mem_of_bare _ _ [' ', '\t', '\'', '"', '\\', '#'] bare (by decide) _ contained
  have operators := @not_mem_of_bare _ _ shellOperators bare (by decide) _ contained
  simp only [isOrdinary, List.contains_eq_mem, quotes, operators, decide_false, Bool.not_false,
    Bool.and_self]

theorem shows_wordOf (value : List Char) :
    (wordOf staysPosix value).shows shellExpansions = false := by
  unfold wordOf
  split_ifs with bare
  · exact ShellWord.shows_bare fun char contained =>
      not_mem_of_bare bare (by decide) contained
  · exact ShellWord.shows_whole _ _

/-! ## A POSIX shell -/

theorem reads_posixQuote (value : List Char) :
    PosixShell.splitter.Reads PosixShell.between PosixShell.ended (posixQuote value)
      (wordOf staysPosix value) := by
  intro words
  unfold posixQuote wordOf staysPosix
  by_cases bare : isBareWord value posixExtra = true
  · rw [if_pos bare, if_pos bare]
    refine @ShellReader.feed_word _ _ _ _ _ isOrdinary ?_ ?_ _ (ne_nil_of_bare bare)
      fun char contained => isOrdinary_of_bare bare contained
    · intro char ordinary
      exact PosixShell.step_plain ordinary
    · intro front char ordinary
      rw [PosixShell.step_plain ordinary, ← ShellWord.push_bare]
      rfl
  · rw [if_neg bare, if_neg bare, List.cons_append]
    have opens : PosixShell.splitter.step (PosixShell.between words) '\'' =
        some ⟨words, some (.whole []), .single⟩ := rfl
    rw [Splitter.feed_cons_of _ opens, replace, Splitter.feed_append_of _
      (ShellReader.feed_escaped ?_ value [])]
    · rfl
    · intro front char
      by_cases quote : char = '\''
      · rw [if_pos quote, quote, ← ShellWord.push_whole]
        rfl
      · rw [if_neg quote, ← ShellWord.push_whole]
        simp [Splitter.feed, PosixShell.splitter, PosixShell.step, quote, ShellReader.push,
          ShellReader.word]

/-! ## fish -/

theorem replace_fish (value : List Char) :
    replace (replace value '\\' ['\\', '\\']) '\'' ['\\', '\''] =
      value.flatMap fun char =>
        if char = '\\' then ['\\', '\\'] else if char = '\'' then ['\\', '\''] else [char] := by
  rw [replace, replace, List.flatMap_assoc]
  congr
  funext char
  by_cases slash : char = '\\'
  · rw [if_pos slash, if_pos slash]
    rfl
  · rw [if_neg slash, if_neg slash, List.flatMap_singleton]

theorem reads_fishQuote (value : List Char) :
    Fish.splitter.Reads Fish.between Fish.ended (fishQuote value) (wordOf staysPosix value) := by
  intro words
  unfold fishQuote wordOf staysPosix
  by_cases bare : isBareWord value posixExtra = true
  · rw [if_pos bare, if_pos bare]
    refine @ShellReader.feed_word _ _ _ _ _ isOrdinary ?_ ?_ _ (ne_nil_of_bare bare)
      fun char contained => isOrdinary_of_bare bare contained
    · intro char ordinary
      exact Fish.step_plain ordinary
    · intro front char ordinary
      rw [Fish.step_plain ordinary, ← ShellWord.push_bare]
      rfl
  · rw [if_neg bare, if_neg bare, List.cons_append, replace_fish]
    have opens : Fish.splitter.step (Fish.between words) '\'' =
        some ⟨words, some (.whole []), .single⟩ := rfl
    rw [Splitter.feed_cons_of _ opens, Splitter.feed_append_of _
      (ShellReader.feed_escaped ?_ value [])]
    · rfl
    · intro front char
      by_cases slash : char = '\\'
      · rw [if_pos slash, slash, ← ShellWord.push_whole]
        rfl
      · rw [if_neg slash, ← ShellWord.push_whole]
        by_cases quote : char = '\''
        · rw [if_pos quote, quote]
          rfl
        · rw [if_neg quote]
          simp [Splitter.feed, Fish.splitter, Fish.step, slash, quote, ShellReader.push,
            ShellReader.word]

/-! ## PowerShell -/

theorem toNat_lt_of_isAlphanum {char : Char} (letter : char.isAlphanum = true) :
    char.toNat < 128 := by
  have upper : ('Z' : Char).val.toNat = 90 := rfl
  have lower : ('z' : Char).val.toNat = 122 := rfl
  have digit : ('9' : Char).val.toNat = 57 := rfl
  have below : ∀ last : Char, char.val ≤ last.val → char.toNat ≤ last.val.toNat :=
    fun _ within => UInt32.le_iff_toNat_le.mp within
  rcases Bool.or_eq_true_iff.mp letter with alpha | number
  · rcases Bool.or_eq_true_iff.mp alpha with capital | small
    · have := below 'Z' (of_decide_eq_true capital).2
      omega
    · have := below 'z' (of_decide_eq_true (Bool.and_eq_true_iff.mp small).2)
      omega
  · have := below '9' (of_decide_eq_true (Bool.and_eq_true_iff.mp number).2)
    omega

theorem ascii_of_bare {value : List Char} (bare : isBareWord value powershellExtra = true)
    {char : Char} (contained : char ∈ value) : char.toNat < 128 := by
  simp only [isBareWord, Bool.and_eq_true, List.all_eq_true, Bool.or_eq_true] at bare
  rcases bare.2 char contained with letter | extra
  · exact toNat_lt_of_isAlphanum letter
  · have each : ∀ other ∈ powershellExtra, other.toNat < 128 :=
      List.all_iff_forall_prop.mp (by decide)
    exact each char (by simpa using extra)

theorem isPlain_of_bare {value : List Char} (bare : isBareWord value powershellExtra = true)
    {char : Char} (contained : char ∈ value) :
    PowerShell.isPlain char = true ∧ PowerShell.isBlank char = false ∧
      PowerShell.isSingleQuote char = false := by
  have special := @not_mem_of_bare _ _ PowerShell.special bare (by decide) _ contained
  have quotes := @not_mem_of_bare _ _ [' ', '\t', '\'', '"'] bare (by decide) _ contained
  have ascii := ascii_of_bare bare contained
  simp only [List.mem_cons, List.not_mem_nil, or_false, not_or] at quotes
  have single : PowerShell.isSingleQuote char = false := by
    simp only [PowerShell.isSingleQuote, quotes.2.2.1, decide_false, Bool.false_or,
      Bool.and_eq_false_iff, decide_eq_false_iff_not]
    omega
  have double : PowerShell.isDoubleQuote char = false := by
    simp only [PowerShell.isDoubleQuote, quotes.2.2.2, decide_false, Bool.false_or,
      Bool.and_eq_false_iff, decide_eq_false_iff_not]
    omega
  refine ⟨?_, ?_, single⟩
  · simp only [PowerShell.isPlain, List.contains_eq_mem, special, decide_false, single, double,
      Bool.not_false, Bool.and_self]
  · simp only [PowerShell.isBlank, quotes.1, quotes.2.1, decide_false, Bool.or_self]

/-- Characters that stay are read as a word without quotes. -/
theorem reads_plain {value : List Char} (bare : isBareWord value powershellExtra = true) :
    PowerShell.splitter.Reads PowerShell.between PowerShell.ended value (.bare value) := by
  intro words
  change PowerShell.splitter.feed ⟨words, none, .blank⟩ value =
    some ⟨words, some (.bare value), .bare⟩
  let takes := fun char => PowerShell.isPlain char && !PowerShell.isBlank char &&
    !PowerShell.isSingleQuote char
  refine @ShellReader.feed_word _ _ _ _ _ takes ?_ ?_ _ (ne_nil_of_bare bare) ?_
  · intro char taken
    simp only [takes, Bool.and_eq_true, Bool.not_eq_true'] at taken
    simp [PowerShell.splitter, PowerShell.step, taken, ShellReader.push, ShellReader.word,
      ShellWord.bare, ShellWord.push, ShellWord.empty]
  · intro front char taken
    simp only [takes, Bool.and_eq_true, Bool.not_eq_true'] at taken
    rw [← ShellWord.push_bare]
    simp [PowerShell.splitter, PowerShell.step, taken, ShellReader.push, ShellReader.word]
  · intro char contained
    rcases isPlain_of_bare bare contained with ⟨plain, blank, quote⟩
    simp [takes, plain, blank, quote]

theorem reads_powershellQuote (value : List Char) :
    PowerShell.splitter.Reads PowerShell.between PowerShell.ended (powershellQuote value)
      (wordOf staysPowershell value) := by
  unfold powershellQuote wordOf staysPowershell
  by_cases bare : (value.head? ≠ some '-' && isBareWord value powershellExtra) = true
  · rw [if_pos bare, if_pos bare]
    simp only [Bool.and_eq_true] at bare
    exact reads_plain bare.2
  · intro words
    rw [if_neg bare, if_neg bare, List.cons_append]
    have opens : PowerShell.splitter.step (PowerShell.between words) '\'' =
        some ⟨words, some (.whole []), .single⟩ := rfl
    rw [Splitter.feed_cons_of _ opens, Splitter.feed_append_of _
      (ShellReader.feed_escaped ?_ value [])]
    · rfl
    · intro front char
      rw [← ShellWord.push_whole]
      cases quote : PowerShell.isSingleQuote char with
      | false =>
          rw [if_neg (by simpa [PowerShell.isSingleQuote] using quote)]
          simp [Splitter.feed, PowerShell.splitter, PowerShell.step, quote, ShellReader.push,
            ShellReader.word]
      | true =>
          rw [if_pos (by simpa [PowerShell.isSingleQuote] using quote)]
          simp [Splitter.feed, PowerShell.splitter, PowerShell.step, quote, ShellReader.push,
            ShellReader.word, ShellReader.become]

/-- No word is taken for a parameter. -/
theorem isParameter_wordOf (value : List Char) :
    PowerShell.isParameter (wordOf staysPowershell value) = false := by
  unfold wordOf
  split_ifs with bare
  · simp only [staysPowershell, Bool.and_eq_true, decide_eq_true_eq] at bare
    cases value with
    | nil => rfl
    | cons first rest =>
        have dash : first ≠ '-' := by simpa using bare.1
        have ascii := ascii_of_bare bare.2 (@List.mem_cons_self _ first rest)
        simp only [PowerShell.isParameter, ShellWord.front_bare, List.head?_cons, Option.any_some,
          PowerShell.isDash, dash, decide_false, Bool.false_or, Bool.and_eq_false_iff,
          decide_eq_false_iff_not]
        omega
  · simp [PowerShell.isParameter]

end Condr.Launch
