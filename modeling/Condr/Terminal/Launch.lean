import Condr.Foundation.JsonText

/-!
# Launching at a prompt

An agent is launched by a line typed at a shell's prompt. Its words are quoted for the shell, and on
Windows PowerShell starts the program with a line of arguments that is quoted once more.
-/

namespace Condr.Launch

/-- Why a launch is refused. -/
inductive LaunchError where
  | controlCharacters
  | batchShim
deriving DecidableEq

def LaunchError.message : LaunchError → String
  | controlCharacters => "agent arguments cannot contain control characters"
  | batchShim =>
      "batch agent shims cannot preserve shell metacharacters; use an .exe or .ps1 installation"

/-- Words with a space between any two. -/
def join (words : List (List Char)) : List Char := [' '].intercalate words

/-- `str::replace` of one character. -/
def replace (value : List Char) (char : Char) (replacement : List Char) : List Char :=
  value.flatMap fun each => if each = char then replacement else [each]

def isBareWord (value : List Char) (extra : List Char) : Bool :=
  !value.isEmpty && value.all fun char => char.isAlphanum || extra.contains char

/-- The characters that `posix_quote` and `fish_quote` leave as they are. -/
def posixExtra : List Char := ['@', '%', '_', '+', '=', ':', ',', '.', '/', '-']

def powershellExtra : List Char := ['_', '-', '.', '/', ':', '+', '=']

def posixQuote (value : List Char) : List Char :=
  if isBareWord value posixExtra then value
  else '\'' :: replace value '\'' ['\'', '\\', '\'', '\''] ++ ['\'']

def fishQuote (value : List Char) : List Char :=
  if isBareWord value posixExtra then value
  else '\'' :: replace (replace value '\\' ['\\', '\\']) '\'' ['\\', '\''] ++ ['\'']

def powershellQuote (value : List Char) : List Char :=
  if value.head? ≠ some '-' && isBareWord value powershellExtra then value
  else
    '\'' :: (value.flatMap fun char =>
      if char = '\'' || (0x2018 ≤ char.toNat && char.toNat ≤ 0x201B) then [char, char]
      else [char]) ++ ['\'']

/-! ## Windows -/

/-- The quoted text so far, and the backslashes that are still to be written. -/
def windowsQuoteStep (state : List Char × ℕ) (char : Char) : List Char × ℕ :=
  let (quoted, backslashes) := state
  if char = '\\' then (quoted, backslashes + 1)
  else
    (quoted ++ List.replicate (if char = '"' then backslashes * 2 + 1 else backslashes) '\\' ++
      [char], 0)

def windowsQuote (value : List Char) : List Char :=
  let (quoted, backslashes) := value.foldl windowsQuoteStep (['"'], 0)
  quoted ++ List.replicate (backslashes * 2) '\\' ++ ['"']

/-- The first component of a path, and what is behind it. -/
def component (separates : Char → Bool) (path : List Char) : List Char × List Char :=
  (path.takeWhile fun char => !separates char, (path.dropWhile fun char => !separates char).drop 1)

def isBackslash (char : Char) : Bool := char = '\\'

def isSeparator (char : Char) : Bool := char = '\\' || char = '/'

/-- What is left of a path behind its prefix, a drive, a device or a share, and whether only
backslashes separate in it. -/
def dropPrefix (path : List Char) : List Char × Bool :=
  match path with
  | '\\' :: '\\' :: '?' :: '\\' :: 'U' :: 'N' :: 'C' :: '\\' :: rest =>
      ((component isBackslash (component isBackslash rest).2).2, true)
  | '\\' :: '\\' :: '?' :: '\\' :: rest => ((component isBackslash rest).2, true)
  | first :: second :: rest =>
      if isSeparator first && isSeparator second then
        let (server, share) := component isSeparator rest
        if server = ['.'] then ((component isSeparator share).2, false)
        else if server.isEmpty || (component isSeparator share).1.isEmpty then (path, false)
        else ((component isSeparator share).2, false)
      else if first.isAlpha && second = ':' then (rest, false)
      else (path, false)
  | _ => (path, false)

/-- `Path::file_name` on Windows. -/
def fileName (path : List Char) : Option (List Char) :=
  let (rest, verbatim) := dropPrefix path
  let parts := rest.splitOnP (if verbatim then isBackslash else isSeparator)
  match (parts.filter fun part => part ≠ [] && part ≠ ['.']).getLast? with
  | some ['.', '.'] => none
  | name => name

/-- `Path::extension`: what follows the last dot of the file's name, unless it begins with it. -/
def extension (path : List Char) : Option (List Char) :=
  (fileName path).bind fun name =>
    let before := (name.reverse.dropWhile fun char => char ≠ '.').tail
    if before.isEmpty then none else some (name.drop (before.length + 1))

/-- `eq_ignore_ascii_case`. -/
def sameIgnoringCase (first second : List Char) : Bool :=
  first.map Char.toLower = second.map Char.toLower

/-- The characters of an argument that a batch file does not get as they are. -/
def batchMetacharacters : List Char := ['&', '|', '<', '>', '^', '(', ')', '%', '!', '"']

def windowsCommand (program : List Char) (args : List (List Char)) :
    Except LaunchError (List Char) :=
  let extension := (extension program).getD []
  if sameIgnoringCase extension "ps1".toList then
    .ok ("& ".toList ++ powershellQuote program ++ ' ' :: join (args.map powershellQuote))
  else if (["cmd", "bat"].any fun batch => sameIgnoringCase extension batch.toList) &&
      (args.any fun arg => arg.any batchMetacharacters.contains) then
    .error .batchShim
  else
    let arguments := join (args.map windowsQuote)
    let argumentList :=
      if args.isEmpty then [] else " -ArgumentList ".toList ++ powershellQuote arguments
    .ok ("Start-Process -FilePath ".toList ++ powershellQuote program ++ argumentList ++
      " -NoNewWindow -Wait".toList)

/-- `encode_utf16` and `to_le_bytes`. -/
def utf16Bytes (char : Char) : List ℕ :=
  let unit := fun unit => [unit % 256, unit / 256]
  if char.toNat < 0x10000 then unit char.toNat
  else
    unit (0xD800 + (char.toNat - 0x10000) / 0x400) ++
      unit (0xDC00 + (char.toNat - 0x10000) % 0x400)

def base64Digit (digit : ℕ) : Char :=
  if digit < 26 then Char.ofNat (65 + digit)
  else if digit < 52 then Char.ofNat (97 + (digit - 26))
  else if digit < 62 then Char.ofNat (48 + (digit - 52))
  else if digit = 62 then '+'
  else '/'

/-- `STANDARD.encode`. -/
def base64 : List ℕ → List Char
  | first :: second :: third :: rest =>
      base64Digit (first / 4) :: base64Digit (first % 4 * 16 + second / 16) ::
        base64Digit (second % 16 * 4 + third / 64) :: base64Digit (third % 64) :: base64 rest
  | [first, second] =>
      [base64Digit (first / 4), base64Digit (first % 4 * 16 + second / 16),
        base64Digit (second % 16 * 4), '=']
  | [first] => [base64Digit (first / 4), base64Digit (first % 4 * 16), '=', '=']
  | [] => []

def encodedPowershellCommand (script : List Char) : List Char :=
  "powershell.exe -NoLogo -NoProfile -EncodedCommand ".toList ++ base64 (script.flatMap utf16Bytes)

/-! ## The line -/

def isPowershell (shell : String) : Bool := shell = "pwsh" || shell = "powershell"

/-- The quoting of words for a shell that is typed to as it is. -/
def quoteFor (shell : String) : List Char → List Char :=
  if isPowershell shell then powershellQuote
  else if shell = "fish" then fishQuote
  else posixQuote

def shellCommand (windows : Bool) (shell : String) (program : List Char) (args : List (List Char)) :
    Except LaunchError (List Char) :=
  if (program :: args).any fun arg => arg.any JsonText.isControl then .error .controlCharacters
  else if windows && (isPowershell shell || shell = "cmd") then do
    let script ← windowsCommand program args
    return if isPowershell shell then script else encodedPowershellCommand script
  else
    .ok ((if isPowershell shell then "& ".toList else []) ++
      join ((program :: args).map (quoteFor shell)))

end Condr.Launch
