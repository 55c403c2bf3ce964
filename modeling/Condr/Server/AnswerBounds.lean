import Condr.Server.AnswerBudget

/-!
# How much more answers take

What the readers answer, and how long it is once it is encoded: the texts that are read, with a
few bytes for the fields around each.
-/

namespace Condr

open ClientWriter (maxFrameSize)
open Protobuf

/-! ## Room for a result -/

/-- The fields of a result's value, or its error, have room beside those around it. -/
def ResultFits {α : Type} (echoed : ℕ) (okFields : α → List Field) : Except String α → Prop
  | .ok value => echoed + encodedLen (okFields value) + 128 ≤ maxFrameSize
  | .error reason => echoed + reason.utf8ByteSize + 128 ≤ maxFrameSize

theorem fitsBeside_nothing : FitsBeside 0 0 :=
  show 0 + 0 + 256 ≤ maxFrameSize by decide

section Room

variable {α β : Type} {echoed : ℕ} {okFields : α → List Field}

theorem FitsBeside.reason {reason : String} (echo : FitsBeside echoed 0)
    (short : reason.utf8ByteSize ≤ 128) : ResultFits echoed okFields (.error reason) := by
  unfold FitsBeside at echo
  show echoed + reason.utf8ByteSize + 128 ≤ maxFrameSize
  omega

/-- A value with its own fields. -/
theorem FitsBeside.value {size : ℕ} {value : α} (fits : FitsBeside echoed size)
    (near : encodedLen (okFields value) ≤ size + 128) :
    ResultFits echoed okFields (.ok value) := by
  unfold FitsBeside at fits
  show echoed + encodedLen (okFields value) + 128 ≤ maxFrameSize
  omega

theorem ErrorFits.result {read : Except String β} (fits : ErrorFits echoed read) {reason : String}
    (failed : read = .error reason) : ResultFits echoed okFields (.error reason) := by
  have room := fits reason failed
  unfold FitsBeside at room
  show echoed + reason.utf8ByteSize + 128 ≤ maxFrameSize
  omega

theorem ErrorFits.bind {read : Except String β} (fits : ErrorFits echoed read)
    {next : β → Except String α}
    (rest : ∀ value, read = .ok value → ResultFits echoed okFields (next value)) :
    ResultFits echoed okFields (read >>= next) := by
  cases outcome : read with
  | error reason => exact fits.result outcome
  | ok value => exact rest value outcome

/-- A lookup that fails with a few words. -/
theorem FitsBeside.lookup {read : Except String β} (echo : FitsBeside echoed 0)
    (short : ∀ reason, read = .error reason → reason.utf8ByteSize ≤ 128)
    {next : β → Except String α}
    (rest : ∀ value, read = .ok value → ResultFits echoed okFields (next value)) :
    ResultFits echoed okFields (read >>= next) := by
  cases outcome : read with
  | error reason => exact echo.reason (short reason outcome)
  | ok value => exact rest value outcome

theorem resultFits_map {make : β → α} {result : Except String β} :
    ResultFits echoed okFields (result.map make) ↔
      ResultFits echoed (fun value => okFields (make value)) result := by
  cases result <;> exact Iff.rfl

end Room

theorem memberUint_le (number value : ℕ) (small : number < 16) :
    encodedLen (memberUint number value) ≤ 11 := by
  have tag := length_tag small 0 (by omega)
  have size := length_varint_le value
  rw [Nat.add_zero] at tag
  rw [encodedLen_memberUint]
  omega

theorem encodedLen_message_le (number : ℕ) (fields : List Field)
    (small : number < 16) :
    encodedLen (message number fields) ≤ encodedLen fields + 11 := by
  rw [encodedLen_message]
  exact bytesLen_le_add number _ small

/-! ## Files -/

/-- A text with its version and its mark. -/
theorem text_spec (text : String) (version : Option ℕ) (lossy : Bool) :
    text.utf8ByteSize ≤ encodedLen (FileContent.fields (.text text version lossy)) ∧
      encodedLen (FileContent.fields (.text text version lossy)) ≤ text.utf8ByteSize + 33 := by
  have lower := bytesLen_spec 1 text.utf8ByteSize (by decide)
  have mark := uintLen_le 6 lossy.toNat (by decide)
  have number : encodedLen (optionalUint 5 version) ≤ 11 := by
    cases version with
    | none => exact Nat.zero_le 11
    | some version => exact memberUint_le _ version (by decide)
  simp only [FileContent.fields, encodedLen_append, encodedLen_memberString, encodedLen_flag]
  omega

theorem FileOnDisk.Reads.readFile {disk : FileOnDisk} {path : RelativePathBuf}
    {bytes : List UInt8} (reads : disk.Reads path bytes) (fileVersion : List UInt8 → ℕ) :
    ∃ content, Condr.readFile fileVersion disk path = .ok content ∧
      shownSize path bytes ≤ encodedLen content.fields ∧
      encodedLen content.fields ≤ shownSize path bytes + 33 := by
  rcases reads.metadata with ⟨metadata, found, isDir, isFile, len⟩
  unfold Condr.readFile shownSize
  simp only [reads.valid, found, isDir, isFile, reads.contents, Nat.not_lt.mpr len,
    Nat.not_lt.mpr reads.small, Bool.not_true, Bool.false_eq_true, if_false]
  have shown := reads.shown
  by_cases image : isImage path = true
  · simp only [image, if_true]
    have lower := bytesLen_spec 4 bytes.length (by decide)
    refine ⟨_, rfl, ?_⟩
    rw [FileContent.fields, encodedLen_bytes]
    omega
  · simp only [image, false_or, Bool.false_eq_true, if_false] at shown ⊢
    rw [shown, if_neg Bool.false_ne_true]
    cases decoded : fromUtf8 bytes with
    | none => exact ⟨_, rfl, text_spec _ _ _⟩
    | some text =>
        have same : textSize bytes = text.utf8ByteSize := by
          simp only [fromUtf8] at decoded
          split_ifs at decoded
          rw [← Option.some.inj decoded, textSize]
        rw [same]
        exact ⟨_, rfl, text_spec _ _ _⟩

theorem FileOnDisk.Moderate.readFile {disk : FileOnDisk} {path : RelativePathBuf}
    (moderate : disk.Moderate path) (echo : FitsBeside path.inner.utf8ByteSize 0)
    (fileVersion : List UInt8 → ℕ) :
    ResultFits path.inner.utf8ByteSize (fun content : FileContent => message 4 content.fields)
      (Condr.readFile fileVersion disk path) := by
  by_cases readable : ∃ bytes, disk.Reads path bytes
  · rcases readable with ⟨bytes, reads⟩
    rcases reads.readFile fileVersion with ⟨content, read, -, upper⟩
    rw [read]
    have whole := encodedLen_message_le 4 content.fields (by decide)
    exact (moderate.shown bytes reads).value (by omega)
  -- every other outcome is an error or a few bytes
  have little (content : FileContent) (short : encodedLen content.fields ≤ 11) :
      ResultFits path.inner.utf8ByteSize (fun content : FileContent => message 4 content.fields)
        (.ok content) := by
    have whole := encodedLen_message_le 4 content.fields (by decide)
    exact echo.value (by omega)
  have large (len : ℕ) := little (.tooLarge len) (memberUint_le _ len (by decide))
  unfold Condr.readFile
  by_cases invalid : (!validDiffPath path) = true
  · rw [if_pos invalid]
    exact echo.reason (by decide)
  rw [if_neg invalid]
  cases metadata : disk.metadata with
  | error reason => exact moderate.metadata.result metadata
  | ok found =>
      dsimp only
      by_cases isDir : found.isDir = true
      · rw [if_pos isDir]
        exact echo.reason (by decide)
      by_cases irregular : (!found.isFile) = true
      · rw [if_neg isDir, if_pos irregular]
        exact echo.reason (by decide)
      by_cases exceeds : fileLimit path < found.len
      · rw [if_neg isDir, if_neg irregular, if_pos exceeds]
        exact large found.len
      rw [if_neg isDir, if_neg irregular, if_neg exceeds]
      cases contents : disk.contents with
      | error reason => exact moderate.contents.result contents
      | ok bytes =>
          dsimp only
          by_cases grown : fileLimit path < bytes.length
          · rw [if_pos grown]
            exact large bytes.length
          have unreadable : ¬(isImage path = true ∨ looksBinary bytes = false) := by
            intro shown
            refine readable ⟨bytes, by simpa using invalid, ⟨found, metadata, ?_, ?_, ?_⟩, contents,
              Nat.le_of_not_lt grown, shown⟩
            · simpa using isDir
            · simpa using irregular
            · exact Nat.le_of_not_lt exceeds
          simp only [not_or, Bool.not_eq_false] at unreadable
          rw [if_neg grown, if_neg unreadable.1, if_pos unreadable.2]
          exact little .binary (by decide)

/-! ## Old sides -/

theorem OldSide.Reads.oldFile {side : OldSide} {bytes : List UInt8} (reads : side.Reads bytes)
    {path : RelativePathBuf} {oldPath : Option RelativePathBuf} (valid : validDiffPath path = true)
    (validOld : ∀ old, oldPath = some old → validDiffPath old = true) :
    Condr.oldFile path oldPath side = .ok (.text (Utf8.fromUtf8Lossy bytes)) := by
  rcases reads.entry with ⟨blob, entry, link, ⟨size, sized, small⟩, checkout⟩
  have named : oldPath.any (!validDiffPath ·) = false := by
    cases oldPath with
    | none => rfl
    | some old => simp [validOld old rfl]
  have whole : bytes.take (maxDiffBytes + 1) = bytes :=
    List.take_of_length_le (Nat.le_succ_of_le reads.small)
  unfold Condr.oldFile
  simp only [valid, named, reads.noLink, entry, link, sized, checkout, Nat.not_lt.mpr small, whole,
    Nat.not_lt.mpr reads.small, reads.text, Bool.not_true, Bool.or_self, Bool.false_eq_true,
    decide_false, if_false]

theorem OldSide.Moderate.oldFile {side : OldSide} {echoed : ℕ} (moderate : side.Moderate echoed)
    (echo : FitsBeside echoed 0) (path : RelativePathBuf) (oldPath : Option RelativePathBuf) :
    ResultFits echoed OldFile.fields (Condr.oldFile path oldPath side) := by
  have none : ResultFits echoed OldFile.fields (.ok .none) :=
    echo.value (show 2 ≤ 0 + 128 by decide)
  have added : ResultFits echoed OldFile.fields (.ok .added) :=
    echo.value (show 2 ≤ 0 + 128 by decide)
  unfold Condr.oldFile
  split_ifs with invalid link
  · exact echo.reason (by decide)
  · exact none
  cases entry : side.entry with
  | error reason => exact moderate.entry.result entry
  | ok found =>
      cases found with
      | none =>
          cases tracked : side.tracked with
          | error reason => exact moderate.tracked.result tracked
          | ok isTracked =>
              dsimp only
              split_ifs
              · exact none
              · exact added
      | some blob =>
          rcases moderate.blob blob entry with ⟨sizeFits, checkoutFits⟩
          dsimp only
          split_ifs with isLink
          · exact none
          cases sized : blob.size with
          | error reason => exact sizeFits.result sized
          | ok size =>
              dsimp only
              split_ifs with large
              · exact none
              cases checkout : blob.checkout with
              | error reason => exact checkoutFits.result checkout
              | ok bytes =>
                  dsimp only
                  split_ifs with binary
                  · exact none
                  simp only [Bool.or_eq_true, decide_eq_true_eq, not_or, Nat.not_lt,
                    Bool.not_eq_true, List.length_take] at binary
                  have small : bytes.length ≤ maxDiffBytes := by omega
                  have whole : bytes.take (maxDiffBytes + 1) = bytes :=
                    List.take_of_length_le (Nat.le_succ_of_le small)
                  rw [whole] at binary ⊢
                  have fits := moderate.shown bytes ⟨by simpa using link,
                    ⟨blob, entry, by simpa using isLink, ⟨size, sized, Nat.le_of_not_lt large⟩,
                      checkout⟩, small, binary.2⟩
                  have upper := bytesLen_le_add 4 (textSize bytes) (by decide)
                  refine fits.value ?_
                  rw [OldFile.fields, encodedLen_memberString]
                  exact upper.trans (by omega)

/-! ## Diffs -/

theorem DiffLine.len_le {line : DiffLine} (small : line.text.utf8ByteSize ≤ maxDiffBytes) :
    bytesLen 5 (encodedLen line.toWire.fields) ≤ line.text.utf8ByteSize + 32 := by
  have limit : maxDiffBytes = 1048576 := rfl
  have kind : uintLen 1 (line.kind.toWire % 2 ^ 64).toNat ≤ 2 := by
    cases line.kind <;> decide
  have number (field : ℕ) (low : field < 16) (value : Option ℕ) :
      encodedLen (optionalUint field value) ≤ 11 := by
    cases value with
    | none => exact Nat.zero_le 11
    | some value => exact memberUint_le field value low
  have old := number 2 (by omega) line.oldNumber
  have new := number 3 (by omega) line.newNumber
  have text : stringLen 4 line.text.utf8ByteSize ≤ line.text.utf8ByteSize + 4 := by
    have digits := length_varint_le_of_lt (show 0 < 3 by omega)
      (show line.text.utf8ByteSize < 128 ^ 3 by omega)
    unfold stringLen
    rw [bytesLen_eq (by omega)]
    split_ifs <;> omega
  have fields : encodedLen line.toWire.fields ≤ line.text.utf8ByteSize + 28 := by
    simp only [DiffLine.toWire, Pb.DiffLine.fields, encodedLen_append, encodedLen_int,
      encodedLen_string]
    omega
  have digits := @length_varint_le_of_lt (encodedLen line.toWire.fields) 3 (by omega) (by omega)
  rw [bytesLen_eq (by omega)]
  omega

/-- What the limit counts of a hunk. -/
def DiffHunk.counted (hunk : DiffHunk) : ℕ :=
  (hunk.lines.map fun line => line.text.utf8ByteSize + diffLineOverhead).sum

/-- The limit counts at least three quarters of what the lines take. -/
theorem lines_le {lines : List DiffLine}
    (small : (lines.map fun line => line.text.utf8ByteSize + diffLineOverhead).sum ≤ maxDiffBytes) :
    3 * (lines.map fun line => bytesLen 5 (encodedLen line.toWire.fields)).sum ≤
      4 * (lines.map fun line => line.text.utf8ByteSize + diffLineOverhead).sum := by
  have overhead : diffLineOverhead = 24 := rfl
  induction lines with
  | nil => exact Nat.zero_le _
  | cons line lines induction =>
      rw [List.map_cons, List.sum_cons] at small
      have one := @DiffLine.len_le line (by omega)
      have later := induction (by omega)
      rw [List.map_cons, List.sum_cons, List.map_cons, List.sum_cons]
      omega

theorem DiffHunk.len_le {hunk : DiffHunk} (small : hunk.counted ≤ maxDiffBytes) :
    3 * bytesLen 1 (encodedLen hunk.toWire.fields) ≤ 4 * hunk.counted + 192 := by
  have lines := lines_le small
  have first := uintLen_le 1 hunk.oldStart (by decide)
  have second := uintLen_le 2 hunk.oldLines (by decide)
  have third := uintLen_le 3 hunk.newStart (by decide)
  have fourth := uintLen_le 4 hunk.newLines (by decide)
  have whole := bytesLen_le_add 1 (encodedLen hunk.toWire.fields) (by decide)
  have fields : encodedLen hunk.toWire.fields = uintLen 1 hunk.oldStart +
      uintLen 2 hunk.oldLines + uintLen 3 hunk.newStart + uintLen 4 hunk.newLines +
      (hunk.lines.map fun line => bytesLen 5 (encodedLen line.toWire.fields)).sum := by
    simp [DiffHunk.toWire, Pb.DiffHunk.fields, encodedLen_repeatedMessage, Function.comp_def,
      Nat.add_assoc]
  unfold counted at *
  omega

theorem hunkBytes_cons (hunk : DiffHunk) (hunks : List DiffHunk) :
    hunkBytes (hunk :: hunks) = hunk.counted + hunkBytes hunks := by
  simp [hunkBytes, DiffHunk.counted]

theorem hunks_le {hunks : List DiffHunk} (small : hunkBytes hunks ≤ maxDiffBytes) :
    3 * (hunks.map fun hunk => bytesLen 1 (encodedLen hunk.toWire.fields)).sum ≤
      4 * hunkBytes hunks + 192 * hunks.length := by
  induction hunks with
  | nil => exact Nat.zero_le _
  | cons hunk hunks induction =>
      rw [hunkBytes_cons] at small ⊢
      have one := @DiffHunk.len_le hunk (by omega)
      have later := induction (by omega)
      rw [List.map_cons, List.sum_cons, List.length_cons]
      omega

/-- The fields of a diff of a path. -/
def diffFields (path : RelativePathBuf) (content : FileDiffContent) : List Field :=
  message 4 (FileDiff.toWire { path, content }).fields

theorem diffFields_le (path : RelativePathBuf) (content : FileDiffContent) :
    encodedLen (diffFields path content) ≤
      path.inner.utf8ByteSize + encodedLen content.toWire.fields + 22 := by
  have whole := encodedLen_message_le 4 (FileDiff.toWire { path, content }).fields (by decide)
  have name := stringLen_le 1 path.inner.utf8ByteSize (by decide)
  have fields : encodedLen (FileDiff.toWire { path, content }).fields =
      stringLen 1 path.inner.utf8ByteSize + encodedLen content.toWire.fields := by
    simp [FileDiff.toWire, Pb.FileDiff.fields]
  unfold diffFields
  omega

section Diffs

variable {path : RelativePathBuf}

theorem little_diff_fits (echo : FitsBeside (2 * path.inner.utf8ByteSize) 0)
    {content : FileDiffContent} (little : encodedLen content.toWire.fields ≤ 11) :
    ResultFits path.inner.utf8ByteSize (diffFields path) (.ok content) := by
  have fields := diffFields_le path content
  unfold FitsBeside at echo
  show path.inner.utf8ByteSize + encodedLen (diffFields path content) + 128 ≤ maxFrameSize
  omega

theorem hunksContent_fits (echo : FitsBeside (2 * path.inner.utf8ByteSize) 0)
    {unified : ℕ → Except String (List RawHunk)} {context : ℕ}
    (fails : ErrorFits path.inner.utf8ByteSize (unified context))
    (fits : ∀ raw, unified context = .ok raw → hunkBytes (raw.map consumeHunk) ≤ maxDiffBytes →
      FitsBeside (2 * path.inner.utf8ByteSize) (maxDiffBytes * 4 / 3 + 64 * raw.length)) :
    ResultFits path.inner.utf8ByteSize (diffFields path) (hunksContent unified context) := by
  have limit : maxDiffBytes = 1048576 := rfl
  unfold hunksContent
  refine fails.bind fun raw given => ?_
  dsimp only
  split_ifs with large
  · exact little_diff_fits echo (memberUint_le _ _ (by decide))
  have small := Nat.le_of_not_lt large
  have room := fits raw given small
  have hunks := hunks_le small
  have fields := diffFields_le path (.text (raw.map consumeHunk))
  have content : encodedLen (FileDiffContent.toWire (.text (raw.map consumeHunk))).fields =
      bytesLen 2 ((raw.map consumeHunk).map fun hunk =>
        bytesLen 1 (encodedLen hunk.toWire.fields)).sum := by
    simp [FileDiffContent.toWire, Pb.FileDiffContent.fields, encodedLen_message,
      encodedLen_repeatedMessage, Function.comp_def]
  have whole := bytesLen_le_add 2 ((raw.map consumeHunk).map fun hunk =>
    bytesLen 1 (encodedLen hunk.toWire.fields)).sum (by decide)
  rw [List.length_map] at hunks
  unfold FitsBeside at room
  show path.inner.utf8ByteSize + encodedLen (diffFields path _) + 128 ≤ maxFrameSize
  omega

theorem DiffModerate.diffContent {outcome : Except String DiffOutcome}
    (moderate : DiffModerate outcome path) (fullContext : Bool) :
    ResultFits path.inner.utf8ByteSize (diffFields path)
      (Condr.diffContent outcome fullContext) := by
  cases prepared : outcome with
  | error reason => exact moderate.read.result prepared
  | ok diff =>
      simp only [Condr.diffContent, Differ.diff, bind, Except.bind]
      cases diff.binarySides.find? fun size => maxDiffBytes < size with
      | some size => exact little_diff_fits moderate.echo (memberUint_le _ size (by decide))
      | none =>
          cases internal : diff.internal with
          | none => exact little_diff_fits moderate.echo (by decide)
          | some unified =>
              have hunks (context : ℕ) (asked : context = diffContextLines ∨
                  context = min (max diff.beforeLines diff.afterLines) (2 ^ 32 - 1)) :=
                have read := moderate.hunks diff unified context prepared internal asked
                hunksContent_fits moderate.echo read.1 read.2
              have narrow := hunks diffContextLines (.inl rfl)
              have full := hunks _ (.inr rfl)
              dsimp only
              unfold renderDiff
              split_ifs
              · cases given : hunksContent unified
                    (min (max diff.beforeLines diff.afterLines) (2 ^ 32 - 1)) with
                | error reason =>
                    rw [given] at full
                    exact full
                | ok content =>
                    rw [given] at full
                    cases content with
                    | tooLarge size => exact narrow
                    | text hunks => exact full
                    | binary => exact full
              · exact narrow

end Diffs

/-! ## Directories -/

theorem DirectoryEntry.len_spec (entry : DirectoryEntry) :
    entry.name.utf8ByteSize ≤ bytesLen 1 (encodedLen entry.fields) ∧
      bytesLen 1 (encodedLen entry.fields) ≤ entry.name.utf8ByteSize + 64 := by
  have lower := stringLen_spec 1 entry.name.utf8ByteSize (by decide)
  have kind := uintLen_le 2 (entry.kind.toWire % 2 ^ 64).toNat (by decide)
  have ignored := uintLen_le 3 entry.ignored.toNat (by decide)
  have fields := bytesLen_spec 1 (encodedLen entry.fields) (by decide)
  have length : encodedLen entry.fields = stringLen 1 entry.name.utf8ByteSize +
      uintLen 2 (entry.kind.toWire % 2 ^ 64).toNat + uintLen 3 entry.ignored.toNat := by
    simp [DirectoryEntry.fields, Nat.add_assoc]
  omega

theorem DirectoryListing.len_spec (listing : DirectoryListing) :
    namesSize 0 (listing.entries.map (·.name)) ≤ encodedLen listing.fields ∧
      encodedLen listing.fields ≤ namesSize 64 (listing.entries.map (·.name)) + 11 := by
  have mark := uintLen_le 2 listing.truncated.toNat (by decide)
  have lower := List.sum_le_sum fun (entry : DirectoryEntry) (_ : entry ∈ listing.entries) =>
    entry.len_spec.1
  have upper := List.sum_le_sum fun (entry : DirectoryEntry) (_ : entry ∈ listing.entries) =>
    entry.len_spec.2
  simp only [DirectoryListing.fields, encodedLen_append, encodedLen_flag,
    encodedLen_repeatedMessage, namesSize, List.map_map, Function.comp_def, Nat.add_zero]
  omega

theorem entryNames_cons (entry : DiskEntry) (rest : List (Except String DiskEntry)) :
    entryNames (.ok entry :: rest) =
      if Utf8.fromUtf8Lossy entry.fileName = ".git" then entryNames rest
      else Utf8.fromUtf8Lossy entry.fileName :: entryNames rest := by
  by_cases isGit : Utf8.fromUtf8Lossy entry.fileName = ".git" <;>
    simp [entryNames, Except.toOption, isGit]

/-- The loop ends at an entry that cannot be read, or with the listed names. -/
theorem collectEntries_spec (entries : List DirectoryEntry)
    (disk : List (Except String DiskEntry)) :
    (∃ reason, collectEntries (fun _ => true) entries disk = .error reason ∧
      .error reason ∈ disk) ∨
      ∃ more truncated,
        collectEntries (fun _ => true) entries disk = .ok (entries ++ more, truncated) ∧
        more.map (·.name) = (entryNames disk).take (maxDirectoryEntries - entries.length) := by
  induction disk generalizing entries with
  | nil => exact .inr ⟨[], false, by simp [collectEntries], by simp [entryNames]⟩
  | cons item rest induction =>
      cases item with
      | error reason => exact .inl ⟨reason, rfl, List.mem_cons_self⟩
      | ok entry =>
          rw [entryNames_cons]
          simp only [collectEntries, Bool.not_true, Bool.false_eq_true, if_false]
          split_ifs with isGit full
          · rcases induction entries with ⟨reason, fails, contained⟩ | read
            · exact .inl ⟨reason, fails, List.mem_cons_of_mem _ contained⟩
            · exact .inr read
          · rw [Nat.sub_eq_zero_of_le full, List.take_zero]
            exact .inr ⟨[], true, by rw [List.append_nil], rfl⟩
          · have room : maxDirectoryEntries - entries.length =
                maxDirectoryEntries - (entries.length + 1) + 1 := by
              omega
            rw [room, List.take_succ_cons]
            rcases induction (entries ++ [⟨Utf8.fromUtf8Lossy entry.fileName, entry.kind, false⟩])
              with ⟨reason, fails, contained⟩ | ⟨more, truncated, read, names⟩
            · exact .inl ⟨reason, fails, List.mem_cons_of_mem _ contained⟩
            · rw [List.length_append, List.length_singleton] at names
              refine .inr ⟨_ :: more, truncated, by rw [read, List.append_assoc]; rfl, ?_⟩
              rw [List.map_cons, names]

theorem listDirectory_spec (lowercase : String → String) {disk : List (Except String DiskEntry)}
    {relative : RelativePathBuf} (valid : validDirectoryPath relative = true) :
    (∃ reason, listDirectory lowercase (.ok disk) relative = .error reason ∧
      .error reason ∈ disk) ∨
      ∃ listing, listDirectory lowercase (.ok disk) relative = .ok listing ∧
        (listing.entries.map (·.name)).Perm (listedNames disk) := by
  simp only [listDirectory, valid, readListing, bind, Except.bind, Bool.not_true,
    Bool.false_eq_true, if_false]
  rcases collectEntries_spec [] disk with ⟨reason, fails, contained⟩ |
    ⟨entries, truncated, read, names⟩
  · rw [fails]
    exact .inl ⟨reason, rfl, contained⟩
  · rw [read]
    rw [List.length_nil, Nat.sub_zero] at names
    refine .inr ⟨_, rfl, ?_⟩
    dsimp only
    rw [listedNames, ← names]
    exact (List.mergeSort_perm _ _).map _

theorem namesSize_perm {each : ℕ} {names other : List String} (same : names.Perm other) :
    namesSize each names = namesSize each other :=
  (same.map _).sum_eq

/-! ## History -/

theorem commit_spec (id : String) (object : CommitObject) :
    id.utf8ByteSize + textSize object.summary + textSize object.author ≤
        bytesLen 2 (encodedLen (CommitSummary.fields ⟨id, Utf8.fromUtf8Lossy object.summary,
          Utf8.fromUtf8Lossy object.author, object.time⟩)) ∧
      bytesLen 2 (encodedLen (CommitSummary.fields ⟨id, Utf8.fromUtf8Lossy object.summary,
          Utf8.fromUtf8Lossy object.author, object.time⟩)) ≤
        id.utf8ByteSize + textSize object.summary + textSize object.author + 64 := by
  have name := stringLen_spec 1 id.utf8ByteSize (by decide)
  have summary := stringLen_spec 2 (textSize object.summary) (by decide)
  have author := stringLen_spec 3 (textSize object.author) (by decide)
  have time := uintLen_le 4 (object.time % 2 ^ 64).toNat (by decide)
  have length : encodedLen (CommitSummary.fields ⟨id, Utf8.fromUtf8Lossy object.summary,
      Utf8.fromUtf8Lossy object.author, object.time⟩) = stringLen 1 id.utf8ByteSize +
        stringLen 2 (textSize object.summary) + stringLen 3 (textSize object.author) +
        uintLen 4 (object.time % 2 ^ 64).toNat := by
    simp [CommitSummary.fields, textSize, Nat.add_assoc]
  have fields := bytesLen_spec 2 (encodedLen (CommitSummary.fields ⟨id,
    Utf8.fromUtf8Lossy object.summary, Utf8.fromUtf8Lossy object.author, object.time⟩)) (by decide)
  omega

theorem pageSize_cons (each limit : ℕ) (step : Except String WalkInfo)
    (steps : List (Except String WalkInfo)) :
    pageSize each (limit + 1) (step :: steps) = stepSize each step + pageSize each limit steps := by
  rw [pageSize, List.take_succ_cons, List.map_cons, List.sum_cons, pageSize]

/-- The length of a page's commits. -/
def commitsLen (commits : List CommitSummary) : ℕ :=
  (commits.map fun commit => bytesLen 2 (encodedLen commit.fields)).sum

/-- A step that cannot be read, or whose commit cannot. -/
def StepFails (step : Except String WalkInfo) (reason : String) : Prop :=
  step = .error reason ∨ ∃ info, step = .ok info ∧ info.object = .error reason

/-- The loop ends at a step that cannot be read, or with the texts of the page. -/
theorem collectCommits_spec {limit : ℕ} {commits : List CommitSummary}
    (within : commits.length ≤ limit) (steps : List (Except String WalkInfo)) :
    (∃ reason, collectCommits limit commits steps = .error reason ∧
      ∃ step ∈ steps.take (limit - commits.length + 1), StepFails step reason) ∨
      ∃ page more, collectCommits limit commits steps = .ok (commits ++ page, more) ∧
        pageSize 0 (limit - commits.length) steps ≤ commitsLen page ∧
        commitsLen page ≤ pageSize 64 (limit - commits.length) steps := by
  induction steps generalizing commits with
  | nil =>
      refine .inr ⟨[], false, by rw [collectCommits, List.append_nil], ?_, Nat.zero_le _⟩
      simp [pageSize]
  | cons step rest induction =>
      rw [List.take_succ_cons]
      cases step with
      | error reason => exact .inl ⟨reason, rfl, _, List.mem_cons_self, .inl rfl⟩
      | ok info =>
          rw [collectCommits]
          split_ifs with full
          · refine .inr ⟨[], true, by rw [List.append_nil], ?_, Nat.zero_le _⟩
            rw [full, Nat.sub_self, pageSize, List.take_zero]
            exact Nat.le_refl 0
          cases object : info.object with
          | error reason =>
              exact .inl ⟨reason, rfl, _, List.mem_cons_self, .inr ⟨info, rfl, object⟩⟩
          | ok read =>
              have room : limit - commits.length = limit - (commits.length + 1) + 1 := by omega
              rw [room, pageSize_cons, pageSize_cons]
              dsimp only
              rcases @induction (commits ++ [⟨info.id, Utf8.fromUtf8Lossy read.summary,
                Utf8.fromUtf8Lossy read.author, read.time⟩])
                (by rw [List.length_append, List.length_singleton]; omega) with
                ⟨reason, fails, broken⟩ | ⟨page, more, collected, lower, upper⟩
              · rw [List.length_append, List.length_singleton] at broken
                rcases broken with ⟨at', contained, broken⟩
                exact .inl ⟨reason, fails, at', List.mem_cons_of_mem _ contained, broken⟩
              · rw [List.length_append, List.length_singleton] at lower upper
                have one := commit_spec info.id read
                refine .inr ⟨_ :: page, more, by rw [collected, List.append_assoc]; rfl, ?_⟩
                simp only [stepSize, object, commitsLen, List.map_cons, List.sum_cons]
                unfold commitsLen at lower upper
                omega

theorem GitLog.len_spec (start : String) (commits : List CommitSummary) (more : Bool) :
    start.utf8ByteSize + commitsLen commits ≤
        encodedLen (GitLog.fields ⟨some start, commits, more⟩) ∧
      encodedLen (GitLog.fields ⟨some start, commits, more⟩) ≤
        start.utf8ByteSize + commitsLen commits + 22 := by
  have lower := bytesLen_spec 1 start.utf8ByteSize (by decide)
  have mark := uintLen_le 3 more.toNat (by decide)
  have length : encodedLen (GitLog.fields ⟨some start, commits, more⟩) =
      bytesLen 1 start.utf8ByteSize + commitsLen commits + uintLen 3 more.toNat := by
    simp [GitLog.fields, encodedLen_repeatedMessage, commitsLen, Function.comp_def, Nat.add_assoc]
  omega

theorem LogModerate.gitLog {walk : Except String Walk} {skip limit : ℕ}
    (moderate : LogModerate walk skip limit) :
    ResultFits 0 (fun log : GitLog => message 3 log.fields) (Condr.gitLog walk skip limit) := by
  unfold Condr.gitLog
  refine moderate.read.bind fun found read => ?_
  cases start : found.start with
  | none => exact fitsBeside_nothing.value (by decide)
  | some name =>
      rcases moderate.page found name read start with ⟨fails, page⟩
      refine fails.bind fun steps given => ?_
      rcases page steps given with ⟨each, fits⟩
      rcases @collectCommits_spec limit [] (Nat.zero_le limit) (steps.drop skip) with
        ⟨reason, broken, step, contained, rfl | ⟨info, rfl, object⟩⟩ |
          ⟨commits, more, collected, -, upper⟩
      · rw [broken]
        exact (each _ contained).1.result rfl
      · rw [broken]
        exact ((each _ contained).2 info rfl).result object
      · rw [collected]
        have length := (GitLog.len_spec name commits more).2
        have whole := encodedLen_message_le 3
          (GitLog.fields ⟨some name, commits, more⟩) (by decide)
        unfold FitsBeside at fits
        show 0 + encodedLen (message 3 (GitLog.fields ⟨some name, commits, more⟩)) + 128 ≤
          maxFrameSize
        rw [List.length_nil, Nat.sub_zero] at upper
        omega

theorem change_spec (entry : GitChangeEntry) :
    changedSize 0 entry ≤ bytesLen 1 (encodedLen entry.toWire.fields) ∧
      bytesLen 1 (encodedLen entry.toWire.fields) ≤ changedSize 96 entry := by
  have path := stringLen_spec 1 entry.path.inner.utf8ByteSize (by decide)
  have old : (entry.oldPath.map (·.inner.utf8ByteSize)).getD 0 ≤
      encodedLen (optionalString 2 entry.toWire.oldPath) ∧
      encodedLen (optionalString 2 entry.toWire.oldPath) ≤
        (entry.oldPath.map (·.inner.utf8ByteSize)).getD 0 + 11 := by
    simp only [GitChangeEntry.toWire, encodedLen_optionalString]
    cases entry.oldPath with
    | none => exact ⟨Nat.le_refl 0, Nat.zero_le 11⟩
    | some old =>
        exact ⟨Nat.le_of_add_right_le (le_bytesLen 2 _), bytesLen_le_add _ _ (by decide)⟩
  have status := uintLen_le 3 (entry.status.toWire % 2 ^ 64).toNat (by decide)
  have counts : encodedLen (optionalMessage 4 (entry.stat.map GitDiffStat.fields)) ≤ 33 := by
    cases entry.stat with
    | none => exact Nat.zero_le 33
    | some stat =>
        have added := uintLen_le 1 stat.added (by decide)
        have deleted := uintLen_le 2 stat.deleted (by decide)
        have whole := bytesLen_le_add 4
          (uintLen 1 stat.added + uintLen 2 stat.deleted) (by decide)
        simp only [Option.map_some, encodedLen_optionalMessage, Option.getD_some,
          GitDiffStat.fields, encodedLen_append, encodedLen_uint]
        omega
  have length : encodedLen entry.toWire.fields = stringLen 1 entry.path.inner.utf8ByteSize +
      encodedLen (optionalString 2 entry.toWire.oldPath) +
      uintLen 3 (entry.status.toWire % 2 ^ 64).toNat +
      encodedLen (optionalMessage 4 (entry.stat.map GitDiffStat.fields)) := by
    simp only [GitChangeEntry.toWire, Pb.GitChangeEntry.fields, encodedLen_append,
      encodedLen_string, encodedLen_int]
  have fields := bytesLen_spec 1 (encodedLen entry.toWire.fields) (by decide)
  unfold changedSize
  omega

theorem GitChanges.len_spec (changes : GitChanges) :
    (changes.entries.map (changedSize 0)).sum ≤ encodedLen changes.toWire.fields ∧
      encodedLen changes.toWire.fields ≤ (changes.entries.map (changedSize 96)).sum + 11 := by
  have mark := uintLen_le 2 changes.truncated.toNat (by decide)
  have lower := List.sum_le_sum fun (entry : GitChangeEntry) (_ : entry ∈ changes.entries) =>
    (change_spec entry).1
  have upper := List.sum_le_sum fun (entry : GitChangeEntry) (_ : entry ∈ changes.entries) =>
    (change_spec entry).2
  have length : encodedLen changes.toWire.fields =
      (changes.entries.map fun entry => bytesLen 1 (encodedLen entry.toWire.fields)).sum +
        uintLen 2 changes.truncated.toNat := by
    simp [GitChanges.toWire, Pb.GitChanges.fields, encodedLen_repeatedMessage, Function.comp_def]
  omega

/-- The length of a commit's details, from the texts of all that is in them. -/
theorem CommitDetails.len_spec (details : CommitDetails) :
    details.id.utf8ByteSize + namesSize 0 details.parents + details.author.utf8ByteSize +
        details.message.utf8ByteSize + (details.changes.entries.map (changedSize 0)).sum ≤
      encodedLen details.fields ∧
    encodedLen details.fields ≤ details.id.utf8ByteSize + namesSize 96 details.parents +
        details.author.utf8ByteSize + details.message.utf8ByteSize +
        (details.changes.entries.map (changedSize 96)).sum + 66 := by
  have id := stringLen_spec 1 details.id.utf8ByteSize (by decide)
  have parents : namesSize 0 details.parents ≤
      (details.parents.map fun parent => bytesLen 2 parent.utf8ByteSize).sum :=
    List.sum_le_sum fun parent _ => Nat.le_of_add_right_le (le_bytesLen 2 _)
  have parentsLe : (details.parents.map fun parent => bytesLen 2 parent.utf8ByteSize).sum ≤
      namesSize 96 details.parents :=
    List.sum_le_sum fun parent _ => (bytesLen_le_add 2 _ (by decide)).trans (by omega)
  have author := stringLen_spec 3 details.author.utf8ByteSize (by decide)
  have time := uintLen_le 4 (details.time % 2 ^ 64).toNat (by decide)
  have text := stringLen_spec 5 details.message.utf8ByteSize (by decide)
  have changes := details.changes.len_spec
  have changed := bytesLen_spec 6 (encodedLen details.changes.toWire.fields) (by decide)
  have length : encodedLen details.fields = stringLen 1 details.id.utf8ByteSize +
      (details.parents.map fun parent => bytesLen 2 parent.utf8ByteSize).sum +
      stringLen 3 details.author.utf8ByteSize + uintLen 4 (details.time % 2 ^ 64).toNat +
      stringLen 5 details.message.utf8ByteSize +
      bytesLen 6 (encodedLen details.changes.toWire.fields) := by
    simp only [CommitDetails.fields, encodedLen_append, encodedLen_string, encodedLen_int,
      encodedLen_repeatedString, encodedLen_message]
  omega

/-- A commit whose changes are read, and its other parts. -/
theorem gitCommit_spec {commit : CommitSource} {changes : List TreeChange}
    (given : commit.changes = .ok changes) :
    (∃ reason, gitCommit (.ok commit) = .error reason ∧
      (commit.differ = .error reason ∨ commit.author = .error reason)) ∨
      ∃ details author time, gitCommit (.ok commit) = .ok details ∧
        commit.author = .ok (author, time) ∧
        commitSize 0 commit changes author ≤ encodedLen details.fields ∧
        encodedLen details.fields ≤ commitSize 96 commit changes author + 66 := by
  have sizes (author : List UInt8) (time : ℤ) (entries : List GitChangeEntry) (more : Bool) :=
    CommitDetails.len_spec ⟨commit.id, commit.parents, Utf8.fromUtf8Lossy author, time,
      Utf8.fromUtf8Lossy commit.message, ⟨entries, more⟩⟩
  simp only [gitCommit, bind, Except.bind, given]
  by_cases many : maxGitChanges < (changedEntries changes).length
  · simp only [many, decide_true, if_true]
    cases known : commit.author with
    | error reason => exact .inl ⟨reason, rfl, .inr rfl⟩
    | ok named =>
        rcases named with ⟨author, time⟩
        exact .inr ⟨_, author, time, rfl, rfl,
          sizes author time ((changedEntries changes).take maxGitChanges) true⟩
  · simp only [many, decide_false, Bool.false_eq_true, if_false]
    cases counted : commit.differ with
    | error reason => exact .inl ⟨reason, rfl, .inl rfl⟩
    | ok stat =>
        cases known : commit.author with
        | error reason => exact .inl ⟨reason, rfl, .inr rfl⟩
        | ok named =>
            rcases named with ⟨author, time⟩
            have changed := sizes author time (((changedEntries changes).take maxGitChanges).map
              fun entry => { entry with stat := stat entry }) false
            simp only [List.map_map] at changed
            exact .inr ⟨_, author, time, rfl, rfl, changed⟩

theorem CommitModerate.gitCommit {source : Except String CommitSource} {echoed : ℕ}
    (moderate : CommitModerate source echoed) :
    ResultFits echoed (fun details : CommitDetails => message 4 details.fields)
      (Condr.gitCommit source) := by
  cases read : source with
  | error reason => exact moderate.read.result read
  | ok commit =>
      rcases moderate.commit commit read with ⟨changesFit, differFits, authorFits, texts⟩
      cases given : commit.changes with
      | error reason =>
          have fails : Condr.gitCommit (.ok commit) = .error reason := by
            simp only [Condr.gitCommit, bind, Except.bind, given]
          rw [fails]
          exact changesFit.result given
      | ok changes =>
          rcases gitCommit_spec given with ⟨reason, fails, noDiffer | noAuthor⟩ |
            ⟨details, author, time, made, known, -, upper⟩
          · rw [fails]
            exact differFits.result noDiffer
          · rw [fails]
            exact authorFits.result noAuthor
          · rw [made]
            have whole := encodedLen_message_le 4 details.fields (by decide)
            exact (texts changes author time given known).value (by omega)

end Condr
