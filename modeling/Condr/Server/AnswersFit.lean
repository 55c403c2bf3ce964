import Condr.Server.AnswerBounds

/-!
# Which answers fit into a frame

Every answer to a reading request is one frame. The readers limit what they take: the bytes of a
file before they are decoded, the number of entries, of commits and of rows. No limit bounds the
texts that come with these, and decoding makes three bytes of each byte that is not UTF-8.
-/

namespace Condr

open ClientWriter (maxFrameSize)
open Protobuf

/-! ## Replies -/

section Replies

variable {α : Type} {okFields : α → List Field} {number errNumber requestId : ℕ}
  {workspaceId : WorkspaceId} {name : String}

/-- The message that a reply with a result is. -/
def replyFields (number errNumber requestId : ℕ) (workspaceId : WorkspaceId) (name : String)
    (okFields : α → List Field) (result : Except String α) : List Field :=
  message number (uint 1 requestId ++ uint 2 workspaceId.asU64 ++ string 3 name ++
    resultFields okFields errNumber result)

theorem ResultFits.reply {result : Except String α}
    (fits : ResultFits name.utf8ByteSize okFields result) (small : errNumber < 16) :
    encodedLen (replyFields number errNumber requestId workspaceId name okFields result) ≤
      maxFrameSize := by
  have request := uintLen_le 1 requestId (by decide)
  have workspace := uintLen_le 2 workspaceId.asU64 (by decide)
  have echo := stringLen_le 3 name.utf8ByteSize (by decide)
  have whole := bytesLen_le number (encodedLen (uint 1 requestId ++ uint 2 workspaceId.asU64 ++
    string 3 name ++ resultFields okFields errNumber result))
  rw [replyFields, encodedLen_message]
  simp only [encodedLen_append, encodedLen_uint, encodedLen_string] at whole ⊢
  cases result with
  | ok value =>
      have room : name.utf8ByteSize + encodedLen (okFields value) + 128 ≤ maxFrameSize := fits
      simp only [resultFields] at whole ⊢
      omega
  | error reason =>
      have room : name.utf8ByteSize + reason.utf8ByteSize + 128 ≤ maxFrameSize := fits
      have text := bytesLen_le_add _ reason.utf8ByteSize small
      simp only [resultFields, encodedLen_memberString] at whole ⊢
      omega

/-- A page of the history repeats no text. -/
theorem gitLog_fields (result : Except String GitLog) :
    Reply.fields (.gitLog requestId workspaceId result) =
      replyFields 31 4 requestId workspaceId "" (fun log => message 3 log.fields) result := by
  have nothing : string 3 "" = [] := by simp [string]
  rw [Reply.fields, replyFields, nothing, List.append_nil]

end Replies

namespace Host

variable (host : Host)

section Lookups

variable {serverId : ServerId} {sessionId : SessionId} {workspaceId : WorkspaceId}

theorem checkedRoot_short {reason : String}
    (failed : host.checkedRoot serverId sessionId workspaceId = .error reason) :
    reason.utf8ByteSize ≤ 128 := by
  unfold checkedRoot at failed
  split_ifs at failed
  · rcases Except.error.inj failed with rfl
    decide
  · rcases Except.error.inj failed with rfl
    decide
  · cases root : host.rootDirectory workspaceId with
    | none =>
        rw [root] at failed
        rcases Except.error.inj failed with rfl
        decide
    | some root' =>
        rw [root] at failed
        cases failed

theorem workspaceRepository_short {reason : String}
    (failed : host.workspaceRepository serverId sessionId workspaceId = .error reason) :
    reason.utf8ByteSize ≤ 128 := by
  cases root : host.checkedRoot serverId sessionId workspaceId with
  | error other =>
      simp only [workspaceRepository, root, bind, Except.bind] at failed
      rcases Except.error.inj failed with rfl
      exact host.checkedRoot_short root
  | ok directory =>
      simp only [workspaceRepository, root, bind, Except.bind] at failed
      cases git : host.workspaceGit workspaceId with
      | none =>
          rw [git] at failed
          rcases Except.error.inj failed with rfl
          decide
      | some found =>
          rw [git] at failed
          cases failed

theorem comparedSide_short {path : RelativePathBuf} {against : DiffBase} {reason : String}
    (failed : host.comparedSide serverId sessionId workspaceId path against = .error reason) :
    reason.utf8ByteSize ≤ 128 := by
  cases root : host.checkedRoot serverId sessionId workspaceId with
  | error other =>
      simp only [comparedSide, root, bind, Except.bind] at failed
      rcases Except.error.inj failed with rfl
      exact host.checkedRoot_short root
  | ok directory =>
      simp only [comparedSide, root, bind, Except.bind] at failed
      cases git : host.workspaceGit workspaceId with
      | none =>
          rw [git] at failed
          rcases Except.error.inj failed with rfl
          decide
      | some found =>
          rw [git] at failed
          cases against with
          | head => cases failed
          | mergeBase =>
              cases base : found.base with
              | none =>
                  simp only [base] at failed
                  rcases Except.error.inj failed with rfl
                  decide
              | some compared =>
                  simp only [base] at failed
                  cases failed

end Lookups

/-! ## Listings -/

theorem directoryListing_names {serverId : ServerId} {sessionId : SessionId}
    {workspaceId : WorkspaceId} {path : RelativePathBuf} {root : PathBuf}
    {disk : List (Except String DiskEntry)}
    (found : host.checkedRoot serverId sessionId workspaceId = .ok root)
    (read : host.directory root path = .ok disk) (valid : validDirectoryPath path = true) :
    (∃ reason, host.directoryListing serverId sessionId workspaceId path = .error reason ∧
      .error reason ∈ disk) ∨
      ∃ listing, host.directoryListing serverId sessionId workspaceId path = .ok listing ∧
        (listing.entries.map (·.name)).Perm (listedNames disk) := by
  simp only [directoryListing, bind, Except.bind, found, read]
  rcases listDirectory_spec host.lowercase valid with ⟨reason, fails, contained⟩ |
    ⟨listing, made, names⟩
  · rw [fails]
    exact .inl ⟨reason, rfl, contained⟩
  · rw [made]
    right
    cases (host.workspaceGit workspaceId).bind (·.repository.excluded root path) with
    | none => exact ⟨listing, rfl, names⟩
    | some excluded =>
        refine ⟨markIgnored excluded listing, rfl, ?_⟩
        rw [markIgnored, List.map_map]
        exact names

theorem directoryListing_fits {serverId : ServerId} {sessionId : SessionId}
    {workspaceId : WorkspaceId} {path : RelativePathBuf}
    (echo : FitsBeside path.inner.utf8ByteSize 0)
    (moderate : ∀ root, host.checkedRoot serverId sessionId workspaceId = .ok root →
      DirectoryModerate (host.directory root path) path.inner.utf8ByteSize) :
    ResultFits path.inner.utf8ByteSize (fun listing : DirectoryListing => message 4 listing.fields)
      (host.directoryListing serverId sessionId workspaceId path) := by
  cases found : host.checkedRoot serverId sessionId workspaceId with
  | error reason =>
      simp only [directoryListing, found, bind, Except.bind]
      exact echo.reason (host.checkedRoot_short found)
  | ok root =>
      by_cases valid : validDirectoryPath path = true
      · cases read : host.directory root path with
        | error reason =>
            simp only [directoryListing, found, bind, Except.bind, listDirectory, valid, read,
              readListing, Bool.not_true, Bool.false_eq_true, if_false]
            exact (moderate root found).read.result read
        | ok disk =>
            rcases (moderate root found).entries disk read with ⟨each, fits⟩
            rcases host.directoryListing_names found read valid with ⟨reason, fails, contained⟩ |
              ⟨listing, made, names⟩
            · rw [fails]
              exact (each _ contained).result rfl
            · rw [made]
              have length := listing.len_spec.2
              have whole := encodedLen_message_le 4 listing.fields (by decide)
              rw [namesSize_perm names] at length
              exact fits.value (by omega)
      · simp only [directoryListing, found, bind, Except.bind, listDirectory,
          Bool.eq_false_iff.mpr valid, Bool.not_false, if_true]
        exact echo.reason (by decide)

/-! ## Requests -/

theorem Moderate.encodedLen_le {request : ClientMessage} (moderate : host.Moderate request)
    {reply : Reply} (answered : host.answer request = some reply) :
    encodedLen reply.fields ≤ maxFrameSize := by
  cases request <;> simp only [answer, reduceCtorEq] at answered
  all_goals obtain rfl := Option.some.inj answered
  case readPane serverId sessionId paneId lines =>
      have small (text : String) (short : text.utf8ByteSize ≤ 128) :
          encodedLen (Reply.error text).fields ≤ maxFrameSize := by
        have whole := bytesLen_le 28 text.utf8ByteSize
        have limit : 148 ≤ maxFrameSize := by decide
        rw [Reply.fields, encodedLen_memberString]
        omega
      have pane := uintLen_le 1 paneId.asU64 (by decide)
      have shown (text : String) (fits : FitsBeside 0 text.utf8ByteSize) :
          encodedLen (Reply.paneText paneId text).fields ≤ maxFrameSize := by
        have rows := stringLen_le 2 text.utf8ByteSize (by decide)
        have whole := bytesLen_le 18 (uintLen 1 paneId.asU64 + stringLen 2 text.utf8ByteSize)
        unfold FitsBeside at fits
        simp only [Reply.fields, encodedLen_message, encodedLen_append, encodedLen_uint,
          encodedLen_string]
        omega
      unfold readPane
      split_ifs
      · exact small _ (by decide)
      · exact small _ (by decide)
      cases found : host.terminals paneId with
      | none => exact small _ (by decide)
      | some held =>
          cases held with
          | none => exact shown _ fitsBeside_nothing
          | some terminal =>
              refine shown _ ?_
              rw [recentText, utf8ByteSize_intercalate]
              exact moderate terminal found
  case gitDiff serverId sessionId requestId workspaceId path against fullContext commit =>
      suffices fits : ResultFits path.inner.utf8ByteSize
          (fun diff : FileDiff => message 4 diff.toWire.fields)
          (host.gitDiff serverId sessionId workspaceId path against fullContext commit) from
        fits.reply (by omega)
      cases commit with
      | some commit =>
          rcases moderate with ⟨echo, read⟩
          refine echo.lookup (fun _ => host.workspaceRepository_short) fun repository found => ?_
          rcases read repository found with ⟨fails, sides⟩
          unfold commitFileDiff
          split_ifs
          · exact echo.reason (by decide)
          · refine fails.bind fun changes given => ?_
            exact resultFits_map.mpr ((sides changes given).diffContent fullContext)
      | none =>
          rcases moderate with ⟨echo, read⟩
          refine echo.lookup (fun _ => host.comparedSide_short) fun side found => ?_
          rcases side with ⟨repository, oldPath, base⟩
          dsimp only
          unfold fileDiff
          split_ifs
          · exact echo.reason (by decide)
          · exact resultFits_map.mpr ((read repository oldPath base found).diffContent fullContext)
  case gitOldFile serverId sessionId requestId workspaceId path against =>
      rcases moderate with ⟨echo, read⟩
      suffices fits : ResultFits path.inner.utf8ByteSize OldFile.fields
          (host.gitOldFile serverId sessionId workspaceId path against) from fits.reply (by omega)
      refine echo.lookup (fun _ => host.comparedSide_short) fun side found => ?_
      exact (read side.1 side.2.1 side.2.2 found).oldFile echo path side.2.1
  case gitLog serverId sessionId requestId workspaceId first skip limit =>
      suffices fits : ResultFits "".utf8ByteSize (fun log : GitLog => message 3 log.fields)
          (host.gitLog serverId sessionId workspaceId first skip limit) by
        rw [gitLog_fields]
        exact fits.reply (by omega)
      exact FitsBeside.lookup fitsBeside_nothing (fun _ => host.workspaceRepository_short)
        fun repository found => (moderate repository found).gitLog
  case gitCommit serverId sessionId requestId workspaceId commit =>
      rcases moderate with ⟨echo, read⟩
      suffices fits : ResultFits commit.utf8ByteSize
          (fun details : CommitDetails => message 4 details.fields)
          (host.gitCommit serverId sessionId workspaceId commit) from fits.reply (by omega)
      exact echo.lookup (fun _ => host.workspaceRepository_short)
        fun repository found => (read repository found).gitCommit
  case listDirectory serverId sessionId requestId workspaceId path =>
      exact (host.directoryListing_fits moderate.1 moderate.2).reply (by omega)
  case readFile serverId sessionId requestId workspaceId path =>
      rcases moderate with ⟨echo, read⟩
      suffices fits : ResultFits path.inner.utf8ByteSize
          (fun content : FileContent => message 4 content.fields)
          (host.fileContent serverId sessionId workspaceId path) from fits.reply (by omega)
      refine echo.lookup (fun _ => host.checkedRoot_short) fun root found => ?_
      exact (read root found).readFile echo host.fileVersion

end Host

/-! ## A file that is not text -/

end Condr
