import Condr.Agent.Detector
import Condr.Agent.DetectorRuns
import Condr.Agent.Event
import Condr.Agent.HookConfig
import Condr.Agent.HookConfigLaws
import Condr.Agent.HookFile
import Condr.Agent.HookInstallation
import Condr.Agent.Spec
import Condr.Client.ChunkAssembly
import Condr.Client.ChunkFence
import Condr.Client.Forward
import Condr.Client.ForwardAgreement
import Condr.Client.FrameMerge
import Condr.Client.FrameMergeLaw
import Condr.Client.FrameMergeLinks
import Condr.Client.Key
import Condr.Client.NoiseStream
import Condr.Client.NoiseStreamSafety
import Condr.Client.P2pNode
import Condr.Client.P2pNodeSafety
import Condr.Client.Reader
import Condr.Client.SessionModel
import Condr.Client.StreamAgreement
import Condr.Client.StreamLanes
import Condr.Client.StreamLink
import Condr.Client.StreamMoves
import Condr.Client.StreamSafety
import Condr.Client.StreamSimulation
import Condr.Client.StreamSteps
import Condr.Client.Streams
import Condr.Client.TerminalBatches
import Condr.Client.Terminals
import Condr.Client.VisualSlot
import Condr.Client.VisualSlotEffect
import Condr.Client.VisualSlotRuns
import Condr.Client.VisualSlotSafety
import Condr.Files.FilePath
import Condr.Files.LocalName
import Condr.Files.Read
import Condr.Foundation.Boundaries
import Condr.Foundation.Budget
import Condr.Foundation.Chunks
import Condr.Foundation.CreditLane
import Condr.Foundation.Entries
import Condr.Foundation.FileTree
import Condr.Foundation.Hexadecimal
import Condr.Foundation.Json
import Condr.Foundation.JsonText
import Condr.Foundation.Lists
import Condr.Foundation.NumberedLog
import Condr.Foundation.Overlay
import Condr.Foundation.Protobuf
import Condr.Foundation.Runs
import Condr.Foundation.Scanner
import Condr.Foundation.ShellWords
import Condr.Foundation.Slot
import Condr.Foundation.SortedMap
import Condr.Foundation.Splitter
import Condr.Foundation.Tiling
import Condr.Foundation.Transition
import Condr.Foundation.Transport
import Condr.Foundation.Utf8
import Condr.Foundation.Varint
import Condr.Foundation.WindowsArguments
import Condr.Git.Changes
import Condr.Git.Diff
import Condr.Git.History
import Condr.Git.NetChanges
import Condr.Git.Worktree
import Condr.Git.WorktreeOutcome
import Condr.Git.WorktreeOwnership
import Condr.Git.WorktreePath
import Condr.Git.WorktreeSafety
import Condr.Git.WorktreeSteps
import Condr.Gui.ChangeForest
import Condr.Gui.ChangeMarks
import Condr.Gui.ChangeTree
import Condr.Gui.ChangeTreeRows
import Condr.Gui.ChangedSpan
import Condr.Mobile.Companion
import Condr.Mobile.CompanionSafety
import Condr.Mobile.CompanionSteps
import Condr.Mobile.CompanionWatch
import Condr.Mobile.CompanionWatchSafety
import Condr.Mobile.Device
import Condr.Protocol.Bootstrap
import Condr.Protocol.BootstrapRecord
import Condr.Protocol.ClientMessage
import Condr.Protocol.ClientMessageRoundTrip
import Condr.Protocol.Commands
import Condr.Protocol.Framing
import Condr.Protocol.Git
import Condr.Protocol.Pb
import Condr.Protocol.PersistedRuns
import Condr.Protocol.Replies
import Condr.Protocol.SessionSnapshot
import Condr.Protocol.SnapshotRoundTrip
import Condr.Protocol.TerminalFrames
import Condr.Protocol.TerminalInput
import Condr.Server.AnswerBounds
import Condr.Server.AnswerBudget
import Condr.Server.Answers
import Condr.Server.AnswersFit
import Condr.Server.Bootstrap
import Condr.Server.BootstrapReassembly
import Condr.Server.BootstrapSize
import Condr.Server.ClientWriter
import Condr.Server.ClientWriterSafety
import Condr.Server.EventStream
import Condr.Server.EventStreamAgreement
import Condr.Server.EventStreamInvariant
import Condr.Server.EventStreamRequests
import Condr.Server.EventStreamSafety
import Condr.Server.EventStreamSteps
import Condr.Server.GitWatcher
import Condr.Server.GitWatcherSafety
import Condr.Server.GitWatcherSteps
import Condr.Server.Identity
import Condr.Server.Pairing
import Condr.Server.PairingSafety
import Condr.Server.PairingSteps
import Condr.Server.Persistence
import Condr.Server.PersistenceFate
import Condr.Server.PersistenceOrder
import Condr.Server.TerminalCwds
import Condr.Server.TerminalFraming
import Condr.Server.TerminalMonitor
import Condr.Server.TerminalMonitorSafety
import Condr.Server.TerminalStream
import Condr.Server.TerminalStreamInvariant
import Condr.Server.TerminalStreamRenders
import Condr.Server.TerminalStreamRequests
import Condr.Server.TerminalStreamSafety
import Condr.Server.TerminalStreamSteps
import Condr.Session.Basic
import Condr.Session.Closing
import Condr.Session.Context
import Condr.Session.Geometry
import Condr.Session.Layout
import Condr.Session.LayoutTable
import Condr.Session.Moving
import Condr.Session.Neighbors
import Condr.Session.Pane
import Condr.Session.PanePreservation
import Condr.Session.Path
import Condr.Session.Ratio
import Condr.Session.Resizing
import Condr.Session.Restoration
import Condr.Session.RoundTrip
import Condr.Session.Runs
import Condr.Session.Snapshot
import Condr.Session.Validation
import Condr.Session.WellFormed
import Condr.Session.Workspace
import Condr.Session.WorkspacePreservation
import Condr.Session.Zoom
import Condr.Terminal.CursorSettle
import Condr.Terminal.FrameFrom
import Condr.Terminal.HookCut
import Condr.Terminal.HookStream
import Condr.Terminal.HyperlinkAccounts
import Condr.Terminal.HyperlinkFeed
import Condr.Terminal.HyperlinkPasses
import Condr.Terminal.HyperlinkTable
import Condr.Terminal.Hyperlinks
import Condr.Terminal.InputQueue
import Condr.Terminal.InputQueueDrain
import Condr.Terminal.InputQueueOrder
import Condr.Terminal.InputQueueSafety
import Condr.Terminal.InputQueueTrace
import Condr.Terminal.Launch
import Condr.Terminal.LaunchLine
import Condr.Terminal.LaunchWords
import Condr.Terminal.LostLinks
import Condr.Terminal.Mouse
import Condr.Terminal.RecentText
import Condr.Terminal.Uri
import Condr.Terminal.View
import Condr.Terminal.VtView
import Condr.Terminal.VtViewRuns
import Condr.Terminal.Wire
import Condr.Terminal.WireRoundTrip
