import DecisionBoard.Host.Call
import DecisionBoard.Proofs.Board.Isolation
import DecisionBoard.Proofs.Board.Refusal
import DecisionBoard.Proofs.Session.Inputs
import DecisionBoard.Proofs.Session.Phase
import DecisionBoard.Proofs.Number.Digits
import DecisionBoard.Proofs.Number.ReadBack
import DecisionBoard.Proofs.Number.Spelling
import DecisionBoard.Proofs.Json.Scalars
import DecisionBoard.Proofs.Json.RoundTrip
import DecisionBoard.Proofs.Sorting
import DecisionBoard.Proofs.Store.Ledger
import DecisionBoard.Proofs.Json.LineEnds
import DecisionBoard.Proofs.Store.File
import DecisionBoard.Proofs.Store.Run
import DecisionBoard.Proofs.Store.Ownership
import DecisionBoard.Proofs.Board.Numbering
import DecisionBoard.Proofs.Host.Ends
import DecisionBoard.Proofs.Host.Target
import DecisionBoard.Proofs.Host.Delivery
import DecisionBoard.Proofs.Host.Effects
import DecisionBoard.Proofs.Host.Calls
import DecisionBoard.Proofs.Host.HalfDone
import DecisionBoard.Proofs.Host.Runs
import DecisionBoard.Proofs.Host.CurrentRefs
import DecisionBoard.Proofs.Json.Shortening
import DecisionBoard.Proofs.Directive
import DecisionBoard.Proofs.Board.Reads
import DecisionBoard.Proofs.Verdict
import DecisionBoard.Proofs.Copies
import DecisionBoard.Proofs.Session.Restored
import DecisionBoard.Proofs.Board.Registered
import DecisionBoard.Proofs.Board.Sources
import DecisionBoard.Proofs.Host.Tabs
import DecisionBoard.Proofs.Board.Dismissible
import DecisionBoard.Proofs.Host.Dismissal
import DecisionBoard.Proofs.Json.Proper
import DecisionBoard.Proofs.Checked
import DecisionBoard.Proofs.Layout
import DecisionBoard.Proofs.Layout.Entrywise
import DecisionBoard.Proofs.Layout.Unnamed
import DecisionBoard.Proofs.Layout.Batches
import DecisionBoard.Proofs.Layout.Removal
import DecisionBoard.Proofs.Session.Redelivery
import DecisionBoard.Proofs.Board.Referred
import DecisionBoard.Proofs.Refs
import DecisionBoard.Proofs.Board.Marked
import DecisionBoard.Proofs.Board.Twin
import DecisionBoard.Proofs.Board.Modes
import DecisionBoard.Proofs.Session.Unchanged
import DecisionBoard.Proofs.Session.Pending
import DecisionBoard.Proofs.Dispatch.Interactions
import DecisionBoard.Proofs.Dispatch.History
import DecisionBoard.Proofs.Dispatch.Failure
import DecisionBoard.Proofs.Dispatch.Pending
import DecisionBoard.Proofs.Dispatch.Alongside
import DecisionBoard.Proofs.Host.Outbox
import DecisionBoard.Proofs.Host.Accounts
import DecisionBoard.Proofs.Host.Changes
import DecisionBoard.Proofs.Host.Messages
import DecisionBoard.Proofs.Host.PendingTools
import DecisionBoard.Proofs.WidgetState
import DecisionBoard.Proofs.Host.Sessions
import DecisionBoard.Proofs.Host.StateKeys
import DecisionBoard.Proofs.Session.Markers
import DecisionBoard.Proofs.Board.Hidden
import DecisionBoard.Proofs.Host.Lasting
import DecisionBoard.Proofs.Splits
import DecisionBoard.Proofs.Json.Taken
import DecisionBoard.Proofs.Json.Extent
import DecisionBoard.Proofs.Packages
import DecisionBoard.Proofs.Remote.Answers
import DecisionBoard.Proofs.Remote.Stream
import DecisionBoard.Proofs.Host.Servers
import DecisionBoard.Proofs.Host.Reached
import DecisionBoard.Proofs.Store.Shared
import DecisionBoard.Proofs.Number.Rounding
import DecisionBoard.Proofs.Session.Verdicts
import DecisionBoard.Proofs.Session.Writes
import DecisionBoard.Proofs.Number.Bounds
import DecisionBoard.Proofs.Board.Shown
import DecisionBoard.Proofs.Board.Parts
import DecisionBoard.Proofs.Host.InputValues
import DecisionBoard.Proofs.Board.Expanded
import DecisionBoard.Proofs.Host.Expansion
import DecisionBoard.Proofs.Board.Chunks
import DecisionBoard.Proofs.Host.TabSelection
import DecisionBoard.Proofs.Key
import DecisionBoard.Proofs.Snapshot
import DecisionBoard.Proofs.Number.Parts
import DecisionBoard.Proofs.Board.SplitBars
import DecisionBoard.Proofs.Host.AddedCards
import DecisionBoard.Proofs.Refs.Positions
import DecisionBoard.Proofs.WidgetState.Collected
import DecisionBoard.Proofs.Dispatch.ToolArguments
