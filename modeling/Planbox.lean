import Planbox.CommandLine.Arguments
import Planbox.CommandLine.Dialogue
import Planbox.CommandLine.Gates
import Planbox.CommandLine.Outcome
import Planbox.CommandLine.Perform
import Planbox.CommandLine.Presentation
import Planbox.CommandLine.Reach
import Planbox.Conversation
import Planbox.Decimal.Shortest
import Planbox.Digest.Sha256
import Planbox.Edit
import Planbox.FileTree.Basic
import Planbox.FileTree.Files
import Planbox.FileTree.Listing
import Planbox.FileTree.Store
import Planbox.FileTree.Walk
import Planbox.Install
import Planbox.Json.Basic
import Planbox.Json.Number
import Planbox.Json.Printer
import Planbox.Json.Reader
import Planbox.Main
import Planbox.Path
import Planbox.Pattern.CharSet
import Planbox.Pattern.Class
import Planbox.Pattern.Expr
import Planbox.Pattern.Notation
import Planbox.Pattern.Program
import Planbox.Pattern.Reader
import Planbox.Pattern.Replacement
import Planbox.Pattern.Search
import Planbox.Pattern.Unicode.Category
import Planbox.Pattern.Unicode.Fold
import Planbox.Pattern.Unicode.Property
import Planbox.Pattern.Unicode.Runs
import Planbox.Pattern.Unicode.Script
import Planbox.Plan.Basic
import Planbox.Plan.Coerce
import Planbox.Plan.Find
import Planbox.Plan.Wire
import Planbox.Problem
import Planbox.Process.Basic
import Planbox.Process.Capture
import Planbox.Prompt.Profile
import Planbox.Prompt.Request
import Planbox.Run.Execute
import Planbox.Run.Failure
import Planbox.Run.Report
import Planbox.Run.Snapshot
import Planbox.Run.Step
import Planbox.Sandbox
import Planbox.Session.Basic
import Planbox.Session.Generator
import Planbox.Session.Repair
import Planbox.Settings.Basic
import Planbox.Settings.File
import Planbox.Settings.Text
import Planbox.Shell.Arithmetic
import Planbox.Shell.Builtins
import Planbox.Shell.Condition
import Planbox.Shell.Fields
import Planbox.Shell.Format
import Planbox.Shell.Glob
import Planbox.Shell.Host
import Planbox.Shell.Lexer
import Planbox.Shell.Parser
import Planbox.Shell.Run
import Planbox.Shell.State
import Planbox.Shell.Supply
import Planbox.Shell.Syntax
import Planbox.Shell.Tools.Files
import Planbox.Shell.Tools.Filters
import Planbox.Shell.Tools.Options
import Planbox.Shell.Tools.Search
import Planbox.Shell.Tools.Table
import Planbox.Text.Blank
import Planbox.Text.Bytes
import Planbox.Text.Replace
import Planbox.Text.Utf8
import Planbox.Toml.Assembly
import Planbox.Toml.Basic
import Planbox.Toml.Quoted
import Planbox.Toml.Reader
import Planbox.Toml.Scalar
import Planbox.Toml.Writer
import Planbox.Workspace
import Planbox.Proofs.Places
import Planbox.Proofs.PlainTree
import Planbox.Proofs.TreeChange
import Planbox.Proofs.Steps
import Planbox.Proofs.Runs
import Planbox.Proofs.Results
import Planbox.Proofs.Captures
import Planbox.Proofs.Undo
import Planbox.Proofs.Containment
import Planbox.Proofs.Reversal
import Planbox.Proofs.PlanIdentity
import Planbox.Proofs.UndoStack
import Planbox.Proofs.StartedPrograms
import Planbox.Proofs.SessionRuns
import Planbox.Proofs.SessionGates
import Planbox.Proofs.RepairBound
import Planbox.Proofs.SessionRecords
import Planbox.Proofs.SessionTurns
import Planbox.Proofs.JsonCode
import Planbox.Proofs.JsonTokens
import Planbox.Proofs.JsonGrammar
import Planbox.Proofs.JsonExtent
import Planbox.Proofs.JsonText
import Planbox.Proofs.BoundedCapture
import Planbox.Proofs.CutText
import Planbox.Proofs.PlanText
import Planbox.Proofs.FencedText
import Planbox.Proofs.CutReplies
import Planbox.Proofs.WrappedPlans
import Planbox.Proofs.IdleEdits
import Planbox.Proofs.ByteOrder
import Planbox.Proofs.CanonicalJson
import Planbox.Proofs.FilesAfterRuns
import Planbox.Proofs.WorkspaceGates
import Planbox.Proofs.ExitCodes
import Planbox.Proofs.LexicalSandbox
import Planbox.Proofs.DryRuns
import Planbox.Proofs.CapturedChanges
import Planbox.Proofs.Restoration
import Planbox.Proofs.SandboxRoots
import Planbox.Proofs.ReportLines
import Planbox.Proofs.PatternGroups
import Planbox.Proofs.PatternPrograms
import Planbox.Proofs.PatternMatches
import Planbox.Proofs.PatternEdits
import Planbox.Proofs.ShellWords
import Planbox.Proofs.InstallCommand
import Planbox.Proofs.FindFrames
import Planbox.Proofs.SnapshotKeys
import Planbox.Proofs.Listings
import Planbox.Proofs.TomlText
import Planbox.Proofs.TomlValues
import Planbox.Proofs.TomlDocument
import Planbox.Proofs.SettingsText
import Planbox.Proofs.FileNames
import Planbox.Proofs.LinkedTree
import Planbox.Proofs.SettingsFile
