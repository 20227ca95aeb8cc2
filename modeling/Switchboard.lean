import Switchboard.Binding
import Switchboard.Bot.Dispatch
import Switchboard.Command.Help
import Switchboard.Command.Link
import Switchboard.Command.Lookup
import Switchboard.Config
import Switchboard.Console.Session
import Switchboard.Data.Json.Line
import Switchboard.Main
import Switchboard.Plugin.Loading
import Switchboard.Proofs.Acknowledgment
import Switchboard.Proofs.Agreement
import Switchboard.Proofs.AliasRemoval
import Switchboard.Proofs.AliasTable
import Switchboard.Proofs.Batch
import Switchboard.Proofs.Binding
import Switchboard.Proofs.BindingOutcome
import Switchboard.Proofs.BlankLine
import Switchboard.Proofs.Building
import Switchboard.Proofs.CallerText
import Switchboard.Proofs.Coherence
import Switchboard.Proofs.Completion
import Switchboard.Proofs.ComposedName
import Switchboard.Proofs.ConfigFault
import Switchboard.Proofs.DamagedFile
import Switchboard.Proofs.Declared
import Switchboard.Proofs.DeclaredPath
import Switchboard.Proofs.Dispatch
import Switchboard.Proofs.Ending
import Switchboard.Proofs.EntryField
import Switchboard.Proofs.ExactInteger
import Switchboard.Proofs.FailedSave
import Switchboard.Proofs.Gate
import Switchboard.Proofs.Handler
import Switchboard.Proofs.HigherLevel
import Switchboard.Proofs.Holder
import Switchboard.Proofs.Isolation
import Switchboard.Proofs.JoinedLine
import Switchboard.Proofs.JsonDocument
import Switchboard.Proofs.JsonNumber
import Switchboard.Proofs.JsonReading
import Switchboard.Proofs.JsonText
import Switchboard.Proofs.LoadEffect
import Switchboard.Proofs.NegativeNumber
import Switchboard.Proofs.Outline
import Switchboard.Proofs.Permission
import Switchboard.Proofs.Placement
import Switchboard.Proofs.PluginLoad
import Switchboard.Proofs.Preparation
import Switchboard.Proofs.PreparedGraph
import Switchboard.Proofs.QuotedCall
import Switchboard.Proofs.QuotedLine
import Switchboard.Proofs.Quoting
import Switchboard.Proofs.Refinement
import Switchboard.Proofs.Registry
import Switchboard.Proofs.ResolvedPath
import Switchboard.Proofs.Restart
import Switchboard.Proofs.RootHelp
import Switchboard.Proofs.Rounding
import Switchboard.Proofs.RuleForm
import Switchboard.Proofs.SavedState
import Switchboard.Proofs.Scan
import Switchboard.Proofs.ScopeAddition
import Switchboard.Proofs.Separation
import Switchboard.Proofs.Share
import Switchboard.Proofs.SharedFile
import Switchboard.Proofs.Sheet
import Switchboard.Proofs.ShortestText
import Switchboard.Proofs.StateText
import Switchboard.Proofs.StoreRun
import Switchboard.Proofs.StoredLevel
import Switchboard.Proofs.Superuser
import Switchboard.Proofs.SyncedStore
import Switchboard.Proofs.TableOrder
import Switchboard.Proofs.Tidiness
import Switchboard.Proofs.TokenRole
import Switchboard.Proofs.Twin
import Switchboard.Proofs.TwinEntries
import Switchboard.Proofs.Unlinking
import Switchboard.Proofs.UserEntry
import Switchboard.Proofs.WholeNumber
import Switchboard.Proofs.Work
import Switchboard.Proofs.WrittenOption
import Switchboard.Store.Basic
import Switchboard.Store.Tree
