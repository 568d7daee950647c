import FaultDrill.Attempt
import FaultDrill.Backend
import FaultDrill.Binary64.Basic
import FaultDrill.Binary64.Numeral
import FaultDrill.Binary64.Text
import FaultDrill.Catalog
import FaultDrill.Catalog.Machine
import FaultDrill.Catalog.Snapshot
import FaultDrill.Catalog.Source
import FaultDrill.Client
import FaultDrill.Client.Command
import FaultDrill.Client.Local
import FaultDrill.CommandLine.Outside
import FaultDrill.CommandLine.Paths
import FaultDrill.CommandLine.Request
import FaultDrill.CommandLine.Run
import FaultDrill.CommandLine.Words
import FaultDrill.Config
import FaultDrill.Config.Document
import FaultDrill.Credentials
import FaultDrill.Document.Atom
import FaultDrill.Document.Fault
import FaultDrill.Document.Node
import FaultDrill.Document.Reader
import FaultDrill.Document.Value
import FaultDrill.Draw
import FaultDrill.Draw.Cipher
import FaultDrill.Draw.Selection
import FaultDrill.Engine
import FaultDrill.Engine.Workers
import FaultDrill.Event
import FaultDrill.Fault
import FaultDrill.FileTree
import FaultDrill.Group
import FaultDrill.Instant.Basic
import FaultDrill.Instant.Calendar
import FaultDrill.Instant.Text
import FaultDrill.Json.Printer
import FaultDrill.Json.Reader
import FaultDrill.Json.Token
import FaultDrill.Ledger
import FaultDrill.Ledger.Journal
import FaultDrill.Main
import FaultDrill.Path
import FaultDrill.Pool
import FaultDrill.Power
import FaultDrill.Proofs.Binary64.Exact
import FaultDrill.Proofs.Binary64.Numeral
import FaultDrill.Proofs.Binary64.Unit
import FaultDrill.Proofs.Catalog.Crawl
import FaultDrill.Proofs.Catalog.LastGood
import FaultDrill.Proofs.Catalog.Snapshot
import FaultDrill.Proofs.Client.Contact
import FaultDrill.Proofs.Client.Truth
import FaultDrill.Proofs.CommandLine.Credentials
import FaultDrill.Proofs.CommandLine.Overrides
import FaultDrill.Proofs.Config.Building
import FaultDrill.Proofs.Config.Document
import FaultDrill.Proofs.Config.Loading
import FaultDrill.Proofs.Credentials.Absence
import FaultDrill.Proofs.Credentials.Input
import FaultDrill.Proofs.Credentials.Precedence
import FaultDrill.Proofs.Document.Record
import FaultDrill.Proofs.Document.Written
import FaultDrill.Proofs.Draw.Fairness
import FaultDrill.Proofs.Draw.Lot
import FaultDrill.Proofs.Draw.Odds
import FaultDrill.Proofs.Draw.Selection
import FaultDrill.Proofs.Engine.Account
import FaultDrill.Proofs.Engine.Agreement
import FaultDrill.Proofs.Engine.Certainty
import FaultDrill.Proofs.Engine.Clearance
import FaultDrill.Proofs.Engine.Exclusion
import FaultDrill.Proofs.Engine.Exemption
import FaultDrill.Proofs.Engine.Fairness
import FaultDrill.Proofs.Engine.Keeping
import FaultDrill.Proofs.Engine.Odds
import FaultDrill.Proofs.Engine.Order
import FaultDrill.Proofs.Engine.Outage
import FaultDrill.Proofs.Engine.Rehearsal
import FaultDrill.Proofs.Engine.Reproduction
import FaultDrill.Proofs.Engine.Ruling
import FaultDrill.Proofs.Engine.Spending
import FaultDrill.Proofs.Engine.Turn
import FaultDrill.Proofs.Engine.Victim
import FaultDrill.Proofs.Engine.Watch
import FaultDrill.Proofs.Engine.Workers
import FaultDrill.Proofs.Event
import FaultDrill.Proofs.Except
import FaultDrill.Proofs.FileTree
import FaultDrill.Proofs.Instant.Calendar
import FaultDrill.Proofs.Instant.Floor
import FaultDrill.Proofs.Instant.Text
import FaultDrill.Proofs.Instant.Window
import FaultDrill.Proofs.Json.Damage
import FaultDrill.Proofs.Json.Layout
import FaultDrill.Proofs.Json.Spelling
import FaultDrill.Proofs.Json.Structure
import FaultDrill.Proofs.Ledger.Crash
import FaultDrill.Proofs.Ledger.Journal
import FaultDrill.Proofs.Ledger.Refinement
import FaultDrill.Proofs.Path
import FaultDrill.Proofs.Places
import FaultDrill.Proofs.Pool
import FaultDrill.Proofs.Pool.Turns
import FaultDrill.Proofs.Remote.Drain
import FaultDrill.Proofs.Remote.Poll
import FaultDrill.Proofs.Remote.Stream
import FaultDrill.Proofs.Report.Saved
import FaultDrill.Proofs.Report.Secrecy
import FaultDrill.Proofs.Schedule.Account
import FaultDrill.Proofs.Schedule.Count
import FaultDrill.Proofs.Schedule.Steps
import FaultDrill.Proofs.Schedule.Turn
import FaultDrill.Proofs.Span.Reading
import FaultDrill.Proofs.Text.Blank
import FaultDrill.Proofs.Text.Utf8
import FaultDrill.Proofs.Work
import FaultDrill.Remote
import FaultDrill.Remote.Stream
import FaultDrill.Report.Format
import FaultDrill.Report.Save
import FaultDrill.Report.Style
import FaultDrill.Report.Text
import FaultDrill.Schedule
import FaultDrill.Schedule.Pace
import FaultDrill.Script
import FaultDrill.Shell
import FaultDrill.Shell.Escape
import FaultDrill.Shell.Program
import FaultDrill.Shell.Script
import FaultDrill.Site
import FaultDrill.Span
import FaultDrill.Text.Blank
import FaultDrill.Text.Quoted
import FaultDrill.Text.Utf8
import FaultDrill.Verdict
import FaultDrill.Work
import FaultDrill.Yaml.Cursor
import FaultDrill.Yaml.Event
import FaultDrill.Yaml.Printer
import FaultDrill.Yaml.Reader
import FaultDrill.Yaml.Text
import FaultDrill.Yaml.Token
