import MutationPipeline.Channel
import MutationPipeline.Checker.Assembly
import MutationPipeline.Checker.Course
import MutationPipeline.Checker.Death
import MutationPipeline.Checker.Host
import MutationPipeline.Checker.Inspection
import MutationPipeline.Checker.Message
import MutationPipeline.Checker.Plugin
import MutationPipeline.Checker.Process
import MutationPipeline.Checker.Server
import MutationPipeline.Checker.Service
import MutationPipeline.Checker.Stage
import MutationPipeline.Checker.Work
import MutationPipeline.CommandLine.Command
import MutationPipeline.CommandLine.Help
import MutationPipeline.CommandLine.Options
import MutationPipeline.Config
import MutationPipeline.Decimal
import MutationPipeline.Dependency.Discovery
import MutationPipeline.Dependency.Graph
import MutationPipeline.Dependency.Grouping
import MutationPipeline.Dependency.Resolver
import MutationPipeline.Dependency.Specifier
import MutationPipeline.Disk
import MutationPipeline.Duration
import MutationPipeline.Json.Codec
import MutationPipeline.Json.Numeral
import MutationPipeline.Json.Printer
import MutationPipeline.Json.Reader
import MutationPipeline.Json.Record
import MutationPipeline.Json.Tagged
import MutationPipeline.Json.Value
import MutationPipeline.Keyed
import MutationPipeline.Log
import MutationPipeline.Machine
import MutationPipeline.Main
import MutationPipeline.Mutant.Basic
import MutationPipeline.Mutant.Document
import MutationPipeline.Mutant.Result
import MutationPipeline.Path
import MutationPipeline.Pipeline.Error
import MutationPipeline.Pipeline.Floor
import MutationPipeline.Pipeline.Hosting
import MutationPipeline.Pipeline.Record
import MutationPipeline.Pipeline.Role
import MutationPipeline.Pipeline.Run
import MutationPipeline.Pipeline.Setup
import MutationPipeline.Pool.Basic
import MutationPipeline.Pool.Journal
import MutationPipeline.Pool.Permits
import MutationPipeline.Pool.Schedule
import MutationPipeline.Pool.Traffic
import MutationPipeline.Pool.Work
import MutationPipeline.Proofs.Checker.Assembly
import MutationPipeline.Proofs.Checker.Deaths
import MutationPipeline.Proofs.Checker.Hosts
import MutationPipeline.Proofs.Checker.Placement
import MutationPipeline.Proofs.Checker.Serving
import MutationPipeline.Proofs.Checker.Sessions
import MutationPipeline.Proofs.Checker.Sorting
import MutationPipeline.Proofs.Dependency.Arrival
import MutationPipeline.Proofs.Dependency.Chart
import MutationPipeline.Proofs.Dependency.Groups
import MutationPipeline.Proofs.Dependency.Inquiry
import MutationPipeline.Proofs.Dependency.Links
import MutationPipeline.Proofs.Dependency.Passes
import MutationPipeline.Proofs.Dependency.Phrases
import MutationPipeline.Proofs.Dependency.Sources
import MutationPipeline.Proofs.Documents
import MutationPipeline.Proofs.Json.Codecs
import MutationPipeline.Proofs.Json.Leniency
import MutationPipeline.Proofs.Json.Reading
import MutationPipeline.Proofs.Lists
import MutationPipeline.Proofs.Moves
import MutationPipeline.Proofs.Paths
import MutationPipeline.Proofs.Pipeline.Audit
import MutationPipeline.Proofs.Pipeline.Causes
import MutationPipeline.Proofs.Pipeline.Checks
import MutationPipeline.Proofs.Pipeline.Concurrency
import MutationPipeline.Proofs.Pipeline.Disposals
import MutationPipeline.Proofs.Pipeline.Parcels
import MutationPipeline.Proofs.Pipeline.Progress
import MutationPipeline.Proofs.Pipeline.Results
import MutationPipeline.Proofs.Pipeline.Roles
import MutationPipeline.Proofs.Pipeline.Runs
import MutationPipeline.Proofs.Pipeline.Stages
import MutationPipeline.Proofs.Pool.Backpressure
import MutationPipeline.Proofs.Pool.Clearing
import MutationPipeline.Proofs.Pool.Content
import MutationPipeline.Proofs.Pool.Courses
import MutationPipeline.Proofs.Pool.Disposing
import MutationPipeline.Proofs.Pool.Joining
import MutationPipeline.Proofs.Pool.Permits
import MutationPipeline.Proofs.Pool.Shut
import MutationPipeline.Proofs.Pool.Stances
import MutationPipeline.Proofs.Pool.Stranding
import MutationPipeline.Proofs.Pool.Traffic
import MutationPipeline.Proofs.Report
import MutationPipeline.Proofs.Runner.Runs
import MutationPipeline.Proofs.Runner.Sessions
import MutationPipeline.Proofs.Sandbox
import MutationPipeline.Proofs.Text.Lines
import MutationPipeline.Proofs.Worker.Endings
import MutationPipeline.Proofs.Worker.Mending
import MutationPipeline.Proofs.Pipeline.Scenes
import MutationPipeline.Proofs.Worker.Successors
import MutationPipeline.Rehearsal.Checkers
import MutationPipeline.Rehearsal.Clock
import MutationPipeline.Rehearsal.Dealing
import MutationPipeline.Rehearsal.Performance
import MutationPipeline.Rehearsal.Processes
import MutationPipeline.Rehearsal.Runners
import MutationPipeline.Rehearsal.Shell.Arithmetic
import MutationPipeline.Rehearsal.Shell.Builtins
import MutationPipeline.Rehearsal.Shell.Conditions
import MutationPipeline.Rehearsal.Shell.Declaring
import MutationPipeline.Rehearsal.Shell.EditScript
import MutationPipeline.Rehearsal.Shell.Editing
import MutationPipeline.Rehearsal.Shell.Evaluator
import MutationPipeline.Rehearsal.Shell.Exchange
import MutationPipeline.Rehearsal.Shell.Files
import MutationPipeline.Rehearsal.Shell.Filters
import MutationPipeline.Rehearsal.Shell.Format
import MutationPipeline.Rehearsal.Shell.Inputs
import MutationPipeline.Rehearsal.Shell.Intake
import MutationPipeline.Rehearsal.Shell.Machine
import MutationPipeline.Rehearsal.Shell.Numbers
import MutationPipeline.Rehearsal.Shell.Options
import MutationPipeline.Rehearsal.Shell.Printing
import MutationPipeline.Rehearsal.Shell.Reader
import MutationPipeline.Rehearsal.Shell.Records.Evaluator
import MutationPipeline.Rehearsal.Shell.Records.Reader
import MutationPipeline.Rehearsal.Shell.Records.Sheet
import MutationPipeline.Rehearsal.Shell.Regex
import MutationPipeline.Rehearsal.Shell.Room
import MutationPipeline.Rehearsal.Shell.Search
import MutationPipeline.Rehearsal.Shell.Signals
import MutationPipeline.Rehearsal.Shell.Sorting
import MutationPipeline.Rehearsal.Shell.Syntax
import MutationPipeline.Rehearsal.Shell.Variables
import MutationPipeline.Rehearsal.Shell.Words
import MutationPipeline.Rehearsal.Shell.Wrapping
import MutationPipeline.Rehearsal.Shift
import MutationPipeline.Rehearsal.StageRun
import MutationPipeline.Rehearsal.Table
import MutationPipeline.Rehearsal.Turns
import MutationPipeline.Report
import MutationPipeline.RunPlan
import MutationPipeline.Runner.Work
import MutationPipeline.Text.Lines
import MutationPipeline.Text.Quoted
import MutationPipeline.Text.Word
import MutationPipeline.Worker.Crew
import MutationPipeline.Worker.Error
import MutationPipeline.Worker.Recovery
