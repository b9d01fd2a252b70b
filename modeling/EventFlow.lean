import EventFlow.Agent
import EventFlow.Agent.Input
import EventFlow.Agent.Registry
import EventFlow.Agent.Retrieval
import EventFlow.Agent.SearchTool
import EventFlow.Agent.Toolbox
import EventFlow.Binary.Basic
import EventFlow.Binary.Shortest
import EventFlow.Binary.Single
import EventFlow.CommandLine
import EventFlow.CommandLine.Arguments
import EventFlow.CommandLine.Report
import EventFlow.Compilation
import EventFlow.Compilation.Reach
import EventFlow.Compilation.Support
import EventFlow.Conversation
import EventFlow.Dictionary
import EventFlow.Failure
import EventFlow.Graph.Basic
import EventFlow.Graph.Codec
import EventFlow.Graph.Config
import EventFlow.Graph.Index
import EventFlow.Graph.Kind
import EventFlow.Graph.Sample
import EventFlow.Http.Exchange
import EventFlow.Http.Status
import EventFlow.Http.Url
import EventFlow.Json.Basic
import EventFlow.Json.Choice
import EventFlow.Json.Fault
import EventFlow.Json.Outline
import EventFlow.Json.Printer
import EventFlow.Json.Reading
import EventFlow.Json.Record
import EventFlow.Json.Scanner
import EventFlow.Main
import EventFlow.Model.Anthropic
import EventFlow.Model.Client
import EventFlow.Model.Gemini
import EventFlow.Model.OpenAi
import EventFlow.Program.Basic
import EventFlow.Program.Name
import EventFlow.Program.Plan
import EventFlow.Program.Render
import EventFlow.Proofs.Compilation.Search
import EventFlow.Proofs.Dictionary
import EventFlow.Proofs.Graph.Adjacency
import EventFlow.Proofs.Workflow.Lookup
import EventFlow.Proofs.Workflow.Order
import EventFlow.Provider
import EventFlow.Run.Bus
import EventFlow.Run.Codec
import EventFlow.Run.Session
import EventFlow.Run.State
import EventFlow.Run.Step
import EventFlow.Services
import EventFlow.Settings.Basic
import EventFlow.Settings.Codec
import EventFlow.Settings.Config
import EventFlow.Settings.Environment
import EventFlow.Text.Basic
import EventFlow.Text.Printable
import EventFlow.Toml.Basic
import EventFlow.Toml.Parser
import EventFlow.Toml.Printer
import EventFlow.Workflow.Basic
import EventFlow.Workflow.Codec
import EventFlow.Workflow.Event
import EventFlow.Workflow.Order
import EventFlow.Workflow.Tool
import EventFlow.Proofs.Compilation.Drafts
import EventFlow.Proofs.Compilation.Shape
import EventFlow.Proofs.Compilation.Wiring
import EventFlow.Proofs.Run.Effect
import EventFlow.Proofs.Run.Moves
import EventFlow.Proofs.Run.Failures
import EventFlow.Proofs.Run.Evaluation
import EventFlow.Proofs.Workflow.Circles
import EventFlow.Proofs.Run.Simulation
import EventFlow.Proofs.Compilation.Origins
import EventFlow.Proofs.Compilation.SearchOrder
import EventFlow.Proofs.Compilation.Live
import EventFlow.Proofs.Compilation.Twins
import EventFlow.Proofs.Workflow.Rearranged
import EventFlow.Proofs.Run.Lockstep
import EventFlow.Proofs.Run.Lifecycle
import EventFlow.Proofs.Run.Termination
import EventFlow.Proofs.Run.Delivery
import EventFlow.Proofs.Agent.Watched
import EventFlow.Proofs.Agent.Rounds
import EventFlow.Proofs.Model.Wire
import EventFlow.Proofs.Model.Requests
import EventFlow.Proofs.Json.Text
import EventFlow.Proofs.Json.Values
import EventFlow.Proofs.Run.Saved
import EventFlow.Proofs.Run.Reload
import EventFlow.Proofs.Binary.Rounding
import EventFlow.Proofs.Binary.Shortest
import EventFlow.Proofs.Json.Number
import EventFlow.Proofs.Json.Layout
import EventFlow.Proofs.Json.Sorted
import EventFlow.Proofs.Json.Record
import EventFlow.Proofs.Json.Depth
import EventFlow.Proofs.Graph.Codec
import EventFlow.Proofs.Workflow.Codec
import EventFlow.Proofs.CommandLine.Generate
import EventFlow.Proofs.Program.Names
import EventFlow.Proofs.Program.Families
import EventFlow.Proofs.Program.Lines
import EventFlow.Proofs.Program.Spelling
import EventFlow.Proofs.Program.Bound
import EventFlow.Proofs.Program.Temperature
import EventFlow.Proofs.Program.Events
import EventFlow.Proofs.Program.Handlers
import EventFlow.Proofs.Program.Models
import EventFlow.Proofs.Program.Template
import EventFlow.Proofs.Program.Code
import EventFlow.Proofs.Program.Closed
import EventFlow.Proofs.Run.Conservation
import EventFlow.Proofs.Run.Narration
import EventFlow.Proofs.Workflow.Countdown
import EventFlow.Proofs.Compilation.Greatest
import EventFlow.Proofs.Compilation.Discovery
import EventFlow.Proofs.Compilation.Nesting
import EventFlow.Proofs.Run.Resuming
import EventFlow.Proofs.Run.Collecting
import EventFlow.Proofs.Run.Survival
import EventFlow.Proofs.Run.Continuing
import EventFlow.Proofs.Agent.Toolbox
import EventFlow.Proofs.Json.Scanned
import EventFlow.Proofs.Workflow.Upstream
import EventFlow.Proofs.Json.Yields
import EventFlow.Proofs.Model.Replay
import EventFlow.Proofs.Settings.Environment
import EventFlow.Proofs.Program.Filling
import EventFlow.Proofs.Program.ToolCode
import EventFlow.Proofs.Program.CallName
import EventFlow.Proofs.Agent.Retrieval
import EventFlow.Proofs.Graph.Listing
import EventFlow.Proofs.Program.Callable
import EventFlow.Proofs.Agent.Registry
import EventFlow.Proofs.Program.Credentials
