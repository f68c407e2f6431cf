import MarkupBinding.Binding.Bind
import MarkupBinding.Binding.Stack
import MarkupBinding.Binding.Toggle
import MarkupBinding.Binding.Walk
import MarkupBinding.Command.Arguments
import MarkupBinding.Command.Run
import MarkupBinding.Expression.Path
import MarkupBinding.Expression.Template
import MarkupBinding.InputForm.Client
import MarkupBinding.InputForm.Drawing
import MarkupBinding.InputForm.Fields
import MarkupBinding.InputForm.Outline
import MarkupBinding.InputForm.Page
import MarkupBinding.InputForm.SessionState
import MarkupBinding.Json.Fault
import MarkupBinding.Json.Input
import MarkupBinding.Json.Reader
import MarkupBinding.Json.Writer
import MarkupBinding.Keyed
import MarkupBinding.Main
import MarkupBinding.Markup.Event
import MarkupBinding.Markup.Mark
import MarkupBinding.Markup.Node
import MarkupBinding.Markup.Place
import MarkupBinding.Markup.Printer
import MarkupBinding.Markup.Reference
import MarkupBinding.Markup.Tree
import MarkupBinding.Notice
import MarkupBinding.Number.Binary64
import MarkupBinding.Number.Shortest
import MarkupBinding.Record.Check
import MarkupBinding.Record.Layout
import MarkupBinding.Record.Name
import MarkupBinding.Record.SchemaValue
import MarkupBinding.Record.Source
import MarkupBinding.Schema.Component
import MarkupBinding.Schema.Document
import MarkupBinding.Schema.Extraction
import MarkupBinding.Service.Answer
import MarkupBinding.Service.Assignments
import MarkupBinding.Service.IndexPage
import MarkupBinding.Service.Multipart
import MarkupBinding.Service.Payload
import MarkupBinding.Service.Request
import MarkupBinding.Service.Response
import MarkupBinding.Service.Route
import MarkupBinding.Service.Settings
import MarkupBinding.Service.State
import MarkupBinding.Storage.FileName
import MarkupBinding.Storage.FileTree
import MarkupBinding.Storage.FormStore
import MarkupBinding.Storage.Location
import MarkupBinding.Template.Source
import MarkupBinding.Template.Use
import MarkupBinding.Text.Blank
import MarkupBinding.Text.Case
import MarkupBinding.Text.DigitClass
import MarkupBinding.Text.Encoding
import MarkupBinding.Text.Percent
import MarkupBinding.Text.Printable
import MarkupBinding.Text.Quoted
import MarkupBinding.Text.Ranges
import MarkupBinding.Text.Split
import MarkupBinding.Text.Utf8
import MarkupBinding.Text.WordClass
import MarkupBinding.Validation.Issue
import MarkupBinding.Value.Basic
import MarkupBinding.Value.Display
import MarkupBinding.Value.Literal
import MarkupBinding.Proofs.Markup.Elements
import MarkupBinding.Proofs.Markup.Marks
import MarkupBinding.Proofs.Binding.Step
import MarkupBinding.Proofs.Binding.Visit
import MarkupBinding.Proofs.Binding.Confinement
import MarkupBinding.Proofs.Binding.Expansion
import MarkupBinding.Proofs.Binding.Placement
import MarkupBinding.Proofs.Binding.Strictness
import MarkupBinding.Proofs.Binding.LostStencil
import MarkupBinding.Proofs.Markup.ItemCount
import MarkupBinding.Proofs.Schema.Agreement
import MarkupBinding.Proofs.Schema.Contract
import MarkupBinding.Proofs.Schema.OwnScope
import MarkupBinding.Proofs.Schema.Pruning
import MarkupBinding.Proofs.Binding.WellFormed
import MarkupBinding.Proofs.Binding.Coupling
import MarkupBinding.Proofs.Binding.Neutrality
import MarkupBinding.Proofs.Schema.Keys
import MarkupBinding.Proofs.Record.Fields
import MarkupBinding.Proofs.Record.Typed
import MarkupBinding.Proofs.Record.Rendering
import MarkupBinding.Proofs.Record.Toggles
import MarkupBinding.Proofs.Record.Entries
import MarkupBinding.Proofs.Record.Acceptance
import MarkupBinding.Proofs.Record.Naming
import MarkupBinding.Proofs.Record.Flattening
import MarkupBinding.Proofs.Record.Identifiers
import MarkupBinding.Proofs.Record.Literals
import MarkupBinding.Proofs.Record.SourceText
import MarkupBinding.Proofs.Expression.NormalForm
import MarkupBinding.Proofs.Schema.RoundTrip
import MarkupBinding.Proofs.Template.Sharing
import MarkupBinding.Proofs.Json.LineEnds
import MarkupBinding.Proofs.Storage.Saving
import MarkupBinding.Proofs.Service.Requests
import MarkupBinding.Proofs.Service.RenderRequests
import MarkupBinding.Proofs.Service.SavedInputs
import MarkupBinding.Proofs.Service.FormRequests
import MarkupBinding.Proofs.InputForm.Keys
import MarkupBinding.Proofs.InputForm.Restoring
import MarkupBinding.Proofs.Command.Agreement
import MarkupBinding.Proofs.Markup.Outline
import MarkupBinding.Proofs.Markup.ToggleFlags
import MarkupBinding.Proofs.Schema.Invariants
import MarkupBinding.Proofs.Schema.WellDeclared
import MarkupBinding.Proofs.Markup.Sweep
import MarkupBinding.Proofs.Markup.SwitchedOff
import MarkupBinding.Proofs.Binding.Attributes
import MarkupBinding.Proofs.Binding.Frame
import MarkupBinding.Proofs.Binding.Injection
import MarkupBinding.Proofs.Binding.Rebinding
import MarkupBinding.Proofs.Markup.Rearrangement
import MarkupBinding.Proofs.Schema.Facts
import MarkupBinding.Proofs.Schema.KeyOrder
import MarkupBinding.Proofs.Schema.Declarations
import MarkupBinding.Proofs.Schema.Additions
import MarkupBinding.Proofs.Schema.SiblingOrder
import MarkupBinding.Proofs.Schema.KeptComponents
import MarkupBinding.Proofs.InputForm.SessionState
import MarkupBinding.Proofs.InputForm.AnyDefaults
import MarkupBinding.Proofs.InputForm.OneAnswer
import MarkupBinding.Proofs.Binding.Resolution
import MarkupBinding.Proofs.Expression.Annotations
import MarkupBinding.Proofs.Expression.Tokens
import MarkupBinding.Proofs.Storage.Histories
import MarkupBinding.Proofs.Service.IndexPage
