import UiTemplate.Acquisition
import UiTemplate.Binary64
import UiTemplate.Binding
import UiTemplate.Build
import UiTemplate.Build.Options
import UiTemplate.Build.Ulid
import UiTemplate.Command.Line
import UiTemplate.Command.Run
import UiTemplate.Context
import UiTemplate.Decimal.Layout
import UiTemplate.Decimal.Reader
import UiTemplate.Decimal.Shortest
import UiTemplate.Expression
import UiTemplate.Fetch
import UiTemplate.Fetch.Directory
import UiTemplate.Fetch.Http
import UiTemplate.Fetch.Settings
import UiTemplate.Fields
import UiTemplate.FileTree
import UiTemplate.Html.Element
import UiTemplate.Html.Name
import UiTemplate.Html.Page
import UiTemplate.Html.Primitives
import UiTemplate.Json
import UiTemplate.Json.Printer
import UiTemplate.Json.Raw
import UiTemplate.Json.Record
import UiTemplate.Json.Token
import UiTemplate.Main
import UiTemplate.Number
import UiTemplate.Number.Literal
import UiTemplate.Path
import UiTemplate.Proofs.Acquisition.Schedule
import UiTemplate.Proofs.Build.Agreement
import UiTemplate.Proofs.Build.Dependence
import UiTemplate.Proofs.Build.Elements
import UiTemplate.Proofs.Build.Identity
import UiTemplate.Proofs.Build.Keys
import UiTemplate.Proofs.Build.Order
import UiTemplate.Proofs.Build.Plans
import UiTemplate.Proofs.Build.Steps
import UiTemplate.Proofs.Build.Subtrees
import UiTemplate.Proofs.Command.Line
import UiTemplate.Proofs.Command.Routes
import UiTemplate.Proofs.Context.Insertion
import UiTemplate.Proofs.Expression.Calls
import UiTemplate.Proofs.Expression.Placeholders
import UiTemplate.Proofs.Expression.References
import UiTemplate.Proofs.Fetch.Confinement
import UiTemplate.Proofs.Fetch.Walk
import UiTemplate.Proofs.Html.Escape
import UiTemplate.Proofs.Html.Reader
import UiTemplate.Proofs.Html.RoundTrip
import UiTemplate.Proofs.Html.Structure
import UiTemplate.Proofs.Json.Same
import UiTemplate.Proofs.Serve.Agreement
import UiTemplate.Proofs.Template.Grammar
import UiTemplate.Proofs.Template.Keys
import UiTemplate.Proofs.Template.Positions
import UiTemplate.Proofs.Template.Reading
import UiTemplate.Proofs.Template.RoundTrip
import UiTemplate.Proofs.Text.Cut
import UiTemplate.Proofs.Text.Split
import UiTemplate.Proofs.Text.Utf8
import UiTemplate.Registry
import UiTemplate.Serve
import UiTemplate.Template
import UiTemplate.Template.Reader
import UiTemplate.Text
import UiTemplate.Text.Quoted
import UiTemplate.Text.Shapeless
import UiTemplate.Text.Utf8
import UiTemplate.Value
import UiTemplate.Value.Inspect
import UiTemplate.Proofs.Context.Interchange
import UiTemplate.Proofs.Fetch.Replies
import UiTemplate.Proofs.Html.Attributes
import UiTemplate.Proofs.Html.Distinct
import UiTemplate.Proofs.Html.Markers
import UiTemplate.Proofs.Value.Lookup
import UiTemplate.Proofs.Fields.Order
import UiTemplate.Proofs.Value.Same
import UiTemplate.Proofs.Expression.Binding
import UiTemplate.Proofs.Number.Text
import UiTemplate.Proofs.Html.Style
import UiTemplate.Proofs.Fields.Last
import UiTemplate.Proofs.Registry.Runs
import UiTemplate.Proofs.Template.Builder
import UiTemplate.Proofs.Json.Printed
import UiTemplate.Proofs.Value.Documents
import UiTemplate.Proofs.Json.Codec
import UiTemplate.Proofs.Json.Configuration
import UiTemplate.Proofs.Fetch.Endpoints
import UiTemplate.Proofs.Html.Words
import UiTemplate.Proofs.Value.Items
