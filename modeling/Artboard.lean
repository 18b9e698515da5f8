import Artboard.Asset
import Artboard.Component
import Artboard.Composition
import Artboard.Design.Canvas
import Artboard.Design.Node
import Artboard.Entries
import Artboard.Fault
import Artboard.File.Access
import Artboard.File.Path
import Artboard.File.Tree
import Artboard.Font.Basic
import Artboard.Font.Cache
import Artboard.Font.Lookup
import Artboard.Json.Display
import Artboard.Json.Encoding
import Artboard.Json.Reader
import Artboard.Json.Value
import Artboard.Json.Writable
import Artboard.Logging
import Artboard.Markup.Basic
import Artboard.Markup.Chrome
import Artboard.Markup.OfNode
import Artboard.Markup.Printer
import Artboard.Markup.Progress
import Artboard.Number.Basic
import Artboard.Number.Binary64
import Artboard.Number.Decimal
import Artboard.Number.Numeral
import Artboard.Project.Output
import Artboard.Project.Provision
import Artboard.Request.Field
import Artboard.Request.Node
import Artboard.Script.Literal
import Artboard.Service.Address
import Artboard.Service.Message
import Artboard.Service.Route
import Artboard.Settings
import Artboard.Style.Basic
import Artboard.Style.Layout
import Artboard.Style.OfNode
import Artboard.Style.Paint
import Artboard.Style.Typography
import Artboard.Text.Basic
import Artboard.Text.Case
import Artboard.Text.CaseContext
import Artboard.Text.CaseTable
import Artboard.Text.Encoding
import Artboard.Text.Printable
import Artboard.Text.Surrogate
import Artboard.Widget
import Artboard.Proofs.Drawing
import Artboard.Proofs.Number.Notation
import Artboard.Proofs.Style.Property
import Artboard.Proofs.Markup.Scanner
import Artboard.Proofs.Markup.Legible
import Artboard.Proofs.Markup.Reader
import Artboard.Proofs.Markup.RoundTrip
import Artboard.Proofs.Numbering
import Artboard.Proofs.Canvas
import Artboard.Proofs.Number.Whole
import Artboard.Proofs.Style.Position
import Artboard.Proofs.Containment
import Artboard.Proofs.Seating
import Artboard.Proofs.Pruning
import Artboard.Proofs.Leaves
import Artboard.Proofs.Flow
import Artboard.Proofs.Outcome
import Artboard.Proofs.Json.Parts
import Artboard.Proofs.Style.Font
import Artboard.Proofs.Font.Cache
import Artboard.Proofs.Font.Usage
import Artboard.Proofs.Naming
import Artboard.Proofs.Sequence
import Artboard.Proofs.Number.Leading
import Artboard.Proofs.Number.Arithmetic
import Artboard.Proofs.Number.Magnitude
import Artboard.Proofs.Limits.Basic
import Artboard.Proofs.Limits.Style
import Artboard.Proofs.Limits.Markup
import Artboard.Proofs.Limits.Request
import Artboard.Proofs.Limits.Overflow
import Artboard.Proofs.Limits.Moderate
import Artboard.Proofs.Request.Normalization
import Artboard.Proofs.File.Access
import Artboard.Proofs.Font.Usefulness
import Artboard.Proofs.Project.Output
import Artboard.Proofs.File.Copy
import Artboard.Proofs.Project.Provision
import Artboard.Proofs.Component
import Artboard.Proofs.Project.Upkeep
import Artboard.Proofs.Service.Reply
import Artboard.Proofs.Service.Session
import Artboard.Proofs.Script.Literal
import Artboard.Proofs.Script.Template
import Artboard.Proofs.Asset.Payload
import Artboard.Proofs.Style.Lawful
import Artboard.Proofs.Style.Shorthand
import Artboard.Proofs.Cascade
import Artboard.Proofs.TextField
import Artboard.Proofs.Style.Paint
import Artboard.Proofs.Component.Name
import Artboard.Proofs.Script.Module
import Artboard.Proofs.Markup.Enclosed
import Artboard.Proofs.Component.Declared
import Artboard.Proofs.Project.Import
import Artboard.Proofs.Font.Resolution
import Artboard.Proofs.Font.Address
import Artboard.Proofs.Number.Rounded
import Artboard.Proofs.Request.Resubmission
