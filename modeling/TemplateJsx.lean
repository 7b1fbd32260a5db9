import TemplateJsx.Command.Arguments
import TemplateJsx.Command.Run
import TemplateJsx.Diagnostic.Basic
import TemplateJsx.Diagnostic.Fault
import TemplateJsx.Directive.Basic
import TemplateJsx.Emission.Attribute
import TemplateJsx.Emission.Basic
import TemplateJsx.Emission.Expansion
import TemplateJsx.Emission.TagName
import TemplateJsx.Emission.Text
import TemplateJsx.Json.Agreement
import TemplateJsx.Json.Basic
import TemplateJsx.Json.Display
import TemplateJsx.Json.Printer
import TemplateJsx.Json.Reader
import TemplateJsx.Main
import TemplateJsx.Number.Amount
import TemplateJsx.Number.Binary64
import TemplateJsx.Number.Decimal
import TemplateJsx.Proofs.AcceptedSource
import TemplateJsx.Proofs.AttributeOrder
import TemplateJsx.Proofs.AttributeProperties
import TemplateJsx.Proofs.BalancedOutput
import TemplateJsx.Proofs.BindingValues
import TemplateJsx.Proofs.Blame
import TemplateJsx.Proofs.Brackets
import TemplateJsx.Proofs.CommandContract
import TemplateJsx.Proofs.Diagnosis
import TemplateJsx.Proofs.DirectiveOrder
import TemplateJsx.Proofs.ElementNames
import TemplateJsx.Proofs.EmissionFaults
import TemplateJsx.Proofs.EmissionOrder
import TemplateJsx.Proofs.EmissionProperties
import TemplateJsx.Proofs.EmissionTrace
import TemplateJsx.Proofs.ExpansionProperties
import TemplateJsx.Proofs.ExpansionTermination
import TemplateJsx.Proofs.FirstFault
import TemplateJsx.Proofs.IgnoredMembers
import TemplateJsx.Proofs.JsonRoundTrip
import TemplateJsx.Proofs.LoadFaults
import TemplateJsx.Proofs.LoadProperties
import TemplateJsx.Proofs.LoopForms
import TemplateJsx.Proofs.LoopGrammar
import TemplateJsx.Proofs.MergedAttributes
import TemplateJsx.Proofs.NodeTypes
import TemplateJsx.Proofs.OriginIndependence
import TemplateJsx.Proofs.ReadableTree
import TemplateJsx.Proofs.Rearrangement
import TemplateJsx.Proofs.StrippedReport
import TemplateJsx.Proofs.TagFaults
import TemplateJsx.Proofs.TextGaps
import TemplateJsx.Proofs.TextProperties
import TemplateJsx.Proofs.TreeRoundTrip
import TemplateJsx.Proofs.UniqueReading
import TemplateJsx.Proofs.Violations
import TemplateJsx.Proofs.Vocabulary
import TemplateJsx.Proofs.WrittenTree
import TemplateJsx.Session
import TemplateJsx.Source.Encoding
import TemplateJsx.Source.FileTree
import TemplateJsx.Source.Limits
import TemplateJsx.Source.Load
import TemplateJsx.Source.Path
import TemplateJsx.Spelling
import TemplateJsx.Terminal.Strip
import TemplateJsx.Terminal.Style
import TemplateJsx.Text.Basic
import TemplateJsx.Text.Digit
import TemplateJsx.Text.Hex
import TemplateJsx.Text.Literal
import TemplateJsx.Text.Newline
import TemplateJsx.Text.Printable
import TemplateJsx.Text.Quotation
import TemplateJsx.Text.Ranges
import TemplateJsx.Text.Search
import TemplateJsx.Text.Stream
import TemplateJsx.Text.Uppercase
import TemplateJsx.Trace
import TemplateJsx.Tree.Agreement
import TemplateJsx.Tree.Basic
import TemplateJsx.Tree.Dump
import TemplateJsx.Tree.Load
