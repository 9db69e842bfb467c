import Inlay.Build.Discovery
import Inlay.Build.Tree
import Inlay.Command.Grammar
import Inlay.Command.Invocation
import Inlay.Command.Run
import Inlay.Config.Environment
import Inlay.Config.Layers
import Inlay.Config.Settings
import Inlay.Config.Source
import Inlay.Decimal.Double
import Inlay.Decimal.Reading
import Inlay.Decimal.Shortest
import Inlay.Failure
import Inlay.File
import Inlay.Import
import Inlay.Journal
import Inlay.Json
import Inlay.Main
import Inlay.Markup
import Inlay.Proofs.Build.Accounts
import Inlay.Proofs.Build.Alone
import Inlay.Proofs.Build.Faults
import Inlay.Proofs.Build.Turns
import Inlay.Proofs.Build.Unchanged
import Inlay.Proofs.Command.Ending
import Inlay.Proofs.Config.Coercion
import Inlay.Proofs.Config.Loading
import Inlay.Proofs.Config.Priority
import Inlay.Proofs.Config.Validity
import Inlay.Proofs.Decimal.Whole
import Inlay.Proofs.Import.Lines
import Inlay.Proofs.Import.Resolution
import Inlay.Proofs.Import.Statement
import Inlay.Proofs.Markup.Division
import Inlay.Proofs.Markup.Frame
import Inlay.Proofs.Markup.Naming
import Inlay.Proofs.Markup.Placeholders
import Inlay.Proofs.Markup.Rendering
import Inlay.Proofs.Markup.Separation
import Inlay.Proofs.Markup.Substitution
import Inlay.Proofs.Markup.Wrapper
import Inlay.Proofs.Script.Erasure
import Inlay.Proofs.Script.Exactness
import Inlay.Proofs.Script.Names
import Inlay.Proofs.Script.Statement
import Inlay.Proofs.Session.Batch
import Inlay.Proofs.Session.Coherence
import Inlay.Proofs.Session.Conflict
import Inlay.Proofs.Session.Respelling
import Inlay.Proofs.Session.SingleRead
import Inlay.Proofs.Session.SingleUse
import Inlay.Script.Comment
import Inlay.Script.Declaration
import Inlay.Session.Basic
import Inlay.Session.Concurrent
import Inlay.Session.Run
import Inlay.Text.Basic
import Inlay.Text.CaseTable
import Inlay.Text.Character
import Inlay.Text.Charset
import Inlay.Text.Codec
import Inlay.Text.Pieces
import Inlay.Value.Basic
import Inlay.Value.Display
import Inlay.Workspace
import Inlay.Yaml.Character
import Inlay.Yaml.Document
import Inlay.Yaml.Meaning
import Inlay.Yaml.Node
import Inlay.Yaml.Number
import Inlay.Yaml.Property
import Inlay.Yaml.Scalar
import Inlay.Yaml.Token
