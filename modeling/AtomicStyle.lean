import AtomicStyle.Color.Basic
import AtomicStyle.Color.Lightness
import AtomicStyle.Color.Model
import AtomicStyle.Color.Named
import AtomicStyle.Color.Reading
import AtomicStyle.Compiled
import AtomicStyle.Complaint
import AtomicStyle.Config.Basic
import AtomicStyle.Config.Field
import AtomicStyle.Config.Json
import AtomicStyle.Config.Overrides
import AtomicStyle.Config.Yaml
import AtomicStyle.Decimal.Basic
import AtomicStyle.Decimal.Layout
import AtomicStyle.Decimal.Numeral
import AtomicStyle.Decimal.Shortest
import AtomicStyle.Declarations
import AtomicStyle.Json.Content
import AtomicStyle.Json.Draft
import AtomicStyle.Json.Number
import AtomicStyle.Json.Value
import AtomicStyle.NameMap
import AtomicStyle.Palette
import AtomicStyle.Proofs.Closure
import AtomicStyle.Proofs.Color.Angle
import AtomicStyle.Proofs.Color.Exact
import AtomicStyle.Proofs.Color.Monotone
import AtomicStyle.Proofs.Color.Range
import AtomicStyle.Proofs.Color.Reading
import AtomicStyle.Proofs.Color.Tint
import AtomicStyle.Proofs.Color.Written
import AtomicStyle.Proofs.Commit
import AtomicStyle.Proofs.Compiled
import AtomicStyle.Proofs.Config.Builder
import AtomicStyle.Proofs.Config.Field
import AtomicStyle.Proofs.Config.Grammar
import AtomicStyle.Proofs.Config.Json
import AtomicStyle.Proofs.Config.Meaning
import AtomicStyle.Proofs.Config.Overrides
import AtomicStyle.Proofs.Confinement
import AtomicStyle.Proofs.Decimal.Binary64
import AtomicStyle.Proofs.Decimal.Numeral
import AtomicStyle.Proofs.Declarations
import AtomicStyle.Proofs.Expansion
import AtomicStyle.Proofs.History
import AtomicStyle.Proofs.Incremental
import AtomicStyle.Proofs.Interchange
import AtomicStyle.Proofs.Json.Draft
import AtomicStyle.Proofs.Json.Extent
import AtomicStyle.Proofs.Json.Flawless
import AtomicStyle.Proofs.Json.Number
import AtomicStyle.Proofs.Json.Text
import AtomicStyle.Proofs.NameMap
import AtomicStyle.Proofs.Names
import AtomicStyle.Proofs.Order
import AtomicStyle.Proofs.Palette
import AtomicStyle.Proofs.Producer
import AtomicStyle.Proofs.Registry
import AtomicStyle.Proofs.Reuse
import AtomicStyle.Proofs.Rule.Json
import AtomicStyle.Proofs.Scaling
import AtomicStyle.Proofs.Sheet
import AtomicStyle.Proofs.Sizes
import AtomicStyle.Proofs.Spelling
import AtomicStyle.Proofs.Text.Cut
import AtomicStyle.Proofs.Text.Words
import AtomicStyle.Proofs.Trace
import AtomicStyle.Proofs.Unanswered
import AtomicStyle.Proofs.Variants
import AtomicStyle.Registry
import AtomicStyle.Rule
import AtomicStyle.Rule.Json
import AtomicStyle.Sheet
import AtomicStyle.Spelling
import AtomicStyle.Text.Blank
import AtomicStyle.Text.Quoted
import AtomicStyle.Text.Shown
import AtomicStyle.Trace
import AtomicStyle.Vocabulary.Basic
import AtomicStyle.Vocabulary.Fixed
import AtomicStyle.Vocabulary.Scaled
import AtomicStyle.Vocabulary.Standard
import AtomicStyle.Yaml.Cursor
import AtomicStyle.Yaml.Event
import AtomicStyle.Yaml.Node
import AtomicStyle.Yaml.Scalar
import AtomicStyle.Yaml.Schema
import AtomicStyle.Yaml.Tag
import AtomicStyle.Yaml.Token
