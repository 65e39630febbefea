import Gloss.Annotator
import Gloss.Command.Arguments
import Gloss.Command.Task
import Gloss.Decode.Settings
import Gloss.Decode.Source
import Gloss.Dictionary.Log
import Gloss.Dictionary.Lookup
import Gloss.Engine.File
import Gloss.Engine.Glossary
import Gloss.Json.Format
import Gloss.Json.Reader
import Gloss.Json.Token
import Gloss.Main
import Gloss.Markup.Render
import Gloss.Markup.Strip
import Gloss.Pattern.Cover
import Gloss.Proofs.Annotator.Agreement
import Gloss.Proofs.Annotator.Casing
import Gloss.Proofs.Annotator.Fields
import Gloss.Proofs.Annotator.FirstOccurrence
import Gloss.Proofs.Annotator.Layout
import Gloss.Proofs.Annotator.Matches
import Gloss.Proofs.Annotator.Outcomes
import Gloss.Proofs.Annotator.Renaming
import Gloss.Proofs.Annotator.Reordering
import Gloss.Proofs.Annotator.Replacement
import Gloss.Proofs.Annotator.RoundTrip
import Gloss.Proofs.Annotator.SharedScope
import Gloss.Proofs.Annotator.Slices
import Gloss.Proofs.Command.Input
import Gloss.Proofs.Command.Pipeline
import Gloss.Proofs.Dictionary.Acceptance
import Gloss.Proofs.Dictionary.Inflections
import Gloss.Proofs.Dictionary.Ledger
import Gloss.Proofs.Dictionary.Lookups
import Gloss.Proofs.Dictionary.Rejection
import Gloss.Proofs.Dictionary.Renaming
import Gloss.Proofs.Dictionary.Reordering
import Gloss.Proofs.Dictionary.Stream
import Gloss.Proofs.Dictionary.Tables
import Gloss.Proofs.Markup.Attributes
import Gloss.Proofs.Markup.Balance
import Gloss.Proofs.Markup.Escape
import Gloss.Proofs.Markup.Idempotence
import Gloss.Proofs.Markup.Matching
import Gloss.Proofs.Markup.Removal
import Gloss.Proofs.Markup.Rendering
import Gloss.Proofs.Markup.Scan
import Gloss.Proofs.Markup.Slices
import Gloss.Proofs.Markup.Tags
import Gloss.Proofs.Markup.Vocabulary
import Gloss.Proofs.Pattern.Arena
import Gloss.Proofs.Pattern.Bisection
import Gloss.Proofs.Pattern.Candidates
import Gloss.Proofs.Pattern.Cover
import Gloss.Proofs.Pattern.FirstWins
import Gloss.Proofs.Pattern.LeftmostLongest
import Gloss.Proofs.Pattern.Nodes
import Gloss.Proofs.Pattern.Paths
import Gloss.Proofs.Pattern.Registration
import Gloss.Proofs.Pattern.Separator
import Gloss.Proofs.Text.Fold
import Gloss.Proofs.Text.Slices
import Gloss.Proofs.Text.Trimming
import Gloss.Scope
import Gloss.Text.Alphabetic
import Gloss.Text.Blank
import Gloss.Text.CaseFold
import Gloss.Text.Digits
import Gloss.Text.Mark
import Gloss.Text.Numeric
import Gloss.Yaml.BlockScalar
import Gloss.Yaml.CoreSchema
import Gloss.Yaml.Cursor
import Gloss.Yaml.Directive
import Gloss.Yaml.Document
import Gloss.Yaml.Format
import Gloss.Yaml.Node
import Gloss.Yaml.Parser
import Gloss.Yaml.Scalar
import Gloss.Yaml.Scanner
import Gloss.Yaml.Token
