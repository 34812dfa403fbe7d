import CreateTable.Main
import CreateTable.Proofs.Grammar.Acceptance
import CreateTable.Proofs.Grammar.Clauses
import CreateTable.Proofs.Grammar.Derivation
import CreateTable.Proofs.Grammar.References
import CreateTable.Proofs.Grammar.ColumnConstraint
import CreateTable.Proofs.Grammar.Column
import CreateTable.Proofs.Grammar.TableConstraint
import CreateTable.Proofs.Grammar.Body
import CreateTable.Proofs.Grammar.Statement
import CreateTable.Proofs.Reading
import CreateTable.Proofs.Grammar.Exactness
import CreateTable.Proofs.Lexical.Enclosed
import CreateTable.Proofs.Lexical.Locality
import CreateTable.Proofs.Lexical.Relocation
import CreateTable.Proofs.Rendering.Writing
import CreateTable.Proofs.Rendering.Names
import CreateTable.Proofs.Rendering.Clauses
import CreateTable.Proofs.Rendering.References
import CreateTable.Proofs.Rendering.Column
import CreateTable.Proofs.Rendering.TableConstraint
import CreateTable.Proofs.Rendering.Statement
import CreateTable.Proofs.Rendering.Parsed
import CreateTable.Proofs.Rendering.RoundTrip
import CreateTable.Proofs.Rendering.Repetition
import CreateTable.Proofs.Text.Boundary
import CreateTable.Proofs.Lexical.Gap
import CreateTable.Proofs.Lexical.Layout
import CreateTable.Proofs.Lexical.Lossless
import CreateTable.Proofs.Stopping
import CreateTable.Proofs.Limits.Relaxation
import CreateTable.Proofs.Limits.Nesting
import CreateTable.Proofs.Limits.Counting
import CreateTable.Proofs.Limits.Columns
import CreateTable.Proofs.Limits.Enforcement
import CreateTable.Proofs.Errors.Blame
import CreateTable.Proofs.Errors.Location
import CreateTable.Proofs.Errors.Separators
import CreateTable.Proofs.Errors.Fronts
import CreateTable.Proofs.Errors.Unsupported
import CreateTable.Proofs.Grammar.Likeness
import CreateTable.Proofs.Errors.Completion
import CreateTable.Proofs.Errors.FirstFailure
import CreateTable.Proofs.Parallel.Models
import CreateTable.Proofs.Parallel.Verdicts
import CreateTable.Proofs.Parallel.Clauses
import CreateTable.Proofs.Parallel.Items
import CreateTable.Proofs.Parallel.Statement
import CreateTable.Proofs.Parallel.Runs
import CreateTable.Proofs.Parallel.Pieces
import CreateTable.Proofs.Parallel.Spacing
import CreateTable.Proofs.Text.UpperCase
import CreateTable.Proofs.Lexical.Respelling
import CreateTable.Proofs.Parallel.LetterCase
import CreateTable.Proofs.Text.Utf8
import CreateTable.Proofs.Lexical.Bytes
import CreateTable.Proofs.Parallel.Held
import CreateTable.Proofs.InBounds
import CreateTable.Proofs.Json.Delimiting
import CreateTable.Proofs.Json.Tables
import CreateTable.Proofs.Lexical.Quotation
import CreateTable.Proofs.Grammar.Capture
import CreateTable.Proofs.Lexical.Resumption
import CreateTable.Proofs.Lexical.SingleTokens
import CreateTable.Proofs.Lexical.Respacing
import CreateTable.Proofs.Lexical.Numerals
import CreateTable.Proofs.Lexical.Literals
import CreateTable.Proofs.Rendering.Identifiers
import CreateTable.Proofs.Editing.Splicing
import CreateTable.Proofs.Editing.Columns
import CreateTable.Proofs.Editing.Constraints
import CreateTable.Proofs.Editing.Twins
import CreateTable.Proofs.Editing.ForeignKeys
import CreateTable.Proofs.Grammar.NamesDue
import CreateTable.Proofs.Editing.Names
import CreateTable.Proofs.Text.Lines
import CreateTable.Proofs.Text.Caret
import CreateTable.Proofs.CommandLine.Operands
import CreateTable.Proofs.CommandLine.Settings
import CreateTable.Proofs.Stream.Budget
