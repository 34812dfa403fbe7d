import CreateTable.Text.Place
import CreateTable.Text.Span

/-!
# Diagnostics

A diagnostic is what a user is told about a statement that was not read: a kind, a place and a
message.

## Main definitions

- `ErrorKind` — what sort of failure it is
- `Diagnostic` — one failure
- `Diagnostic.render` — its text on one line
- `Diagnostic.excerpt` — the line of the statement it is about
-/

namespace CreateTable

/-- The sorts of failure. -/
inductive ErrorKind where
  /-- A limit was exceeded: the statement may be fine, but it is larger than allowed. -/
  | exhausted
  /-- The statement is not well formed. -/
  | malformed
  /-- The statement uses something that has no place in the model of a table. -/
  | unsupported
  deriving Repr, DecidableEq

namespace ErrorKind

/-- The text of a kind. -/
def label : ErrorKind → String
  | exhausted => "out of memory"
  | malformed => "syntax"
  | unsupported => "unsupported construct"

/-- Whether the same statement may succeed another time, under larger limits. -/
def isRetryable : ErrorKind → Bool
  | exhausted => true
  | _ => false

end ErrorKind

/-- One failure. -/
structure Diagnostic where
  kind : ErrorKind
  /-- The byte offset that the failure is about. -/
  offset : Nat
  /-- The text of the token that the failure is about, if it is about one. -/
  token : Option String
  message : String
  deriving Repr, DecidableEq

namespace Diagnostic

/-- A failure about the text in a span. An empty span names no token. -/
def withToken (d : Diagnostic) (text : String) (span : Text.Span) : Diagnostic :=
  if span.isEmpty then d else { d with token := span.slice? text }

/-- A failure on one line. -/
def render (d : Diagnostic) : String :=
  d.kind.label ++ " error at offset " ++ toString d.offset ++ ": " ++ d.message ++
    match d.token with
    | some token => " near \x22" ++ token ++ "\x22"
    | none => ""

/-- The line of a statement that a failure is about, with a caret under the place. -/
def excerpt (d : Diagnostic) (text : String) : String :=
  (Text.Place.ofOffset text.toList d.offset).excerpt

end Diagnostic

end CreateTable
