import RexxService.Config

/-!
# What a client is shown

Diagnostics, outlines, and the messages in which they and completion items are sent to a client.
-/

/-!
## Diagnostics

The faults of a model as they are shown to a reader: where, what, and the text at fault.
-/

namespace RexxService

inductive Severity where
  | error
deriving DecidableEq, Repr

/-- A fault as it is shown to a reader. -/
structure Diagnostic where
  range : Span
  message : String
  severity : Severity
  /-- The text at fault. -/
  source : String
deriving DecidableEq, Repr

namespace Diagnostic

def ofFault (f : Fault) : Except Overflow Diagnostic :=
  return ⟨← f.span, f.message, .error, f.token.text⟩

end Diagnostic

/-- One diagnostic per fault, in the same order. -/
def Model.diagnostics (m : Model) : Except Overflow (List Diagnostic) :=
  m.faults.mapM Diagnostic.ofFault

/-!
## Outlines

The outline of a document is the file itself, followed by its labels.
-/

namespace Outline

/-- What an entry stands for. -/
inductive Kind where
  | file
  | label
deriving DecidableEq, Repr

structure Entry where
  kind : Kind
  name : String
  range : Span
deriving DecidableEq, Repr

def ofLabel (t : Token) : Except Overflow Entry := return ⟨.label, t.text, ← t.span⟩

end Outline

namespace Model

def fileEntry (m : Model) : Outline.Entry := ⟨.file, m.fileName, Span.single Position.origin⟩

def outline (m : Model) (state : Freshness) : Except Failure (List Outline.Entry) := do
  let labels ← Failure.ofVisit (state.visit m.labels)
  let entries ← Failure.ofCount (labels.mapM Outline.ofLabel)
  return m.fileEntry :: entries

end Model

/-!
## Messages to a client

The answers in the form of the language server protocol.  Positions carry over one to one, because
both sides count sixteen-bit units.
-/

namespace Message

/-- A position as a client counts it. -/
structure Place where
  line : Nat
  character : Nat
deriving DecidableEq, Repr

def Place.ofPosition (p : Position) : Place := ⟨p.line, p.column⟩

def Place.toPosition (p : Place) : Position := ⟨p.line, p.character⟩

def Place.toJson (p : Place) : Json :=
  .object [("line", .nat p.line), ("character", .nat p.character)]

def range (s : Span) : Json :=
  .object [("start", (Place.ofPosition s.start).toJson), ("end", (Place.ofPosition s.stop).toJson)]

def completionKind : Completion.Kind → Nat
  | .var => 6
  | .label => 2
  | .function => 3
  | .keyword => 14

def completionItem (i : Completion.Item) : Json :=
  .object [
    ("label", .string i.name),
    ("kind", .nat (completionKind i.kind)),
    ("detail", .string i.detail),
    ("insertText", .string i.name),
    ("textEdit", .object [("range", range i.range), ("newText", .string i.name)])]

/-- The items at a position.  They depend on what has been typed, so the list is never complete. -/
def completionList (items : List Completion.Item) : Json :=
  .object [("isIncomplete", .bool true), ("items", .array (items.map completionItem))]

def completionOptions : Json :=
  .object [("triggerCharacters", .array (Completion.triggers.map .string))]

def symbolKind : Outline.Kind → Nat
  | .file => 1
  | .label => 6

def symbolInformation (uri : String) (e : Outline.Entry) : Json :=
  .object [
    ("name", .string e.name),
    ("kind", .nat (symbolKind e.kind)),
    ("location", .object [("uri", .string uri), ("range", range e.range)])]

def documentSymbols (uri : String) (entries : List Outline.Entry) : Json :=
  .array (entries.map (symbolInformation uri))

def severity : Severity → Nat
  | .error => 1

def diagnostic (d : Diagnostic) : Json :=
  .object [
    ("range", range d.range),
    ("severity", .nat (severity d.severity)),
    ("source", .string d.source),
    ("message", .string d.message)]

/-- The diagnostics of a document as a message, with the version they belong to if there is one. -/
def publishDiagnostics (uri : String) (version : Option Int) (ds : List Diagnostic) : Json :=
  .object ([("uri", .string uri), ("diagnostics", .array (ds.map diagnostic))]
    ++ (version.map fun v => ("version", .integer v)).toList)

/-- The request for the settings. -/
def configurationItem : Json := .object [("section", .string Config.sectionName)]

end Message

end RexxService
