import KernelCheck.Diagnostic.Basic
import KernelCheck.Diagnostic.Source

/-!
# Diagnostics on a terminal

What a person reads.  A diagnostic is first laid out as a list of pieces, some
of which have a style, and then rendered with or without colour; so colour can
only add escape sequences around pieces and never changes a text.

With the source at hand a label shows its line and underlines the span: `^` for
a primary label and `-` for a secondary one.  Without it, a label shows the
offsets.

A `Printer` writes one layout after the other to a terminal.  The underline asks for
the length of a span, which is a difference of unsigned numbers; `Printer.emit?` stops
where there is none.
-/

namespace KernelCheck

/-- When to use colour. -/
inductive ColorMode where
  /-- Only if somebody watches. -/
  | auto
  | always
  | never
  deriving DecidableEq

namespace ColorMode

/-- The mode with a given name. -/
def ofText? : String → Option ColorMode
  | "auto" => some auto
  | "always" => some always
  | "never" => some never
  | _ => none

/-- Whether to use colour; `isTerminal` says where the output goes. -/
def usesColor (mode : ColorMode) (isTerminal : Bool) : Bool :=
  match mode with
  | auto => isTerminal
  | always => true
  | never => false

end ColorMode

/-- What a piece of text is for, which decides how it looks. -/
inductive Style where
  | error | warning | help | emphasis | context
  deriving DecidableEq

namespace Style

/-- The escape sequence that starts a style. -/
def start : Style → String
  | error => "\x1b[1;31m"
  | warning => "\x1b[1;33m"
  | help => "\x1b[1;32m"
  | emphasis => "\x1b[1m"
  | context => "\x1b[1;34m"

/-- The escape sequence that ends every style. -/
def reset : String := "\x1b[0m"

/-- The style of a severity. -/
def ofSeverity : Severity → Style
  | .error => error
  | .warning => warning

/-- The style of a label. -/
def ofLabel (l : Label) : Style := if l.isPrimary then error else context

end Style

/-- A piece of a layout. -/
inductive Piece where
  | plain (text : String)
  | styled (style : Style) (text : String)
  deriving DecidableEq

namespace Piece

/-- The piece as it is written. -/
def render (colored : Bool) : Piece → String
  | plain text => text
  | styled style text => if colored then style.start ++ text ++ Style.reset else text

/-- A layout as it is written. -/
def renderAll (colored : Bool) (pieces : List Piece) : String :=
  String.join (pieces.map (render colored))

end Piece

namespace Layout

/-- Severity, code and message. -/
def header (d : Diagnostic) : List Piece :=
  [.styled (.ofSeverity d.severity) d.severity.text,
   .styled .emphasis s!"[{d.code.text}]",
   .plain s!": {d.message}\n"]

/-- A label by its offsets alone. -/
def bareLabel (l : Label) : List Piece :=
  [.plain s!"  {l.arrow} {l.span.text}: ",
   .styled (.ofLabel l) l.message,
   .plain "\n"]

/-- Number of marks under a line for a span of some length: as many as the span has
bytes, but not past the end of the line, and at least one. -/
def underlineWidth (length : Nat) (line : List Char) (column : Nat) : Nat :=
  max 1 (min length (line.length - (column - 1)))

/-- A row of one character. -/
def row (n : Nat) (c : Char) : String := String.ofList (List.replicate n c)

/-- A label with its place, its line and the marks below it, for a span of some length.
The gutter is as wide as the line number. -/
def underlined (source : Source) (l : Label) (length : Nat) : List Piece :=
  let (line, column) := source.spanStart l.span
  let text := (source.spanLine? l.span).getD []
  let shown := String.ofList text
  let gutter := row (toString line).length ' '
  let mark := if l.isPrimary then '^' else '-'
  let indent := row (column - 1) ' '
  let underline := row (underlineWidth length text column) mark
  [.plain s!"{gutter}--> {source.path}:{line}:{column}\n",
   .plain s!"{gutter} |\n",
   .plain s!"{line} | {shown}\n",
   .plain s!"{gutter} | {indent}",
   .styled (.ofLabel l) underline,
   .plain " ",
   .styled (.ofLabel l) l.message,
   .plain "\n"]

/-- A label with its line. -/
def snippet (source : Source) (l : Label) : List Piece := underlined source l l.span.length

/-- A label with its line, if its span has a length. -/
def snippet? (source : Source) (l : Label) : Option (List Piece) :=
  l.span.length?.map (underlined source l)

/-- A label, with its line if the source is at hand. -/
def label (source : Option Source) (l : Label) : List Piece :=
  match source with
  | some source => snippet source l
  | none => bareLabel l

/-- A label, if it can be written; by its offsets alone it needs no length. -/
def label? (source : Option Source) (l : Label) : Option (List Piece) :=
  match source with
  | some source => snippet? source l
  | none => some (bareLabel l)

/-- A note or suggestion behind its word. -/
def trailer (word : String) (style : Style) (content : String) : List Piece :=
  [.plain "  = ", .styled style word, .plain s!": {content}\n"]

/-- A whole diagnostic and an empty line, once its labels are laid out. -/
def around (d : Diagnostic) (labels : List Piece) : List Piece :=
  header d ++ labels ++ d.notes.flatMap (trailer "note" .emphasis) ++
    d.suggestions.flatMap (trailer "help" .help) ++ [.plain "\n"]

/-- A whole diagnostic and an empty line. -/
def diagnostic (source : Option Source) (d : Diagnostic) : List Piece :=
  around d (d.labels.flatMap (label source))

/-- A number of things; the plural takes an `s`. -/
def count (n : Nat) (thing : String) : String :=
  if n = 1 then s!"{n} {thing}" else s!"{n} {thing}s"

/-- The closing line: nothing if there was nothing to report. -/
def summary (errors warnings : Nat) : List Piece :=
  let emitted := count warnings "warning" ++ " emitted"
  if errors = 0 then
    if warnings = 0 then []
    else [.styled .warning "warning", .plain s!": {emitted}\n"]
  else
    let previous := if errors = 1 then "previous error" else s!"{errors} previous errors"
    if warnings = 0 then
      [.styled .error "error", .plain s!": aborting due to {previous}\n"]
    else
      [.styled .error "error", .plain s!": aborting due to {previous}; {emitted}\n"]

end Layout

/-- A terminal: whether it shows colours, and the source if it is at hand. -/
structure Terminal where
  colored : Bool
  source : Option Source

/-- A terminal in use, and what has been written to it so far. -/
structure Printer where
  terminal : Terminal
  written : String

namespace Printer

/-- Nothing is written yet. -/
def start (terminal : Terminal) : Printer := ⟨terminal, ""⟩

/-- Writes a layout. -/
def put (p : Printer) (pieces : List Piece) : Printer :=
  { p with written := p.written ++ Piece.renderAll p.terminal.colored pieces }

/-- Gives the terminal a source, or takes it away. -/
def holding (p : Printer) (source : Option Source) : Printer :=
  { p with terminal := { p.terminal with source } }

/-- Starts a diagnostic.  The source is taken out of the terminal while the labels are
written. -/
def opening (p : Printer) (d : Diagnostic) : Printer :=
  (p.put (Layout.header d)).holding none

/-- Ends a diagnostic.  The source is put back behind the last label. -/
def finish (p : Printer) (source : Option Source) (d : Diagnostic) : Printer :=
  let p := p.holding source
  let p := d.notes.foldl (fun p note => p.put (Layout.trailer "note" .emphasis note)) p
  let p := d.suggestions.foldl (fun p text => p.put (Layout.trailer "help" .help text)) p
  p.put [.plain "\n"]

/-- Writes a diagnostic. -/
def emit (p : Printer) (d : Diagnostic) : Printer :=
  let source := p.terminal.source
  (d.labels.foldl (fun p l => p.put (Layout.label source l)) (p.opening d)).finish source d

/-- Writes a diagnostic, and stops at a label that cannot be written. -/
def emit? (p : Printer) (d : Diagnostic) : Option Printer := do
  let source := p.terminal.source
  let p ← d.labels.foldlM (fun p l => (Layout.label? source l).map p.put) (p.opening d)
  return p.finish source d

/-- Writes several diagnostics in order. -/
def emitAll (p : Printer) (ds : List Diagnostic) : Printer := ds.foldl emit p

/-- Writes several diagnostics in order, as far as it can. -/
def emitAll? (p : Printer) (ds : List Diagnostic) : Option Printer := ds.foldlM emit? p

/-- Writes the closing line. -/
def close (p : Printer) (errors warnings : Nat) : Printer :=
  p.put (Layout.summary errors warnings)

end Printer

namespace Terminal

/-- What a diagnostic looks like. -/
def display (t : Terminal) (d : Diagnostic) : String :=
  Piece.renderAll t.colored (Layout.diagnostic t.source d)

/-- What is written when several diagnostics are emitted. -/
def displayAll (t : Terminal) (ds : List Diagnostic) : String :=
  ((Printer.start t).emitAll ds).written

/-- What the closing line looks like. -/
def closing (t : Terminal) (errors warnings : Nat) : String :=
  ((Printer.start t).close errors warnings).written

end Terminal

end KernelCheck
