import KernelCheck.Diagnostic.Records
import KernelCheck.Document.Record
import KernelCheck.Proofs.Json.Printing
import KernelCheck.Proofs.Output

/-!
# Records read back

A tool that reads the records of a run should learn from them what was told, all of it and
nothing else.

1. `Diagnostic.ofJson?` — a reader that wants each field of a record once, and of a label's
   file, line and column either all three or none.
2. `Diagnostic.ofJson?_toJson` — it gets a diagnostic back from its record, field by field.
3. What the records of several diagnostics are written as is a text of one array, by the
   grammar of RFC 8259 (`Json.isTextOf_pretty`), and there is no other value that it could be
   a text of.

`records_read_back` says this for an emitter that is used again and again.
-/

namespace KernelCheck

/-! ## Reading records -/

/-- A number without a sign. -/
def Json.count? : Json → Option Nat
  | number literal => literal.toInt?.bind fun k => if 0 ≤ k then some k.toNat else none
  | _ => none

/-- The code with exactly this written form. -/
def Code.ofText? (s : String) : Option Code := all.find? (·.text == s)

/-- The severity with exactly this word. -/
def Severity.ofText? (s : String) : Option Severity := [error, warning].find? (·.text == s)

/-- Where a label starts, for people. -/
structure Place where
  file : String
  line : Nat
  column : Nat
  deriving DecidableEq

/-- Where a label starts, if the source is at hand. -/
def Label.place (source : Option Source) (l : Label) : Option Place :=
  source.map fun source =>
    { file := source.path, line := (source.spanStart l.span).1,
      column := (source.spanStart l.span).2 }

/-- The place in a record: none if it has none of the three fields, and otherwise it has to
have all of them. -/
def Place.ofRecord? (r : Record) : Option (Option Place) :=
  match r.field? "file", r.field? "line", r.field? "column" with
  | some none, some none, some none => some none
  | some (some file), some (some line), some (some column) => do
    return some { file := ← file.text?, line := ← line.count?, column := ← column.count? }
  | _, _, _ => none

/-- The label of a record, and where it starts. -/
def Label.ofJson? (v : Json) : Option (Label × Option Place) := do
  let r ← Record.ofObject? v
  let start ← r.required "start" Json.count?
  let stop ← r.required "end" Json.count?
  let message ← r.required "message" Json.text?
  let isPrimary ← r.required "primary" Json.bool?
  let place ← Place.ofRecord? r
  return ({ span := ⟨start, stop⟩, message, isPrimary }, place)

/-- The diagnostic of a record, and where its labels start. -/
def Diagnostic.ofJson? (v : Json) : Option (Diagnostic × List (Option Place)) := do
  let r ← Record.ofObject? v
  let code ← r.required "code" fun v => v.text?.bind Code.ofText?
  let severity ← r.required "severity" fun v => v.text?.bind Severity.ofText?
  let message ← r.required "message" Json.text?
  let labels ← r.required "labels" (Json.list? Label.ofJson?)
  let notes ← r.required "notes" (Json.list? Json.text?)
  let suggestions ← r.required "suggestions" (Json.list? Json.text?)
  return ({ code, severity, message, labels := labels.map (·.1), notes, suggestions },
    labels.map (·.2))

/-! ## What a record holds -/

/-- A number that is written is read back. -/
theorem Json.count?_ofNat (n : Nat) : (ofNat n).count? = some n := by
  simp [ofNat, count?, NumberLiteral.toInt?_ofNat]

/-- A code that is written is read back. -/
theorem Code.ofText?_text (c : Code) : ofText? c.text = some c := by
  cases c <;> decide +kernel

/-- A severity that is written is read back. -/
theorem Severity.ofText?_text (s : Severity) : ofText? s.text = some s := by
  cases s <;> decide +kernel

/-- A list that is written item by item is read back. -/
theorem Json.list?_map {α β : Type} {read : Json → Option β} {write : α → Json} {f : α → β}
    (h : ∀ x, read (write x) = some (f x)) (xs : List α) :
    (Json.array (xs.map write)).list? read = some (xs.map f) := by
  have hmap : (xs.map write).mapM read = some (xs.map f) := by
    induction xs with
    | nil => rfl
    | cons x rest ih => simp [List.mapM_cons, h, ih]
  exact hmap

/-- The members of an object are those that were written. -/
theorem Record.ofObject?_ofMembers (members : List (String × Json)) :
    ofObject? (.ofMembers members) = some ⟨members⟩ := by
  have hmap : (members.map fun m => ((some m.1, m.2) : Option String × Json)).mapM named? =
      some members := by
    induction members with
    | nil => rfl
    | cons m rest ih => simp [List.mapM_cons, named?, ih]
  simp [ofObject?, Json.ofMembers, ofMembers?, hmap]

/-- A label is read back from its record, with its place if the source was at hand. -/
theorem Label.ofJson?_toJson (source : Option Source) (l : Label) :
    ofJson? (l.toJson source) = some (l, l.place source) := by
  rw [ofJson?, toJson, Record.ofObject?_ofMembers]
  cases source with
  | none => simp [location, place, Record.required, Record.field?, Place.ofRecord?, Json.ofText,
      Json.text?, Json.bool?, Json.count?_ofNat]
  | some source => simp [location, place, Record.required, Record.field?, Place.ofRecord?,
      Json.ofText, Json.text?, Json.bool?, Json.count?_ofNat]

/-- **A diagnostic** is read back from its record. -/
theorem Diagnostic.ofJson?_toJson (source : Option Source) (d : Diagnostic) :
    ofJson? (d.toJson source) = some (d, d.labels.map (Label.place source)) := by
  have hlabels : (Json.array (d.labels.map (Label.toJson source))).list? Label.ofJson? =
      some (d.labels.map fun l => (l, l.place source)) :=
    Json.list?_map (Label.ofJson?_toJson source) d.labels
  have htexts : ∀ texts : List String,
      (Json.array (texts.map Json.ofText)).list? Json.text? = some texts := by
    intro texts
    have hmap := Json.list?_map (f := id) (fun s => rfl : ∀ s, (Json.ofText s).text? = some s) texts
    rwa [List.map_id] at hmap
  rw [ofJson?, toJson, Record.ofObject?_ofMembers]
  simp [Record.required, Record.field?, Json.ofText, Json.text?, Code.ofText?_text,
    Severity.ofText?_text, hlabels, htexts, Function.comp_def]

/-! ## Writing records -/

/-- The diagnostics of a document, with the places of their labels. -/
def reportsOf? (document : Json) : Option (List (Diagnostic × List (Option Place))) :=
  document.list? Diagnostic.ofJson?

/-- The record of a label has proper number texts. -/
theorem Label.areNumbers_toJson (source : Option Source) (l : Label) :
    Json.AreNumbers (l.toJson source).numbers := by
  cases source with
  | none =>
      simp [toJson, location, Json.ofMembers, Json.numbers, Json.memberNumbers, Json.ofNat,
        Json.ofText, Json.AreNumbers, NumberLiteral.text_ofNat]
  | some source =>
      simp [toJson, location, Json.ofMembers, Json.numbers, Json.memberNumbers, Json.ofNat,
        Json.ofText, Json.AreNumbers, NumberLiteral.text_ofNat]

/-- An array has proper number texts if its items have. -/
theorem Json.areNumbers_items {vs : List Json} (h : ∀ v ∈ vs, AreNumbers v.numbers) :
    AreNumbers (array vs).numbers := by
  change AreNumbers (itemNumbers vs)
  induction vs with
  | nil => exact fun _ hn => nomatch hn
  | cons v rest ih =>
      obtain ⟨hv, hrest⟩ := List.forall_mem_cons.mp h
      exact areNumbers_append.mpr ⟨hv, ih hrest⟩

/-- Every number in a record is one that is written like any natural number. -/
theorem Diagnostic.areNumbers_toJson (source : Option Source) (d : Diagnostic) :
    Json.AreNumbers (d.toJson source).numbers := by
  have hlabels : Json.AreNumbers (Json.array (d.labels.map (Label.toJson source))).numbers :=
    Json.areNumbers_items (List.forall_mem_map.mpr fun l _ => l.areNumbers_toJson source)
  have htexts : ∀ texts : List String,
      Json.AreNumbers (Json.array (texts.map Json.ofText)).numbers := by
    intro texts
    exact Json.areNumbers_items (List.forall_mem_map.mpr fun s _ => fun _ hn => nomatch hn)
  have hall : (d.toJson source).numbers =
      (Json.array (d.labels.map (Label.toJson source))).numbers ++
        ((Json.array (d.notes.map Json.ofText)).numbers ++
          (Json.array (d.suggestions.map Json.ofText)).numbers) := by
    simp [toJson, Json.ofMembers, Json.numbers, Json.memberNumbers, Json.ofText]
  rw [hall, Json.areNumbers_append, Json.areNumbers_append]
  exact ⟨hlabels, htexts _, htexts _⟩

/-- What can be read from a text is what was told: the text is one JSON document and no other,
and its records are those of the diagnostics. -/
def ReadsBack (source : Option Source) (told : List Diagnostic) (text : String) : Prop :=
  ∃ document : Json, Json.IsTextOf text.toList document ∧
    (∀ other, Json.IsTextOf text.toList other → other = document) ∧
    Json.parse? text = some document ∧
    reportsOf? document = some (told.map fun d => (d, d.labels.map (Label.place source)))

/-- What is written for a list of diagnostics reads back as that list. -/
theorem readsBack_finish (source : Option Source) (told : List Diagnostic) :
    ReadsBack source told
      (RecordBuffer.finish ⟨source, told.map (Diagnostic.toJson source)⟩).1 := by
  let document := Json.array (told.map (Diagnostic.toJson source))
  have hnumbers : Json.AreNumbers document.numbers :=
    Json.areNumbers_items (List.forall_mem_map.mpr fun d _ => d.areNumbers_toJson source)
  have htext : Json.IsTextOf (document.pretty ++ "\n").toList document := by
    have hline : Token.Spelled [] ['\n'] := .nil (by simp [Token.AreBlank])
    have hrow := (Json.isTextOf_pretty hnumbers).append hline
    rw [List.append_nil] at hrow
    rw [String.toList_append]
    exact hrow
  have hparse : Json.parse? (document.pretty ++ "\n") = some document := by
    have hread := Json.parse?_of_isTextOf htext
    rwa [String.ofList_toList] at hread
  exact ⟨document, htext, fun _ hother => hother.unique htext, hparse,
    Json.list?_map (Diagnostic.ofJson?_toJson source) told⟩

/-! ## Emitters -/

/-- What an emitter can be asked to do before the end. -/
inductive EmitterCall where
  | emit (d : Diagnostic)
  | emitAll (ds : List Diagnostic)
  | flush
  | summary (errors warnings : Nat)

namespace EmitterCall

/-- The diagnostics that a call tells of. -/
def told : EmitterCall → List Diagnostic
  | emit d => [d]
  | emitAll ds => ds
  | flush | summary .. => []

/-- What a call writes, and the records after it.  There is nothing to flush before the end, and
records have no closing line. -/
def run : EmitterCall → RecordBuffer → String × RecordBuffer
  | emit d, b => ("", b.add d)
  | emitAll ds, b => ("", b.addAll ds)
  | flush, b | summary .., b => ("", b)

end EmitterCall

namespace RecordBuffer

/-- What several calls write, and the records after them. -/
def runAll : List EmitterCall → RecordBuffer → String × RecordBuffer
  | [], b => ("", b)
  | call :: rest, b =>
    let (text, b) := call.run b
    let (texts, b) := runAll rest b
    (text ++ texts, b)

/-- Rounds of calls, each of which is brought to an end: what is written before the end of each
round, and at it. -/
def runRounds : List (List EmitterCall) → RecordBuffer → List (String × String)
  | [], _ => []
  | calls :: rest, b =>
    let (before, b) := runAll calls b
    let (text, b) := b.finish
    (before, text) :: runRounds rest b

/-- One call writes nothing and keeps a record of what it tells. -/
theorem run_eq (call : EmitterCall) (b : RecordBuffer) :
    call.run b =
      ("", { b with records := b.records ++ call.told.map (Diagnostic.toJson b.source) }) := by
  cases call with
  | emit d => rfl
  | emitAll ds => rw [EmitterCall.run, addAll_eq]; rfl
  | flush | summary => simp [EmitterCall.run, EmitterCall.told]

/-- Calls write nothing before the end, and each diagnostic adds its record. -/
theorem runAll_eq (calls : List EmitterCall) (b : RecordBuffer) :
    runAll calls b =
      ("", { b with records := b.records ++
        (calls.flatMap (·.told)).map (Diagnostic.toJson b.source) }) := by
  induction calls generalizing b with
  | nil => simp [runAll]
  | cons call rest ih =>
      rw [runAll, run_eq]
      dsimp only
      rw [ih, List.flatMap_cons, List.map_append, List.append_assoc]
      rfl

end RecordBuffer

/-- **Records read back.**  An emitter writes nothing before the end of a round, and at its end
one text, from which exactly the diagnostics of this round can be read, in order and with the
places of their labels if the source is at hand.  It is an empty array if there were none, as
when a round is ended twice. -/
theorem records_read_back (source : Option Source) (rounds : List (List EmitterCall)) :
    List.Forall₂
      (fun calls texts =>
        texts.1 = "" ∧ ReadsBack source (calls.flatMap (·.told)) texts.2 ∧
          (calls.flatMap (·.told) = [] ↔ texts.2 = "[]\n"))
      rounds (RecordBuffer.runRounds rounds (.empty source)) := by
  induction rounds with
  | nil => exact .nil
  | cons calls rest ih =>
      rw [RecordBuffer.runRounds, RecordBuffer.runAll_eq]
      have hempty := Json.pretty_array_eq_iff
        ((calls.flatMap (·.told)).map (Diagnostic.toJson source))
      rw [List.map_eq_nil_iff] at hempty
      exact .cons ⟨rfl, readsBack_finish source _, hempty.symm⟩ ih

end KernelCheck
