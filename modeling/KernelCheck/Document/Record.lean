import KernelCheck.Document.Basic
import KernelCheck.Json.Basic

/-!
# Records

A node is written as a JSON object whose members stand in any order.  A member
that the node does not know is passed over; one that it knows may occur once.
Some nodes may also be written as an array of their fields, in a fixed order and
with trailing ones left out.  A `Record` is what both have in common: values by
field name.

* `Record.field?` fails on a repeated field, which is how repetition is refused:
  every reader asks for each of its fields.
-/

namespace KernelCheck

/-- The named values of a node. -/
structure Record where
  members : List (String × Json)

namespace Record

/-- A member whose key denotes a text. -/
def named? : Option String × Json → Option (String × Json)
  | (key, value) => key.map (·, value)

/-- The record of an object.  Every key has to denote a text. -/
def ofMembers? (members : List (Option String × Json)) : Option Record :=
  (members.mapM named?).map Record.mk

/-- The record of an object. -/
def ofObject? : Json → Option Record
  | .object members => ofMembers? members
  | _ => none

/-- The record of an array with at most as many items as there are fields. -/
def ofItems? (fields : List String) (items : List Json) : Option Record :=
  if items.length ≤ fields.length then some ⟨fields.zip items⟩ else none

/-- The record of an object, or of an array of the given fields. -/
def ofJson? (fields : List String) : Json → Option Record
  | .object members => ofMembers? members
  | .array items => ofItems? fields items
  | _ => none

/-- The value of a field, if it is there; nothing at all if it is there twice. -/
def field? (r : Record) (name : String) : Option (Option Json) :=
  match r.members.filter (·.1 == name) with
  | [] => some none
  | [(_, value)] => some (some value)
  | _ => none

/-- A field that has to be there. -/
def required {α : Type} (r : Record) (name : String) (read : Json → Option α) : Option α := do
  read (← ← r.field? name)

/-- A field that may be left out. -/
def withDefault {α : Type} (r : Record) (name : String) (default : α) (read : Json → Option α) :
    Option α := do
  match ← r.field? name with
  | none => return default
  | some value => read value

/-- A field that may be left out or be null, which says the same. -/
def optional {α : Type} (r : Record) (name : String) (read : Json → Option α) :
    Option (Option α) := do
  match ← r.field? name with
  | none | some .null => return none
  | some value => return some (← read value)

end Record

namespace Json

/-- A string that denotes a text. -/
def text? : Json → Option String
  | string text => text
  | _ => none

/-- A truth value. -/
def bool? : Json → Option Bool
  | bool b => some b
  | _ => none

/-- The items of an array. -/
def items? : Json → Option (List Json)
  | array items => some items
  | _ => none

/-- An array whose items are all read alike. -/
def list? {α : Type} (read : Json → Option α) (v : Json) : Option (List α) :=
  v.items?.bind (·.mapM read)

/-- An integer from `low` up to but not including `high`. -/
def int? (low high : Int) : Json → Option Int
  | number literal => literal.toInt?.filter fun k => low ≤ k && k < high
  | _ => none

/-- A natural number below `high`. -/
def nat? (high : Nat) (v : Json) : Option Nat :=
  (v.int? 0 high).map Int.toNat

/-- A text of exactly one character. -/
def char? (v : Json) : Option Char :=
  match v.text?.map String.toList with
  | some [c] => some c
  | _ => none

/-- The bits of a finite number. -/
def floatBits? : Json → Option UInt64
  | number literal => literal.toFloat?.map Float.toBits
  | _ => none

/-- One of several words.  A word may also be written by its position among
them. -/
def oneOf? (words : List String) : Json → Option String
  | string text => text.filter words.contains
  | number literal => literal.toInt?.bind fun k => if k < 0 then none else words[k.toNat]?
  | _ => none

/-- A word that stands for itself.  It may also be the only key of an object,
over nothing. -/
def symbol? : Json → Option String
  | string text => text
  | object [(key, null)] => key
  | object [(key, object [])] => key
  | _ => none

/-- A pair of offsets of 64 bits. -/
def offsets? : Json → Option Offsets
  | array [start, stop] => do
    return ⟨← start.nat? 18446744073709551616, ← stop.nat? 18446744073709551616⟩
  | _ => none

end Json

/-- The place of a node, which may be left out. -/
def Record.offsets (r : Record) : Option Offsets :=
  r.withDefault "span" .default Json.offsets?

end KernelCheck
