import KernelCheck.Json.Number

/-!
# JSON values

The values of RFC 8259, as near to their written form as their meaning needs:
members keep their order and may repeat a key, and numbers keep their form.  An
escape may put half of a surrogate pair into a string; such a string denotes no
text, and `none` stands for it.

* `Json.fits` says that a value stays within a depth of nesting and that every
  string and number in it denotes something.
-/

namespace KernelCheck

/-- A JSON value. -/
inductive Json where
  | null
  | bool (b : Bool)
  | number (literal : NumberLiteral)
  /-- A string with its text, or `none` if it denotes no text. -/
  | string (text : Option String)
  | array (items : List Json)
  | object (members : List (Option String × Json))

namespace Json

/-- The string of a text. -/
def ofText (s : String) : Json := string (some s)

/-- The number of a count. -/
def ofNat (n : Nat) : Json := number (.ofNat n)

/-- An object with the given members, in this order. -/
def ofMembers (members : List (String × Json)) : Json :=
  object (members.map fun (key, value) => (some key, value))

/-- The value holds at most `depth` arrays and objects inside one another, every
string and key in it denotes a text, and every number is finite. -/
def fits : Nat → Json → Bool
  | _, null | _, bool _ => true
  | _, number literal => literal.isFinite
  | _, string text => text.isSome
  | depth + 1, array items => items.all (fits depth)
  | depth + 1, object members => members.all fun (key, value) => key.isSome && fits depth value
  | 0, array _ | 0, object _ => false

end Json

end KernelCheck
