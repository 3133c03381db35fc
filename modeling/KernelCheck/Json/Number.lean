/-!
# Number literals

A number of a JSON text is kept as it is written, because its form decides what
it can stand for: only a literal without fraction and exponent is an integer,
and minus zero is none, since no integer has that sign.

* `NumberLiteral.ofChars?` accepts exactly the literals of RFC 8259.
* `NumberLiteral.toInt?` is the integer that a literal denotes.
* `NumberLiteral.toFloat?` is a binary64 approximation: the leading digits that
  fit in 64 bits, scaled by a power of ten with one rounding per step.  There is
  none if the result would not be finite.
-/

namespace KernelCheck

/-- A number as it is written. -/
structure NumberLiteral where
  /-- A minus sign stands in front. -/
  negative : Bool
  /-- Digits before the point. -/
  whole : List Char
  /-- Digits after the point; none if there is no point. -/
  fraction : List Char
  /-- The exponent, if there is one: whether it is negative, and its digits. -/
  exponent : Option (Bool × List Char)
  deriving DecidableEq

namespace NumberLiteral

/-- The value of a decimal digit. -/
def digitValue (c : Char) : Nat := c.toNat - '0'.toNat

/-- The number that a row of digits denotes. -/
def digitsValue (digits : List Char) : Nat :=
  digits.foldl (fun n c => 10 * n + digitValue c) 0

/-! ## Reading -/

/-- An exponent and nothing else: its sign and its digits. -/
def exponentOfChars? (cs : List Char) : Option (Option (Bool × List Char)) :=
  match cs with
  | [] => some none
  | e :: rest =>
    let (negative, digits) :=
      match rest with
      | '-' :: digits => (true, digits)
      | '+' :: digits => (false, digits)
      | digits => (false, digits)
    if (e == 'e' || e == 'E') && !digits.isEmpty && digits.all Char.isDigit then
      some (some (negative, digits))
    else none

/-- A fraction and an exponent, both optional. -/
def tailOfChars? (cs : List Char) : Option (List Char × Option (Bool × List Char)) :=
  match cs with
  | '.' :: rest =>
    let digits := rest.takeWhile Char.isDigit
    if digits.isEmpty then none
    else (exponentOfChars? (rest.dropWhile Char.isDigit)).map (digits, ·)
  | cs => (exponentOfChars? cs).map ([], ·)

/-- The literal that a row of characters is.  A zero in front stands alone. -/
def ofChars? (cs : List Char) : Option NumberLiteral :=
  let (negative, rest) :=
    match cs with
    | '-' :: rest => (true, rest)
    | rest => (false, rest)
  let whole := rest.takeWhile Char.isDigit
  if whole.isEmpty || (whole.head? == some '0' && whole.length != 1) then none
  else
    (tailOfChars? (rest.dropWhile Char.isDigit)).map fun (fraction, exponent) =>
      { negative, whole, fraction, exponent }

/-! ## Writing -/

/-- The characters of a literal. -/
def chars (n : NumberLiteral) : List Char :=
  (if n.negative then ['-'] else []) ++ n.whole ++
    (if n.fraction.isEmpty then [] else '.' :: n.fraction) ++
    match n.exponent with
    | none => []
    | some (negative, digits) => 'e' :: (if negative then '-' :: digits else digits)

/-- The literal of a natural number. -/
def ofNat (n : Nat) : NumberLiteral :=
  { negative := false, whole := Nat.toDigits 10 n, fraction := [], exponent := none }

/-! ## Values -/

/-- The integer that the literal denotes, if it has neither fraction nor
exponent and is not minus zero. -/
def toInt? (n : NumberLiteral) : Option Int :=
  if n.fraction.isEmpty && n.exponent.isNone then
    match n.negative, digitsValue n.whole with
    | false, k => some (Int.ofNat k)
    | true, 0 => none
    | true, k + 1 => some (Int.negSucc k)
  else none

/-- A number of 64 bits and the power of ten by which it is to be multiplied.
`full` says that a digit did not fit any more. -/
structure Scaled where
  significand : Nat
  exponent : Int
  full : Bool

namespace Scaled

/-- Zero, before any digit. -/
def zero : Scaled := ⟨0, 0, false⟩

/-- The significand stays below this bound. -/
def bound : Nat := 18446744073709551616

/-- A further digit before the point.  From the first one that does not fit,
digits only raise the power of ten. -/
def pushWhole (x : Scaled) (c : Char) : Scaled :=
  let next := 10 * x.significand + digitValue c
  if x.full || bound ≤ next then { x with exponent := x.exponent + 1, full := true }
  else { x with significand := next }

/-- A further digit after the point.  From the first one that does not fit,
digits are dropped. -/
def pushFraction (x : Scaled) (c : Char) : Scaled :=
  let next := 10 * x.significand + digitValue c
  if x.full || bound ≤ next then { x with full := true }
  else { x with significand := next, exponent := x.exponent - 1 }

/-- The number of the digits around the point.  Whether a digit fits is decided
anew after the point. -/
def ofDigits (whole fraction : List Char) : Scaled :=
  fraction.foldl pushFraction { whole.foldl pushWhole zero with full := false }

end Scaled

/-- Divides by `10 ^ 308` as long as more than that remains to be divided by,
and stops early at zero. -/
def scaleDown (f : Float) (exponent : Nat) : Float × Nat :=
  if h : exponent ≤ 308 then (f, exponent)
  else if f == 0 then (f, 0)
  else scaleDown (f / Float.ofScientific 1 false 308) (exponent - 308)
termination_by exponent

/-- `f` times a power of ten, if that is finite. -/
def scale? (f : Float) (exponent : Int) : Option Float :=
  match exponent with
  | .ofNat e =>
    if e ≤ 308 then
      let g := f * Float.ofScientific 1 false e
      if g.isInf then none else some g
    else if f == 0 then some f
    else none
  | .negSucc e =>
    let (g, e) := scaleDown f (e + 1)
    some (g / Float.ofScientific 1 false e)

/-- Exponents that reach this bound are read as unlimited. -/
def exponentBound : Nat := 2147483648

/-- The magnitude of a literal: a zero stays zero under every exponent, and an
unlimited negative exponent leaves nothing. -/
def magnitude? (n : NumberLiteral) : Option Float :=
  let x := Scaled.ofDigits n.whole n.fraction
  let f := x.significand.toUInt64.toFloat
  match n.exponent with
  | none => scale? f x.exponent
  | some (negative, digits) =>
    let e := digitsValue digits
    if exponentBound ≤ e then
      if x.significand == 0 || negative then some 0 else none
    else scale? f (if negative then x.exponent - Int.ofNat e else x.exponent + Int.ofNat e)

/-- The binary64 value of a literal, if it is finite. -/
def toFloat? (n : NumberLiteral) : Option Float :=
  (magnitude? n).map fun f => if n.negative then -f else f

/-- The literal has a binary64 value.  Up to 300 digits before the point and no
exponent leave room below `10 ^ 308`, so that such a literal is not scaled to
find out. -/
def isFinite (n : NumberLiteral) : Bool :=
  (n.exponent.isNone && n.whole.length ≤ 300) || n.toFloat?.isSome

end NumberLiteral

end KernelCheck
