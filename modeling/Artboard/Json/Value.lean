import Artboard.Entries
import Artboard.Number.Basic

/-!
# JSON values

A node arrives as JSON, and its fields may hold anything.  An object is its members in order; looking a
name up takes the first member that has it, and readers of JSON text put the last of several values there
(`Entries.put`).

The readings of a field are here too: as a number (`number?`), as text (`text?`), and whether it counts as
given at all (`isTruthy`).
-/

namespace Artboard

/-- A JSON value, with whole numbers and doubles kept apart. -/
inductive Value where
  | null
  | bool (b : Bool)
  | number (n : Number)
  | text (s : String)
  | list (items : List Value)
  | object (members : List (String × Value))

/-- The members of an object. -/
abbrev Members := Entries Value

/-- The value of a name, `null` where it is missing. -/
def Entries.get (ms : Members) (name : String) : Value := (ms.get? name).getD .null

namespace Value

instance : Inhabited Value := ⟨null⟩

/-! ## 1. Kinds -/

/-- No value. -/
def isNull : Value → Bool
  | null => true
  | _ => false

/-- The truth value `false`, and not merely something empty. -/
def isFalse : Value → Bool
  | bool false => true
  | _ => false

/-- Neither null nor false nor zero nor empty. -/
def isTruthy : Value → Bool
  | null => false
  | bool b => b
  | number n => !n.isZero
  | text s => s != ""
  | list items => !items.isEmpty
  | object members => !members.isEmpty

/-- The members of an object. -/
def members? : Value → Option Members
  | object ms => some ms
  | _ => none

/-- The items of a list, none for other values. -/
def items : Value → List Value
  | list vs => vs
  | _ => []

/-- The text of a text. -/
def text? : Value → Option String
  | text s => some s
  | _ => none

/-- The value is this text. -/
def isText (v : Value) (s : String) : Bool :=
  match v with
  | text t => t == s
  | _ => false

/-! ## 2. Numbers -/

/-- The finite number that a value gives: a number, or a text that spells one. -/
def number? : Value → Option Number
  | number (.int i) => some (.int i)
  | number (.real x) => if x.isFinite then some (.real x) else none
  | text s =>
    match Numeral.readNumeral? s with
    | some x => if x.isFinite then some (.real x) else none
    | none => none
  | _ => none

/-- The finite number that a value gives, or another in its place. -/
def numberOr (v : Value) (default : Number) : Number := v.number?.getD default

/-- The double that a value gives; truth values count as one and zero. -/
def toDouble : Value → Except Fault Binary64
  | bool b => .ok (Binary64.ofInt (if b then 1 else 0))
  | number n => n.toDouble
  | text s =>
    match Numeral.readNumeral? s with
    | some x => .ok x
    | none => .error .badNumeral
  | _ => .error .notNumeric

/-- A value written as a number in a style. -/
def format (places : Int) (v : Value) : Except Fault String := do (← v.toDouble).format places

/-- A value written as a length in pixels. -/
def px (v : Value) : Except Fault String := return (← v.format 2) ++ "px"

end Value

end Artboard
