import Artboard.Json.Value

/-!
# Fields of submitted nodes

A submitted node has a name, a type and a box, and some other fields whose values are checked.  A field
that should hold a double or a truth value takes a few other values for one (`readDouble`, `readTruth`).  A
problem says what is wrong, and the place where it is.
-/

namespace Artboard

namespace Request

/-! ## 1. Problems -/

/-- What can be wrong with a request. -/
inductive ProblemKind where
  /-- a field that has to be there is not -/
  | missing
  | notText
  /-- a value of a kind that cannot be a double -/
  | notDouble
  /-- a text that spells no double -/
  | badDouble
  /-- a value of a kind that cannot be a truth value -/
  | notTruth
  /-- a value of a kind that can be a truth value, but is none -/
  | badTruth
  | notList
  | notObject
  /-- the request as a whole is no JSON -/
  | notJson
  deriving DecidableEq, Repr

/-- A step from a value to one inside it. -/
inductive Step where
  | field (name : String)
  | item (index : Nat)
  deriving DecidableEq, Repr

/-- Something wrong at a place, with the value that it is wrong with; where a field is missing, that is the
object that should have it. -/
structure Problem where
  kind : ProblemKind
  place : List Step
  given : Value

/-- The problem as seen from one step further out. -/
def Problem.inside (p : Problem) (step : Step) : Problem := { p with place := step :: p.place }

/-! ## 2. Doubles and truth values -/

/-- The double that a value is taken for. -/
def readDouble : Value → Except ProblemKind Binary64
  | .bool b => .ok (Binary64.ofInt (if b then 1 else 0))
  | .number n =>
    match n.toDouble with
    | .ok x => .ok x
    | .error _ => .error .notDouble
  | .text s =>
    match Numeral.readDouble? s with
    | some x => .ok x
    | none => .error .badDouble
  | _ => .error .notDouble

/-- Words for true. -/
def trueWords : List String := ["1", "on", "t", "true", "y", "yes"]

/-- Words for false. -/
def falseWords : List String := ["0", "f", "false", "n", "no", "off"]

/-- A text in lower case, its ASCII letters only. -/
def lowerAscii (s : String) : String := String.ofList (s.toList.map Char.toLower)

/-- The truth value that an integer is taken for; beyond 64 bits it cannot be one. -/
def truthOfInt (i : Int) : Except ProblemKind Bool :=
  if i = 0 then .ok false
  else if i = 1 then .ok true
  else if -Int.pow 2 63 ≤ i ∧ i < Int.pow 2 63 then .error .badTruth
  else .error .notTruth

/-- A double that is integral and fits into 64 bits counts as the integer. -/
def integerOf? (x : Binary64) : Option Int :=
  match x.truncate? with
  | some i =>
    if (Number.int i).place? = (Number.real x).place? && decide (-Int.pow 2 63 < i) && decide (i < Int.pow 2 63)
    then some i else none
  | none => none

/-- The truth value that a value is taken for. -/
def readTruth : Value → Except ProblemKind Bool
  | .bool b => .ok b
  | .text s =>
    let word := lowerAscii s
    if trueWords.contains word then .ok true
    else if falseWords.contains word then .ok false
    else .error .badTruth
  | .number (.int i) => truthOfInt i
  | .number (.real x) =>
    match integerOf? x with
    | some i => truthOfInt i
    | none => .error .notTruth
  | _ => .error .notTruth

end Request

end Artboard
