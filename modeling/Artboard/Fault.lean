/-!
# Faults

What can stop a compilation.  Bad design data is mostly skipped where it is read; these are the cases
that are not.  The first four are about numbers, the next about fields whose kind of value a rule needs,
the last two about the forest as a whole.
-/

namespace Artboard

/-- Why a compilation stops. -/
inductive Fault where
  /-- a number is too large for a double, or an infinity has no nearest integer -/
  | tooLarge
  /-- NaN has no nearest integer -/
  | notANumber
  /-- a whole number has more digits than are written -/
  | tooLong
  /-- a text that should spell a number does not -/
  | badNumeral
  /-- a value of a kind that has no number -/
  | notNumeric
  /-- a value other than text where only text has characters -/
  | notText
  /-- a list or an object where a node's type is looked up in a set -/
  | typeNotScalar
  /-- a node's name that is neither text nor empty, where it is lower-cased -/
  | nameNotText
  /-- a node that is no object, where its fields are read -/
  | nodeNotObject
  /-- a number or a truth value in place of the list of roots -/
  | rootsNotList
  /-- a forest without roots -/
  | noData
  /-- a root that is no object, with the name of its kind -/
  | rootNotObject (found : String)
  deriving DecidableEq, Repr

namespace Fault

/-- The fault is about the forest submitted, and its sender is told so. -/
def isInvalidTree : Fault → Bool
  | noData | rootNotObject _ => true
  | _ => false

/-- What the sender of an invalid forest is told. -/
def message : Fault → String
  | noData => "No data provided"
  | rootNotObject found => "Root node must be an object, got " ++ found
  | _ => ""

end Fault

end Artboard
