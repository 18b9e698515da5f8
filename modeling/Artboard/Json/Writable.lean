import Artboard.Json.Value

/-!
# Values that can be written

JSON text holds no number that is not finite, and no character that cannot be encoded.  An answer repeats
values of a request; it leaves out the members whose names begin in a certain way (`isKeptBack`), and what is
in them does not matter.
-/

namespace Artboard.Value

/-! ## 1. Characters -/

mutual

/-- Some character in a value satisfies `p`, those of names included. -/
def anyChar (p : Char → Bool) : Value → Bool
  | text s => s.toList.any p
  | list items => anyCharOfItems p items
  | object members => anyCharOfMembers p members
  | _ => false

/-- Some character in the items of a list satisfies `p`. -/
def anyCharOfItems (p : Char → Bool) : List Value → Bool
  | [] => false
  | v :: rest => anyChar p v || anyCharOfItems p rest

/-- Some character in the members of an object satisfies `p`. -/
def anyCharOfMembers (p : Char → Bool) : List (String × Value) → Bool
  | [] => false
  | (name, v) :: rest => name.toList.any p || anyChar p v || anyCharOfMembers p rest

end

/-! ## 2. Writing -/

/-- A member with this name is left out of answers. -/
def isKeptBack (name : String) : Bool := "_sa".toList.isPrefixOf name.toList

mutual

/-- The value can be written, where `isLone` tells the characters that cannot. -/
def isWritable (isLone : Char → Bool) : Value → Bool
  | number (.real x) => x.isFinite
  | text s => !s.toList.any isLone
  | list items => areItemsWritable isLone items
  | object members => areMembersWritable isLone members
  | _ => true

/-- The items of a list can be written. -/
def areItemsWritable (isLone : Char → Bool) : List Value → Bool
  | [] => true
  | v :: rest => isWritable isLone v && areItemsWritable isLone rest

/-- The members of an object can be written, as far as they are. -/
def areMembersWritable (isLone : Char → Bool) : List (String × Value) → Bool
  | [] => true
  | (name, v) :: rest =>
    (isKeptBack name || (!name.toList.any isLone && isWritable isLone v)) && areMembersWritable isLone rest

end

end Artboard.Value
