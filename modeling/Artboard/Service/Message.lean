import Artboard.Json.Encoding
import Artboard.Json.Reader
import Artboard.Json.Writable
import Artboard.Request.Node

/-!
# Messages of the service

What the service is sent and what it answers.  A body has to be a JSON object; everything wrong with it is
answered as a list of problems, whose places start at the body and which repeat what was given there.  An
answer that cannot be written is not sent, and neither are those to a body with a field whose name cannot.
-/

namespace Artboard

namespace Service

/-! ## 1. Answers -/

/-- What an answer holds. -/
inductive Content where
  | json (value : Value)
  /-- what is wrong with the body -/
  | problems (list : List Request.Problem)
  | plain (text : String)

/-- An answer, with its status. -/
structure Response where
  status : Nat
  content : Content

namespace Response

/-- An answer that says one thing in detail. -/
def detail (status : Nat) (v : Value) : Response := ⟨status, .json (.object [("detail", v)])⟩

/-- The answer to a body with problems. -/
def unprocessable (problems : List Request.Problem) : Response :=
  ⟨422, .problems (problems.map (·.inside (.field "body")))⟩

/-- The answer to a body that is not read to its end. -/
def unreadable : Response := detail 400 (.text "There was an error parsing the body")

/-- The answer where something failed that should not have. -/
def internal : Response := ⟨500, .plain "Internal Server Error"⟩

/-- The answer can be written, where `isLone` tells the characters that cannot. -/
def isWritable (isLone : Char → Bool) (r : Response) : Bool :=
  match r.content with
  | .json v => v.isWritable isLone
  | .problems ps => ps.all (·.given.isWritable isLone)
  | .plain _ => true

/-- The answer as it is sent. -/
def sent (isLone : Char → Bool) (r : Response) : Response := if r.isWritable isLone then r else internal

/-- The answer without what it holds. -/
def withoutContent (r : Response) : Response := { r with content := .plain "" }

end Response

/-! ## 2. Bodies -/

/-- What a body holds, and which characters in it stand for lone surrogates. -/
structure Body where
  value : Value
  isLone : Char → Bool

namespace Body

/-- The value of a body, with a block of characters for its lone surrogates. -/
def readWith (block : Text.StandIns) (text : String) : Except Response Value :=
  match Json.decode? block text with
  | none => .error .unreadable
  | some chars =>
    match Json.read block chars with
    | .ok v => .ok v
    | .error .malformed => .error (.unprocessable [⟨.notJson, [], .null⟩])
    | .error .numberTooLong => .error .unreadable

/-- A body read, which must not be empty.  It is read again with another block where it uses the usual one,
be it for lone surrogates only. -/
def read (body : Option String) : Except Response Body := do
  let text := body.getD ""
  if text = "" then .error (.unprocessable [⟨.missing, [], .null⟩])
  else
    let v ← readWith .usual text
    if v.anyChar Text.StandIns.usual.has then
      let block := Text.StandIns.unused fun b => v.anyChar b.has
      return ⟨← readWith block text, block.has⟩
    else return ⟨v, fun _ => false⟩

/-- The nodes that a body submits. -/
def nodes (b : Body) : Except Response (List Value) :=
  match b.value with
  | .object ms =>
    if (Request.fieldNames ms).any (·.toList.any b.isLone) then .error .internal
    else
      match Request.nodes ms with
      | .ok nodes => .ok nodes
      | .error problems => .error (.unprocessable problems)
  | v => .error (.unprocessable [⟨.notObject, [], v⟩])

end Body

end Service

end Artboard
