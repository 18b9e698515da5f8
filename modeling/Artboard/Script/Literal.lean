import Artboard.Text.Basic

/-!
# Script literals

Text inside generated script.  A single-quoted literal escapes the quote, the backslash, and the three
controls that have letters (`escapeString`, `quoted`).  The body of a template literal escapes what could
end it or open an expression, and holds every run of blanks as one space (`escapeTemplate`).
-/

namespace Artboard.Script

/-! ## 1. Single-quoted literals -/

/-- What stands for a character inside a single-quoted literal. -/
def escapeChar : Char → List Char
  | '\\' => ['\\', '\\']
  | '\'' => ['\\', '\'']
  | '\n' => ['\\', 'n']
  | '\r' => ['\\', 'r']
  | '\t' => ['\\', 't']
  | c => [c]

/-- The inside of the literal for a text. -/
def escapeString (s : String) : String := String.ofList (s.toList.flatMap escapeChar)

/-- The single-quoted literal for a text. -/
def quoted (s : String) : String := "'" ++ escapeString s ++ "'"

/-! ## 2. Template literals -/

/-- What stands for a character inside a template literal. -/
def escapeTemplateChar (c : Char) : List Char :=
  if c == '\\' || c == '\x60' || c == '$' then ['\\', c] else [c]

/-- The body of the template literal for a text, blanks collapsed. -/
def escapeTemplate (s : String) : String :=
  String.ofList (Text.collapseBlank (s.toList.flatMap escapeTemplateChar))

end Artboard.Script
