import ScenarioResults.Decimal.Shortest
import ScenarioResults.Text.Quoted

/-!
# Faults in JSON texts

A fault is a cause and a place. While a text is read only what is left of it is known, so the place is
kept as the number of bytes after it; `Fault.position` turns it into a line and a column of the whole
text.
-/

namespace ScenarioResults.Json

/-- Number of bytes that the characters take in UTF-8. -/
def byteLength (cs : List Char) : Nat := cs.foldr (fun c n => c.utf8Size + n) 0

/-- A value of a wrong type, as far as a message shows it. -/
inductive Found where
  | null
  | boolean (b : Bool)
  | integer (i : Int)
  | float (x : Float)
  | text (s : String)
  | sequence
  | map
  deriving Repr, Inhabited

/-- How a value of a wrong type is shown. -/
def Found.describe : Found → String
  | null => "null"
  | boolean b => "boolean `" ++ toString b ++ "`"
  | integer i => "integer `" ++ toString i ++ "`"
  | float x => "floating point `" ++ Decimal.Shape.diagnostic.text x ++ "`"
  | text s => "string " ++ Text.quoted s
  | sequence => "sequence"
  | map => "map"

/-- Why a text cannot be read. -/
inductive Cause where
  | endInValue
  | endInText
  | endInList
  | endInObject
  | literalWanted
  | valueWanted
  | colonWanted
  | listSeparatorWanted
  | objectSeparatorWanted
  | trailingComma
  | trailingCharacters
  | keyWanted
  | invalidNumber
  | numberOutOfRange
  | controlCharacter
  | invalidEscape
  | loneSurrogate
  | unfinishedSurrogate
  | wrongType (found : Found) (wanted : String)
  | wrongValue (number : Int) (wanted : String)
  | duplicateField (name : String)
  deriving Repr, Inhabited

namespace Cause

/-- The text of a cause. -/
def message : Cause → String
  | endInValue => "EOF while parsing a value"
  | endInText => "EOF while parsing a string"
  | endInList => "EOF while parsing a list"
  | endInObject => "EOF while parsing an object"
  | literalWanted => "expected ident"
  | valueWanted => "expected value"
  | colonWanted => "expected `:`"
  | listSeparatorWanted => "expected `,` or `]`"
  | objectSeparatorWanted => "expected `,` or `\x7d`"
  | trailingComma => "trailing comma"
  | trailingCharacters => "trailing characters"
  | keyWanted => "key must be a string"
  | invalidNumber => "invalid number"
  | numberOutOfRange => "number out of range"
  | controlCharacter => "control character (\\u0000-\\u001F) found while parsing a string"
  | invalidEscape => "invalid escape"
  | loneSurrogate => "lone leading surrogate in hex escape"
  | unfinishedSurrogate => "unexpected end of hex escape"
  | wrongType found wanted => "invalid type: " ++ found.describe ++ ", expected " ++ wanted
  | wrongValue number wanted =>
    "invalid value: integer `" ++ toString number ++ "`, expected " ++ wanted
  | duplicateField name => "duplicate field `" ++ name ++ "`"

end Cause

/-- A cause and its place, given as the number of bytes of the text after it. -/
structure Fault where
  cause : Cause
  left : Nat
  deriving Repr, Inhabited

/-- A line, counted from 1, and a column, which counts the bytes between the start of the line and
the place. -/
structure Position where
  line : Nat
  column : Nat
  deriving DecidableEq, Repr, Inhabited

namespace Fault

/-- A fault in front of the given rest. -/
def before (cause : Cause) (rest : List Char) : Fault := ⟨cause, byteLength rest⟩

/-- A fault one byte into the given rest, or at its end when it is empty. -/
def inside (cause : Cause) (rest : List Char) : Fault := ⟨cause, byteLength rest - 1⟩

/-- A fault at the end of the text. -/
def atEnd (cause : Cause) : Fault := ⟨cause, 0⟩

/-- The position of a fault in the whole text. -/
def position (text : String) (fault : Fault) : Position :=
  let bytes := text.toUTF8.toList
  let read := bytes.take (bytes.length - fault.left)
  { line := read.count 10 + 1, column := (read.reverse.takeWhile (· != 10)).length }

/-- The text of a fault, with its position. -/
def message (text : String) (fault : Fault) : String :=
  let p := fault.position text
  fault.cause.message ++ " at line " ++ toString p.line ++ " column " ++ toString p.column

end Fault

end ScenarioResults.Json
