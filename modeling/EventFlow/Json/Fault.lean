/-
  EventFlow.Json.Fault — what can be wrong with a JSON text or with the data in it, and
  the words for it.
-/

import EventFlow.Json.Printer
import EventFlow.Text.Basic
import EventFlow.Text.Printable

namespace EventFlow

inductive SyntaxFault where
  | endInList | endInObject | endInString | endInValue
  | expectedColon | expectedListEnd | expectedObjectEnd | expectedIdent | expectedValue
  | badEscape | badNumber | numberTooLarge | controlCharacter | keyNotText
  | loneSurrogate | surrogateCutShort | trailingComma | trailingCharacters | tooDeep
  deriving DecidableEq, Inhabited

def SyntaxFault.message : SyntaxFault → String
  | endInList => "EOF while parsing a list"
  | endInObject => "EOF while parsing an object"
  | endInString => "EOF while parsing a string"
  | endInValue => "EOF while parsing a value"
  | expectedColon => "expected `:`"
  | expectedListEnd => "expected `,` or `]`"
  | expectedObjectEnd => "expected `,` or `\x7d`"
  | expectedIdent => "expected ident"
  | expectedValue => "expected value"
  | badEscape => "invalid escape"
  | badNumber => "invalid number"
  | numberTooLarge => "number out of range"
  | controlCharacter => "control character (\\u0000-\\u001F) found while parsing a string"
  | keyNotText => "key must be a string"
  | loneSurrogate => "lone leading surrogate in hex escape"
  | surrogateCutShort => "unexpected end of hex escape"
  | trailingComma => "trailing comma"
  | trailingCharacters => "trailing characters"
  | tooDeep => "recursion limit exceeded"

/-- A value that stood where another was expected. -/
inductive Unexpected where
  | null | bool (value : Bool) | number (value : JsonNumber) | text (value : String)
  | sequence | map
  deriving DecidableEq, Inhabited

def Unexpected.describe : Unexpected → String
  | null => "null"
  | bool true => "boolean `true`"
  | bool false => "boolean `false`"
  | number (.int n) => "integer `" ++ String.ofList (Json.numberText (.int n)) ++ "`"
  | number n => "floating point `" ++ String.ofList (Json.numberText n) ++ "`"
  | text s => "string " ++ Text.shown s
  | sequence => "sequence"
  | map => "map"

inductive DataFault where
  | invalidType (found : Unexpected) (expected : String)
  | invalidValue (found : Unexpected) (expected : String)
  | invalidLength (length : Nat) (expected : String)
  | missing (field : String)
  | duplicate (field : String)
  | unknownVariant (name : String) (known : List String)
  /-- No alternative of the named choice fits. -/
  | noAlternative (choice : String)
  /-- A fault in the settings of the node with this id. -/
  | inNode (id : String) (reason : String)
  deriving DecidableEq, Inhabited

def backquoted (s : String) : String := "`" ++ s ++ "`"

def DataFault.message : DataFault → String
  | invalidType found expected => "invalid type: " ++ found.describe ++ ", expected " ++ expected
  | invalidValue found expected => "invalid value: " ++ found.describe ++ ", expected " ++ expected
  | invalidLength n expected => "invalid length " ++ toString n ++ ", expected " ++ expected
  | missing field => "missing field " ++ backquoted field
  | duplicate field => "duplicate field " ++ backquoted field
  | unknownVariant name known =>
    "unknown variant " ++ backquoted name ++
      match known.map backquoted with
      | [] => ", there are no variants"
      | [a] => ", expected " ++ a
      | [a, b] => ", expected " ++ a ++ " or " ++ b
      | all => ", expected one of " ++ Text.join ", " all
  | noAlternative choice => "data did not match any variant of untagged enum " ++ choice
  | inNode id reason => "node " ++ id ++ ": " ++ reason

inductive JsonFault where
  | inText (fault : SyntaxFault)
  | inData (fault : DataFault)
  deriving DecidableEq, Inhabited

def JsonFault.message : JsonFault → String
  | inText fault => fault.message
  | inData fault => fault.message

end EventFlow
