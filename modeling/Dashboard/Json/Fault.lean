/-!
# What can be wrong with a JSON text

A fault stops the reading of a text. Some stretches are read in more than one way: a value that
nobody asks for is skipped with fewer checks, and a value that has to name a variant is refused by
its first character. `Broken` carries the fault for each way.
-/

namespace Dashboard.Json

inductive Fault where
  | endInValue | endInList | endInObject | endInText
  | expectedValue | expectedIdent | expectedColon | expectedListComma | expectedObjectComma
  | keyNotText | trailingComma | trailingCharacters
  | invalidNumber | numberOutOfRange
  | invalidEscape | loneSurrogate | cutSurrogate | controlCharacter
  | tooDeep
deriving DecidableEq, Repr

def Fault.message : Fault → String
  | .endInValue => "EOF while parsing a value"
  | .endInList => "EOF while parsing a list"
  | .endInObject => "EOF while parsing an object"
  | .endInText => "EOF while parsing a string"
  | .expectedValue => "expected value"
  | .expectedIdent => "expected ident"
  | .expectedColon => "expected `:`"
  | .expectedListComma => "expected `,` or `]`"
  | .expectedObjectComma => "expected `,` or `\x7d`"
  | .keyNotText => "key must be a string"
  | .trailingComma => "trailing comma"
  | .trailingCharacters => "trailing characters"
  | .invalidNumber => "invalid number"
  | .numberOutOfRange => "number out of range"
  | .invalidEscape => "invalid escape"
  | .loneSurrogate => "lone leading surrogate in hex escape"
  | .cutSurrogate => "unexpected end of hex escape"
  | .controlCharacter => "control character (\\u0000-\\u001F) found while parsing a string"
  | .tooDeep => "recursion limit exceeded"

structure Broken where
  reading : Fault
  skipping : Fault := reading
  choosing : Fault := reading
deriving DecidableEq, Repr

end Dashboard.Json
