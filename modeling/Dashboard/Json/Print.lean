import Dashboard.Json.Basic
/-!
# Writing JSON

The compact form has no space at all; the spread form puts every item and field on a line of its
own, two spaces deeper than what it belongs to, and keeps empty containers on one line.
-/

namespace Dashboard.Json

def hexDigit (n : Nat) : Char := Nat.digitChar n

/-- The written form of one character of a string. -/
def escapedChar (c : Char) : List Char :=
  if c = '"' then ['\\', '"']
  else if c = '\\' then ['\\', '\\']
  else if c = '\n' then ['\\', 'n']
  else if c = '\r' then ['\\', 'r']
  else if c = '\t' then ['\\', 't']
  else if c.toNat = 8 then ['\\', 'b']
  else if c.toNat = 12 then ['\\', 'f']
  else if c.toNat < 32 then ['\\', 'u', '0', '0', hexDigit (c.toNat / 16), hexDigit (c.toNat % 16)]
  else [c]

def stringChars (s : String) : List Char := '"' :: s.toList.flatMap escapedChar ++ ['"']

mutual

def chars : Json → List Char
  | .null => ['n', 'u', 'l', 'l']
  | .bool true => ['t', 'r', 'u', 'e']
  | .bool false => ['f', 'a', 'l', 's', 'e']
  | .number n => n.text.toList
  | .string s => stringChars s
  | .array [] => ['[', ']']
  | .array (v :: vs) => '[' :: chars v ++ itemChars vs
  | .object [] => ['{', '}']
  | .object ((k, v) :: fs) => '{' :: stringChars k ++ ':' :: chars v ++ fieldChars fs

/-- The items after the first one, with the closing bracket. -/
def itemChars : List Json → List Char
  | [] => [']']
  | v :: vs => ',' :: chars v ++ itemChars vs

def fieldChars : List (String × Json) → List Char
  | [] => ['}']
  | (k, v) :: fs => ',' :: stringChars k ++ ':' :: chars v ++ fieldChars fs

end

def newLine (level : Nat) : List Char := '\n' :: List.replicate (2 * level) ' '

mutual

def spreadChars (level : Nat) : Json → List Char
  | .array (v :: vs) =>
    '[' :: newLine (level + 1) ++ spreadChars (level + 1) v ++ spreadItems level vs
  | .object ((k, v) :: fs) =>
    '{' :: newLine (level + 1) ++ stringChars k ++ ':' :: ' ' :: spreadChars (level + 1) v ++
      spreadFields level fs
  | .array [] => ['[', ']']
  | .object [] => ['{', '}']
  | .null => chars .null
  | .bool b => chars (.bool b)
  | .number n => n.text.toList
  | .string s => stringChars s

def spreadItems (level : Nat) : List Json → List Char
  | [] => newLine level ++ [']']
  | v :: vs => ',' :: newLine (level + 1) ++ spreadChars (level + 1) v ++ spreadItems level vs

def spreadFields (level : Nat) : List (String × Json) → List Char
  | [] => newLine level ++ ['}']
  | (k, v) :: fs =>
    ',' :: newLine (level + 1) ++ stringChars k ++ ':' :: ' ' :: spreadChars (level + 1) v ++
      spreadFields level fs

end

def compact (v : Json) : String := String.ofList (chars v)

def spread (v : Json) : String := String.ofList (spreadChars 0 v)

def quote (s : String) : String := String.ofList (stringChars s)

end Dashboard.Json
