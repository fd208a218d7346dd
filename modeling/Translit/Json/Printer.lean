import Translit.Json.Value

/-!
# Printing JSON

* `quoted`: a string with the escapes JSON requires and no others;
* `Value.print`: a value over several lines, two blanks deeper for each array or object around it.
-/

namespace Translit.Json

/-- The four hexadecimal digits of a control character. -/
def fourDigits (n : Nat) : List Char :=
  [n / 4096 % 16, n / 256 % 16, n / 16 % 16, n % 16].map Nat.digitChar

/-- A character inside a string: the quote, the backslash and the controls are escaped, the latter
by a letter where there is one. -/
def escapeChar (c : Char) : List Char :=
  if c = '"' then ['\\', '"']
  else if c = '\\' then ['\\', '\\']
  else if c = '\x08' then ['\\', 'b']
  else if c = '\x0c' then ['\\', 'f']
  else if c = '\n' then ['\\', 'n']
  else if c = '\r' then ['\\', 'r']
  else if c = '\t' then ['\\', 't']
  else if c < ' ' then ['\\', 'u'] ++ fourDigits c.toNat
  else [c]

/-- A text as a JSON string. -/
def quoted (cs : List Char) : List Char := '"' :: cs.flatMap escapeChar ++ ['"']

/-- A string. One that denotes no text is written as half a surrogate pair, which denotes none
either. -/
def quoted? : Option (List Char) → List Char
  | some cs => quoted cs
  | none => ['"', '\\', 'u', 'd', '8', '0', '0', '"']

/-- The start of a line at a depth. -/
def lineStart (depth : Nat) : List Char := '\n' :: List.replicate (2 * depth) ' '

mutual

/-- A value printed inside `depth` arrays and objects. -/
def Value.printAt (depth : Nat) : Value → List Char
  | .null => ['n', 'u', 'l', 'l']
  | .bool true => ['t', 'r', 'u', 'e']
  | .bool false => ['f', 'a', 'l', 's', 'e']
  | .number spelling => spelling
  | .string text? => quoted? text?
  | .array [] => ['[', ']']
  | .array (v :: vs) =>
    '[' :: lineStart (depth + 1) ++ v.printAt (depth + 1) ++ printElements depth vs
  | .object [] => ['\x7b', '\x7d']
  | .object ((key, v) :: ms) =>
    '\x7b' :: lineStart (depth + 1) ++ quoted? key ++ [':', ' '] ++ v.printAt (depth + 1) ++
      printMembers depth ms

/-- The elements after the first, and the end of the array. -/
def printElements (depth : Nat) : List Value → List Char
  | [] => lineStart depth ++ [']']
  | v :: vs => ',' :: lineStart (depth + 1) ++ v.printAt (depth + 1) ++ printElements depth vs

/-- The members after the first, and the end of the object. -/
def printMembers (depth : Nat) : List (Option (List Char) × Value) → List Char
  | [] => lineStart depth ++ ['\x7d']
  | (key, v) :: ms =>
    ',' :: lineStart (depth + 1) ++ quoted? key ++ [':', ' '] ++ v.printAt (depth + 1) ++
      printMembers depth ms

end

/-- A document that holds the value, without a final line end. -/
def Value.print (v : Value) : List Char := v.printAt 0

end Translit.Json
