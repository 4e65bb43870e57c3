import SignalBridge.Json.Basic

/-!
JSON values in compact text, as messages quote them.
-/

namespace SignalBridge.Json

/-- One character of a string: quotes, backslashes and control characters are escaped. -/
def printChar (c : Char) : List Char :=
  match c with
  | '"' => ['\\', '"']
  | '\\' => ['\\', '\\']
  | '\x08' => ['\\', 'b']
  | '\x0c' => ['\\', 'f']
  | '\n' => ['\\', 'n']
  | '\r' => ['\\', 'r']
  | '\t' => ['\\', 't']
  | c =>
    if c.toNat < 32 then
      ['\\', 'u', '0', '0'] ++ [Nat.digitChar (c.toNat / 16), Nat.digitChar (c.toNat % 16)]
    else [c]

def printString (s : String) : List Char :=
  '"' :: s.toList.flatMap printChar ++ ['"']

mutual

def printValue : Json → List Char
  | .null => "null".toList
  | .boolean b => if b then "true".toList else "false".toList
  | .integer i => Text.writeInt i
  | .double x => (Layout.json.write x).toList
  | .string s => printString s
  | .array [] => ['[', ']']
  | .array (v :: vs) => '[' :: printValue v ++ printItems vs
  | .object [] => ['\x7b', '\x7d']
  | .object ((key, v) :: members) => '\x7b' :: printString key ++ ':' :: printValue v ++ printMembers members

/-- The items after the first, and the closing bracket. -/
def printItems : List Json → List Char
  | [] => [']']
  | v :: vs => ',' :: printValue v ++ printItems vs

/-- The members after the first, and the closing brace. -/
def printMembers : List (String × Json) → List Char
  | [] => ['\x7d']
  | (key, v) :: members => ',' :: printString key ++ ':' :: printValue v ++ printMembers members

end

/-- The text of a value. -/
def print (v : Json) : String :=
  String.ofList (printValue v)

end SignalBridge.Json
