import Propositional.Value

/-!
# Values as JSON

Values are written without blanks and in plain ASCII: a character beyond the printable range is
escaped by its number, one beyond the first 65536 by the two numbers of its surrogate pair.

* `Value.json` — the written value.
-/

namespace Propositional

/-- Four hexadecimal digits behind a backslash. -/
def jsonEscape (n : Nat) : List Char := '\\' :: 'u' :: hexDigits 4 n

/-- One character of a text. -/
def jsonChar (c : Char) : List Char :=
  let n := c.toNat
  match c with
  | '"' | '\\' | '/' => ['\\', c]
  | '\x08' => ['\\', 'b']
  | '\x0c' => ['\\', 'f']
  | '\n' => ['\\', 'n']
  | '\r' => ['\\', 'r']
  | '\t' => ['\\', 't']
  | _ =>
    if 0x20 ≤ n && n ≤ 0x7f then [c]
    else if n < 0x10000 then jsonEscape n
    else jsonEscape (0xd800 + (n - 0x10000) / 0x400) ++ jsonEscape (0xdc00 + (n - 0x10000) % 0x400)

def jsonText (s : String) : String :=
  String.ofList ('"' :: s.toList.flatMap jsonChar ++ ['"'])

namespace Value

mutual

/-- The written value. -/
def json : Value → String
  | null => "null"
  | bool true => "true"
  | bool false => "false"
  | int n => toString n
  | text s => jsonText s
  | list items => "[" ++ ",".intercalate (jsonItems items) ++ "]"
  | object fields => "\x7b" ++ ",".intercalate (jsonFields fields) ++ "\x7d"

/-- The written items of a list. -/
def jsonItems : List Value → List String
  | [] => []
  | v :: vs => json v :: jsonItems vs

/-- The written fields of an object. -/
def jsonFields : List (String × Value) → List String
  | [] => []
  | (name, v) :: rest => (jsonText name ++ ":" ++ json v) :: jsonFields rest

end

end Value

end Propositional
