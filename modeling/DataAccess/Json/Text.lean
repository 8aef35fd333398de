import DataAccess.Decimal.Layout
import DataAccess.Json.Basic
import DataAccess.Text.Hex

/-!
The compact text of JSON values: no blanks, fields in their order, and only quotes,
backslashes and control characters escaped.
-/
namespace DataAccess.Json

/-- Floats with a point between the fifth place after it and the sixteenth before it are
positional. -/
def floatLayout : Decimal.Layout := ⟨(-4, 16), false, 1⟩

/-- The shortest text that reads back; JSON has no word for NaN and infinities. -/
def floatText (x : Float) : String :=
  (floatLayout.floatText? Decimal.Dyadic.shortest x).getD "null"

def escapeChar (c : Char) : List Char :=
  if c = '\x22' then ['\\', '\x22']
  else if c = '\\' then ['\\', '\\']
  else if c = '\x08' then ['\\', 'b']
  else if c = '\x0c' then ['\\', 'f']
  else if c = '\n' then ['\\', 'n']
  else if c = '\r' then ['\\', 'r']
  else if c = '\t' then ['\\', 't']
  else if c.toNat < 32 then
    ['\\', 'u', '0', '0', Text.hexDigit (c.toNat / 16), Text.hexDigit (c.toNat % 16)]
  else [c]

def quoted (s : String) : String :=
  String.ofList ('\x22' :: s.toList.flatMap escapeChar ++ ['\x22'])

mutual

def toText : Json → String
  | .null => "null"
  | .bool b => if b then "true" else "false"
  | .integer n => toString n
  | .real x => floatText x
  | .text s => quoted s
  | .array items => "[" ++ itemsText items ++ "]"
  | .object fields => "\x7b" ++ fieldsText fields ++ "\x7d"

def itemsText : List Json → String
  | [] => ""
  | [a] => a.toText
  | a :: rest => a.toText ++ "," ++ itemsText rest

def fieldsText : List (String × Json) → String
  | [] => ""
  | [(k, a)] => quoted k ++ ":" ++ a.toText
  | (k, a) :: rest => quoted k ++ ":" ++ a.toText ++ "," ++ fieldsText rest

end

end DataAccess.Json
