namespace SketchPrep

inductive JsonValue where
  | null
  | boolean (b : Bool)
  | text (s : String)
  | array (items : List JsonValue)
  | object (fields : List (String × JsonValue))

namespace JsonValue

def hexDigit (n : Nat) : Char := Char.ofNat (if n < 10 then 48 + n else 87 + n)

def escaped (c : Char) : List Char :=
  match c with
  | '\x22' => ['\\', '\x22']
  | '\\' => ['\\', '\\']
  | '\n' => ['\\', 'n']
  | '\r' => ['\\', 'r']
  | '\t' => ['\\', 't']
  | '\x08' => ['\\', 'b']
  | '\x0c' => ['\\', 'f']
  | c =>
    if c.toNat < 32 then ['\\', 'u', '0', '0', hexDigit (c.toNat / 16), hexDigit (c.toNat % 16)] else [c]

def quoted (s : String) : String := "\"" ++ String.ofList (s.toList.flatMap escaped) ++ "\""

def newline (depth : Nat) : String := "\n" ++ String.ofList (List.replicate (2 * depth) ' ')

mutual

def render (depth : Nat) : JsonValue → String
  | null => "null"
  | boolean b => if b then "true" else "false"
  | text s => quoted s
  | array [] => "[]"
  | array (item :: items) =>
    "[" ++ newline (depth + 1) ++ item.render (depth + 1) ++ renderItems (depth + 1) items ++
      newline depth ++ "]"
  | object [] => "\x7b\x7d"
  | object ((key, value) :: fields) =>
    "\x7b" ++ newline (depth + 1) ++ quoted key ++ ": " ++ value.render (depth + 1) ++
      renderFields (depth + 1) fields ++ newline depth ++ "\x7d"

def renderItems (depth : Nat) : List JsonValue → String
  | [] => ""
  | item :: items => "," ++ newline depth ++ item.render depth ++ renderItems depth items

def renderFields (depth : Nat) : List (String × JsonValue) → String
  | [] => ""
  | (key, value) :: fields =>
    "," ++ newline depth ++ quoted key ++ ": " ++ value.render depth ++ renderFields depth fields

end

def pretty (v : JsonValue) : String := v.render 0

end JsonValue

end SketchPrep
