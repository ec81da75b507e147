import SketchPrep.Text.Utf8

namespace SketchPrep.Script

abbrev Bytes := List Char

def bytesOf (s : String) : Bytes := s.toUTF8.toList.map fun b => Char.ofNat b.toNat

def Bytes.raw (s : Bytes) : List UInt8 := s.map fun c => UInt8.ofNat c.toNat

def Bytes.text (s : Bytes) : String := String.ofList (Text.decode s.raw)

/-- A part of a word. Quotes protect what is inside from being split and from being a pattern. -/
inductive Piece where
  | char (quoted : Bool) (c : Char)
  | quotes
  | value (quoted : Bool) (name : String) (otherwise : Option Bytes)
  | command (quoted : Bool) (script : Bytes)
  | result (quoted : Bool) (text : Bytes)
deriving DecidableEq, Inhabited

abbrev Word := List Piece

namespace Word

def plain? : Word → Option Bytes
  | [] => some []
  | .char false c :: w => (plain? w).map (c :: ·)
  | _ => none

def isNameStart (c : Char) : Bool := c.isAlpha || c == '_'

def isNameChar (c : Char) : Bool := c.isAlphanum || c == '_'

def settingFrom (name : Bytes) : Word → Option (String × Word)
  | .char false c :: w =>
    if c = '=' then (if name.isEmpty then none else some (String.ofList name, w))
    else if if name.isEmpty then isNameStart c else isNameChar c then settingFrom (name ++ [c]) w
    else none
  | _ => none

def setting? (w : Word) : Option (String × Word) := settingFrom [] w

end Word

inductive Channel where
  | input
  | output
  | errors
deriving DecidableEq, Inhabited

inductive RedirectKind where
  | source
  | target
  | join
deriving DecidableEq, Inhabited

structure Redirect where
  line : Nat
  channel : Channel
  kind : RedirectKind
  word : Word
deriving DecidableEq, Inhabited

inductive Statement where
  | plain (line : Nat) (settings : List (String × Word)) (words : List Word) (redirects : List Redirect)
  | both (a b : Statement)
  | either (a b : Statement)
  | negation (a : Statement)
  | pipe (a b : Statement)
  | block (body : List Statement) (redirects : List Redirect)
  | apart (body : List Statement)
  | choice (condition yes no : List Statement)
  | repetition (succeeds : Bool) (condition body : List Statement)
  | each (name : String) (words : Option (List Word)) (body : List Statement)
  | selection (word : Word) (branches : List (List Word × List Statement))
  | function (name : String) (body : Statement)
deriving Inhabited

end SketchPrep.Script
