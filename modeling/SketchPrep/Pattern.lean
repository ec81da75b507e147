namespace SketchPrep

structure CharRange where
  first : Char
  last : Char
deriving DecidableEq, Inhabited

inductive PatternToken where
  | char (c : Char)
  | anyChar
  | anyText
  | anyFolders
  | oneOf (ranges : List CharRange)
  | noneOf (ranges : List CharRange)
deriving DecidableEq, Inhabited

inductive PatternFault where
  | stars
  | folders
  | range
deriving DecidableEq, Inhabited

structure PatternError where
  position : Nat
  fault : PatternFault
deriving DecidableEq, Inhabited

def PatternFault.text : PatternFault → String
  | .stars => "wildcards are either regular `*` or recursive `**`"
  | .folders => "recursive wildcards must form a single path component"
  | .range => "invalid range pattern"

def PatternError.message (e : PatternError) : String :=
  "Pattern syntax error near position " ++ toString e.position ++ ": " ++ e.fault.text

abbrev Pattern := List PatternToken

namespace Pattern

def rangesOf : List Char → List CharRange
  | first :: '-' :: last :: rest => ⟨first, last⟩ :: rangesOf rest
  | c :: rest => ⟨c, c⟩ :: rangesOf rest
  | [] => []

def upToBracket : List Char → Option (List Char × List Char)
  | [] => none
  | first :: rest =>
    let inside := rest.takeWhile (· != ']')
    match rest.drop inside.length with
    | [] => none
    | _ :: after => some (first :: inside, after)

def set? : List Char → Option (PatternToken × List Char)
  | '!' :: rest => (upToBracket rest).map fun (inside, after) => (.noneOf (rangesOf inside), after)
  | rest => (upToBracket rest).map fun (inside, after) => (.oneOf (rangesOf inside), after)

def addFolders (tokens : Pattern) : Pattern :=
  if tokens.length > 1 ∧ tokens.getLast? = some .anyFolders then tokens else tokens ++ [.anyFolders]

/-- Reads a pattern from the character at `place` on; `before` is the one just before. The number of
characters bounds the steps. -/
def parseFrom : Nat → Nat → Option Char → Pattern → List Char → Except PatternError Pattern
  | _, _, _, tokens, [] => .ok tokens
  | 0, _, _, tokens, _ => .ok tokens
  | n + 1, place, before, tokens, c :: rest =>
    if c = '?' then parseFrom n (place + 1) (some c) (tokens ++ [.anyChar]) rest
    else if c = '*' then
      let more := rest.takeWhile (· == '*')
      let rest := rest.drop more.length
      if more.length = 0 then parseFrom n (place + 1) (some c) (tokens ++ [.anyText]) rest
      else if more.length > 1 then .error ⟨place + 2, .stars⟩
      else if place ≠ 0 ∧ before ≠ some '/' then .error ⟨place - 1, .folders⟩
      else match rest with
        | [] => .ok (addFolders tokens)
        | '/' :: rest => parseFrom n (place + 3) (some '/') (addFolders tokens) rest
        | _ => .error ⟨place + 2, .folders⟩
    else if c = '[' then
      match set? rest with
      | some (token, after) =>
        parseFrom n (place + 1 + (rest.length - after.length)) (some ']') (tokens ++ [token]) after
      | none => .error ⟨place, .range⟩
    else parseFrom n (place + 1) (some c) (tokens ++ [.char c]) rest

def parse (text : List Char) : Except PatternError Pattern := parseFrom text.length 0 none [] text

def isRecursive (p : Pattern) : Bool := p.contains .anyFolders

def literal? : Pattern → Option (List Char)
  | [] => some []
  | .char c :: rest => (literal? rest).map (c :: ·)
  | _ => none

def inRanges (ranges : List CharRange) (c : Char) : Bool := ranges.any fun r => r.first ≤ c && c ≤ r.last

def someRest (p : List Char → Bool) : List Char → Bool
  | [] => p []
  | c :: s => p (c :: s) || someRest p s

def fits : Pattern → List Char → Bool
  | [], s => s.isEmpty
  | .anyText :: p, s => someRest (fits p) s
  | .anyFolders :: p, s => fits p s
  | .char d :: p, c :: s => c = d && fits p s
  | .anyChar :: p, _ :: s => fits p s
  | .oneOf ranges :: p, c :: s => inRanges ranges c && fits p s
  | .noneOf ranges :: p, c :: s => !inRanges ranges c && fits p s
  | _ :: _, [] => false

end Pattern

end SketchPrep
