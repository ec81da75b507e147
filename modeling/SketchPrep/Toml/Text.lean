namespace SketchPrep.Toml

def isPrintable (c : Char) : Bool := c == '\t' || (' ' ≤ c && c != '\x7f')

def hexDigit? (c : Char) : Option Nat :=
  if '0' ≤ c ∧ c ≤ '9' then some (c.toNat - '0'.toNat)
  else if 'a' ≤ c ∧ c ≤ 'f' then some (c.toNat - 'a'.toNat + 10)
  else if 'A' ≤ c ∧ c ≤ 'F' then some (c.toNat - 'A'.toNat + 10)
  else none

def hexValue? (digits : List Char) : Option Nat :=
  digits.foldlM (fun n c => (hexDigit? c).map (n * 16 + ·)) 0

def numbered? (digits : Nat) (s : List Char) : Option (Char × List Char) := do
  if s.length < digits then none
  let n ← hexValue? (s.take digits)
  if h : n.isValidChar then return (Char.ofNatAux n h, s.drop digits) else none

def escape? : List Char → Option (Char × List Char)
  | 'b' :: s => some ('\x08', s)
  | 't' :: s => some ('\t', s)
  | 'n' :: s => some ('\n', s)
  | 'f' :: s => some ('\x0c', s)
  | 'r' :: s => some ('\r', s)
  | '\x22' :: s => some ('\x22', s)
  | '\\' :: s => some ('\\', s)
  | 'u' :: s => numbered? 4 s
  | 'U' :: s => numbered? 8 s
  | _ => none

def afterNewline? : List Char → Option (List Char)
  | '\n' :: s => some s
  | '\r' :: '\n' :: s => some s
  | _ => none

def quoted : Nat → List Char → Option (List Char × List Char)
  | 0, _ => none
  | _, [] => none
  | n + 1, c :: s =>
    if c = '\x22' then some ([], s)
    else if c = '\\' then do
      let (c, s) ← escape? s
      let (chars, rest) ← quoted n s
      return (c :: chars, rest)
    else if isPrintable c then (quoted n s).map fun (chars, rest) => (c :: chars, rest)
    else none

def literal (s : List Char) : Option (List Char × List Char) :=
  let chars := s.takeWhile fun c => isPrintable c && c != '\x27'
  match s.drop chars.length with
  | '\x27' :: rest => some (chars, rest)
  | _ => none

/-- The quotes at the end of a text on several lines: three close it, and at most two before them
belong to it. -/
def closing? (quote : Char) (s : List Char) : Option (List Char × List Char) :=
  let count := (s.takeWhile (· == quote)).length
  if count < 3 then none
  else
    let inside := min (count - 3) 2
    some (List.replicate inside quote, s.drop (inside + 3))

def dropBlankLines : List Char → List Char
  | '\n' :: s => dropBlankLines s
  | '\r' :: '\n' :: s => dropBlankLines s
  | ' ' :: s => dropBlankLines s
  | '\t' :: s => dropBlankLines s
  | s => s

/-- What follows a backslash at the end of a line: all blanks and line ends are left out. -/
def afterLineJoin? (s : List Char) : Option (List Char) :=
  (afterNewline? (s.dropWhile fun c => c == ' ' || c == '\t')).map dropBlankLines

def quotedLines : Nat → List Char → Option (List Char × List Char)
  | 0, _ => none
  | _, [] => none
  | n + 1, c :: s =>
    let followedBy := fun (c : Char) (s : List Char) =>
      (quotedLines n s).map fun (chars, rest) => (c :: chars, rest)
    match closing? '\x22' (c :: s), afterNewline? (c :: s) with
    | some ended, _ => some ended
    | none, some s => followedBy '\n' s
    | none, none =>
      if c = '\\' then
        match afterLineJoin? s with
        | some s => quotedLines n s
        | none => do
          let (c, s) ← escape? s
          followedBy c s
      else if isPrintable c then followedBy c s
      else none

def literalLines : Nat → List Char → Option (List Char × List Char)
  | 0, _ => none
  | _, [] => none
  | n + 1, c :: s =>
    let followedBy := fun (c : Char) (s : List Char) =>
      (literalLines n s).map fun (chars, rest) => (c :: chars, rest)
    match closing? '\x27' (c :: s), afterNewline? (c :: s) with
    | some ended, _ => some ended
    | none, some s => followedBy '\n' s
    | none, none => if isPrintable c then followedBy c s else none

def withoutNewline (s : List Char) : List Char := (afterNewline? s).getD s

def textValue? (s : List Char) : Option (List Char × List Char) :=
  match s with
  | '\x22' :: '\x22' :: '\x22' :: s => quotedLines (s.length + 1) (withoutNewline s)
  | '\x27' :: '\x27' :: '\x27' :: s => literalLines (s.length + 1) (withoutNewline s)
  | '\x22' :: s => quoted (s.length + 1) s
  | '\x27' :: s => literal s
  | _ => none

end SketchPrep.Toml
