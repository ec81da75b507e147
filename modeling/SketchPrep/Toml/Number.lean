namespace SketchPrep.Toml

def isDigit (c : Char) : Bool := '0' ≤ c && c ≤ '9'

def digitsValue (digits : List Char) : Nat := digits.foldl (fun n c => n * 10 + (c.toNat - '0'.toNat)) 0

def digits? (isDigit : Char → Bool) (s : List Char) : Option (List Char) :=
  let groups := s.splitOn '_'
  if groups.all fun group => !group.isEmpty && group.all isDigit then some groups.flatten else none

def signed : List Char → Bool × List Char
  | '-' :: s => (true, s)
  | '+' :: s => (false, s)
  | s => (false, s)

def decimal? (s : List Char) : Option (List Char) := do
  let digits ← digits? isDigit s
  if digits.length > 1 && digits.head? = some '0' then none else return digits

def baseDigit? (base : Nat) (c : Char) : Option Nat :=
  let n :=
    if isDigit c then c.toNat - '0'.toNat
    else if 'a' ≤ c ∧ c ≤ 'f' then c.toNat - 'a'.toNat + 10
    else if 'A' ≤ c ∧ c ≤ 'F' then c.toNat - 'A'.toNat + 10
    else base
  if n < base then some n else none

def ofBase? (base : Nat) (s : List Char) : Option Int := do
  let digits ← digits? (fun c => (baseDigit? base c).isSome) s
  return (digits.foldl (fun n c => n * base + (baseDigit? base c).getD 0) 0 : Nat)

/-- Integers have 64 bits. Only decimal ones have a sign. -/
def integer? (s : List Char) : Option Int := do
  let n ← match s with
    | '0' :: 'x' :: s => ofBase? 16 s
    | '0' :: 'o' :: s => ofBase? 8 s
    | '0' :: 'b' :: s => ofBase? 2 s
    | s =>
      let (negative, s) := signed s
      (decimal? s).map fun digits => if negative then -(digitsValue digits : Int) else digitsValue digits
  if -9223372036854775808 ≤ n ∧ n ≤ 9223372036854775807 then return n else none

def splitExponent (s : List Char) : List Char × Option (List Char) :=
  let mantissa := s.takeWhile fun c => c != 'e' && c != 'E'
  match s.drop mantissa.length with
  | [] => (mantissa, none)
  | _ :: exponent => (mantissa, some exponent)

structure Scientific where
  digits : List Char
  exponent : Int

def scientific? (s : List Char) : Option Scientific := do
  let (mantissa, exponent) := splitExponent s
  let whole := mantissa.takeWhile (· != '.')
  let wholeDigits ← decimal? whole
  let fraction ← match mantissa.drop whole.length with
    | [] => if exponent.isNone then none else some []
    | _ :: fraction => digits? isDigit fraction
  let power ← match exponent with
    | none => some 0
    | some chars =>
      let (negative, chars) := signed chars
      (digits? isDigit chars).map fun digits =>
        if negative then -(digitsValue digits : Int) else digitsValue digits
  return ⟨wholeDigits ++ fraction, power - fraction.length⟩

/-- The least number that is rounded to no finite number of 64 bits. -/
def leastInfinite : Nat := Nat.pow 2 1024 - Nat.pow 2 970

def Scientific.isInfinite (x : Scientific) : Bool :=
  let digits := x.digits.dropWhile (· == '0')
  let size := (digits.length : Int) + x.exponent
  if digits.isEmpty || size < 309 then false
  else if size > 309 then true
  else if 0 ≤ x.exponent then leastInfinite ≤ digitsValue digits * Nat.pow 10 x.exponent.toNat
  else leastInfinite * Nat.pow 10 x.exponent.natAbs ≤ digitsValue digits

/-- A number too great is an error, but one too small is not. -/
def isFloat (s : List Char) : Bool :=
  let (negative, s) := signed s
  s == "inf".toList || s == "nan".toList ||
    match scientific? s with
    | some x => negative || !x.isInfinite
    | none => false

def field? (size low high : Nat) (s : List Char) : Option (Nat × List Char) :=
  let digits := s.take size
  let n := digitsValue digits
  if digits.length = size ∧ digits.all isDigit ∧ low ≤ n ∧ n ≤ high then some (n, s.drop size) else none

def expect? (c : Char) (s : List Char) : Option (List Char) := if s.head? = some c then some s.tail else none

def daysIn (year month : Nat) : Nat :=
  if month = 2 then
    if year % 4 = 0 ∧ (year % 100 ≠ 0 ∨ year % 400 = 0) then 29 else 28
  else if [4, 6, 9, 11].contains month then 30
  else 31

def afterDate? (s : List Char) : Option (List Char) := do
  let (year, s) ← field? 4 0 9999 s
  let (month, s) ← field? 2 1 12 (← expect? '-' s)
  let (_, s) ← field? 2 1 (daysIn year month) (← expect? '-' s)
  return s

def afterTime? (s : List Char) : Option (List Char) := do
  let (_, s) ← field? 2 0 23 s
  let (_, s) ← field? 2 0 59 (← expect? ':' s)
  let (_, s) ← field? 2 0 60 (← expect? ':' s)
  match s with
  | '.' :: fraction =>
    let digits := fraction.takeWhile isDigit
    if digits.isEmpty then none else return fraction.drop digits.length
  | s => return s

def isOffset (s : List Char) : Bool :=
  s == ['Z'] || s == ['z'] ||
    (match s with
    | '+' :: s | '-' :: s => (do
      let (_, s) ← field? 2 0 23 s
      let (_, s) ← field? 2 0 59 (← expect? ':' s)
      return s) == some []
    | _ => false)

def isMoment (s : List Char) : Bool :=
  afterTime? s == some [] ||
    match afterDate? s with
    | some [] => true
    | some (c :: time) =>
      (c == 'T' || c == 't' || c == ' ') &&
        (match afterTime? time with
        | some rest => rest.isEmpty || isOffset rest
        | none => false)
    | none => false

end SketchPrep.Toml
