namespace SketchPrep.Text

/-- A character under way: the next byte must lie between `low` and `high`, `more` bytes are
needed with it, and `code` holds the bits read so far. -/
structure Partial where
  low : Nat
  high : Nat
  more : Nat
  code : Nat

inductive FirstByte where
  | whole (c : Char)
  | begins (p : Partial)
  | stray

def readFirst (b : UInt8) : FirstByte :=
  let n := b.toNat
  if n < 0x80 then .whole (Char.ofNat n)
  else if n < 0xC2 then .stray
  else if n < 0xE0 then .begins ⟨0x80, 0xBF, 0, n - 0xC0⟩
  else if n = 0xE0 then .begins ⟨0xA0, 0xBF, 1, 0⟩
  else if n = 0xED then .begins ⟨0x80, 0x9F, 1, 13⟩
  else if n < 0xF0 then .begins ⟨0x80, 0xBF, 1, n - 0xE0⟩
  else if n = 0xF0 then .begins ⟨0x90, 0xBF, 2, 0⟩
  else if n < 0xF4 then .begins ⟨0x80, 0xBF, 2, n - 0xF0⟩
  else if n = 0xF4 then .begins ⟨0x80, 0x8F, 2, 4⟩
  else .stray

def replacement : Char := '\ufffd'

def decodeFrom : Option Partial → List UInt8 → List Char
  | none, [] => []
  | some _, [] => [replacement]
  | none, b :: bs => fresh b bs
  | some p, b :: bs =>
    if p.low ≤ b.toNat && b.toNat ≤ p.high then
      let code := p.code * 64 + (b.toNat - 0x80)
      match p.more with
      | 0 => Char.ofNat code :: decodeFrom none bs
      | more + 1 => decodeFrom (some ⟨0x80, 0xBF, more, code⟩) bs
    else replacement :: fresh b bs
where
  fresh (b : UInt8) (bs : List UInt8) : List Char :=
    match readFirst b with
    | .whole c => c :: decodeFrom none bs
    | .begins p => decodeFrom (some p) bs
    | .stray => replacement :: decodeFrom none bs

def decode (bytes : List UInt8) : List Char := decodeFrom none bytes

def decodeBytes (bytes : ByteArray) : String := String.ofList (decode bytes.toList)

end SketchPrep.Text
