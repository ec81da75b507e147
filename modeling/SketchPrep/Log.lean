namespace SketchPrep

inductive LogLevel where
  | debug
  | info
  | warn
deriving DecidableEq, Inhabited

structure LogEvent where
  level : LogLevel
  text : String
deriving DecidableEq, Inhabited

def LogLevel.text : LogLevel → String
  | .debug => "DEBUG"
  | .info => "INFO"
  | .warn => "WARN"

namespace LogEvent

def debug (text : String) : LogEvent := ⟨.debug, text⟩

def info (text : String) : LogEvent := ⟨.info, text⟩

def warn (text : String) : LogEvent := ⟨.warn, text⟩

def isControl (c : Char) : Bool :=
  ['\x07', '\x08', '\x0c', '\x1b', '\x7f'].contains c || (0x80 ≤ c.toNat && c.toNat ≤ 0x9F)

def hexDigit (n : Nat) : Char := "0123456789abcdef".toList.getD n '0'

def shown (c : Char) : List Char :=
  let digits := [hexDigit (c.toNat / 16), hexDigit (c.toNat % 16)]
  if !isControl c then [c]
  else if c.toNat < 0x80 then ['\\', 'x'] ++ digits
  else ['\\', 'u', '\x7b'] ++ digits ++ ['\x7d']

def line (e : LogEvent) : String :=
  let level := e.level.text
  (if level.length < 5 then " " else "") ++ level ++ " " ++ String.ofList (e.text.toList.flatMap shown) ++
    "\n"

end LogEvent

end SketchPrep
