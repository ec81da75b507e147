import SketchPrep.Failure
import SketchPrep.Log

namespace SketchPrep

inductive Outcome where
  | clean
  | missing (header : String)
  | failed (output : String)
deriving DecidableEq, Inhabited

/-- A compiler with a state of its own of type `σ`, which each answer may change. -/
structure Preprocessor (σ : Type) where
  discover : Path → List Path → σ → Except Failure Outcome × σ
  diagnose : Path → List Path → σ → Except Failure String × σ
  preprocess : Path → List Path → σ → Except Failure String × σ
  note : LogEvent → σ → σ

inductive Question where
  | discover
  | diagnose
  | preprocess
deriving DecidableEq, Inhabited

structure Call where
  question : Question
  source : Path
  includeDirs : List Path
  answer : Option (Except Failure Outcome)

structure Record where
  calls : List Call
  listed : List Path
  log : List LogEvent

namespace Record

def empty : Record := ⟨[], [], []⟩

def addCall (r : Record) (c : Call) : Record := { r with calls := r.calls ++ [c] }

def addListed (r : Record) (source : Path) : Record := { r with listed := r.listed ++ [source] }

def addEvent (r : Record) (e : LogEvent) : Record := { r with log := r.log ++ [e] }

end Record

namespace Preprocessor

variable {σ : Type}

def recording (pp : Preprocessor σ) : Preprocessor (σ × Record) where
  discover source dirs := fun (s, record) =>
    let (answer, s) := pp.discover source dirs s
    (answer, s, record.addCall ⟨.discover, source, dirs, some answer⟩)
  diagnose source dirs := fun (s, record) =>
    let (answer, s) := pp.diagnose source dirs s
    (answer, s, record.addCall ⟨.diagnose, source, dirs, none⟩)
  preprocess source dirs := fun (s, record) =>
    let (answer, s) := pp.preprocess source dirs s
    (answer, s, record.addCall ⟨.preprocess, source, dirs, none⟩)
  note e := fun (s, record) => (pp.note e s, record.addEvent e)

def noteAll (pp : Preprocessor σ) (es : List LogEvent) (state : σ) : σ :=
  es.foldl (fun state e => pp.note e state) state

end Preprocessor

end SketchPrep
