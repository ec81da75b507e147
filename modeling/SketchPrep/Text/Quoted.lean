namespace SketchPrep.Text

def escape (s : List Char) : List Char :=
  s.flatMap fun c => if c = '\\' ∨ c = '\x22' then ['\\', c] else [c]

/-- A backslash stands for the character after it; one at the end stands for nothing. -/
def unescape : List Char → List Char
  | [] => []
  | ['\\'] => []
  | '\\' :: c :: s => c :: unescape s
  | c :: s => c :: unescape s

theorem escape_cons (c : Char) (s : List Char) :
    escape (c :: s) = (if c = '\\' ∨ c = '\x22' then ['\\', c] else [c]) ++ escape s := by
  simp [escape]

theorem unescape_escape (s : List Char) : unescape (escape s) = s := by
  induction s with
  | nil => rfl
  | cons c s ih =>
    rw [escape_cons]
    by_cases h : c = '\\'
    · subst h; simp [unescape, ih]
    · by_cases hq : c = '\x22'
      · subst hq; simp [unescape, ih]
      · simp [h, hq, unescape, ih]

end SketchPrep.Text
