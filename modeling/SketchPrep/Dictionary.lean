namespace SketchPrep

structure Dictionary (α : Type) where
  entries : List (String × α)
deriving DecidableEq, Inhabited

namespace Dictionary

variable {α : Type}

def empty : Dictionary α := ⟨[]⟩

def find? (d : Dictionary α) (key : String) : Option α := d.entries.lookup key

def insertInto (key : String) (value : α) : List (String × α) → List (String × α)
  | [] => [(key, value)]
  | (k, v) :: rest =>
    if key = k then (key, value) :: rest
    else if key < k then (key, value) :: (k, v) :: rest
    else (k, v) :: insertInto key value rest

def insert (d : Dictionary α) (key : String) (value : α) : Dictionary α :=
  ⟨insertInto key value d.entries⟩

def erase (d : Dictionary α) (key : String) : Dictionary α := ⟨d.entries.filter (·.1 != key)⟩

def keys (d : Dictionary α) : List String := d.entries.map (·.1)

def size (d : Dictionary α) : Nat := d.entries.length

theorem lookup_insertInto (key other : String) (value : α) (entries : List (String × α)) :
    (insertInto key value entries).lookup other =
      if other = key then some value else entries.lookup other := by
  induction entries with
  | nil => by_cases h : other = key <;> simp [insertInto, List.lookup_cons, h, beq_eq_false_iff_ne.2]
  | cons entry rest ih =>
    obtain ⟨k, v⟩ := entry
    by_cases ho : other = key
    · subst ho
      by_cases hk : other = k
      · simp [insertInto, hk]
      · by_cases hlt : other < k <;>
          simp [insertInto, List.lookup_cons, hk, hlt, beq_eq_false_iff_ne.2 hk, ih]
    · have hb := beq_eq_false_iff_ne.2 ho
      simp only [insertInto, ho, if_false] at ih ⊢
      by_cases hk : key = k
      · subst hk
        simp [List.lookup_cons, hb]
      · by_cases hlt : key < k
        · simp [List.lookup_cons, hk, hlt, hb]
        · simp [List.lookup_cons, hk, hlt, ih]

theorem find?_insert (d : Dictionary α) (key other : String) (value : α) :
    (d.insert key value).find? other = if other = key then some value else d.find? other :=
  lookup_insertInto key other value d.entries

end Dictionary

end SketchPrep
