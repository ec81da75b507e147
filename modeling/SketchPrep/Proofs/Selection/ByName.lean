import SketchPrep.Selection

namespace SketchPrep.Selection

section Tests

variable {α : Type} {tests : List (α → Bool)} {test : α → Bool} {a : α}
  {before after before' after' xs : List α}

/-- How many tests `a` fails before it passes one. -/
def rank (tests : List (α → Bool)) (a : α) : Nat := tests.findIdx (· a)

def foremost? (tests : List (α → Bool)) (xs : List α) : Option α :=
  tests.findSome? fun test => xs.find? test

structure Foremost (tests : List (α → Bool)) (before : List α) (a : α) (after : List α) : Prop where
  passes : ∃ test ∈ tests, test a = true
  before : ∀ b ∈ before, rank tests a < rank tests b
  after : ∀ b ∈ after, rank tests a ≤ rank tests b

theorem rank_cons_of_passes (h : test a = true) : rank (test :: tests) a = 0 := by
  rw [rank, List.findIdx_cons, h, cond_true]

theorem rank_cons_of_fails (h : test a = false) : rank (test :: tests) a = rank tests a + 1 := by
  rw [rank, List.findIdx_cons, h, cond_false, rank]

theorem foremost?_cons (test : α → Bool) (tests : List (α → Bool)) (xs : List α) :
    foremost? (test :: tests) xs = (xs.find? test).or (foremost? tests xs) := by
  rw [foremost?, List.findSome?_cons]
  cases xs.find? test <;> rfl

theorem foremost?_append (tests tests' : List (α → Bool)) (xs : List α) :
    foremost? (tests ++ tests') xs = (foremost? tests xs).or (foremost? tests' xs) :=
  List.findSome?_append

theorem foremost?_filter (tests : List (α → Bool)) (p : α → Bool) (xs : List α) :
    foremost? tests (xs.filter p) = foremost? (tests.map fun test a => p a && test a) xs := by
  rw [foremost?, foremost?, List.findSome?_map]
  apply congrArg (List.findSome? · tests)
  funext test
  rw [List.find?_filter]
  apply congrArg (List.find? · xs)
  funext a
  simp

theorem foremost?_eq_none_iff :
    foremost? tests xs = none ↔ ∀ a ∈ xs, ∀ test ∈ tests, test a = false := by
  rw [foremost?, List.findSome?_eq_none_iff]
  constructor
  · intro h a ha test ht
    exact Bool.of_not_eq_true (List.find?_eq_none.1 (h test ht) a ha)
  · intro h test ht
    apply List.find?_eq_none.2
    intro a ha hp
    rw [h a ha test ht] at hp
    cases hp

/-- The first test decides if anything passes it. -/
theorem foremost_cons_of_passes (ha : test a = true) :
    Foremost (test :: tests) before a after ↔ ∀ b ∈ before, test b = false := by
  constructor
  · intro h b hb
    have hlt := h.before b hb
    cases hp : test b with
    | false => rfl
    | true =>
        rw [rank_cons_of_passes hp] at hlt
        omega
  · intro h
    refine ⟨⟨test, List.mem_cons_self, ha⟩, ?_, ?_⟩
    · intro b hb
      rw [rank_cons_of_passes ha, rank_cons_of_fails (h b hb)]
      omega
    · intro b _
      rw [rank_cons_of_passes ha]
      omega

/-- A test that nothing passes decides nothing. -/
theorem foremost_cons_of_fails (h : ∀ b ∈ before ++ a :: after, test b = false) :
    Foremost (test :: tests) before a after ↔ Foremost tests before a after := by
  have hrank (b : α) (hb : b ∈ before ++ a :: after) : rank (test :: tests) b = rank tests b + 1 :=
    rank_cons_of_fails (h b hb)
  have ha : a ∈ before ++ a :: after := by simp
  have hbefore (b : α) (hb : b ∈ before) : b ∈ before ++ a :: after := by simp [hb]
  have hafter (b : α) (hb : b ∈ after) : b ∈ before ++ a :: after := by simp [hb]
  constructor
  · rintro ⟨⟨t, ht, hp⟩, hb, hf⟩
    refine ⟨⟨t, ?_, hp⟩, ?_, ?_⟩
    · obtain rfl | ht := List.mem_cons.1 ht
      · rw [h a ha] at hp
        cases hp
      · exact ht
    · intro b hm
      have hlt := hb b hm
      rw [hrank a ha, hrank b (hbefore b hm)] at hlt
      omega
    · intro b hm
      have hle := hf b hm
      rw [hrank a ha, hrank b (hafter b hm)] at hle
      omega
  · rintro ⟨⟨t, ht, hp⟩, hb, hf⟩
    refine ⟨⟨t, List.mem_cons_of_mem _ ht, hp⟩, ?_, ?_⟩
    · intro b hm
      rw [hrank a ha, hrank b (hbefore b hm)]
      exact Nat.succ_lt_succ (hb b hm)
    · intro b hm
      rw [hrank a ha, hrank b (hafter b hm)]
      exact Nat.succ_le_succ (hf b hm)

/-- Some element passes the first test, so the foremost does. -/
theorem Foremost.passes_first {b : α} (h : Foremost (test :: tests) before a after)
    (hb : b ∈ before ++ a :: after) (hp : test b = true) : test a = true := by
  have hrank : rank (test :: tests) a ≤ rank (test :: tests) b := by
    obtain hb | hb := List.mem_append.1 hb
    · exact Nat.le_of_lt (h.before b hb)
    · obtain rfl | hb := List.mem_cons.1 hb
      · exact Nat.le_refl _
      · exact h.after b hb
  cases ha : test a with
  | true => rfl
  | false =>
      rw [rank_cons_of_passes hp, rank_cons_of_fails ha] at hrank
      omega

theorem foremost?_eq_some_iff :
    foremost? tests xs = some a ↔
      ∃ before after, xs = before ++ a :: after ∧ Foremost tests before a after := by
  induction tests with
  | nil =>
      constructor
      · intro h
        cases h
      · rintro ⟨_, _, _, ⟨_, ht, _⟩, _, _⟩
        cases ht
  | cons test tests ih =>
      rw [foremost?_cons]
      cases hfound : xs.find? test with
      | none =>
          have hfails : ∀ b ∈ xs, test b = false := by
            intro b hb
            exact Bool.of_not_eq_true (List.find?_eq_none.1 hfound b hb)
          rw [Option.none_or, ih]
          constructor
          · rintro ⟨before, after, rfl, h⟩
            exact ⟨before, after, rfl, (foremost_cons_of_fails hfails).2 h⟩
          · rintro ⟨before, after, rfl, h⟩
            exact ⟨before, after, rfl, (foremost_cons_of_fails hfails).1 h⟩
      | some c =>
          rw [Option.some_or, ← hfound, List.find?_eq_some_iff_append]
          constructor
          · rintro ⟨ha, before, after, rfl, hb⟩
            refine ⟨before, after, rfl, (foremost_cons_of_passes ha).2 ?_⟩
            intro b hm
            simpa using hb b hm
          · rintro ⟨before, after, rfl, h⟩
            have ha : test a = true :=
              h.passes_first (List.mem_of_find?_eq_some hfound) (List.find?_some hfound)
            refine ⟨ha, before, after, rfl, ?_⟩
            intro b hm
            simpa using (foremost_cons_of_passes ha).1 h b hm

theorem mem_of_foremost? (h : foremost? tests xs = some a) : a ∈ xs := by
  obtain ⟨_, _, rfl, _⟩ := foremost?_eq_some_iff.1 h
  simp

theorem Foremost.sublist (h : Foremost tests before a after) (hb : before'.Sublist before)
    (ha : after'.Sublist after) : Foremost tests before' a after' where
  passes := h.passes
  before b hm := h.before b (hb.subset hm)
  after b hm := h.after b (ha.subset hm)

end Tests

def nameTests (header : String) : List (Library → Bool) := NameTest.all.map (·.passes header)

def fitsByName (header : String) (l : Library) : Bool := (nameTests header).any (· l)

/-- Of these libraries, the one whose name fits the header by the earliest test, and the first of such. -/
def BestByName (header : String) (libraries : List Library) (l : Library) : Prop :=
  ∃ before after, libraries = before ++ l :: after ∧ Foremost (nameTests header) before l after

variable {header : String} {libraries : List Library} {l : Library}

theorem bestByName_eq (header : String) (libraries : List Library) :
    bestByName header libraries = foremost? (nameTests header) libraries := by
  rw [foremost?, nameTests, List.findSome?_map]
  rfl

theorem bestByName_eq_some_iff : bestByName header libraries = some l ↔ BestByName header libraries l := by
  rw [bestByName_eq, foremost?_eq_some_iff, BestByName]

theorem bestByName_eq_none_iff :
    bestByName header libraries = none ↔ ∀ l ∈ libraries, fitsByName header l = false := by
  rw [bestByName_eq, foremost?_eq_none_iff]
  simp only [fitsByName, List.any_eq_false, Bool.not_eq_true]

theorem BestByName.mem (h : BestByName header libraries l) : l ∈ libraries := by
  obtain ⟨before, after, rfl, _⟩ := h
  simp

theorem BestByName.fits (h : BestByName header libraries l) : fitsByName header l = true := by
  obtain ⟨_, _, _, hl⟩ := h
  exact List.any_eq_true.2 hl.passes

end SketchPrep.Selection
