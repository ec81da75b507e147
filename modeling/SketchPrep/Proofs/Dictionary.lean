import SketchPrep.Dictionary

namespace SketchPrep.Dictionary

variable {α : Type}

theorem lookup_isSome_iff (key : String) (entries : List (String × α)) :
    (entries.lookup key).isSome = true ↔ key ∈ entries.map (·.1) := by
  induction entries with
  | nil => simp
  | cons entry rest ih =>
      obtain ⟨k, v⟩ := entry
      rw [List.lookup_cons, List.map_cons, List.mem_cons]
      by_cases hk : key = k
      · simp [hk]
      · rw [beq_eq_false_iff_ne.2 hk]
        simp only [hk, false_or, ih]

theorem mem_keys_iff {d : Dictionary α} {key : String} :
    key ∈ d.keys ↔ ∃ value, d.find? key = some value := by
  rw [keys, ← lookup_isSome_iff, Option.isSome_iff_exists]
  rfl

theorem map_fst_insertInto_perm {key : String} (value : α) {entries : List (String × α)}
    (h : key ∉ entries.map (·.1)) :
    ((insertInto key value entries).map (·.1)).Perm (key :: entries.map (·.1)) := by
  induction entries with
  | nil => exact .refl _
  | cons entry rest ih =>
      obtain ⟨k, v⟩ := entry
      simp only [List.map_cons, List.mem_cons, not_or] at h
      rw [insertInto, if_neg h.1]
      split
      · exact .refl _
      · exact ((ih h.2).cons k).trans (.swap ..)

theorem keys_insert_perm {d : Dictionary α} {key : String} (value : α) (h : key ∉ d.keys) :
    (d.insert key value).keys.Perm (key :: d.keys) :=
  map_fst_insertInto_perm value h

theorem mem_insertInto {key : String} {value : α} {entries : List (String × α)} {e : String × α}
    (h : e ∈ insertInto key value entries) : e = (key, value) ∨ e ∈ entries := by
  induction entries with
  | nil => exact .inl (List.mem_singleton.1 h)
  | cons entry rest ih =>
      obtain ⟨k, v⟩ := entry
      rw [insertInto] at h
      split at h
      · exact (List.mem_cons.1 h).imp_right (List.mem_cons_of_mem _)
      · split at h
        · exact List.mem_cons.1 h
        · rcases List.mem_cons.1 h with rfl | h
          · exact .inr List.mem_cons_self
          · exact (ih h).imp_right (List.mem_cons_of_mem _)

theorem mem_insert {d : Dictionary α} {key : String} {value : α} {e : String × α}
    (h : e ∈ (d.insert key value).entries) : e = (key, value) ∨ e ∈ d.entries :=
  mem_insertInto h

def Ordered (d : Dictionary α) : Prop := d.entries.Pairwise fun e f => e.1 < f.1

theorem ordered_empty : (empty : Dictionary α).Ordered := .nil

theorem pairwise_insertInto (key : String) (value : α) {entries : List (String × α)}
    (h : entries.Pairwise fun e f => e.1 < f.1) :
    (insertInto key value entries).Pairwise fun e f => e.1 < f.1 := by
  induction entries with
  | nil => exact List.pairwise_singleton ..
  | cons entry rest ih =>
      obtain ⟨k, v⟩ := entry
      obtain ⟨hk, hrest⟩ := List.pairwise_cons.1 h
      rw [insertInto]
      split
      · rename_i he
        subst he
        exact .cons hk hrest
      · rename_i hne
        split
        · rename_i hlt
          refine .cons (fun e he => ?_) h
          rcases List.mem_cons.1 he with rfl | he
          · exact hlt
          · exact String.lt_trans hlt (hk e he)
        · rename_i hnot
          have hlt : k < key := by
            apply String.not_le.1
            intro hle
            exact hne (String.le_antisymm hle (String.not_lt.1 hnot))
          refine .cons (fun e he => ?_) (ih hrest)
          rcases mem_insertInto he with rfl | he
          · exact hlt
          · exact hk e he

variable {d d' : Dictionary α}

theorem Ordered.insert (h : d.Ordered) (key : String) (value : α) : (d.insert key value).Ordered :=
  pairwise_insertInto key value h

theorem Ordered.mem_entries_iff (h : d.Ordered) {key : String} {value : α} :
    (key, value) ∈ d.entries ↔ d.find? key = some value := by
  rw [find?, List.lookup_eq_some_iff]
  constructor
  · intro hm
    obtain ⟨above, below, he⟩ := List.append_of_mem hm
    refine ⟨above, below, he, fun e hmem => ?_⟩
    rw [Ordered, he] at h
    have hlt : e.1 < key := (List.pairwise_append.1 h).2.2 e hmem _ List.mem_cons_self
    apply bne_iff_ne.2
    rintro rfl
    exact String.lt_irrefl _ hlt
  · rintro ⟨above, below, he, -⟩
    rw [he]
    exact List.mem_append_right above List.mem_cons_self

theorem Ordered.nodup (h : d.Ordered) : d.entries.Nodup := by
  apply h.imp
  rintro e _ hlt rfl
  exact String.lt_irrefl _ hlt

theorem Ordered.ext (h : d.Ordered) (h' : d'.Ordered)
    (hfind : ∀ key value, d.find? key = some value ↔ d'.find? key = some value) : d = d' := by
  have hmem : ∀ e, e ∈ d.entries ↔ e ∈ d'.entries := by
    rintro ⟨key, value⟩
    rw [h.mem_entries_iff, h'.mem_entries_iff, hfind]
  have hperm : d.entries.Perm d'.entries := (List.perm_ext_iff_of_nodup h.nodup h'.nodup).2 hmem
  have hentries : d.entries = d'.entries :=
    hperm.eq_of_pairwise (fun _ _ _ _ hlt hgt => absurd hgt (String.lt_asymm hlt)) h h'
  cases d
  cases d'
  exact congrArg Dictionary.mk hentries

end SketchPrep.Dictionary
