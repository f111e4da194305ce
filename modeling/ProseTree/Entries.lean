namespace ProseTree

/-! Entries by key, in the order in which the keys were first used. -/

abbrev Entries (κ β : Type) := List (κ × β)

namespace Entries

variable {κ β : Type} [DecidableEq κ]

/-- Sets an entry, in the place of the first one that has its key, or at the end. -/
def put (key : κ) (value : β) : Entries κ β → Entries κ β
  | [] => [(key, value)]
  | entry :: rest =>
      if entry.1 = key then (key, value) :: rest else entry :: put key value rest

/-- The key has the new value, and every other key what it had. -/
theorem lookup_put [BEq κ] [LawfulBEq κ] (key wanted : κ) (value : β) (entries : Entries κ β) :
    (entries.put key value).lookup wanted =
      if wanted = key then some value else entries.lookup wanted := by
  induction entries with
  | nil =>
      cases atKey : wanted == key
      · simp [put, List.lookup_cons, atKey, beq_eq_false_iff_ne.mp atKey]
      · simp [put, beq_iff_eq.mp atKey]
  | cons entry rest ih =>
      obtain ⟨first, content⟩ := entry
      by_cases here : first = key
      · subst first
        cases atKey : wanted == key
        · simp [put, List.lookup_cons, atKey, beq_eq_false_iff_ne.mp atKey]
        · simp [put, beq_iff_eq.mp atKey]
      · cases atFirst : wanted == first
        · simp [put, List.lookup_cons, here, atFirst, ih]
        · simp [put, here, beq_iff_eq.mp atFirst]

/-- Without the entries of a key, every other key has what it had. -/
theorem lookup_filter_ne (key wanted : κ) (entries : Entries κ β) :
    (entries.filter (·.1 != key)).lookup wanted =
      if wanted = key then none else entries.lookup wanted := by
  induction entries with
  | nil => simp
  | cons entry rest ih =>
      obtain ⟨first, content⟩ := entry
      by_cases dropped : first = key
      · subst first
        rw [List.filter_cons_of_neg (by simp), ih, List.lookup_cons]
        by_cases own : wanted = key
        · simp [own]
        · simp [own, beq_eq_false_iff_ne.mpr own]
      · rw [List.filter_cons_of_pos (by simpa using dropped), List.lookup_cons, List.lookup_cons, ih]
        by_cases here : wanted = first
        · subst wanted
          simp [dropped]
        · simp [beq_eq_false_iff_ne.mpr here]

end Entries

end ProseTree
