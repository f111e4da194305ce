import Mathlib.Data.List.Nodup
import ProseTree.Proofs.Analysis.Menu
import ProseTree.Proofs.Text.Blank

namespace ProseTree.Menu

/-! Menus that come about by registering operations, and the numbers of a menu.

A menu never holds two operations of one name: registering a name again puts the new operation
in the place of the old one.  So a name stands for the operation that was registered last under
it, and for one place.  The names are those registered so far, in the order of their first
registration, and are numbered without gaps.  A registration of a new name puts it behind the
others, and one of a known name leaves all names where they are, so a number once given is never
taken back. -/

attribute [local instance (high)] instPowNat

variable {menu : Menu} {operation : Operation} {operations history : List Operation}
  {selector : Text} {name wanted : String} {number : Nat}

/-- The menu after a history of registrations, the earliest first. -/
def registered (history : List Operation) : Menu := history.foldl register empty

theorem registered_append_singleton (history : List Operation) (operation : Operation) :
    registered (history ++ [operation]) = (registered history).register operation :=
  List.foldl_append

theorem names_insertNamed (operation : Operation) (operations : List Operation) :
    (insertNamed operation operations).map Operation.name =
      if operation.name ∈ operations.map Operation.name then operations.map Operation.name
      else operations.map Operation.name ++ [operation.name] := by
  induction operations with
  | nil => rfl
  | cons existing rest ih =>
      by_cases same : existing.name = operation.name
      · simp [insertNamed, same]
      · rw [insertNamed, if_neg same, List.map_cons, ih]
        simp only [List.map_cons, List.mem_cons, Ne.symm same, false_or]
        split <;> rfl

theorem nodup_insertNamed (distinct : (operations.map Operation.name).Nodup)
    (operation : Operation) : ((insertNamed operation operations).map Operation.name).Nodup := by
  rw [names_insertNamed]
  split
  · exact distinct
  · rename_i new
    rw [← List.concat_eq_append]
    exact List.Nodup.concat new distinct

theorem find?_insertNamed (operation : Operation) (operations : List Operation) (wanted : String) :
    (insertNamed operation operations).find? (·.name == wanted) =
      if operation.name = wanted then some operation
      else operations.find? (·.name == wanted) := by
  induction operations with
  | nil => simp [insertNamed, List.find?_singleton]
  | cons existing rest ih =>
      by_cases same : existing.name = operation.name
      · rw [insertNamed, if_pos same]
        by_cases asked : operation.name = wanted
        · rw [if_pos asked, List.find?_cons_of_pos (by simpa using asked)]
        · rw [if_neg asked, List.find?_cons_of_neg (by simpa using asked),
            List.find?_cons_of_neg (by simpa [same] using asked)]
      · rw [insertNamed, if_neg same]
        by_cases here : existing.name = wanted
        · have other : operation.name ≠ wanted := fun asked => same (here.trans asked.symm)
          rw [if_neg other, List.find?_cons_of_pos (by simpa using here),
            List.find?_cons_of_pos (by simpa using here)]
        · rw [List.find?_cons_of_neg (by simpa using here), ih,
            List.find?_cons_of_neg (by simpa using here)]

theorem nodup_registered (history : List Operation) :
    ((registered history).operations.map Operation.name).Nodup := by
  induction history using List.reverseRecOn with
  | nil => exact List.nodup_nil
  | append_singleton history operation ih =>
      rw [registered_append_singleton]
      exact nodup_insertNamed ih operation

/-- A name stands for the operation that was registered last under it. -/
theorem find?_registered (history : List Operation) (wanted : String) :
    (registered history).operations.find? (·.name == wanted) =
      history.reverse.find? (·.name == wanted) := by
  induction history using List.reverseRecOn with
  | nil => rfl
  | append_singleton history operation ih =>
      rw [registered_append_singleton, register, find?_insertNamed, ih, List.reverse_concat]
      by_cases asked : operation.name = wanted
      · rw [if_pos asked, List.find?_cons_of_pos (by simpa using asked)]
      · rw [if_neg asked, List.find?_cons_of_neg (by simpa using asked)]

theorem byNumber?_eq_some_iff : menu.byNumber? number = some operation ↔
    ∃ index, number = index + 1 ∧ menu.operations[index]? = some operation := by
  cases number with
  | zero => simp [byNumber?]
  | succ index => simp [byNumber?]

theorem find?_name (distinct : (operations.map Operation.name).Nodup)
    (member : operation ∈ operations) :
    operations.find? (·.name == operation.name) = some operation := by
  induction operations with
  | nil => contradiction
  | cons existing rest ih =>
      obtain ⟨new, distinct⟩ := List.nodup_cons.mp distinct
      rcases List.mem_cons.mp member with rfl | later
      · simp
      · have other : existing.name ≠ operation.name := by
          intro same
          exact new (same ▸ List.mem_map_of_mem later)
        rw [List.find?_cons_of_neg (by simpa using other), ih distinct later]

/-- Where names are distinct, an operation has one place. -/
theorem number_unique (distinct : (menu.operations.map Operation.name).Nodup) {other : Nat}
    (here : menu.byNumber? number = some operation)
    (there : menu.byNumber? other = some operation) : number = other := by
  obtain ⟨index, rfl, atIndex⟩ := byNumber?_eq_some_iff.mp here
  obtain ⟨place, rfl, atPlace⟩ := byNumber?_eq_some_iff.mp there
  have within : index < menu.operations.length := (List.getElem?_eq_some_iff.mp atIndex).1
  have same := (List.getElem?_inj within (distinct.of_map _)).mp (atIndex.trans atPlace.symm)
  rw [same]

theorem mem_list_iff {description : String} : (number, name, description) ∈ menu.list ↔
    ∃ operation, menu.byNumber? number = some operation ∧ operation.name = name ∧
      operation.description = description := by
  simp only [list, List.mem_map, Prod.exists, List.mk_mem_zipIdx_iff_le_and_getElem?_sub,
    byNumber?_eq_some_iff, Prod.mk.injEq]
  constructor
  · rintro ⟨operation, place, ⟨positive, here⟩, rfl, rfl, rfl⟩
    exact ⟨operation, ⟨place - 1, (Nat.sub_add_cancel positive).symm, here⟩, rfl, rfl⟩
  · rintro ⟨operation, ⟨index, rfl, here⟩, rfl, rfl⟩
    exact ⟨operation, index + 1, ⟨Nat.le_add_left 1 index, here⟩, rfl, rfl, rfl⟩

theorem get_eq_ok_iff_of_number (reads : readNumber? selector.trim = some number) :
    menu.get selector = .ok operation ↔ menu.byNumber? number = some operation := by
  simp only [get, reads]
  cases menu.byNumber? number <;> simp

theorem get_eq_ok_iff_of_name (reads : readNumber? selector.trim = none) :
    menu.get selector = .ok operation ↔ menu.byName? selector.trim = some operation := by
  simp only [get, reads]
  cases menu.byName? selector.trim <;> simp

theorem readNumber?_unsigned (unsigned : ∀ rest, selector ≠ '+' :: rest) :
    readNumber? selector =
      if selector.isEmpty ∨ ¬selector.all Text.isDigit then none
      else if Text.ofDigits selector < 2 ^ (64 : Nat) then some (Text.ofDigits selector)
      else none := by
  simp only [readNumber?]

theorem readNumber?_digits (fits : number < 2 ^ (64 : Nat)) :
    readNumber? (Text.digits number) = some number := by
  have digit : ∀ c ∈ Text.digits number, Text.isDigit c = true :=
    fun c => Text.isDigit_of_mem_digits
  have unsigned : ∀ rest, Text.digits number ≠ '+' :: rest := by
    intro rest signed
    exact absurd (digit '+' (signed ▸ List.mem_cons_self)) (by decide)
  have accepted : ¬((Text.digits number).isEmpty = true ∨
      ¬(Text.digits number).all Text.isDigit = true) := by
    rw [not_or, not_not, List.isEmpty_iff]
    exact ⟨Nat.toDigits_ne_nil, List.all_eq_true.mpr digit⟩
  rw [readNumber?_unsigned unsigned, if_neg accepted, Text.ofDigits_digits]
  exact if_pos fits

theorem trim_digits (number : Nat) : (Text.digits number).trim = Text.digits number := by
  have inked : ∀ c ∈ Text.digits number, Text.isBlank c = false :=
    fun c member => Text.not_isBlank_of_isDigit (Text.isDigit_of_mem_digits member)
  have nonempty : Text.digits number ≠ [] := Nat.toDigits_ne_nil
  exact Text.trim_eq_self (Text.startsInked_of_inked nonempty inked)
    (Text.endsInked_of_inked nonempty inked)

/-- Selecting what a menu lists.  An entry belongs to the operation registered last under its
name.  Its number chooses that operation.  Its name does so if it has no white space at its ends
and does not read as a number, or if the number that it reads as is the entry's own. -/
theorem get_listed {description : String}
    (listed : (number, name, description) ∈ (registered history).list) :
    ∃ operation, history.reverse.find? (·.name == name) = some operation ∧
      operation.description = description ∧
      (registered history).byNumber? number = some operation ∧
      (number < 2 ^ (64 : Nat) → (registered history).get (Text.digits number) = .ok operation) ∧
      ((registered history).get name.toList = .ok operation ↔
        readNumber? (Text.trim name.toList) = some number ∨
          readNumber? (Text.trim name.toList) = none ∧ Text.trim name.toList = name.toList) := by
  obtain ⟨operation, here, rfl, rfl⟩ := mem_list_iff.mp listed
  have distinct := nodup_registered history
  have named := find?_name distinct (mem_of_byNumber? here)
  refine ⟨operation, find?_registered history _ ▸ named, rfl, here, fun fits => ?_, ?_⟩
  · have reads := readNumber?_digits fits
    rw [← trim_digits] at reads
    exact (get_eq_ok_iff_of_number reads).mpr here
  cases reads : readNumber? (Text.trim operation.name.toList) with
  | some place =>
      rw [get_eq_ok_iff_of_number reads]
      have same : (registered history).byNumber? place = some operation ↔ place = number :=
        ⟨fun there => number_unique distinct there here, fun same => same ▸ here⟩
      simp [same]
  | none =>
      rw [get_eq_ok_iff_of_name reads, byName?]
      constructor
      · intro found
        have asked := List.find?_some found
        have whole := congrArg String.toList (beq_iff_eq.mp asked)
        rw [String.toList_ofList] at whole
        exact .inr ⟨rfl, whole.symm⟩
      · rintro (own | ⟨-, whole⟩)
        · contradiction
        · rwa [whole, String.ofList_toList]

theorem get_listed_replaced :
    let menu := registered [.transcript "7" "old", .transcript "tail" "last", .transcript "7" "new"]
    (2, "tail", "last") ∈ menu.list ∧
      ∃ operation, operation.description = "last" ∧ menu.get ['2'] = .ok operation ∧
        menu.get "tail".toList = .ok operation := by
  intro menu
  have listed : (2, "tail", "last") ∈ menu.list := by decide
  obtain ⟨operation, -, described, -, byNumber, byName⟩ := get_listed listed
  exact ⟨listed, operation, described, byNumber (by decide), byName.mpr (.inr (by decide))⟩

/-- A name that reads as another place, or that has white space at an end, is listed but not
found. -/
theorem get_unreachable_name :
    let numbered := registered [.transcript "7" "seven"]
    let padded := registered [.transcript " x" "ex"]
    (1, "7", "seven") ∈ numbered.list ∧
      numbered.get "7".toList = .error (.unknown ['7']) ∧
      (1, " x", "ex") ∈ padded.list ∧
      padded.get " x".toList = .error (.unknown ['x']) := by
  refine ⟨by decide, rfl, by decide, rfl⟩

/-- The numbers of a menu, each with the name that it stands for. -/
def numbering (menu : Menu) : List (Nat × String) :=
  menu.list.map fun (number, name, _) => (number, name)

theorem map_name_list (menu : Menu) :
    (menu.list.map fun (_, name, _) => name) = menu.operations.map Operation.name := by
  rw [list, List.map_map]
  calc (menu.operations.zipIdx 1).map (fun place => place.1.name)
      = ((menu.operations.zipIdx 1).map Prod.fst).map Operation.name := by rw [List.map_map]; rfl
    _ = menu.operations.map Operation.name := by rw [List.zipIdx_map_fst]

theorem map_number_list (menu : Menu) :
    menu.list.map Prod.fst = List.range' 1 menu.operations.length := by
  rw [list, List.map_map]
  exact List.zipIdx_map_snd 1 menu.operations

theorem numbering_eq (menu : Menu) :
    menu.numbering = ((menu.operations.map Operation.name).zipIdx 1).map Prod.swap := by
  rw [numbering, list, List.map_map, List.zipIdx_map, List.map_map]
  rfl

/-- The names before a registration are the first ones behind it. -/
theorem names_prefix_register (menu : Menu) (operation : Operation) :
    menu.operations.map Operation.name <+:
      (menu.register operation).operations.map Operation.name := by
  rw [register, names_insertNamed]
  split
  · exact List.prefix_rfl
  · exact List.prefix_append _ _

theorem numbering_prefix_register (menu : Menu) (operation : Operation) :
    menu.numbering <+: (menu.register operation).numbering := by
  obtain ⟨added, names⟩ := names_prefix_register menu operation
  rw [numbering_eq, numbering_eq, ← names, List.zipIdx_append, List.map_append]
  exact List.prefix_append _ _

theorem numbering_prefix_registered (history later : List Operation) :
    (registered history).numbering <+: (registered (history ++ later)).numbering := by
  induction later using List.reverseRecOn with
  | nil => exact ⟨[], by simp⟩
  | append_singleton later operation ih =>
      rw [← List.append_assoc, registered_append_singleton]
      exact ih.trans (numbering_prefix_register _ operation)

theorem eraseDups_append_singleton (names : List String) (name : String) :
    (names ++ [name]).eraseDups =
      if name ∈ names then names.eraseDups else names.eraseDups ++ [name] := by
  rw [List.eraseDups_append, List.removeAll]
  by_cases known : name ∈ names <;> simp [known, List.eraseDups_cons]

/-- The names of a menu are in the order of their first registration. -/
theorem names_registered (history : List Operation) :
    (registered history).operations.map Operation.name =
      (history.map Operation.name).eraseDups := by
  induction history using List.reverseRecOn with
  | nil => rfl
  | append_singleton history operation ih =>
      rw [registered_append_singleton, register, names_insertNamed, ih, List.map_append,
        List.map_singleton, eraseDups_append_singleton]
      simp only [List.mem_eraseDups]

/-- At the place of a name stands the operation that was registered last under it. -/
theorem operations_registered (history : List Operation) :
    (registered history).operations.map some =
      ((registered history).operations.map Operation.name).map fun name =>
        history.reverse.find? (·.name == name) := by
  rw [List.map_map]
  apply List.map_congr_left
  intro operation member
  have named := find?_name (nodup_registered history) member
  exact (find?_registered history operation.name ▸ named).symm

theorem byNumber?_eq_none_iff :
    menu.byNumber? number = none ↔ ¬(1 ≤ number ∧ number ≤ menu.operations.length) := by
  cases number with
  | zero => simp [byNumber?]
  | succ index =>
      rw [byNumber?, if_neg (Nat.succ_ne_zero index), List.getElem?_eq_none_iff]
      omega

theorem byName?_eq_none_iff : menu.byName? selector = none ↔
    String.ofList selector ∉ menu.operations.map Operation.name := by
  simp [byName?]

theorem get_eq_error_iff {error : OperationError} : menu.get selector = .error error ↔
    error = .unknown selector.trim ∧
      ((∃ number, readNumber? selector.trim = some number ∧ menu.byNumber? number = none) ∨
        readNumber? selector.trim = none ∧ menu.byName? selector.trim = none) := by
  rw [get]
  cases reads : readNumber? selector.trim with
  | some number => cases found : menu.byNumber? number <;> simp [found, eq_comm]
  | none => cases found : menu.byName? selector.trim <;> simp [eq_comm]

/-- What a menu lists after any history of registrations.  Its names are distinct, are those that
were registered, in the order of their first registration, and are numbered from one without gaps.
At the place of each name stands the operation that was registered last under it.  Whatever is
registered later, the numbers given so far stay with their names.  A selector finds nothing, and is
reported without the white space around it, exactly when it reads as a number that was not given,
or when it reads as no number and was not registered as a name. -/
theorem registered_numbered (history later : List Operation) (selector : Text)
    (error : OperationError) :
    let names := (registered history).list.map fun (_, name, _) => name
    names.Nodup ∧
    names = (history.map Operation.name).eraseDups ∧
    (registered history).list.map Prod.fst = List.range' 1 names.length ∧
    (registered history).operations.map some =
      names.map (fun name => history.reverse.find? (·.name == name)) ∧
    (registered history).numbering <+: (registered (history ++ later)).numbering ∧
    ((registered history).get selector = .error error ↔ error = .unknown selector.trim ∧
      ((∃ number, readNumber? selector.trim = some number ∧
          ¬(1 ≤ number ∧ number ≤ names.length)) ∨
        readNumber? selector.trim = none ∧
          String.ofList selector.trim ∉ history.map Operation.name)) := by
  simp only [map_name_list, List.length_map]
  refine ⟨nodup_registered history, names_registered history, map_number_list _,
    operations_registered history, numbering_prefix_registered history later, ?_⟩
  simp only [get_eq_error_iff, byNumber?_eq_none_iff, byName?_eq_none_iff, names_registered,
    List.mem_eraseDups]

example : (registered [.transcript "a" "old", .transcript "b" "", .transcript "a" "new"]).list =
    [(1, "a", "new"), (2, "b", "")] := by decide

end ProseTree.Menu
