import Mathlib.Data.List.DropRight
import Mathlib.Data.List.TakeWhile
import ProseTree.Text.WordChar

namespace ProseTree.Text

/-! The ink of a text, which is what is left of it when the white space is deleted, and the white
space around a text.

A text that is not all white space is two blank runs around a trimmed text, and a trimmed text
begins and ends with ink. -/

def ink (text : Text) : Text := text.filter (!isBlank ·)

variable {text left right : Text} {c : Char}

@[simp] theorem ink_nil : ink [] = [] := rfl

@[simp] theorem ink_append (left right : Text) : ink (left ++ right) = ink left ++ ink right :=
  List.filter_append ..

theorem ink_eq_nil (blank : ∀ c ∈ text, isBlank c = true) : ink text = [] := by
  refine List.filter_eq_nil_iff.mpr fun c member => ?_
  simp [blank c member]

theorem of_mem_take {p : Char → Bool} {count : Nat}
    (within : count ≤ (text.takeWhile p).length) (member : c ∈ text.take count) : p c = true := by
  rw [← List.takeWhile_append_dropWhile (p := p) (l := text),
    List.take_append_of_le_length within] at member
  exact List.mem_takeWhile_imp (List.mem_of_mem_take member)

theorem any_head?_dropWhile (p : Char → Bool) (text : Text) :
    (text.dropWhile p).head?.any p = false := by
  have stopped := List.head?_dropWhile_not p text
  cases dropped : text.dropWhile p with
  | nil => rfl
  | cons c rest => simpa [dropped] using stopped

/-- A text begins with a run of characters that have a property, and the run is as long as it
can be. -/
theorem exists_run (p : Char → Bool) (text : Text) : ∃ run rest, text = run ++ rest ∧
    (∀ c ∈ run, p c = true) ∧ rest.head?.any p = false :=
  ⟨text.takeWhile p, text.dropWhile p, List.takeWhile_append_dropWhile.symm,
    fun _ => List.mem_takeWhile_imp, any_head?_dropWhile p text⟩

theorem exists_nonempty_run {p : Char → Bool} (starts : text.head?.any p = true) :
    ∃ run rest, text = run ++ rest ∧ run ≠ [] ∧ (∀ c ∈ run, p c = true) ∧
      rest.head?.any p = false := by
  obtain ⟨run, rest, rfl, holds, stops⟩ := exists_run p text
  refine ⟨run, rest, rfl, ?_, holds, stops⟩
  rintro rfl
  rw [List.nil_append, stops] at starts
  contradiction

/-- No character of a text has a property, or there is a first one that has it. -/
theorem exists_first (p : Char → Bool) (text : Text) : (∀ c ∈ text, p c = false) ∨
    ∃ front c back, text = front ++ c :: back ∧ (∀ d ∈ front, p d = false) ∧ p c = true := by
  cases found : text.find? p with
  | none => exact .inl fun c member => by simpa using List.find?_eq_none.mp found c member
  | some c =>
      obtain ⟨holds, front, back, rfl, before⟩ := List.find?_eq_some_iff_append.mp found
      exact .inr ⟨front, c, back, rfl, by simpa using before, holds⟩

@[simp] theorem ink_trimStart (text : Text) : ink (trimStart text) = ink text := by
  have split := List.takeWhile_append_dropWhile (p := isBlank) (l := text)
  have front : ink (text.takeWhile isBlank) = [] := ink_eq_nil fun c => List.mem_takeWhile_imp
  have whole := congrArg ink split
  rw [ink_append, front, List.nil_append] at whole
  exact whole

theorem ink_reverse (text : Text) : ink text.reverse = (ink text).reverse :=
  List.filter_reverse ..

@[simp] theorem ink_trimEnd (text : Text) : ink (trimEnd text) = ink text := by
  have turned := ink_trimStart text.reverse
  rw [trimStart, ink_reverse] at turned
  rw [trimEnd, ink_reverse, turned, List.reverse_reverse]

@[simp] theorem ink_trim (text : Text) : ink (trim text) = ink text := by
  rw [trim, ink_trimEnd, ink_trimStart]

theorem mem_of_mem_trim (member : c ∈ trim text) : c ∈ text := by
  have inFront : c ∈ (trimStart text).reverse :=
    (List.dropWhile_sublist _).subset (List.mem_reverse.mp member)
  exact (List.dropWhile_sublist _).subset (List.mem_reverse.mp inFront)

def Blank (text : Text) : Prop := ∀ c ∈ text, isBlank c = true

def StartsInked (text : Text) : Prop := ∃ c rest, text = c :: rest ∧ isBlank c = false

def EndsInked (text : Text) : Prop := ∃ front c, text = front ++ [c] ∧ isBlank c = false

variable {front back blanks : Text}

/-- The code points of white space. -/
def blankCodes : List Nat :=
  [0x09, 0x0A, 0x0B, 0x0C, 0x0D, 0x20, 0x85, 0xA0, 0x1680, 0x2000, 0x2001, 0x2002, 0x2003,
    0x2004, 0x2005, 0x2006, 0x2007, 0x2008, 0x2009, 0x200A, 0x2028, 0x2029, 0x202F, 0x205F, 0x3000]

/-- What is true at every code point of white space is true of every blank. -/
theorem of_isBlank {P : Char → Prop} (each : ∀ code ∈ blankCodes, P (Char.ofNat code))
    (blank : isBlank c = true) : P c := by
  have code : c.toNat ∈ blankCodes := by
    simp only [isBlank, Bool.or_eq_true, Bool.and_eq_true, decide_eq_true_eq, beq_iff_eq] at blank
    simp only [blankCodes, List.mem_cons, List.not_mem_nil, or_false]
    omega
  have here := each _ code
  rwa [Char.ofNat_toNat] at here

theorem not_isWordChar_of_isBlank (blank : isBlank c = true) : isWordChar c = false := by
  have noWord : ∀ code ∈ blankCodes, isWordChar (Char.ofNat code) = false := by decide +kernel
  exact of_isBlank (P := (isWordChar · = false)) noWord blank

/-- Two kinds of characters are apart either way. -/
theorem apart_comm {p q : Char → Bool} (apart : p c = true → q c = false) (holds : q c = true) :
    p c = false := by
  rw [Bool.eq_false_iff]
  intro other
  rw [apart other] at holds
  contradiction

theorem blank_nil : Blank [] := List.forall_mem_nil _

theorem blank_cons : Blank (c :: text) ↔ isBlank c = true ∧ Blank text := List.forall_mem_cons

theorem blank_append : Blank (left ++ right) ↔ Blank left ∧ Blank right :=
  List.forall_mem_append

theorem blank_takeWhile (text : Text) : Blank (text.takeWhile isBlank) :=
  fun _ member => List.mem_takeWhile_imp member

theorem Blank.drop (blank : Blank text) (count : Nat) : Blank (text.drop count) :=
  fun c member => blank c (List.mem_of_mem_drop member)

theorem Blank.not_mem (blank : Blank text) (inked : isBlank c = false) : c ∉ text := by
  intro member
  rw [blank c member] at inked
  contradiction

theorem isBlankText_iff : isBlankText text = true ↔ Blank text := List.all_eq_true

instance (text : Text) : Decidable (Blank text) := decidable_of_iff _ isBlankText_iff

theorem StartsInked.append (starts : StartsInked left) (right : Text) :
    StartsInked (left ++ right) := by
  obtain ⟨c, rest, rfl, inked⟩ := starts
  exact ⟨c, rest ++ right, rfl, inked⟩

theorem EndsInked.append (ends : EndsInked right) (left : Text) : EndsInked (left ++ right) := by
  obtain ⟨front, c, rfl, inked⟩ := ends
  exact ⟨left ++ front, c, by simp, inked⟩

theorem EndsInked.of_append (ends : EndsInked (left ++ right)) (nonempty : right ≠ []) :
    EndsInked right := by
  obtain ⟨front, c, cut, inked⟩ := ends
  refine ⟨right.dropLast, right.getLast nonempty, (List.dropLast_append_getLast nonempty).symm, ?_⟩
  have last : (left ++ right).getLast? = some c := by simp [cut]
  rw [List.getLast?_append_of_ne_nil _ nonempty, List.getLast?_eq_some_getLast nonempty] at last
  rwa [Option.some.inj last]

theorem StartsInked.not_blank (starts : StartsInked text) : ¬Blank text := by
  obtain ⟨c, rest, rfl, inked⟩ := starts
  exact fun blank => blank.not_mem inked (by simp)

theorem EndsInked.exists_ink (ends : EndsInked text) : ∃ c ∈ text, isBlank c = false := by
  obtain ⟨front, c, rfl, inked⟩ := ends
  exact ⟨c, by simp, inked⟩

theorem EndsInked.not_blank (ends : EndsInked text) : ¬Blank text := by
  obtain ⟨front, c, rfl, inked⟩ := ends
  exact fun blank => blank.not_mem inked (by simp)

theorem EndsInked.ne_nil (ends : EndsInked text) : text ≠ [] := by
  obtain ⟨front, c, rfl, -⟩ := ends
  simp

/-- A text without blanks begins and ends with ink. -/
theorem startsInked_of_inked (nonempty : text ≠ []) (inked : ∀ c ∈ text, isBlank c = false) :
    StartsInked text := by
  obtain ⟨c, rest, rfl⟩ := List.exists_cons_of_ne_nil nonempty
  exact ⟨c, rest, rfl, inked c (by simp)⟩

theorem endsInked_of_inked (nonempty : text ≠ []) (inked : ∀ c ∈ text, isBlank c = false) :
    EndsInked text :=
  ⟨text.dropLast, text.getLast nonempty, (List.dropLast_append_getLast nonempty).symm,
    inked _ (List.getLast_mem nonempty)⟩

/-- A blank run is cut off completely when ink follows, or nothing. -/
theorem takeWhile_isBlank (blank : Blank blanks) (stops : text = [] ∨ StartsInked text) :
    (blanks ++ text).takeWhile isBlank = blanks := by
  rw [List.takeWhile_append_of_pos blank]
  rcases stops with rfl | ⟨c, rest, rfl, inked⟩
  · exact List.append_nil blanks
  · rw [List.takeWhile_cons_of_neg (by simp [inked]), List.append_nil]

theorem length_takeWhile_lt (inked : ∃ c ∈ text, isBlank c = false) :
    (text.takeWhile isBlank).length < text.length := by
  apply Nat.lt_of_le_of_ne (List.takeWhile_prefix isBlank).length_le
  intro same
  have whole := (List.takeWhile_prefix isBlank).eq_of_length same
  obtain ⟨c, member, isInk⟩ := inked
  rw [List.takeWhile_eq_self_iff.mp whole c member] at isInk
  contradiction

/-- The blank run at the head of a text with ink in it ends inside the text. -/
theorem takeWhile_append_of_ink (inked : ∃ c ∈ text, isBlank c = false) (right : Text) :
    (text ++ right).takeWhile isBlank = text.takeWhile isBlank := by
  rw [List.takeWhile_append, if_neg]
  exact Nat.ne_of_lt (length_takeWhile_lt inked)

theorem startsInked_dropWhile (text : Text) :
    text.dropWhile isBlank = [] ∨ StartsInked (text.dropWhile isBlank) := by
  cases dropped : text.dropWhile isBlank with
  | nil => exact .inl rfl
  | cons c rest =>
      have stopped := List.head?_dropWhile_not isBlank text
      rw [dropped] at stopped
      exact .inr ⟨c, rest, rfl, by simpa using stopped⟩

/-- A blank run in front of the first ink. -/
theorem exists_blank_front (text : Text) :
    ∃ blanks rest, text = blanks ++ rest ∧ Blank blanks ∧ (rest = [] ∨ StartsInked rest) :=
  ⟨text.takeWhile isBlank, text.dropWhile isBlank, List.takeWhile_append_dropWhile.symm,
    blank_takeWhile text, startsInked_dropWhile text⟩

/-- A blank run behind the last ink. -/
theorem exists_blank_back (text : Text) :
    ∃ front blanks, text = front ++ blanks ∧ Blank blanks ∧ (front = [] ∨ EndsInked front) := by
  obtain ⟨blanks, rest, cut, blank, stops⟩ := exists_blank_front text.reverse
  refine ⟨rest.reverse, blanks.reverse, ?_, fun c member => blank c (by simpa using member), ?_⟩
  · rw [← List.reverse_append, ← cut, List.reverse_reverse]
  · rcases stops with rfl | ⟨c, others, rfl, inked⟩
    · exact .inl rfl
    · exact .inr ⟨others.reverse, c, by simp, inked⟩

theorem StartsInked.exists_blank_back (starts : StartsInked text) : ∃ front blanks,
    text = front ++ blanks ∧ Blank blanks ∧ StartsInked front ∧ EndsInked front := by
  obtain ⟨front, blanks, rfl, blank, ends⟩ := Text.exists_blank_back text
  rcases ends with rfl | ends
  · exact absurd blank starts.not_blank
  · obtain ⟨c, others, cut, inked⟩ := starts
    obtain ⟨d, rest, rfl⟩ := List.exists_cons_of_ne_nil ends.ne_nil
    obtain ⟨rfl, -⟩ := List.cons.inj cut
    exact ⟨d :: rest, blanks, rfl, blank, ⟨d, rest, rfl, inked⟩, ends⟩

theorem trimStart_eq_self (starts : StartsInked text) : trimStart text = text := by
  obtain ⟨c, rest, rfl, inked⟩ := starts
  exact List.dropWhile_cons_of_neg (by simp [inked])

theorem trimEnd_eq_self (ends : EndsInked text) : trimEnd text = text := by
  obtain ⟨front, c, rfl, inked⟩ := ends
  exact List.rdropWhile_concat_neg isBlank front c (by simp [inked])

theorem trim_eq_self (starts : StartsInked text) (ends : EndsInked text) : trim text = text := by
  rw [trim, trimStart_eq_self starts, trimEnd_eq_self ends]

theorem trimStart_blank_append (blank : Blank blanks) (text : Text) :
    trimStart (blanks ++ text) = trimStart text :=
  List.dropWhile_append_of_pos blank

theorem trimEnd_append_blank (blank : Blank blanks) (text : Text) :
    trimEnd (text ++ blanks) = trimEnd text := by
  rw [trimEnd, trimEnd, List.reverse_append, List.dropWhile_append_of_pos]
  exact fun c member => blank c (by simpa using member)

theorem trim_blank_append (blank : Blank blanks) (text : Text) :
    trim (blanks ++ text) = trim text := by
  rw [trim, trim, trimStart_blank_append blank]

theorem trim_append_blank (blank : Blank blanks) (text : Text) :
    trim (text ++ blanks) = trim text := by
  obtain ⟨front, rest, rfl, blankFront, stops⟩ := exists_blank_front text
  rw [List.append_assoc, trim_blank_append blankFront, trim_blank_append blankFront]
  rcases stops with rfl | starts
  · have nothing := trimEnd_append_blank blank []
    simp only [List.nil_append, trim] at nothing ⊢
    rw [trimStart, List.dropWhile_eq_nil_iff.mpr blank]
    rfl
  · rw [trim, trim, trimStart_eq_self (starts.append blanks), trimStart_eq_self starts,
      trimEnd_append_blank blank]

/-- White space around a text that begins and ends with ink is what trimming drops. -/
theorem trim_around (blankFront : Blank front) (blankBack : Blank back) (starts : StartsInked text)
    (ends : EndsInked text) : trim (front ++ text ++ back) = text := by
  rw [trim_append_blank blankBack, trim_blank_append blankFront, trim_eq_self starts ends]

theorem blank_iff_ink_eq_nil : Blank text ↔ ink text = [] := by
  simp [Blank, ink, List.filter_eq_nil_iff]

theorem trim_eq_nil_iff : trim text = [] ↔ Blank text := by
  constructor
  · intro empty
    rw [blank_iff_ink_eq_nil, ← ink_trim, empty, ink_nil]
  · intro blank
    have nothing := trim_append_blank blank []
    rwa [List.nil_append] at nothing

/-- Every text that is not blank is its trimmed text with white space around it. -/
theorem exists_trim (inked : ¬Blank text) : ∃ front back, text = front ++ trim text ++ back ∧
    Blank front ∧ Blank back ∧ StartsInked (trim text) ∧ EndsInked (trim text) := by
  obtain ⟨front, rest, rfl, blankFront, stops⟩ := exists_blank_front text
  have starts : StartsInked rest := by
    rcases stops with rfl | starts
    · rw [List.append_nil] at inked
      exact absurd blankFront inked
    · exact starts
  obtain ⟨whole, back, rfl, blankBack, starts, ends⟩ := starts.exists_blank_back
  rw [← List.append_assoc, trim_around blankFront blankBack starts ends]
  exact ⟨front, back, rfl, blankFront, blankBack, starts, ends⟩

theorem EndsInked.trimStart (ends : EndsInked left) (right : Text) :
    trimStart (left ++ right) = trimStart left ++ right ∧ EndsInked (trimStart left) := by
  obtain ⟨blanks, rest, rfl, blank, stops⟩ := exists_blank_front left
  rcases stops with rfl | starts
  · rw [List.append_nil] at ends
    exact absurd blank ends.not_blank
  · rw [List.append_assoc, trimStart_blank_append blank, trimStart_blank_append blank,
      trimStart_eq_self starts, trimStart_eq_self (starts.append right)]
    obtain ⟨c, others, rfl, -⟩ := starts
    exact ⟨rfl, ends.of_append (List.cons_ne_nil c others)⟩

/-- Trimming what two texts enclose touches their outer ends only. -/
theorem trim_enclosed (ends : EndsInked left) (starts : StartsInked right) (text : Text) :
    trim (left ++ text ++ right) = trim left ++ text ++ trim right := by
  obtain ⟨kept, endsLeft⟩ := ends.trimStart (text ++ right)
  have whole : trim left = trimStart left := trimEnd_eq_self endsLeft
  obtain ⟨front, blanks, rfl, blank, startsFront, endsFront⟩ := starts.exists_blank_back
  rw [List.append_assoc, trim, kept, whole, trim_append_blank blank,
    trim_eq_self startsFront endsFront, ← List.append_assoc, ← List.append_assoc,
    trimEnd_append_blank blank, trimEnd_eq_self (endsFront.append _)]

end ProseTree.Text
