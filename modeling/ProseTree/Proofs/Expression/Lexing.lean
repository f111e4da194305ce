import Mathlib.Data.List.TakeWhile
import ProseTree.Proofs.Expression.Reading
import ProseTree.Proofs.Text.Blank

namespace ProseTree.Expression

/-! What terminals a text is made of, wherever the text stands.

Terminals of two texts that are put together stay as they are unless a number reaches
from one into the other. -/

def Terminal.ofChar? : Char → Option Terminal
  | '+' => some .plus
  | '-' => some .minus
  | '*' => some .star
  | '/' => some .slash
  | '(' => some .openParen
  | ')' => some .closeParen
  | _ => none

def startsNumeral (text : Text) : Bool := text.head?.any isNumeral

def endsNumeral (text : Text) : Bool := text.getLast?.any isNumeral

/-- No number token reaches from the left text into the right one. -/
def Apart (left right : Text) : Prop := endsNumeral left = true → startsNumeral right = false

inductive Lexes : Text → List Terminal → Prop where
  | done : Lexes [] []
  | gap {c : Char} {text : Text} {spelled : List Terminal} (isGap : isGap c = true)
      (rest : Lexes text spelled) : Lexes (c :: text) spelled
  | symbol {c : Char} {text : Text} {terminal : Terminal} {spelled : List Terminal}
      (found : Terminal.ofChar? c = some terminal) (rest : Lexes text spelled) :
      Lexes (c :: text) (terminal :: spelled)
  | numeral {run text : Text} {spelled : List Terminal} (nonempty : run ≠ [])
      (made : ∀ c ∈ run, isNumeral c = true) (stops : startsNumeral text = false)
      (rest : Lexes text spelled) : Lexes (run ++ text) (.numeral run :: spelled)

variable {text left right run : Text} {spelled : List Terminal} {c : Char} {terminal : Terminal}

theorem not_isGap_of_ofChar? (found : Terminal.ofChar? c = some terminal) : isGap c = false := by
  unfold Terminal.ofChar? at found
  split at found <;> first | contradiction | decide

theorem not_isNumeral_of_ofChar? (found : Terminal.ofChar? c = some terminal) :
    isNumeral c = false := by
  unfold Terminal.ofChar? at found
  split at found <;> first | contradiction | decide

theorem ofChar?_eq_none_of_isNumeral (numeral : isNumeral c = true) :
    Terminal.ofChar? c = none := by
  cases found : Terminal.ofChar? c with
  | none => rfl
  | some terminal =>
      rw [not_isNumeral_of_ofChar? found] at numeral
      contradiction

theorem not_isNumeral_of_isGap (gap : isGap c = true) : isNumeral c = false := by
  simp only [isGap, Bool.or_eq_true, beq_iff_eq] at gap
  rcases gap with (((rfl | rfl) | rfl) | rfl) | formFeed
  · decide
  · decide
  · decide
  · decide
  · obtain rfl : c = Char.ofNat 0x0C := by
      rw [← formFeed, Char.ofNat_toNat]
    decide

theorem not_isGap_of_isNumeral (numeral : isNumeral c = true) : isGap c = false := by
  cases gap : isGap c with
  | false => rfl
  | true =>
      rw [not_isNumeral_of_isGap gap] at numeral
      contradiction

theorem tokenKind_ofChar? (c : Char) :
    TokenKind.ofChar? c = (Terminal.ofChar? c).map Terminal.kind := by
  fun_cases Terminal.ofChar? c
  case case7 => simp_all [TokenKind.ofChar?]
  all_goals rfl

theorem not_isGap_of_single {kind : TokenKind} (single : TokenKind.ofChar? c = some kind) :
    isGap c = false := by
  rw [tokenKind_ofChar?] at single
  obtain ⟨terminal, isTerminal, -⟩ := Option.map_eq_some_iff.mp single
  exact not_isGap_of_ofChar? isTerminal

theorem not_isNumeral_of_single {kind : TokenKind} (single : TokenKind.ofChar? c = some kind) :
    isNumeral c = false := by
  rw [tokenKind_ofChar?] at single
  obtain ⟨terminal, isTerminal, -⟩ := Option.map_eq_some_iff.mp single
  exact not_isNumeral_of_ofChar? isTerminal

theorem terminal_of_kind (found : Terminal.ofChar? c = some terminal) (position : Nat) :
    Token.terminal ⟨terminal.kind, [c], position⟩ = terminal := by
  unfold Terminal.ofChar? at found
  split at found <;> first | contradiction | (obtain rfl := Option.some.inj found; rfl)

@[simp] theorem startsNumeral_cons (c : Char) (text : Text) :
    startsNumeral (c :: text) = isNumeral c := rfl

@[simp] theorem endsNumeral_append_singleton (text : Text) (c : Char) :
    endsNumeral (text ++ [c]) = isNumeral c := by
  simp [endsNumeral]

theorem endsNumeral_append (nonempty : right ≠ []) :
    endsNumeral (left ++ right) = endsNumeral right := by
  have last := List.getLast?_eq_some_getLast nonempty
  rw [endsNumeral, endsNumeral, List.getLast?_append, last]
  rfl

theorem endsNumeral_of_run (nonempty : run ≠ []) (made : ∀ c ∈ run, isNumeral c = true) :
    endsNumeral run = true := by
  rw [endsNumeral, List.getLast?_eq_some_getLast nonempty]
  exact made _ (List.getLast_mem nonempty)

theorem Apart.of_append (apart : Apart (left ++ run) right) : Apart run right := by
  intro ends
  apply apart
  have nonempty : run ≠ [] := by
    rintro rfl
    contradiction
  rwa [endsNumeral_append nonempty]

theorem tokensFrom_gap (isGap : isGap c = true) (position : Nat) (text : Text) :
    tokensFrom position (c :: text) = tokensFrom (position + c.utf8Size) text := by
  rw [tokensFrom, if_pos isGap]

theorem tokensFrom_symbol {kind : TokenKind} (single : TokenKind.ofChar? c = some kind)
    (position : Nat) (text : Text) : tokensFrom position (c :: text) =
      (tokensFrom (position + c.utf8Size) text).map (⟨kind, [c], position⟩ :: ·) := by
  rw [tokensFrom, not_isGap_of_single single, single]
  rfl

theorem takeWhile_run (made : ∀ c ∈ run, isNumeral c = true) (stops : startsNumeral text = false) :
    (run ++ text).takeWhile isNumeral = run := by
  rw [List.takeWhile_append_of_pos made]
  cases text with
  | nil => simp
  | cons d text => rw [List.takeWhile_cons_of_neg (by simpa using stops), List.append_nil]

theorem dropWhile_run (made : ∀ c ∈ run, isNumeral c = true) (stops : startsNumeral text = false) :
    (run ++ text).dropWhile isNumeral = text := by
  rw [List.dropWhile_append_of_pos made]
  cases text with
  | nil => rfl
  | cons d text => rw [List.dropWhile_cons_of_neg (by simpa using stops)]

theorem tokensFrom_run (nonempty : run ≠ []) (made : ∀ c ∈ run, isNumeral c = true)
    (stops : startsNumeral text = false) (position : Nat) : tokensFrom position (run ++ text) =
      (tokensFrom (position + Text.byteLength run) text).map (⟨.number, run, position⟩ :: ·) := by
  obtain ⟨c, run, rfl⟩ := List.exists_cons_of_ne_nil nonempty
  have numeral := made c (by simp)
  have kind : TokenKind.ofChar? c = none := by
    rw [tokenKind_ofChar?, ofChar?_eq_none_of_isNumeral numeral, Option.map_none]
  have madeRest : ∀ d ∈ run, isNumeral d = true := (List.forall_mem_cons.mp made).2
  rw [List.cons_append, tokensFrom, not_isGap_of_isNumeral numeral, kind, numeral]
  simp only [Bool.false_eq_true, if_false, if_true, takeWhile_run madeRest stops,
    dropWhile_run madeRest stops]

/-- The tokens of a text that begins at a byte position, one rule for each way it can begin. -/
inductive Tokenized : Nat → Text → List Token → Prop where
  | done {position : Nat} : Tokenized position [] []
  | gap {position : Nat} {c : Char} {text : Text} {found : List Token} (isGap : isGap c = true)
      (rest : Tokenized (position + c.utf8Size) text found) : Tokenized position (c :: text) found
  | symbol {position : Nat} {c : Char} {text : Text} {found : List Token} {kind : TokenKind}
      (single : TokenKind.ofChar? c = some kind)
      (rest : Tokenized (position + c.utf8Size) text found) :
      Tokenized position (c :: text) (⟨kind, [c], position⟩ :: found)
  | number {position : Nat} {run text : Text} {found : List Token} (nonempty : run ≠ [])
      (made : ∀ c ∈ run, isNumeral c = true) (stops : startsNumeral text = false)
      (rest : Tokenized (position + run.byteLength) text found) :
      Tokenized position (run ++ text) (⟨.number, run, position⟩ :: found)

namespace Tokenized

variable {position : Nat} {found : List Token}

theorem tokensFrom_eq (tokenized : Tokenized position text found) :
    tokensFrom position text = .ok found := by
  induction tokenized with
  | done => rw [tokensFrom]
  | gap isGap rest ih => rw [tokensFrom_gap isGap, ih]
  | symbol single rest ih =>
      rw [tokensFrom_symbol single, ih]
      rfl
  | number nonempty made stops rest ih =>
      rw [tokensFrom_run nonempty made stops, ih]
      rfl

/-- The text begins with a run of digits and points if its first character is one of them. -/
theorem number_head (numeral : isNumeral c = true)
    (rest : Tokenized (position + Text.byteLength (c :: text.takeWhile isNumeral))
      (text.dropWhile isNumeral) found) :
    Tokenized position (c :: text) (⟨.number, c :: text.takeWhile isNumeral, position⟩ :: found) := by
  have made : ∀ d ∈ c :: text.takeWhile isNumeral, isNumeral d = true :=
    List.forall_mem_cons.mpr ⟨numeral, fun d => List.mem_takeWhile_imp⟩
  have whole := number (List.cons_ne_nil _ _) made (Text.any_head?_dropWhile isNumeral text) rest
  rwa [List.cons_append, List.takeWhile_append_dropWhile] at whole

theorem of_tokensFrom (read : tokensFrom position text = .ok found) :
    Tokenized position text found := by
  fun_induction tokensFrom position text generalizing found with
  | case1 =>
      obtain rfl : [] = found := by simpa using read
      exact .done
  | case2 position c rest isGap ih => exact .gap isGap (ih read)
  | case3 position c rest notGap kind single ih =>
      cases tail : tokensFrom (position + c.utf8Size) rest with
      | error unexpected => simp [tail, Except.map] at read
      | ok others =>
          obtain rfl : _ = found := by simpa [tail, Except.map] using read
          exact .symbol single (ih tail)
  | case4 position c rest notGap notSymbol numeral slice =>
      rename_i ih
      cases tail : tokensFrom (position + slice.byteLength) (rest.dropWhile isNumeral) with
      | error unexpected => simp [tail, Except.map] at read
      | ok others =>
          obtain rfl : _ = found := by simpa [tail, Except.map] using read
          exact number_head numeral (ih tail)
  | case5 position c rest notGap notSymbol notNumeral => contradiction

theorem lexes (tokenized : Tokenized position text found) :
    Lexes text (found.map Token.terminal) := by
  induction tokenized with
  | done => exact .done
  | gap isGap rest ih => exact .gap isGap ih
  | @symbol position c text found kind single rest ih =>
      rw [tokenKind_ofChar?] at single
      obtain ⟨terminal, isTerminal, rfl⟩ := Option.map_eq_some_iff.mp single
      rw [List.map_cons, terminal_of_kind isTerminal]
      exact .symbol isTerminal ih
  | number nonempty made stops rest ih => exact .numeral nonempty made stops ih

end Tokenized

namespace Lexes

theorem append {front back : List Terminal} (first : Lexes left front) (second : Lexes right back)
    (apart : Apart left right) : Lexes (left ++ right) (front ++ back) := by
  induction first with
  | done => exact second
  | gap isGap rest ih => exact .gap isGap (ih (@Apart.of_append [_] _ _ apart))
  | symbol found rest ih => exact .symbol found (ih (@Apart.of_append [_] _ _ apart))
  | @numeral run text spelled nonempty made stops rest ih =>
      rw [List.append_assoc]
      refine .numeral nonempty made ?_ (ih apart.of_append)
      cases text with
      | nil => exact apart (by simpa using endsNumeral_of_run nonempty made)
      | cons c text => exact stops

/-- Every character belongs to a gap, to a number, or is a terminal by itself. -/
theorem head_cases {whole : Text} (lexes : Lexes whole spelled) (head : whole.head? = some c) :
    isGap c = true ∨ isNumeral c = true ∨ ∃ terminal, Terminal.ofChar? c = some terminal := by
  cases lexes with
  | done => contradiction
  | gap isGap rest =>
      obtain rfl := Option.some.inj head
      exact .inl isGap
  | symbol found rest =>
      obtain rfl := Option.some.inj head
      exact .inr (.inr ⟨_, found⟩)
  | @numeral run text spelled nonempty made stops rest =>
      obtain ⟨d, run, rfl⟩ := List.exists_cons_of_ne_nil nonempty
      obtain rfl := Option.some.inj head
      exact .inr (.inl (made d (by simp)))

theorem mem_cases (lexes : Lexes text spelled) (member : terminal ∈ spelled) :
    (∃ run, terminal = .numeral run) ∨ ∃ c ∈ text, Terminal.ofChar? c = some terminal := by
  induction lexes with
  | done => contradiction
  | gap isGap rest ih =>
      rcases ih member with numeral | ⟨c, inText, found⟩
      · exact .inl numeral
      · exact .inr ⟨c, by simp [inText], found⟩
  | @symbol c text own spelled found rest ih =>
      rcases List.mem_cons.mp member with rfl | later
      · exact .inr ⟨c, by simp, found⟩
      · rcases ih later with numeral | ⟨d, inText, found⟩
        · exact .inl numeral
        · exact .inr ⟨d, by simp [inText], found⟩
  | @numeral run text spelled nonempty made stops rest ih =>
      rcases List.mem_cons.mp member with rfl | later
      · exact .inl ⟨run, rfl⟩
      · rcases ih later with numeral | ⟨d, inText, found⟩
        · exact .inl numeral
        · exact .inr ⟨d, by simp [inText], found⟩

/-- A text that is cut apart is cut between two of its terminals. -/
theorem split {whole : Text} (lexes : Lexes whole spelled) (cut : whole = left ++ right)
    (apart : Apart left right) :
    ∃ front back, spelled = front ++ back ∧ Lexes left front ∧ Lexes right back := by
  induction lexes generalizing left with
  | done =>
      obtain ⟨rfl, rfl⟩ := List.append_eq_nil_iff.mp cut.symm
      exact ⟨[], [], rfl, .done, .done⟩
  | gap isGap rest ih =>
      cases left with
      | nil =>
          obtain rfl : _ = right := cut
          exact ⟨[], _, rfl, .done, .gap isGap rest⟩
      | cons d left =>
          obtain ⟨rfl, tail⟩ := List.cons.inj cut
          obtain ⟨front, back, rfl, inLeft, inRight⟩ := ih tail (@Apart.of_append [_] _ _ apart)
          exact ⟨front, back, rfl, .gap isGap inLeft, inRight⟩
  | symbol found rest ih =>
      cases left with
      | nil =>
          obtain rfl : _ = right := cut
          exact ⟨[], _, rfl, .done, .symbol found rest⟩
      | cons d left =>
          obtain ⟨rfl, tail⟩ := List.cons.inj cut
          obtain ⟨front, back, rfl, inLeft, inRight⟩ := ih tail (@Apart.of_append [_] _ _ apart)
          exact ⟨_ :: front, back, rfl, .symbol found inLeft, inRight⟩
  | @numeral run text spelled nonempty made stops rest ih =>
      rcases List.append_eq_append_iff.mp cut with ⟨more, rfl, tail⟩ | ⟨more, rfl, rfl⟩
      · obtain ⟨front, back, rfl, inLeft, inRight⟩ := ih tail apart.of_append
        refine ⟨_ :: front, back, rfl, .numeral nonempty made ?_ inLeft, inRight⟩
        cases more with
        | nil => rfl
        | cons d more =>
            rw [tail] at stops
            exact stops
      · by_cases noLeft : left = []
        · subst noLeft
          exact ⟨[], _, rfl, .done, .numeral nonempty made stops rest⟩
        · have ends := endsNumeral_of_run noLeft fun c member => made c (by simp [member])
          cases more with
          | nil =>
              have whole : Lexes (left ++ []) [.numeral left] :=
                .numeral noLeft (fun c member => made c (by simp [member])) rfl .done
              rw [List.append_nil] at whole
              exact ⟨[.numeral (left ++ [])], spelled, rfl, by simpa using whole, rest⟩
          | cons d more =>
              have starts := apart ends
              rw [List.cons_append, startsNumeral_cons, made d (by simp)] at starts
              contradiction

theorem of_tokensFrom {position : Nat} {found : List Token}
    (read : tokensFrom position text = .ok found) : Lexes text (found.map Token.terminal) :=
  (Tokenized.of_tokensFrom read).lexes

theorem exists_tokenized (lexes : Lexes text spelled) (position : Nat) :
    ∃ found, Tokenized position text found ∧ found.map Token.terminal = spelled := by
  induction lexes generalizing position with
  | done => exact ⟨[], .done, rfl⟩
  | @gap c text spelled isGap rest ih =>
      obtain ⟨found, tokenized, same⟩ := ih (position + c.utf8Size)
      exact ⟨found, .gap isGap tokenized, same⟩
  | @symbol c text terminal spelled isTerminal rest ih =>
      obtain ⟨found, tokenized, same⟩ := ih (position + c.utf8Size)
      have single : TokenKind.ofChar? c = some terminal.kind := by
        rw [tokenKind_ofChar?, isTerminal, Option.map_some]
      refine ⟨⟨terminal.kind, [c], position⟩ :: found, .symbol single tokenized, ?_⟩
      rw [List.map_cons, terminal_of_kind isTerminal, same]
  | @numeral run text spelled nonempty made stops rest ih =>
      obtain ⟨found, tokenized, same⟩ := ih (position + run.byteLength)
      refine ⟨⟨.number, run, position⟩ :: found, .number nonempty made stops tokenized, ?_⟩
      rw [List.map_cons, same]
      rfl

theorem tokensFrom_eq (lexes : Lexes text spelled) (position : Nat) :
    ∃ found, tokensFrom position text = .ok found ∧ found.map Token.terminal = spelled := by
  obtain ⟨found, tokenized, same⟩ := lexes.exists_tokenized position
  exact ⟨found, tokenized.tokensFrom_eq, same⟩

theorem unique {others : List Terminal} (first : Lexes text spelled)
    (second : Lexes text others) : spelled = others := by
  obtain ⟨found, read, rfl⟩ := first.tokensFrom_eq 0
  obtain ⟨found', read', rfl⟩ := second.tokensFrom_eq 0
  rw [read] at read'
  rw [Except.ok.inj read']

end Lexes

end ProseTree.Expression
