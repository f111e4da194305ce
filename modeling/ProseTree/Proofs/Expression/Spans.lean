import Mathlib.Data.List.Sort
import ProseTree.Proofs.Expression.Understood

namespace ProseTree

/-! Where the tokens of a text stand.

The spans of the tokens and the gaps between them lay the text out without overlap.  A token is
a character of its own or a run of digits and points that goes on to neither side, and all of
these are tokens, so the spans determine the tokens.  A text without tokens is answered with its
first foreign character. -/

namespace Text

/-- The bytes of a text in UTF-8. -/
def bytes (text : Text) : List UInt8 := text.flatMap String.utf8EncodeChar

@[simp] theorem bytes_append (left right : Text) :
    bytes (left ++ right) = bytes left ++ bytes right :=
  List.flatMap_append

@[simp] theorem length_bytes (text : Text) : (bytes text).length = byteLength text := by
  induction text with
  | nil => rfl
  | cons c rest ih =>
      rw [bytes, List.flatMap_cons, List.length_append, String.length_utf8EncodeChar, byteLength]
      exact congrArg (c.utf8Size + ·) ih

theorem extract_bytes (before middle behind : Text) :
    (bytes (before ++ (middle ++ behind))).extract (byteLength before)
      (byteLength before + byteLength middle) = bytes middle := by
  rw [bytes_append, bytes_append, List.extract_eq_take_drop, Nat.add_sub_cancel_left,
    ← length_bytes before, List.drop_left, ← length_bytes middle, List.take_left]

theorem byteLength_pos {text : Text} (nonempty : text ≠ []) : 0 < byteLength text := by
  obtain ⟨c, rest, rfl⟩ := List.exists_cons_of_ne_nil nonempty
  exact Nat.add_pos_left c.utf8Size_pos _

/-- A byte position is a place between two characters at most once. -/
theorem append_inj_of_byteLength {before behind other rest : Text}
    (same : before ++ behind = other ++ rest) (position : byteLength before = byteLength other) :
    before = other := by
  rcases List.append_eq_append_iff.mp same with ⟨more, rfl, -⟩ | ⟨more, rfl, -⟩
  all_goals
    by_cases none : more = []
    · simp [none]
    · have positive := byteLength_pos none
      rw [byteLength_append] at position
      omega

end Text

namespace Expression

open Text

variable {position : Nat} {text before behind run : Text} {found others : List Token}
  {token : Token} {kind : TokenKind} {c : Char}

/-- What makes a token of the slice between two texts: it is a character that is a token by
itself, or a run of digits and points that goes on to neither side. -/
inductive Token.Whole (token : Token) (before behind : Text) : Prop where
  | symbol {c : Char} (slice : token.slice = [c]) (single : TokenKind.ofChar? c = some token.kind)
  | number (kind : token.kind = .number) (nonempty : token.slice ≠ [])
      (made : ∀ c ∈ token.slice, isNumeral c = true) (begins : endsNumeral before = false)
      (stops : startsNumeral behind = false)

/-- The token is part of a text that begins at a byte position. -/
def Token.StandsIn (token : Token) (position : Nat) (text : Text) : Prop :=
  ∃ before behind, text = before ++ (token.slice ++ behind) ∧
    token.start = position + byteLength before ∧ token.Whole before behind

theorem ofChar?_of_isGap (gap : isGap c = true) : TokenKind.ofChar? c = none := by
  cases single : TokenKind.ofChar? c with
  | none => rfl
  | some kind =>
      rw [not_isGap_of_single single] at gap
      contradiction

theorem kind_ne_number (single : TokenKind.ofChar? c = some kind) : kind ≠ .number := by
  rintro rfl
  unfold TokenKind.ofChar? at single
  split at single <;> contradiction

theorem endsNumeral_cons (notNumeral : isNumeral c = false) (text : Text) :
    endsNumeral (c :: text) = endsNumeral text := by
  cases text with
  | nil => exact notNumeral
  | cons d rest => exact @endsNumeral_append [c] (d :: rest) (List.cons_ne_nil d rest)

theorem Token.Whole.nonempty (whole : token.Whole before behind) : token.slice ≠ [] := by
  cases whole with
  | symbol slice single => simp [slice]
  | number kind nonempty made begins stops => exact nonempty

/-- Whether a slice is a token depends on its sides only as far as digits and points go. -/
theorem Token.Whole.congr {other : Text} (whole : token.Whole before behind)
    (same : endsNumeral before = false → endsNumeral other = false) :
    token.Whole other behind := by
  cases whole with
  | symbol slice single => exact .symbol slice single
  | number kind nonempty made begins stops => exact .number kind nonempty made (same begins) stops

theorem Token.StandsIn.position_le (stands : token.StandsIn position text) :
    position ≤ token.start := by
  obtain ⟨before, behind, -, start, -⟩ := stands
  omega

theorem Token.not_standsIn_nil : ¬token.StandsIn position [] := by
  rintro ⟨before, behind, split, -, whole⟩
  exact whole.nonempty (List.append_eq_nil_iff.mp (List.append_eq_nil_iff.mp split.symm).2).1

theorem Token.standsIn_cons_iff (notNumeral : isNumeral c = false) :
    token.StandsIn position (c :: text) ↔
      (TokenKind.ofChar? c = some token.kind ∧ token.slice = [c] ∧ token.start = position) ∨
        token.StandsIn (position + c.utf8Size) text := by
  constructor
  · rintro ⟨before, behind, split, start, whole⟩
    cases before with
    | nil =>
        refine .inl ?_
        rw [List.nil_append] at split
        cases whole with
        | symbol slice single =>
            rw [slice] at split
            obtain ⟨rfl, -⟩ := List.cons.inj split
            exact ⟨single, slice, start⟩
        | number kind nonempty made begins stops =>
            obtain ⟨d, run, slice⟩ := List.exists_cons_of_ne_nil nonempty
            rw [slice] at split made
            obtain ⟨rfl, -⟩ := List.cons.inj split
            rw [made c (by simp)] at notNumeral
            contradiction
    | cons d before =>
        rw [List.cons_append] at split
        obtain ⟨rfl, rfl⟩ := List.cons.inj split
        refine .inr ⟨before, behind, rfl, by rw [start, byteLength, Nat.add_assoc], ?_⟩
        exact whole.congr fun begins => by rwa [endsNumeral_cons notNumeral] at begins
  · rintro (⟨single, slice, start⟩ | ⟨before, behind, rfl, start, whole⟩)
    · exact ⟨[], text, by rw [slice]; rfl, start, .symbol slice single⟩
    · refine ⟨c :: before, behind, rfl, by rw [start, byteLength, Nat.add_assoc], ?_⟩
      exact whole.congr fun begins => by rwa [endsNumeral_cons notNumeral]

theorem startsNumeral_append (nonempty : run ≠ []) (made : ∀ c ∈ run, isNumeral c = true)
    (text : Text) : startsNumeral (run ++ text) = true := by
  obtain ⟨c, rest, rfl⟩ := List.exists_cons_of_ne_nil nonempty
  exact made c (by simp)

theorem Token.standsIn_run_iff (nonempty : run ≠ []) (made : ∀ c ∈ run, isNumeral c = true)
    (stops : startsNumeral text = false) : token.StandsIn position (run ++ text) ↔
      token = ⟨.number, run, position⟩ ∨ token.StandsIn (position + byteLength run) text := by
  constructor
  · rintro ⟨before, behind, split, start, whole⟩
    rcases List.append_eq_append_iff.mp split with ⟨more, rfl, rfl⟩ | ⟨more, rfl, same⟩
    · refine .inr ⟨more, behind, rfl, by rw [start, byteLength_append, Nat.add_assoc], ?_⟩
      refine whole.congr fun begins => ?_
      by_cases none : more = []
      · rw [none]
        rfl
      · rwa [endsNumeral_append none] at begins
    · by_cases none : more = []
      · subst none
        refine .inr ⟨[], behind, same.symm, ?_, whole.congr fun _ => rfl⟩
        rw [List.append_nil, start]
        rfl
      · -- The token begins inside the run, so it is the run.
        have madeMore : ∀ c ∈ more, isNumeral c = true := fun c member => made c (by simp [member])
        have starts := startsNumeral_append none madeMore text
        rw [← same] at starts
        cases whole with
        | symbol slice single =>
            rw [slice, List.singleton_append, startsNumeral_cons,
              not_isNumeral_of_single single] at starts
            contradiction
        | number kind some madeSlice begins stopsBehind =>
            have atHead : before = [] := by
              by_contra inside
              rw [endsNumeral_of_run inside fun c member => made c (by simp [member])] at begins
              contradiction
            subst atHead
            have slice : token.slice = more := by
              rw [← takeWhile_run madeSlice stopsBehind, same, takeWhile_run madeMore stops]
            refine .inl ?_
            rw [List.nil_append, ← slice, ← kind, show position = token.start from start.symm]
  · rintro (rfl | ⟨before, behind, rfl, start, whole⟩)
    · exact ⟨[], text, rfl, rfl, .number rfl nonempty made rfl stops⟩
    · refine ⟨run ++ before, behind, by simp, ?_, ?_⟩
      · rw [start, byteLength_append, Nat.add_assoc]
      · cases whole with
        | symbol slice single => exact .symbol slice single
        | number kind some madeSlice begins stopsBehind =>
            have apart : before ≠ [] := by
              rintro rfl
              rw [List.nil_append, startsNumeral_append some madeSlice] at stops
              contradiction
            refine .number kind some madeSlice ?_ stopsBehind
            rwa [endsNumeral_append apart]

/-- The tokens of a text are all the tokens that are part of it. -/
theorem Tokenized.mem_iff (tokenized : Tokenized position text found) (token : Token) :
    token ∈ found ↔ token.StandsIn position text := by
  induction tokenized with
  | done => simp [Token.not_standsIn_nil]
  | gap isGap rest ih =>
      have none := ofChar?_of_isGap isGap
      rw [Token.standsIn_cons_iff (not_isNumeral_of_isGap isGap), ih, none]
      simp
  | @symbol position c text found kind single rest ih =>
      rw [Token.standsIn_cons_iff (not_isNumeral_of_single single), List.mem_cons, ih, single,
        Option.some.injEq]
      refine or_congr_left ⟨?_, ?_⟩
      · rintro rfl
        exact ⟨rfl, rfl, rfl⟩
      · rintro ⟨rfl, slice, rfl⟩
        rw [← slice]
  | number nonempty made stops rest ih =>
      rw [Token.standsIn_run_iff nonempty made stops, List.mem_cons, ih]

/-- The span of the token ends where that of the later one begins, or before. -/
def Token.Before (token later : Token) : Prop :=
  token.start < token.stop ∧ token.stop ≤ later.start

/-- The byte position is inside the span of the token. -/
def Token.Covers (token : Token) (position : Nat) : Prop :=
  token.start ≤ position ∧ position < token.stop

theorem Token.start_lt_stop (nonempty : token.slice ≠ []) : token.start < token.stop :=
  Nat.lt_add_of_pos_right (byteLength_pos nonempty)

theorem Token.covers_start (nonempty : token.slice ≠ []) : token.Covers token.start :=
  ⟨Nat.le_refl token.start, Token.start_lt_stop nonempty⟩

theorem Token.not_covers_of_stop_le (ended : token.stop ≤ position) : ¬token.Covers position :=
  fun covers => Nat.not_lt.mpr ended covers.2

theorem Token.StandsIn.start_lt_stop (stands : token.StandsIn position text) :
    token.start < token.stop := by
  obtain ⟨before, behind, -, -, whole⟩ := stands
  exact Token.start_lt_stop whole.nonempty

theorem Tokenized.position_le (tokenized : Tokenized position text found) :
    ∀ token ∈ found, position ≤ token.start :=
  fun token member => ((tokenized.mem_iff token).mp member).position_le

theorem Tokenized.pairwise_before (tokenized : Tokenized position text found) :
    found.Pairwise Token.Before := by
  induction tokenized with
  | done => exact .nil
  | gap isGap rest ih => exact ih
  | @symbol position c text found kind single rest ih =>
      refine List.pairwise_cons.mpr ⟨fun later member => ?_, ih⟩
      exact ⟨Token.start_lt_stop (List.cons_ne_nil c []), rest.position_le later member⟩
  | number nonempty made stops rest ih =>
      refine List.pairwise_cons.mpr ⟨fun later member => ?_, ih⟩
      exact ⟨Token.start_lt_stop nonempty, rest.position_le later member⟩

theorem Tokenized.flatten_slices (tokenized : Tokenized position text found) :
    (found.map Token.slice).flatten = text.filter (!isGap ·) := by
  induction tokenized with
  | done => rfl
  | gap isGap rest ih => simp [isGap, ih]
  | symbol single rest ih => simp [not_isGap_of_single single, ih]
  | @number position run text found nonempty made stops rest ih =>
      have kept : run.filter (!isGap ·) = run :=
        List.filter_eq_self.mpr fun c member => by simp [not_isGap_of_isNumeral (made c member)]
      simp [kept, ih]

theorem Tokenized.not_covers (tokenized : Tokenized position text found) {place : Nat}
    (earlier : place < position) : ∀ token ∈ found, ¬token.Covers place := by
  intro token member covers
  have later := tokenized.position_le token member
  have within := covers.1
  omega

/-- The spans leave out the gaps, and nothing else. -/
theorem Tokenized.isGap_iff (tokenized : Tokenized position text found) :
    ∀ before c behind, text = before ++ c :: behind →
      (isGap c = true ↔ ∀ token ∈ found, ¬token.Covers (position + byteLength before)) := by
  induction tokenized with
  | done => simp
  | @gap position d text found isGap rest ih =>
      intro before c behind split
      cases before with
      | nil =>
          obtain ⟨rfl, -⟩ := List.cons.inj split
          exact iff_of_true isGap (rest.not_covers (Nat.lt_add_of_pos_right d.utf8Size_pos))
      | cons e before =>
          obtain ⟨rfl, rfl⟩ := List.cons.inj split
          rw [byteLength, ← Nat.add_assoc]
          exact ih before c behind rfl
  | @symbol position d text found kind single rest ih =>
      intro before c behind split
      rw [List.forall_mem_cons]
      cases before with
      | nil =>
          obtain ⟨rfl, -⟩ := List.cons.inj split
          exact iff_of_false (by simp [not_isGap_of_single single]) fun none =>
            none.1 (Token.covers_start (List.cons_ne_nil d []))
      | cons e before =>
          obtain ⟨rfl, rfl⟩ := List.cons.inj split
          have passed : ¬Token.Covers ⟨kind, [d], position⟩
              (position + d.utf8Size + byteLength before) :=
            Token.not_covers_of_stop_le (Nat.le_add_right (position + d.utf8Size) _)
          rw [byteLength, ← Nat.add_assoc, and_iff_right passed]
          exact ih before c behind rfl
  | @number position run text found nonempty made stops rest ih =>
      intro before c behind split
      rw [List.forall_mem_cons]
      have beyond : ∀ more, before = run ++ more → text = more ++ c :: behind →
          (isGap c = true ↔ ¬Token.Covers ⟨.number, run, position⟩ (position + byteLength before) ∧
            ∀ token ∈ found, ¬token.Covers (position + byteLength before)) := by
        rintro more rfl splitText
        have passed : ¬Token.Covers ⟨.number, run, position⟩
            (position + byteLength run + byteLength more) :=
          Token.not_covers_of_stop_le (Nat.le_add_right (position + byteLength run) _)
        rw [byteLength_append, ← Nat.add_assoc, and_iff_right passed]
        exact ih more c behind splitText
      rcases List.append_eq_append_iff.mp split with ⟨more, same, splitText⟩ | ⟨more, same, splitRest⟩
      · exact beyond more same splitText
      · cases more with
        | nil => exact beyond [] (by rw [same]; simp) splitRest.symm
        | cons d more =>
            obtain ⟨rfl, -⟩ := List.cons.inj splitRest
            have numeral := made c (by simp [same])
            refine iff_of_false (by simp [not_isGap_of_isNumeral numeral]) fun none =>
              none.1 ⟨Nat.le_add_right position _, ?_⟩
            have size := c.utf8Size_pos
            simp only [Token.stop, same, byteLength_append, byteLength]
            omega

/-- Two numbers do not touch: they would be one. -/
theorem Token.StandsIn.stop_ne_start {later : Token} (stands : token.StandsIn position text)
    (laterStands : later.StandsIn position text) (number : token.kind = .number)
    (laterNumber : later.kind = .number) : token.stop ≠ later.start := by
  intro touch
  obtain ⟨before, behind, split, start, whole⟩ := stands
  obtain ⟨front, back, rfl, laterStart, laterWhole⟩ := laterStands
  cases whole with
  | symbol slice single => exact kind_ne_number single number
  | number kind nonempty made begins stops =>
      cases laterWhole with
      | symbol slice single => exact kind_ne_number single laterNumber
      | number laterKind laterNonempty laterMade laterBegins laterStops =>
          have same : front = before ++ token.slice := by
            refine append_inj_of_byteLength (split.trans (List.append_assoc ..).symm) ?_
            rw [byteLength_append]
            rw [Token.stop, start, laterStart] at touch
            omega
          rw [same, endsNumeral_append nonempty, endsNumeral_of_run nonempty made] at laterBegins
          contradiction

/-- The spans of the tokens lay a text out. -/
structure Tiles (text : Text) (found : List Token) : Prop where
  ordered : found.Pairwise Token.Before
  /-- The tokens are those that are part of the text, each between two of its characters. -/
  members : ∀ token, token ∈ found ↔ token.StandsIn 0 text
  /-- No span is empty, and the slice is what has its bytes. -/
  cut : ∀ token ∈ found, token.start < token.stop ∧
    (bytes text).extract token.start token.stop = bytes token.slice
  /-- What no span covers, before, between and after them, is the gaps. -/
  gaps : ∀ before c behind, text = before ++ c :: behind →
    (isGap c = true ↔ ∀ token ∈ found, ¬token.Covers (byteLength before))
  apart : ∀ token ∈ found, ∀ later ∈ found, token.kind = .number → later.kind = .number →
    token.stop ≠ later.start
  joined : (found.map Token.slice).flatten = text.filter (!isGap ·)

theorem Token.StandsIn.extract_bytes (stands : token.StandsIn 0 text) :
    (bytes text).extract token.start token.stop = bytes token.slice := by
  obtain ⟨before, behind, rfl, start, -⟩ := stands
  rw [Nat.zero_add] at start
  rw [Token.stop, start]
  exact Text.extract_bytes before token.slice behind

theorem Tokenized.tiles (tokenized : Tokenized 0 text found) : Tiles text found where
  ordered := tokenized.pairwise_before
  members := tokenized.mem_iff
  cut token member :=
    have stands := (tokenized.mem_iff token).mp member
    ⟨stands.start_lt_stop, stands.extract_bytes⟩
  gaps := by simpa using tokenized.isGap_iff
  apart token member later laterMember :=
    ((tokenized.mem_iff token).mp member).stop_ne_start ((tokenized.mem_iff later).mp laterMember)
  joined := tokenized.flatten_slices

theorem Token.Whole.not_isForeign (whole : token.Whole before behind) :
    ∀ c ∈ token.slice, isForeign c = false := by
  cases whole with
  | @symbol d slice single =>
      rw [slice, List.forall_mem_singleton]
      by_contra foreign
      rw [ofChar?_of_isForeign (by simpa using foreign)] at single
      contradiction
  | number kind nonempty made begins stops =>
      exact fun c member => not_isForeign_of_isNumeral (made c member)

theorem Tiles.not_isForeign (tiles : Tiles text found) : ∀ c ∈ text, isForeign c = false := by
  intro c member
  cases gap : isGap c with
  | true => simp [isForeign, gap]
  | false =>
      have inked : c ∈ text.filter (!isGap ·) := List.mem_filter.mpr ⟨member, by simp [gap]⟩
      rw [← tiles.joined] at inked
      obtain ⟨slice, isSlice, inSlice⟩ := List.mem_flatten.mp inked
      obtain ⟨token, isToken, rfl⟩ := List.mem_map.mp isSlice
      obtain ⟨before, behind, -, -, whole⟩ := (tiles.members token).mp isToken
      exact whole.not_isForeign c inSlice

theorem Tiles.unique (tiles : Tiles text found) (tilesOthers : Tiles text others) :
    found = others := by
  have irrefl : Std.Irrefl Token.Before := ⟨fun token before => by
    have start := before.1
    have stop := before.2
    omega⟩
  have antisymm : Std.Antisymm Token.Before := ⟨fun token later before behind => by
    have start := before.1
    have stop := before.2
    have laterStart := behind.1
    have laterStop := behind.2
    omega⟩
  refine tiles.ordered.eq_of_mem_iff tilesOthers.ordered fun token => ?_
  rw [tiles.members, tilesOthers.members]

theorem Tiles.tokens_eq (tiles : Tiles text found) : tokens text = .ok found := by
  obtain ⟨known, tokenized⟩ := exists_tokenized tiles.not_isForeign 0
  rw [tiles.unique tokenized.tiles]
  exact tokenized.tokensFrom_eq

/-- The characters of which expressions are made, besides the gaps. -/
def ownChars : Text :=
  ['0', '1', '2', '3', '4', '5', '6', '7', '8', '9', '.', '+', '-', '*', '/', '(', ')']

theorem mem_ownChars_of_isDigit (digit : isDigit c = true) : c ∈ ownChars := by
  have bounds : '0' ≤ c ∧ c ≤ '9' := by simpa [isDigit] using digit
  have range : 48 ≤ c.toNat ∧ c.toNat ≤ 57 := ⟨bounds.1, bounds.2⟩
  have each : ∀ code ∈ List.range' 48 10, Char.ofNat code ∈ ownChars := by decide
  rw [← Char.ofNat_toNat c]
  exact each _ (List.mem_range'_1.mpr (by omega))

theorem isForeign_eq_false_iff : isForeign c = false ↔ isGap c = true ∨ c ∈ ownChars := by
  constructor
  · intro own
    simp only [isForeign, Bool.not_eq_false', Bool.or_eq_true] at own
    rcases own with ((gap | numeral) | operator) | parenthesis
    · exact .inl gap
    · rcases Bool.or_eq_true_iff.mp numeral with digit | point
      · exact .inr (mem_ownChars_of_isDigit digit)
      · rw [beq_iff_eq.mp point]
        decide
    · rcases isOperator_cases operator with rfl | rfl | rfl | rfl <;> decide
    · rcases isParenthesis_iff.mp parenthesis with rfl | rfl <;> decide
  · rintro (gap | own)
    · simp [isForeign, gap]
    · have each : ownChars.all (!isForeign ·) = true := by decide
      simpa using List.all_eq_true.mp each c own

/-- The character is the first one of the text that no expression has, and stands at its byte
position. -/
def UnexpectedCharacter.IsFirstIn (unexpected : UnexpectedCharacter) (text : Text) : Prop :=
  ∃ front back, text = front ++ unexpected.char :: back ∧
    unexpected.position = byteLength front ∧ (∀ c ∈ front, isGap c = true ∨ c ∈ ownChars) ∧
    ¬(isGap unexpected.char = true ∨ unexpected.char ∈ ownChars)

theorem tokens_eq_error_iff {unexpected : UnexpectedCharacter} :
    tokens text = .error unexpected ↔ unexpected.IsFirstIn text := by
  simp only [UnexpectedCharacter.IsFirstIn, ← isForeign_eq_false_iff, Bool.not_eq_false]
  constructor
  · intro read
    rcases exists_first isForeign text with own | ⟨front, c, back, rfl, own, foreign⟩
    · obtain ⟨found, tokenized⟩ := exists_tokenized own 0
      rw [tokens, tokenized.tokensFrom_eq] at read
      contradiction
    · rw [tokens, tokensFrom_foreign own foreign, Nat.zero_add] at read
      obtain rfl := Except.error.inj read
      exact ⟨front, back, rfl, rfl, own, foreign⟩
  · obtain ⟨c, position⟩ := unexpected
    rintro ⟨front, back, rfl, rfl, own, foreign⟩
    rw [tokens, tokensFrom_foreign own foreign, Nat.zero_add]

/-- The tokens of a text are the ones that tile it, and it has none exactly when a character of
it belongs to no expression; the first such character is then reported. -/
theorem tokens_tile (text : Text) :
    (∀ found, tokens text = .ok found ↔ Tiles text found) ∧
      ∀ unexpected, tokens text = .error unexpected ↔ unexpected.IsFirstIn text :=
  ⟨fun _ => ⟨fun read => (Tokenized.of_tokensFrom read).tiles, Tiles.tokens_eq⟩,
    fun _ => tokens_eq_error_iff⟩

end Expression

end ProseTree
