import ProseTree.Binary64.Decimal

namespace ProseTree.CommandLine

/-! The arguments of a run.

Words are taken from left to right.  A choice takes its value from the word after it,
which must not look like an option, or from behind a sign of equality or, if it is
written with one letter, directly behind the letter.  Switches of one letter may stand
together behind one dash. -/

attribute [local instance (high)] instPowNat

inductive Choice where
  | format
  | operation
  | config
  | minWords
deriving DecidableEq

inductive Switch where
  | listFormats
  | listOperations
  | version
  | help
deriving DecidableEq

/-- What may be called by a name. -/
abbrev Named := Choice ⊕ Switch

namespace Named

def ofLong? : Text → Option Named := fun name =>
  match String.ofList name with
  | "format" => some (.inl .format)
  | "operation" => some (.inl .operation)
  | "config" => some (.inl .config)
  | "min-words" => some (.inl .minWords)
  | "list-formats" => some (.inr .listFormats)
  | "list-operations" => some (.inr .listOperations)
  | "version" => some (.inr .version)
  | "help" => some (.inr .help)
  | _ => none

def ofShort? : Char → Option Named
  | 'f' => some (.inl .format)
  | 'o' => some (.inl .operation)
  | 'c' => some (.inl .config)
  | 'V' => some (.inr .version)
  | 'h' => some (.inr .help)
  | _ => none

end Named

structure Arguments where
  path : Option String := none
  format : Option String := none
  operations : List String := []
  config : Option String := none
  minWords : Option Int := none
  listsFormats : Bool := false
  listsOperations : Bool := false
deriving DecidableEq

inductive Halt where
  | misuse
  | version
  | help
deriving DecidableEq

namespace Arguments

/-- Sets what has not been set before. -/
def once {α : Type} (current : Option α) (value : Option α) : Except Halt (Option α) :=
  match current, value with
  | none, some value => .ok (some value)
  | _, _ => .error .misuse

/-- Reads an integer of 64 bits. -/
def readInteger? (value : Text) : Option Int :=
  (Text.readInteger? value).filter fun number => -(2 ^ (63 : Nat)) ≤ number ∧ number < 2 ^ (63 : Nat)

/-- The arguments with a value for a choice.  Only operations may be chosen again. -/
def choose (arguments : Arguments) (value : Text) : Choice → Except Halt Arguments
  | .format => do
      return { arguments with format := ← once arguments.format (String.ofList value) }
  | .operation =>
      .ok { arguments with operations := arguments.operations ++ [String.ofList value] }
  | .config => do
      return { arguments with config := ← once arguments.config (String.ofList value) }
  | .minWords => do
      return { arguments with minWords := ← once arguments.minWords (readInteger? value) }

def switch (arguments : Arguments) : Switch → Except Halt Arguments
  | .listFormats =>
      if arguments.listsFormats then .error .misuse
      else .ok { arguments with listsFormats := true }
  | .listOperations =>
      if arguments.listsOperations then .error .misuse
      else .ok { arguments with listsOperations := true }
  | .version => .error .version
  | .help => .error .help

/-- The arguments with a word that is no option: the path, of which there is one. -/
def place (arguments : Arguments) (word : Text) : Except Halt Arguments := do
  return { arguments with path := ← once arguments.path (String.ofList word) }

/-- A choice that waits for its value in the next word, if there is one, and the
arguments so far. -/
abbrev Progress := Option Choice × Arguments

def takeLetters : Text → Arguments → Except Halt Progress
  | [], arguments => .ok (none, arguments)
  | letter :: rest, arguments =>
      match Named.ofShort? letter with
      | none => .error .misuse
      | some (.inr switch) => do takeLetters rest (← arguments.switch switch)
      | some (.inl choice) =>
          match rest with
          | [] => .ok (some choice, arguments)
          | '=' :: value => (arguments.choose value choice).map (none, ·)
          | value => (arguments.choose value choice).map (none, ·)

def takeLong (name : Text) (arguments : Arguments) : Except Halt Progress :=
  match Named.ofLong? (name.takeWhile (· != '=')), name.dropWhile (· != '=') with
  | some (.inl choice), [] => .ok (some choice, arguments)
  | some (.inl choice), _ :: value => (arguments.choose value choice).map (none, ·)
  | some (.inr switch), [] => (arguments.switch switch).map (none, ·)
  | _, _ => .error .misuse

/-- Takes the words one by one.  Two dashes alone end the options. -/
def takeWords : List Text → Progress → Except Halt Arguments
  | [], (none, arguments) => .ok arguments
  | [], (some _, _) => .error .misuse
  | ['-', '-'] :: rest, (none, arguments) => rest.foldlM place arguments
  | ('-' :: '-' :: name) :: rest, (none, arguments) => do
      takeWords rest (← takeLong name arguments)
  | ('-' :: letter :: letters) :: rest, (none, arguments) => do
      takeWords rest (← takeLetters (letter :: letters) arguments)
  | ('-' :: _ :: _) :: _, (some _, _) => .error .misuse
  | word :: rest, (some choice, arguments) => do
      takeWords rest (none, ← arguments.choose word choice)
  | word :: rest, (none, arguments) => do takeWords rest (none, ← arguments.place word)

/-- Reads the words of a command line.  There has to be a path unless something is to be
listed. -/
def read (words : List Text) : Except Halt Arguments := do
  let arguments ← takeWords words (none, {})
  if arguments.path.isSome ∨ arguments.listsFormats ∨ arguments.listsOperations then
    return arguments
  else throw .misuse

end Arguments

end ProseTree.CommandLine
