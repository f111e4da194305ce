import ProseTree.Settings.Toml.Scalar

namespace ProseTree.Settings.Toml

/-! Settings files: keys, values and headers, line by line, and the tables under construction.

A table may come from a header of its own, from the header of a table inside it, or from
a dotted key.  Which of these it was decides what may still be added to it, so that no
part of a table is defined twice. -/

inductive Form where
  | header
  /-- From the header of a table inside it. -/
  | implied
  | dotted
deriving DecidableEq

inductive Item where
  | value (value : Value)
  | table (form : Form) (items : List (Text × Item))
  /-- The tables that one header has opened again and again, in order. -/
  | series (tables : List (List (Text × Item)))

abbrev Items := Entries Text Item

namespace Items

/-- Defines a value under a dotted key.  `isOpen` tells whether the table takes values:
its own section or the same dotted key must have opened it.  Dotted keys do not reach
into a table that has a header. -/
def define (value : Value) (isOpen : Bool) : List Text → Items → Option Items
  | [], _ => none
  | [key], items =>
      if isOpen ∧ (items.lookup key).isNone then some (items.put key (.value value)) else none
  | key :: path, items =>
      match items.lookup key with
      | none => (define value true path []).map fun inner => items.put key (.table .dotted inner)
      | some (.table .header _) => none
      | some (.table form inner) =>
          (define value (form = .dotted) path inner).map fun inner =>
            items.put key (.table form inner)
      | some (.series tables) =>
          (define value false path (tables.getLastD [])).map fun last =>
            items.put key (.series (tables.dropLast ++ [last]))
      | some (.value _) => none

/-- Changes the table that a path of a header leads to.  Tables on the way that are not
there yet are implied; in a series the way goes through the last table. -/
def change (adapt : Items → Option Items) : List Text → Items → Option Items
  | [], items => adapt items
  | key :: path, items =>
      match items.lookup key with
      | none => (change adapt path []).map fun inner => items.put key (.table .implied inner)
      | some (.table form inner) =>
          (change adapt path inner).map fun inner => items.put key (.table form inner)
      | some (.series tables) =>
          (change adapt path (tables.getLastD [])).map fun last =>
            items.put key (.series (tables.dropLast ++ [last]))
      | some (.value _) => none

end Items

/-- A dotted key and its value. -/
abbrev Definition := List Text × Value

def Items.defineAll (definitions : List Definition) (items : Items) : Option Items :=
  definitions.foldlM (fun items (path, value) => items.define value true path) items

/-- A header and the definitions under it. -/
structure Section where
  /-- The tables that lead to the table of the header. -/
  parents : List Text
  key : Text
  /-- Whether the header opens one more table of a series. -/
  isSeries : Bool
  definitions : List Definition

/-- Adds a section to the table that holds its own: a table may have one header, and a
series any number. -/
def Section.addTo (part : Section) (items : Items) : Option Items :=
  match items.lookup part.key, part.isSeries with
  | none, false =>
      (Items.defineAll part.definitions []).map fun inner =>
        items.put part.key (.table .header inner)
  | some (.table .implied inner), false =>
      (Items.defineAll part.definitions inner).map fun inner =>
        items.put part.key (.table .header inner)
  | none, true =>
      (Items.defineAll part.definitions []).map fun inner => items.put part.key (.series [inner])
  | some (.series tables), true =>
      (Items.defineAll part.definitions []).map fun inner =>
        items.put part.key (.series (tables ++ [inner]))
  | _, _ => none

/-- The whole table of a file: what stands before the first header, and the sections. -/
def assemble? (definitions : List Definition) (sections : List Section) : Option Items := do
  let root ← Items.defineAll definitions []
  sections.foldlM (fun items part => items.change part.addTo part.parents) root

mutual

def Item.toValue (origin : Option String) : Item → Value
  | .value value => value
  | .table _ items => .table origin (Items.toEntries origin items)
  | .series tables => .array origin (Items.toValues origin tables)

def Items.toEntries (origin : Option String) : List (Text × Item) → Entries Text Value
  | [] => []
  | (key, item) :: rest => (key, item.toValue origin) :: Items.toEntries origin rest

def Items.toValues (origin : Option String) : List (List (Text × Item)) → List Value
  | [] => []
  | items :: rest =>
      .table origin (Items.toEntries origin items) :: Items.toValues origin rest

end

/-- How deep arrays and inline tables may be nested, and how many keys may be dotted
together, is less than this. -/
def nestingLimit : Nat := 80

def skipSpace : Reader Unit := do
  let _ ← Reader.run isSpace

def readLineEnd : Reader Unit := fun text =>
  match text with
  | '\n' :: rest => some ((), rest)
  | '\r' :: '\n' :: rest => some ((), rest)
  | _ => none

def readComment : Reader Unit := do
  Reader.exactly ['#']
  let _ ← Reader.run isText

/-- Reads the end of a line, or of the file. -/
def readLastOfLine : Reader Unit := fun text =>
  match text with
  | [] => some ((), [])
  | text => readLineEnd text

/-- Reads what may follow on a line: space and a comment. -/
def readRestOfLine : Reader Unit := do
  skipSpace
  let _ ← Reader.maybe readComment
  readLastOfLine

def skipBlankLines : Reader Unit := do
  let _ ← Reader.run isSpace
  let _ ← Reader.many do
    (Reader.maybe readComment *> readLineEnd)
    skipSpace

def isBareKeyChar (c : Char) : Bool := c.isAlphanum || c == '_' || c == '-'

def readSimpleKey : Reader Text := fun text =>
  match text with
  | [] => none
  | c :: _ =>
      if isBareKeyChar c then Reader.run isBareKeyChar text else readShortString text

def readKey : Reader (List Text) := do
  let readPart : Reader Text := do
    skipSpace
    let key ← readSimpleKey
    skipSpace
    pure key
  let first ← readPart
  let rest ← Reader.many (Reader.exactly ['.'] *> readPart)
  if rest.length + 1 < nestingLimit then pure (first :: rest) else failure

def readScalar : Reader Scalar := do
  match ← Reader.peek with
  | some 't' => Reader.exactly ['t', 'r', 'u', 'e'] *> pure (.boolean true)
  | some 'f' => Reader.exactly ['f', 'a', 'l', 's', 'e'] *> pure (.boolean false)
  | some c =>
      if c = '"' ∨ c.toNat = 0x27 then .text <$> readString
      else (.text <$> readMoment) <|> readNumber
  | none => failure

/-- Reads the items between two brackets; a comma may follow the last one. -/
def readArrayItems (readItem : Reader Value) : Reader (List Value) := do
  let readPadded : Reader Value := do
    skipBlankLines
    let item ← readItem
    skipBlankLines
    pure item
  let items ← Reader.maybe do
    let first ← readPadded
    let rest ← Reader.many (Reader.exactly [','] *> readPadded)
    let _ ← Reader.maybe (Reader.exactly [','])
    pure (first :: rest)
  skipBlankLines
  pure (items.getD [])

def readDefinition (readValue : Reader Value) : Reader Definition := do
  let path ← readKey
  Reader.exactly ['=']
  skipSpace
  let value ← readValue
  pure (path, value)

/-- Reads the definitions between two braces, all on one line. -/
def readInlineDefinitions (readValue : Reader Value) : Reader (List Definition) := do
  let readPadded : Reader Definition := do
    let definition ← readDefinition readValue
    skipSpace
    pure definition
  let definitions ← Reader.maybe do
    let first ← readPadded
    let rest ← Reader.many (Reader.exactly [','] *> readPadded)
    pure (first :: rest)
  skipSpace
  pure (definitions.getD [])

/-- Reads a value of a file, in which arrays and inline tables are nested less deep than
the limit. -/
def readValue (origin : Option String) : Nat → Reader Value
  | 0 => .scalar origin <$> readScalar
  | limit + 1 => do
      match ← Reader.peek with
      | some '[' =>
          Reader.exactly ['[']
          let items ← readArrayItems (readValue origin limit)
          Reader.exactly [']']
          pure (.array origin items)
      | some '\x7b' =>
          Reader.exactly ['\x7b']
          let definitions ← readInlineDefinitions (readValue origin limit)
          Reader.exactly ['\x7d']
          let items ← StateT.lift (Items.defineAll definitions [])
          pure (.table origin (Items.toEntries origin items))
      | _ => .scalar origin <$> readScalar

def readDefinitionLine (origin : Option String) : Reader Definition := do
  let definition ← readDefinition (readValue origin (nestingLimit - 1))
  readRestOfLine
  pure definition

def skipEmptyLines : Reader Unit := do
  let _ ← Reader.many readRestOfLine
  skipSpace

def readDefinitionLines (origin : Option String) : Reader (List Definition) := do
  skipEmptyLines
  Reader.many (readDefinitionLine origin <* skipEmptyLines)

def readSection (origin : Option String) : Reader Section := do
  Reader.exactly ['[']
  let isSeries ← Option.isSome <$> Reader.maybe (Reader.exactly ['['])
  let path ← readKey
  Reader.exactly (if isSeries then [']', ']'] else [']'])
  readRestOfLine
  let definitions ← readDefinitionLines origin
  pure ⟨path.dropLast, path.getLastD [], isSeries, definitions⟩

def dropByteOrderMark : Text → Text
  | '\uFEFF' :: rest => rest
  | text => text

/-- Reads a whole file.  Its values remember where they came from. -/
def read? (origin : Option String) (text : Text) : Option (Entries Text Value) := do
  let (definitions, behind) ← readDefinitionLines origin (dropByteOrderMark text)
  let (sections, rest) ← Reader.many (readSection origin) behind
  if rest.isEmpty then
    (assemble? definitions sections).map (Items.toEntries origin)
  else none

end ProseTree.Settings.Toml
