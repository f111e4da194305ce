import ProseTree.Files.Folder
import ProseTree.Settings.Basic
import ProseTree.Text.Quoted

namespace ProseTree.Settings

/-! What a configured value stands for where another type is wanted, what can be wrong with
settings, and what is said of it. -/

attribute [local instance (high)] instPowNat

inductive Wanted where
  | boolean
  /-- An integer of 64 bits with a sign. -/
  | integer
  /-- An integer of 64 bits without a sign. -/
  | natural
  | text
deriving DecidableEq

/-- The words that stand for a truth value, in any case. -/
def word? (text : Text) : Option Bool :=
  let lowered := String.ofList (Text.lower text)
  if ["true", "on", "yes"].contains lowered then some true
  else if ["false", "off", "no"].contains lowered then some false
  else none

/-- The integer nearest to a number, a tie going away from zero.  What is beyond the
bounds is given as the bound, and what is no number as zero. -/
def roundWithin (low high : Int) : Binary64 → Int
  | .finite negative rank _ =>
      let magnitude : Int := ↑((2 * Binary64.unitsOf rank + Binary64.one) / (2 * Binary64.one))
      max low (min high (if negative then -magnitude else magnitude))
  | .infinite negative => if negative then low else high
  | .nan => 0

def inBounds (low high : Int) (value : Int) : Option Int :=
  if low ≤ value ∧ value ≤ high then some value else none

/-- A number as text, without a fraction that is only a zero. -/
def plainText (value : Binary64) : Text :=
  let written := value.text
  if ['.', '0'].isSuffixOf written then written.dropLast.dropLast else written

namespace Scalar

def toBoolean? : Scalar → Option Bool
  | .nothing => none
  | .boolean value => some value
  | .integer value => some (value ≠ 0)
  | .float value => some (!value.isZero)
  | .text written =>
      if written = ['1'] then some true
      else if written = ['0'] then some false
      else word? written

def toInteger? (low high : Int) : Scalar → Option Int
  | .nothing => none
  | .boolean value => some (if value then 1 else 0)
  | .integer value => inBounds low high value
  | .float value => some (roundWithin low high value)
  | .text written =>
      match word? written with
      | some value => some (if value then 1 else 0)
      | none =>
          if written.head? = some '-' ∧ low = 0 then none
          else (Text.readInteger? written).bind (inBounds low high)

def toText? : Scalar → Option Text
  | .nothing => none
  | .boolean value => some (toString value).toList
  | .integer value => some (toString value).toList
  | .float value => some (plainText value)
  | .text written => some written

end Scalar

namespace Value

/-- What the value holds if it has no parts. -/
def scalar? : Value → Option Scalar
  | .scalar _ content => some content
  | _ => none

def toBoolean? (value : Value) : Option Bool := value.scalar?.bind Scalar.toBoolean?

def toInteger? (value : Value) : Option Int :=
  value.scalar?.bind (Scalar.toInteger? (-(2 ^ (63 : Nat))) (2 ^ (63 : Nat) - 1))

def toNatural? (value : Value) : Option Nat :=
  (value.scalar?.bind (Scalar.toInteger? 0 (2 ^ (64 : Nat) - 1))).map Int.toNat

def toText? (value : Value) : Option Text := value.scalar?.bind Scalar.toText?

def origin : Value → Option String
  | .scalar origin _ => origin
  | .array origin _ => origin
  | .table origin _ => origin

end Value

/-- A part of the settings: the key of its table, what messages call it, and the keys of
its fields. -/
structure Part where
  key : String
  label : String
  fields : List String

inductive Error where
  /-- An override is set under something that is no path. -/
  | badPath (key : Text)
  | badFile (name : String)
  | missingFile (name : String)
  /-- A file is there but cannot be read as text. -/
  | unreadable (cause : ReadError)
  /-- A field is given a value that does not stand for what it wants. -/
  | wrongType (value : Value) (wanted : Wanted) (field : String)
  | missingField (name : String)
  /-- A part that is given as an array has too few items. -/
  | missingItem (length : Nat) (part : Part)
  /-- A part is given as a value without parts. -/
  | notAPart (value : Scalar) (part : Part)

def Scalar.described : Scalar → String
  | .nothing => "unit value"
  | .boolean value => "boolean `" ++ toString value ++ "`"
  | .integer value => "integer `" ++ toString value ++ "`"
  | .float value => "floating point `" ++ String.ofList value.text ++ "`"
  | .text written => "string " ++ Text.quoted written

def Value.described (wanted : Wanted) : Value → String
  | .scalar _ (.text written) =>
      (Scalar.text (if wanted = .boolean then Text.lower written else written)).described
  | .scalar _ (.integer value) => "64-bit integer `" ++ toString value ++ "`"
  | .scalar _ content => content.described
  | .array .. => "sequence"
  | .table .. => "map"

/-- What a field wants, as messages name it where they show the value. -/
def Wanted.described (value : Value) : Wanted → String
  | .boolean => "a boolean"
  | .text => "a string"
  | .integer => "an integer"
  | .natural =>
      match value.scalar? with
      | some (.integer _) => "an unsigned 64 bit or less integer"
      | _ => "an integer"

def Part.size (part : Part) : String :=
  if part.fields.length = 1 then "1 element" else toString part.fields.length ++ " elements"

def Error.message : Error → String
  | .badPath key => "invalid path " ++ Text.quoted key
  | .badFile name => "cannot parse " ++ name
  | .missingFile name => "configuration file \"" ++ name ++ "\" not found"
  | .unreadable cause => cause.message
  | .wrongType value wanted field =>
      "invalid type: " ++ value.described wanted ++ ", expected " ++ wanted.described value ++
        " for key `" ++ field ++ "`" ++
        (match value.origin with
        | some file => " in " ++ file
        | none => "")
  | .missingField name => "missing field `" ++ name ++ "`"
  | .missingItem length part =>
      "invalid length " ++ toString length ++ ", expected struct " ++ part.label ++ " with " ++
        part.size
  | .notAPart value part =>
      "invalid type: " ++ value.described ++ ", expected struct " ++ part.label

end ProseTree.Settings
