import ProseTree.Text.Basic

namespace ProseTree

/-! Files as the library sees them: what reading a path gives, the text that the bytes of a file
are, and a folder with files in it as the place that relative paths start from.

Bytes that are no text are met one broken sequence at a time: as many bytes as could still have
begun a character, and at least one.  Outside of a folder only the directories above it are
known. -/

namespace Text

/-- A character of which some bytes have been read. -/
structure Pending where
  missing : Nat
  code : Nat
  /-- The bounds of the next byte.  They are narrower for the second byte of some
  characters, which keeps out surrogates, long forms and what is beyond the last code
  point. -/
  low : Nat
  high : Nat

/-- What a byte begins: a character that is complete, one that is not, or none. -/
def beginning (byte : Nat) : Option Char ⊕ Pending :=
  if byte < 0x80 then .inl (some (Char.ofNat byte))
  else if byte < 0xC2 then .inl none
  else if byte < 0xE0 then .inr ⟨1, byte - 0xC0, 0x80, 0xBF⟩
  else if byte < 0xF0 then
    .inr ⟨2, byte - 0xE0, if byte = 0xE0 then 0xA0 else 0x80, if byte = 0xED then 0x9F else 0xBF⟩
  else if byte < 0xF5 then
    .inr ⟨3, byte - 0xF0, if byte = 0xF0 then 0x90 else 0x80, if byte = 0xF4 then 0x8F else 0xBF⟩
  else .inl none

/-- Reads characters; `none` stands for a broken sequence. -/
def decodeFrom (pending : Option Pending) : List UInt8 → List (Option Char)
  | [] => if pending.isSome then [none] else []
  | byte :: rest =>
      let fresh (broken : List (Option Char)) : List (Option Char) :=
        broken ++
          match beginning byte.toNat with
          | .inl c => c :: decodeFrom none rest
          | .inr started => decodeFrom (some started) rest
      match pending with
      | none => fresh []
      | some pending =>
          if pending.low ≤ byte.toNat ∧ byte.toNat ≤ pending.high then
            let code := pending.code * 64 + byte.toNat % 64
            if pending.missing = 1 then some (Char.ofNat code) :: decodeFrom none rest
            else decodeFrom (some ⟨pending.missing - 1, code, 0x80, 0xBF⟩) rest
          else fresh [none]

/-- The text that the bytes are, if they are one. -/
def ofUtf8? (bytes : List UInt8) : Option Text := (decodeFrom none bytes).mapM id

end Text

inductive ReadError where
  | missing
  | isDirectory
  | notDirectory
  | nameTooLong
  | notText
  /-- There is a file, but the system does not give it, for a reason with a number. -/
  | refused (reason : String) (number : Nat)
deriving DecidableEq

def ReadError.message : ReadError → String
  | .missing => "No such file or directory (os error 2)"
  | .isDirectory => "Is a directory (os error 21)"
  | .notDirectory => "Not a directory (os error 20)"
  | .nameTooLong => "File name too long (os error 36)"
  | .notText => "stream did not contain valid UTF-8"
  | .refused reason number => reason ++ " (os error " ++ toString number ++ ")"

abbrev Files := String → Except ReadError (List UInt8)

namespace Files

def isFile (files : Files) (path : String) : Bool :=
  match files path with
  | .ok _ => true
  | .error (.refused ..) => true
  | .error _ => false

def readText (files : Files) (path : String) : Except ReadError Text :=
  match files path with
  | .error error => .error error
  | .ok bytes =>
      match Text.ofUtf8? bytes with
      | some text => .ok text
      | none => .error .notText

end Files

/-- The names along a path, without those that stay where they are. -/
def pathSteps (path : String) : List String :=
  (path.splitOn "/").filter fun step => step ≠ "" ∧ step ≠ "."

structure Folder where
  /-- The files by their paths below the folder. -/
  files : List (String × List UInt8)

inductive Place where
  | inside (steps : List String)
  | above
  | file (content : List UInt8)

namespace Folder

/-- The longest name of a file or directory, in bytes. -/
def nameLimit : Nat := 255

/-- The bytes of a path are fewer than this. -/
def pathLimit : Nat := 4096

def enter (folder : Folder) (steps : List String) (name : String) : Except ReadError Place :=
  let reached := steps ++ [name]
  match folder.files.find? (pathSteps ·.1 == reached) with
  | some file => .ok (.file file.2)
  | none =>
      if folder.files.any fun file => reached.isPrefixOf (pathSteps file.1) then
        .ok (.inside reached)
      else .error .missing

/-- One step of a walk.  From a file there is none, not even one that stays. -/
def step (folder : Folder) (place : Place) (name : String) : Except ReadError Place :=
  match place with
  | .file _ => .error .notDirectory
  | .inside steps =>
      if name = "" ∨ name = "." then .ok place
      else if name = ".." then .ok (if steps.isEmpty then .above else .inside steps.dropLast)
      else if nameLimit < name.utf8ByteSize then .error .nameTooLong
      else folder.enter steps name
  | .above =>
      if name = "" ∨ name = "." ∨ name = ".." then .ok place
      else if nameLimit < name.utf8ByteSize then .error .nameTooLong
      else .error .missing

def read (folder : Folder) (path : String) : Except ReadError (List UInt8) :=
  if path = "" then .error .missing
  else if pathLimit ≤ path.utf8ByteSize then .error .nameTooLong
  else
    let start : Place := if path.startsWith "/" then .above else .inside []
    match (path.splitOn "/").foldlM folder.step start with
    | .error error => .error error
    | .ok (.file content) => .ok content
    | .ok _ => .error .isDirectory

end Folder

end ProseTree
