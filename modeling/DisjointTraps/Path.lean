set_option autoImplicit false

namespace DisjointTraps

def textOf? (bytes : List UInt8) : Option String := String.fromUTF8? ⟨bytes.toArray⟩

/-- The rest of a character that has begun: how many bytes it still takes, its number so far, and
the least and the greatest byte that can come next. -/
structure Unfinished where
  left : Nat
  number : Nat
  low : UInt8 := 0x80
  high : UInt8 := 0xBF

/-- What a byte stands for where no character has begun. A byte that nothing can begin with is shown
by the character for a fault. -/
def beginCharacter (byte : UInt8) : List Char × Option Unfinished :=
  let number := byte.toNat
  if byte < 0x80 then ([Char.ofNat number], none)
  else if byte < 0xC2 then (['\uFFFD'], none)
  else if byte < 0xE0 then ([], some { left := 1, number := number - 0xC0 })
  else if byte < 0xF0 then
    ([], some ⟨2, number - 0xE0, if byte = 0xE0 then 0xA0 else 0x80,
      if byte = 0xED then 0x9F else 0xBF⟩)
  else if byte < 0xF5 then
    ([], some ⟨3, number - 0xF0, if byte = 0xF0 then 0x90 else 0x80,
      if byte = 0xF4 then 0x8F else 0xBF⟩)
  else (['\uFFFD'], none)

/-- The characters that bytes spell, with a fault in place of each character that is broken off. -/
def charactersFrom (begun : Option Unfinished) : List UInt8 → List Char
  | [] => if begun.isSome then ['\uFFFD'] else []
  | byte :: rest =>
      let fresh := beginCharacter byte
      match begun with
      | none => fresh.1 ++ charactersFrom fresh.2 rest
      | some begun =>
          let number := 64 * begun.number + (byte.toNat - 0x80)
          if byte < begun.low ∨ begun.high < byte then
            '\uFFFD' :: fresh.1 ++ charactersFrom fresh.2 rest
          else if begun.left = 1 then Char.ofNat number :: charactersFrom none rest
          else charactersFrom (some { left := begun.left - 1, number }) rest

/-- What a name in a directory can be: it holds no slash, and it is not empty and neither one dot
nor two. -/
def IsFileName (bytes : List UInt8) : Prop := bytes ∉ [[], [46], [46, 46]] ∧ 47 ∉ bytes

instance : DecidablePred IsFileName := fun _ => inferInstanceAs (Decidable (_ ∧ _))

/-- The name of an entry of a directory. Its bytes need not spell a text. -/
structure FileName where
  bytes : List UInt8
  proper : IsFileName bytes
deriving DecidableEq

instance : LT FileName := ⟨fun one other => one.bytes < other.bytes⟩

instance : LE FileName := ⟨fun one other => one.bytes ≤ other.bytes⟩

instance : DecidableLT FileName := fun one other =>
  inferInstanceAs (Decidable (one.bytes < other.bytes))

instance : DecidableLE FileName := fun one other =>
  inferInstanceAs (Decidable (one.bytes ≤ other.bytes))

namespace FileName

def longest : Nat := 255

/-- A name before and after its last dot. A dot at its very beginning does not count, and a name
without a dot has nothing after it. -/
def split (name : FileName) : List UInt8 × Option (List UInt8) :=
  let reversed := name.bytes.reverse
  match reversed.dropWhile (· ≠ 46) with
  | _ :: stem@(_ :: _) => (stem.reverse, some (reversed.takeWhile (· ≠ 46)).reverse)
  | _ => (name.bytes, none)

def stem? (name : FileName) : Option String := textOf? name.split.1

/-- Files that hold a body have the extension `trap`. -/
def isBody (name : FileName) : Bool := name.split.2 = some [116, 114, 97, 112]

end FileName

/-- A path. Its bytes need not spell a text. -/
structure Path where
  bytes : List UInt8
deriving DecidableEq

instance : Coe String Path := ⟨fun text => ⟨text.toUTF8.toList⟩⟩

namespace Path

def longest : Nat := 4095

inductive Part where
  /-- Nothing or a single dot, which stays where it is. -/
  | stay
  /-- Two dots. -/
  | up
  | name (name : FileName)
deriving DecidableEq

def Part.ofBytes (bytes : List UInt8) : Part :=
  if proper : IsFileName bytes then .name ⟨bytes, proper⟩
  else if bytes = [46, 46] then .up
  else .stay

def parts (path : Path) : List Part := (path.bytes.splitOn 47).map Part.ofBytes

def isAbsolute (path : Path) : Bool := path.bytes.head? = some 47

/-- The name that a path ends in. A path that ends in two dots has none. -/
def name? (path : Path) : Option FileName :=
  match (path.parts.filter (· ≠ .stay)).getLast? with
  | some (.name name) => some name
  | _ => none

def entry (directory : Path) (name : FileName) : Path :=
  if directory.bytes = [] ∨ directory.bytes.getLast? = some 47 then ⟨directory.bytes ++ name.bytes⟩
  else ⟨directory.bytes ++ 47 :: name.bytes⟩

def display (path : Path) : String :=
  match textOf? path.bytes with
  | some text => text
  | none => String.ofList (charactersFrom none path.bytes)

end Path

inductive FileError where
  | notFound
  | notADirectory
  | isADirectory
  | permissionDenied
  /-- A name, or the path as a whole, is too long. -/
  | nameTooLong
  /-- The path holds a NUL, which no name can hold. -/
  | nulInPath
  | invalidText
  /-- Any other reason, in the words of the system. -/
  | other (reason : String)
deriving DecidableEq

namespace FileError

def kind : FileError → String
  | notFound => "NotFound"
  | notADirectory => "NotADirectory"
  | isADirectory => "IsADirectory"
  | permissionDenied => "PermissionDenied"
  | nameTooLong => "InvalidFilename"
  | nulInPath => "InvalidInput"
  | invalidText => "InvalidData"
  | other _ => "Other"

def code? : FileError → Option Nat
  | notFound => some 2
  | permissionDenied => some 13
  | notADirectory => some 20
  | isADirectory => some 21
  | nameTooLong => some 36
  | nulInPath | invalidText | other _ => none

def reason : FileError → String
  | notFound => "No such file or directory"
  | notADirectory => "Not a directory"
  | isADirectory => "Is a directory"
  | permissionDenied => "Permission denied"
  | nameTooLong => "File name too long"
  | nulInPath => "file name contained an unexpected NUL byte"
  | invalidText => "stream did not contain valid UTF-8"
  | other reason => reason

def message (error : FileError) : String :=
  match error.code? with
  | some code => error.reason ++ " (os error " ++ code.repr ++ ")"
  | none => error.reason

def details (error : FileError) : String :=
  match error.code? with
  | some code =>
      "Os \x7b code: " ++ code.repr ++ ", kind: " ++ error.kind ++ ", message: \"" ++
        error.reason ++ "\" \x7d"
  | none =>
      "Error \x7b kind: " ++ error.kind ++ ", message: \"" ++ error.reason ++ "\" \x7d"

end FileError

end DisjointTraps
