import DisjointTraps.Command.Run

set_option autoImplicit false

namespace DisjointTraps

/-- The number of an error of the system. Some calls report it with the opposite sign. -/
def systemNumber (code : UInt32) : UInt32 := min code (0 - code)

def fileError (error : IO.Error) : FileError :=
  match error with
  | .noFileOrDirectory .. => .notFound
  | .permissionDenied .. => .permissionDenied
  | .inappropriateType _ code _ =>
      if systemNumber code = 21 then .isADirectory else .notADirectory
  | .invalidArgument _ code _ =>
      if systemNumber code = 36 then .nameTooLong else .other (toString error)
  | _ => .other (toString error)

/-- The outcome of an action on a path, which may fail. The system is asked about paths that are
text. -/
def attempt {α : Type} (path : Path) (action : String → IO α) : IO (Except FileError α) := do
  match textOf? path.bytes with
  | none => return .error .invalidText
  | some text =>
      match ← (action text).toBaseIO with
      | .ok result => return .ok result
      | .error error => return .error (fileError error)

def directoryNames (path : String) : IO (List FileName) := do
  if path.isEmpty then throw (.noFileOrDirectory path 2 "no directory is named")
  let here ← IO.currentDir
  return (← (here / path).readDir).toList.filterMap fun entry =>
    let bytes := entry.fileName.toUTF8.toList
    if proper : IsFileName bytes then some ⟨bytes, proper⟩ else none

/-- Carries out a session. Records of the log go to the error output. -/
def Session.perform {α : Type} : Session α → IO α
  | .done result => return result
  | .print text next => do
      IO.print text
      next.perform
  | .log record next => do
      IO.eprintln record.line
      next.perform
  | .read path next => do
      let content ← attempt path fun text => IO.FS.readBinFile text
      (next (content.map (·.toList))).perform
  | .list path next => do
      let names ← attempt path directoryNames
      (next names).perform
  | .create path content next => do
      let created ← attempt path fun text => IO.FS.writeBinFile text ⟨content.toArray⟩
      (next created).perform

end DisjointTraps

def main (words : List String) : IO UInt32 := do
  let code ← (DisjointTraps.Command.run words).perform
  return code.number.toUInt32
