import DisjointTraps.Body.Samples
import DisjointTraps.Session
import DisjointTraps.Text.Statement

set_option autoImplicit false

namespace DisjointTraps

inductive ReadError where
  /-- The path ends in no name, or in one that is no text. -/
  | noFileName
  | file (error : FileError)
  | text (error : Text.Error)
deriving DecidableEq

def ReadError.details : ReadError → String
  | noFileName => "Parse(\"bad file name\")"
  | file error => "IoError(" ++ error.details ++ ")"
  | text error => "Parse(\"" ++ error.message ++ "\")"

def bodyOfContent (name : String) (content : Except FileError (List UInt8)) :
    Except ReadError Body := do
  let bytes ← content.mapError .file
  let text ← match textOf? bytes with
    | some text => .ok text
    | none => .error (.file .invalidText)
  (Body.parse name text).mapError .text

/-- Reads the body in a file. It has the name of the file without the extension. -/
def readBody (path : Path) : Session (Except ReadError Body) :=
  match path.name?.bind (·.stem?) with
  | none => return .error .noFileName
  | some name => return bodyOfContent name (← Session.readFile path)

def namedBodies : Path := "tests"

def inOrder {α : Type} [LT α] [DecidableLT α] (items : List α) : List α :=
  items.mergeSort fun first second => !decide (second < first)

/-- Goes through the entries of the directory, with the names known so far. The search ends at the
first entry of the wanted name, even if it holds no body. -/
def findAmong (name : String) : List FileName → List String → Session (Except (List String) Body)
  | [], known => return .error (inOrder known)
  | entry :: rest, known =>
      if !entry.isBody then findAmong name rest known
      else
        match entry.stem? with
        | none => findAmong name rest known
        | some stem =>
            if stem = name then do
              match ← readBody (namedBodies.entry entry) with
              | .ok body => return .ok body
              | .error error =>
                  Session.say
                    ("can't parse test file " ++ stem ++ ": " ++ error.details ++ "\n")
                  return .error (inOrder known)
            else findAmong name rest (known ++ [stem])

/-- The body of this name, or the names that are known, in order. -/
def findBody (name : String) : Session (Except (List String) Body) :=
  match Samples.all.find? (·.name = name) with
  | some body => return .ok body
  | none => do
      let samples := Samples.all.map (·.name)
      match ← Session.listDirectory namedBodies with
      | .ok entries => findAmong name entries samples
      | .error error =>
          Session.say ("can't read test directory: " ++ error.message ++ "\n")
          return .error (inOrder samples)

/-- What a run has done: how many bodies were split, how many were left out, and how many blocks
the tables have together. -/
structure BatchSummary where
  split : Nat := 0
  skipped : Nat := 0
  blocks : Nat := 0
deriving DecidableEq

inductive BatchError where
  | unreadable (directory : Path) (error : FileError)
  | disagreement (path : Path) (cause : Disagreement)
  | rejected (path : Path) (findings : List (Finding ExceptionType))
  /-- The split gives some instruction another dispatch list. -/
  | dispatch (path : Path) (findings : List (Finding ExceptionType))
  /-- An instruction past the last one was asked for. -/
  | outOfRange (path : Path)
deriving DecidableEq

def BatchError.message : BatchError → String
  | .unreadable directory error => "can't read " ++ directory.display ++ ": " ++ error.message
  | .disagreement path cause => path.display ++ ": " ++ cause.message
  | .rejected path findings => path.display ++ ": checker failed: " ++ Finding.report findings
  | .dispatch path findings =>
      path.display ++ ": different dispatch after splitting: " ++ Finding.report findings
  | .outOfRange path => path.display ++ ": an instruction past the end of the body was asked for"

inductive BatchOutcome where
  /-- The body was split into this many blocks. -/
  | split (blocks : Nat)
  | skipped (reason : String)
  | failed (error : BatchError)
deriving DecidableEq

structure BatchOptions where
  splitting : SplitOptions := {}
  /-- Compare the two algorithms on each body. -/
  crossChecked : Bool := false
deriving DecidableEq

def Algorithm.title : Algorithm → String
  | .sweep => "Sweep"
  | .instructionwise => "Reference"

namespace Body

/-- What splitting by single instructions logs. The end is not reached if the split is refused. -/
def instructionwiseRecords (body : Body) : List LogRecord :=
  ⟨.instructionwise, .info, "reference::split: begin"⟩ ::
    match splitByInstruction body.rule body.count body.traps with
    | .ok _ => [⟨.instructionwise, .info, "reference::split: end"⟩]
    | .error _ => []

def splitRecords (options : SplitOptions) (body : Body) : List LogRecord :=
  ⟨.splitting, .info, "split_traps: begin (" ++ Position.digits body.count ++ " insts, " ++
      body.traps.length.repr ++ " traps, " ++ options.algorithm.title ++ ")"⟩ ::
    (match options.algorithm with
      | .sweep => []
      | .instructionwise => body.instructionwiseRecords) ++
    match body.split options with
    | .ok table => [⟨.splitting, .info, "split_traps: end (" ++ table.size.repr ++ " ranges)"⟩]
    | .error _ => []

def splitLogged (options : SplitOptions) (body : Body) :
    Session (Except (SplitError ExceptionType) (Table ExceptionType)) := do
  Session.recordAll (body.splitRecords options)
  return body.split options

/-- Compares the two algorithms, which both log what they do. -/
def crossCheckLogged (body : Body) :
    Session (Except Disagreement (Option (Table ExceptionType))) := do
  Session.recordAll (body.splitRecords ⟨.sweep, true⟩)
  Session.recordAll (body.splitRecords ⟨.instructionwise, true⟩)
  return body.crossCheck

end Body

def tableOutcome (path : Path) (body : Body) (table : Table ExceptionType) : BatchOutcome :=
  match body.checkDispatch table with
  | none => .failed (.outOfRange path)
  | some [] => .split table.size
  | some findings => .failed (.dispatch path findings)

def splitOutcome (options : SplitOptions) (path : Path) (body : Body) : Session BatchOutcome := do
  match ← body.splitLogged options with
  | .ok table => return tableOutcome path body table
  | .error (.rejected findings) => return .failed (.rejected path findings)
  | .error .outOfRange => return .failed (.outOfRange path)
  | .error error => return .skipped error.message

def batchOutcome (options : BatchOptions) (path : Path) (read : Except ReadError Body) :
    Session BatchOutcome :=
  match read with
  | .error error => return .skipped ("can't parse: " ++ error.details)
  | .ok body =>
      match body.fault? with
      | some fault => return .skipped ("invalid body: " ++ fault.message)
      | none =>
          if options.crossChecked then do
            match ← body.crossCheckLogged with
            | .error cause => return .failed (.disagreement path cause)
            | .ok _ => splitOutcome options.splitting path body
          else splitOutcome options.splitting path body

/-- Splits the bodies at the given paths one after the other, and logs what becomes of each. A body
that cannot be read, is not valid or cannot be split is left out. A split that is wrong ends the
run. -/
def runBatchOn (options : BatchOptions) (summary : BatchSummary) :
    List Path → Session (Except BatchError BatchSummary)
  | [] => return .ok summary
  | path :: rest => do
      match ← batchOutcome options path (← readBody path) with
      | .split blocks =>
          Session.record .batch .info (path.display ++ ": " ++ blocks.repr ++ " trap ranges")
          runBatchOn options
            { summary with split := summary.split + 1, blocks := summary.blocks + blocks } rest
      | .skipped reason =>
          Session.record .batch .error (path.display ++ ": " ++ reason)
          runBatchOn options { summary with skipped := summary.skipped + 1 } rest
      | .failed error => return .error error

/-- Splits all bodies of a directory, in the order of their file names. -/
def runBatch (options : BatchOptions) (directory : Path) :
    Session (Except BatchError BatchSummary) := do
  match ← Session.listDirectory directory with
  | .error error => return .error (.unreadable directory error)
  | .ok names => runBatchOn options {} ((inOrder (names.filter (·.isBody))).map directory.entry)

end DisjointTraps
