import DisjointTraps.Body
import DisjointTraps.Command.Arguments
import DisjointTraps.Table

set_option autoImplicit false

namespace DisjointTraps.Command

structure ExitCode where
  number : UInt8
deriving DecidableEq

namespace ExitCode

def success : ExitCode := ⟨0⟩

/-- The request could not be fulfilled. -/
def failure : ExitCode := ⟨1⟩

/-- The command line could not be understood. -/
def misuse : ExitCode := ⟨2⟩

/-- The program found itself to be wrong. -/
def broken : ExitCode := ⟨101⟩

end ExitCode

def usage : String :=
  "Usage: (-t NAME | -f FILE) [-a ALGORITHM] [-c] [-d] [-o OUTPUT]\n" ++
  "       -D DIRECTORY [-a ALGORITHM] [-c] [-d]\n" ++
  "\n" ++
  "  -t, --test NAME        split the body of this name\n" ++
  "  -f, --file FILE        split the body in this file\n" ++
  "  -D, --dir DIRECTORY    split the bodies in all .trap files of this directory\n" ++
  "  -a, --algorithm NAME   sweep, which is the default, or reference\n" ++
  "  -c, --checker          check the result against the declared traps\n" ++
  "  -d, --differential     compare the two algorithms\n" ++
  "  -o, --output OUTPUT    write the resulting table to this file\n"

def display (title : String) (body : Body) : Session Unit :=
  Session.say ("\n" ++ body.render title)

/-- Shows the body with its new traps, after a last look at whether they dispatch as before. -/
def showResult (body : Body) (table : Table ExceptionType) : Session ExitCode :=
  match body.install? table with
  | none => return .broken
  | some after => do
      display "after splitting" after
      return if body.compare after = some [] then .success else .broken

/-- Writes the table to the output file, if there is one, and then shows the result. -/
def writeResult (body : Body) (table : Table ExceptionType) (output : Option String) :
    Session ExitCode :=
  match output with
  | none => showResult body table
  | some path => do
      match ← Session.createFile path table.encode with
      | .ok () => showResult body table
      | .error error =>
          Session.record .command .error ("can't write " ++ path ++ ": " ++ error.message)
          return .failure

def splitAndWrite (body : Body) (options : SplitOptions) (output : Option String) :
    Session ExitCode := do
  match ← body.splitLogged options with
  | .ok table => writeResult body table output
  | .error .outOfRange => return .broken
  | .error error =>
      Session.say ("splitting failed: " ++ error.message ++ "\n")
      return .failure

/-- Shows a valid body and splits it, after comparing the two algorithms if that is asked for. -/
def splitValid (body : Body) (options : BatchOptions) (output : Option String) :
    Session ExitCode := do
  display "before splitting" body
  if options.crossChecked then
    match ← body.crossCheckLogged with
    | .ok _ =>
        Session.say "sweep and reference agree\n"
        splitAndWrite body options.splitting output
    | .error .outOfRange => return .broken
    | .error disagreement =>
        Session.say ("differential check failed: " ++ disagreement.message ++ "\n")
        return .failure
  else splitAndWrite body options.splitting output

def splitOne (body : Body) (options : BatchOptions) (output : Option String) : Session ExitCode :=
  match body.fault? with
  | none => splitValid body options output
  | some fault => do
      Session.record .command .error ("invalid body: " ++ fault.message)
      return .failure

/-- The body of a name. If there is none, the names that there are are shown. -/
def loadNamed (name : String) : Session (Except ExitCode Body) := do
  match ← findBody name with
  | .ok body => return .ok body
  | .error names =>
      Session.record .command .error ("can't find body with name '" ++ name ++ "'")
      Session.say ("available body names are:\n" ++
        String.join (names.map fun known => "     " ++ known ++ "\n"))
      return .error .failure

/-- The body in a file. If there is none, the reason is reported. -/
def loadFile (path : String) : Session (Except ExitCode Body) := do
  match ← readBody path with
  | .ok body => return .ok body
  | .error error =>
      Session.record .command .error ("can't parse " ++ path ++ ": " ++ error.details)
      return .error .failure

/-- Splits the bodies of a directory and prints what has been done. -/
def splitDirectory (path : String) (options : BatchOptions) : Session ExitCode := do
  match ← runBatch options path with
  | .ok summary =>
      Session.say (summary.split.repr ++ " bodies split into " ++ summary.blocks.repr ++
        " trap ranges, " ++ summary.skipped.repr ++ " skipped\n")
      return .success
  | .error error =>
      Session.record .command .error ("batch run stopped: " ++ error.message)
      return .failure

namespace Matches

/-- The sweep is used unless the other algorithm is asked for. -/
def options (found : Matches) : BatchOptions :=
  ⟨⟨if found.algorithm = some "reference" then .instructionwise else .sweep, found.checker⟩,
    found.differential⟩

def load (found : Matches) : Session (Except ExitCode Body) :=
  match found.test, found.file with
  | some name, _ => loadNamed name
  | none, some path => loadFile path
  | none, none => return .error .broken

/-- Does what is asked for. A directory comes before a single body. -/
def fulfil (found : Matches) : Session ExitCode := do
  Session.record .command .info <|
    match found.options.splitting.algorithm with
    | .sweep => "Using the sweep"
    | .instructionwise => "Using the reference splitter"
  match found.directory with
  | some directory => splitDirectory directory found.options
  | none =>
      match ← found.load with
      | .ok body => splitOne body found.options found.output
      | .error code => return code

end Matches

def runWith {Line : Type} (parser : ArgumentParser Line) (line : Line) : Session ExitCode :=
  match parser.parse line with
  | .ok found => found.fulfil
  | .error .misuse => return .misuse
  | .error .help => do
      Session.say usage
      return .success

def run (words : List String) : Session ExitCode := runWith reader words

end DisjointTraps.Command
