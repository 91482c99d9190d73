import DisjointTraps.Path

set_option autoImplicit false

namespace DisjointTraps

/-- What comes of reading, listing and creating, in each state that the files can be in. Creating a
file may change the state even if it fails. -/
class FileSystem (σ : Type) where
  read : σ → Path → Except FileError (List UInt8)
  list : σ → Path → Except FileError (List FileName)
  create : σ → Path → List UInt8 → Except FileError Unit × σ

inductive LogLevel where
  | info
  | error
deriving DecidableEq

/-- The part of the program that a record of the log comes from. -/
inductive LogSource where
  | command
  | batch
  | splitting
  | instructionwise
deriving DecidableEq

/-- A record of the log. There are also records below the level of information, which are left
out. -/
structure LogRecord where
  source : LogSource
  level : LogLevel
  text : String
deriving DecidableEq

def LogRecord.line (record : LogRecord) : String :=
  match record.level with
  | .info => "INFO: " ++ record.text
  | .error => "ERROR: " ++ record.text

/-- What the program does to the world around it, as data: each action says how to go on from what
came of it. -/
inductive Session (α : Type) where
  | done (result : α)
  | print (text : String) (next : Session α)
  | log (record : LogRecord) (next : Session α)
  | read (path : Path) (next : Except FileError (List UInt8) → Session α)
  | list (path : Path) (next : Except FileError (List FileName) → Session α)
  | create (path : Path) (content : List UInt8) (next : Except FileError Unit → Session α)

namespace Session

def andThen {α β : Type} (session : Session α) (next : α → Session β) : Session β :=
  match session with
  | done result => next result
  | print text rest => .print text (rest.andThen next)
  | log record rest => .log record (rest.andThen next)
  | read path rest => .read path fun content => (rest content).andThen next
  | list path rest => .list path fun names => (rest names).andThen next
  | create path content rest => .create path content fun created => (rest created).andThen next

instance : Monad Session where
  pure := done
  bind := andThen

theorem andThen_done {α : Type} (session : Session α) : session.andThen done = session := by
  induction session with
  | done result => rfl
  | print text next ih => simp only [andThen, ih]
  | log record next ih => simp only [andThen, ih]
  | read path next ih => simp only [andThen, ih]
  | list path next ih => simp only [andThen, ih]
  | create path content next ih => simp only [andThen, ih]

theorem andThen_assoc {α β γ : Type} (session : Session α) (first : α → Session β)
    (second : β → Session γ) :
    (session.andThen first).andThen second =
      session.andThen fun result => (first result).andThen second := by
  induction session with
  | done result => rfl
  | print text next ih => simp only [andThen, ih]
  | log record next ih => simp only [andThen, ih]
  | read path next ih => simp only [andThen, ih]
  | list path next ih => simp only [andThen, ih]
  | create path content next ih => simp only [andThen, ih]

instance : LawfulMonad Session :=
  .mk' Session andThen_done (fun _ _ => rfl) andThen_assoc

def say (text : String) : Session Unit := .print text (.done ())

def record (source : LogSource) (level : LogLevel) (text : String) : Session Unit :=
  .log ⟨source, level, text⟩ (.done ())

def recordAll : List LogRecord → Session Unit
  | [] => .done ()
  | record :: rest => .log record (recordAll rest)

def readFile (path : Path) : Session (Except FileError (List UInt8)) := .read path .done

def listDirectory (path : Path) : Session (Except FileError (List FileName)) := .list path .done

/-- Creates a file, or replaces the content of one. -/
def createFile (path : Path) (content : List UInt8) : Session (Except FileError Unit) :=
  .create path content .done

end Session

/-- The files, and all that has been printed and logged. -/
structure Host (σ : Type) where
  files : σ
  printed : String := ""
  records : List LogRecord := []

/-- The records that runs over directories have put into the log themselves. -/
def Host.log {σ : Type} (host : Host σ) : List LogRecord :=
  host.records.filter (·.source = .batch)

variable {σ α β : Type} [FileSystem σ]

namespace Session

def run (session : Session α) (host : Host σ) : α × Host σ :=
  match session with
  | .done result => (result, host)
  | .print text next => next.run { host with printed := host.printed ++ text }
  | .log record next => next.run { host with records := host.records ++ [record] }
  | .read path next => (next (FileSystem.read host.files path)).run host
  | .list path next => (next (FileSystem.list host.files path)).run host
  | .create path content next =>
      let created := FileSystem.create host.files path content
      (next created.1).run { host with files := created.2 }

@[simp] theorem run_pure (result : α) (host : Host σ) :
    (pure result : Session α).run host = (result, host) := rfl

/-- What follows a session starts on the host that the session leaves. -/
@[simp] theorem run_bind (session : Session α) (next : α → Session β) (host : Host σ) :
    (session >>= next).run host = (next (session.run host).1).run (session.run host).2 := by
  change (session.andThen next).run host = _
  induction session generalizing host with
  | done result => rfl
  | print text rest ih => exact ih _
  | log record rest ih => exact ih _
  | read path rest ih => exact ih _ _
  | list path rest ih => exact ih _ _
  | create path content rest ih => exact ih _ _

@[simp] theorem run_say (text : String) (host : Host σ) :
    (say text).run host = ((), { host with printed := host.printed ++ text }) := rfl

@[simp] theorem run_record (source : LogSource) (level : LogLevel) (text : String)
    (host : Host σ) :
    (record source level text).run host =
      ((), { host with records := host.records ++ [⟨source, level, text⟩] }) := rfl

@[simp] theorem run_recordAll (records : List LogRecord) (host : Host σ) :
    (recordAll records).run host = ((), { host with records := host.records ++ records }) := by
  induction records generalizing host with
  | nil => simp only [recordAll, run, List.append_nil]
  | cons record rest ih =>
      simp only [recordAll, run, ih, List.append_assoc, List.singleton_append]

@[simp] theorem run_readFile (path : Path) (host : Host σ) :
    (readFile path).run host = (FileSystem.read host.files path, host) := rfl

@[simp] theorem run_listDirectory (path : Path) (host : Host σ) :
    (listDirectory path).run host = (FileSystem.list host.files path, host) := rfl

@[simp] theorem run_createFile (path : Path) (content : List UInt8) (host : Host σ) :
    (createFile path content).run host =
      ((FileSystem.create host.files path content).1,
        { host with files := (FileSystem.create host.files path content).2 }) := rfl

end Session

end DisjointTraps
