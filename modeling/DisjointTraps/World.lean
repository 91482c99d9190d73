import DisjointTraps.Session

set_option autoImplicit false

namespace DisjointTraps

/-- A location, by the names that lead to it from the root of the system. -/
abbrev Location := List FileName

/-- What a name in a directory stands for. -/
inductive Entry where
  | file (content : List UInt8)
  | directory
  /-- A file or a directory that cannot be used, and why. -/
  | closed (reason : FileError)
deriving DecidableEq

/-- All files and directories of a system: the entries with their locations, in the order in which
directories list them, and the current directory. The root is a directory without being an entry. -/
structure FileTree where
  here : Location
  entries : List (Location × Entry)
  once : (entries.map Prod.fst).Nodup

inductive Node where
  | file (content : List UInt8)
  | directory (location : Location)
deriving DecidableEq

namespace FileTree

def locations (tree : FileTree) : List Location := tree.entries.map Prod.fst

def find? (tree : FileTree) (location : Location) : Option Entry := tree.entries.lookup location

def node? (tree : FileTree) (location : Location) : Except FileError Node :=
  match tree.find? location with
  | some (.file content) => .ok (.file content)
  | some .directory => .ok (.directory location)
  | some (.closed reason) => .error reason
  | none => .error .notFound

/-- One part of a path, from the node that the parts before it lead to. Only a directory can be
followed further, even by a part that stays where it is. Nothing is above the root. -/
def step (tree : FileTree) (node : Node) (part : Path.Part) : Except FileError Node :=
  match node, part with
  | .file _, _ => .error .notADirectory
  | .directory location, .stay => .ok (.directory location)
  | .directory location, .up => .ok (.directory location.dropLast)
  | .directory location, .name name =>
      if FileName.longest < name.bytes.length then .error .nameTooLong
      else tree.node? (location ++ [name])

/-- Where a path begins: at the root or at the current directory. A path that holds a NUL, is empty
or is too long begins nowhere. -/
def start (tree : FileTree) (path : Path) : Except FileError Node :=
  if 0 ∈ path.bytes then .error .nulInPath
  else if path.bytes = [] then .error .notFound
  else if Path.longest < path.bytes.length then .error .nameTooLong
  else if path.isAbsolute then .ok (.directory [])
  else .ok (.directory tree.here)

/-- What a path leads to. It is followed part by part, so the first part that cannot be followed
decides what is wrong with it. -/
def resolve (tree : FileTree) (path : Path) : Except FileError Node := do
  path.parts.foldlM tree.step (← tree.start path)

def read (tree : FileTree) (path : Path) : Except FileError (List UInt8) := do
  match ← tree.resolve path with
  | .file content => .ok content
  | .directory _ => .error .isADirectory

def names (tree : FileTree) (location : Location) : List FileName :=
  tree.entries.filterMap fun (other, _) =>
    if other.dropLast = location then other.getLast? else none

def list (tree : FileTree) (path : Path) : Except FileError (List FileName) := do
  match ← tree.resolve path with
  | .file _ => .error .notADirectory
  | .directory location => .ok (tree.names location)

def replaceAt (location : Location) (entry : Entry) (entries : List (Location × Entry)) :
    List (Location × Entry) :=
  entries.map fun old => if old.1 = location then (location, entry) else old

theorem locations_replaceAt (location : Location) (entry : Entry)
    (entries : List (Location × Entry)) :
    (replaceAt location entry entries).map Prod.fst = entries.map Prod.fst := by
  rw [replaceAt, List.map_map]
  apply List.map_congr_left
  intro old _
  simp only [Function.comp_apply]
  split
  · exact Eq.symm ‹_›
  · rfl

/-- The tree with an entry at a location, which replaces the one there before. -/
def put (tree : FileTree) (location : Location) (entry : Entry) : FileTree :=
  if present : location ∈ tree.locations then
    { tree with
      entries := replaceAt location entry tree.entries
      once := by
        rw [locations_replaceAt]
        exact tree.once }
  else
    { tree with
      entries := tree.entries ++ [(location, entry)]
      once := by
        rw [List.map_append, List.nodup_append]
        refine ⟨tree.once, List.pairwise_singleton _ _, ?_⟩
        intro old member new single same
        rw [List.map_singleton, List.mem_singleton] at single
        rw [same, single] at member
        exact present member }

/-- The tree after a file has been created, or replaced, at a path. Its directory must be there,
and the path must end in a name that is no directory's. -/
def create (tree : FileTree) (path : Path) (content : List UInt8) : Except FileError FileTree := do
  match ← path.parts.dropLast.foldlM tree.step (← tree.start path), path.parts.getLast? with
  | .file _, _ => .error .notADirectory
  | .directory location, some (.name name) =>
      if FileName.longest < name.bytes.length then .error .nameTooLong
      else
        match tree.find? (location ++ [name]) with
        | some .directory => .error .isADirectory
        | some (.closed reason) => .error reason
        | _ => .ok (tree.put (location ++ [name]) (.file content))
  | .directory _, _ => .error .isADirectory

instance : FileSystem FileTree where
  read := read
  list := list
  create tree path content :=
    match tree.create path content with
    | .ok grown => (.ok (), grown)
    | .error error => (.error error, tree)

def empty : FileTree where
  here := [⟨[116, 109, 112], by decide⟩, ⟨[119, 111, 114, 107], by decide⟩]
  entries :=
    [([⟨[116, 109, 112], by decide⟩], .directory),
      ([⟨[116, 109, 112], by decide⟩, ⟨[119, 111, 114, 107], by decide⟩], .directory)]
  once := by decide

/-- The tree after a directory has been made wherever the parts of a path, followed from a node,
would lead to nothing. -/
def makeDirectories (tree : FileTree) (node : Node) : List Path.Part → Except FileError FileTree
  | [] => .ok tree
  | part :: rest =>
      match tree.step node part, node, part with
      | .ok next, _, _ => tree.makeDirectories next rest
      | .error .notFound, .directory location, .name name =>
          let made := location ++ [name]
          (tree.put made .directory).makeDirectories (.directory made) rest
      | .error error, _, _ => .error error

/-- The tree after a file has been created at a path, with all directories that the path goes
through. -/
def add (tree : FileTree) (path : Path) (content : List UInt8) : Except FileError FileTree := do
  let grown ← tree.makeDirectories (← tree.start path) path.parts.dropLast
  grown.create path content

end FileTree

abbrev World := Host FileTree

end DisjointTraps
