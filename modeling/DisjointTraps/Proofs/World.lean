import DisjointTraps.Proofs.Session
import DisjointTraps.World
import Mathlib.Data.List.Nodup

set_option autoImplicit false

namespace DisjointTraps

namespace FileTree

variable {tree other grown : FileTree} {location place : Location} {entry held : Entry}
variable {content : List UInt8} {node next : Node} {path : Path} {part : Path.Part}
variable {name : FileName}

theorem find?_eq_some_iff (tree : FileTree) (location : Location) (held : Entry) :
    tree.find? location = some held ↔ (location, held) ∈ tree.entries := by
  rw [find?, List.lookup_eq_some_iff]
  constructor
  · rintro ⟨before, after, whole, -⟩
    rw [whole]
    exact List.mem_append_right _ List.mem_cons_self
  · intro member
    obtain ⟨before, after, whole⟩ := List.append_of_mem member
    have once := tree.once
    rw [whole, List.map_append, List.map_cons, List.nodup_append] at once
    refine ⟨before, after, whole, ?_⟩
    intro earlier early
    have apart := once.2.2 earlier.1 (List.mem_map_of_mem early) location List.mem_cons_self
    simpa using apart.symm

theorem mem_replaceAt {entries : List (Location × Entry)}
    (present : location ∈ entries.map Prod.fst) :
    (place, held) ∈ replaceAt location entry entries ↔
      if place = location then held = entry else (place, held) ∈ entries := by
  rw [replaceAt, List.mem_map]
  constructor
  · rintro ⟨old, member, same⟩
    split at same
    · cases same
      rw [if_pos rfl]
    · rename_i apart
      cases same
      rwa [if_neg apart]
  · intro inside
    split at inside
    · rename_i here
      obtain ⟨old, member, found⟩ := List.mem_map.mp present
      exact ⟨old, member, by rw [if_pos found, here, inside]⟩
    · rename_i apart
      exact ⟨_, inside, if_neg apart⟩

theorem mem_entries_put (tree : FileTree) :
    (place, held) ∈ (tree.put location entry).entries ↔
      if place = location then held = entry else (place, held) ∈ tree.entries := by
  unfold put
  split
  · rename_i present
    exact mem_replaceAt present
  · rename_i absent
    rw [List.mem_append, List.mem_singleton, Prod.mk.injEq]
    by_cases here : place = location
    · subst here
      have fresh : (place, held) ∉ tree.entries := fun member =>
        absent (List.mem_map_of_mem member)
      simp only [fresh, true_and, false_or, ↓reduceIte]
    · simp only [here, false_and, or_false, ↓reduceIte]

theorem find?_put (tree : FileTree) :
    (tree.put location entry).find? place =
      if place = location then some entry else tree.find? place := by
  apply Option.ext
  intro held
  rw [find?_eq_some_iff, mem_entries_put]
  split
  · rw [Option.some_inj, eq_comm]
  · rw [find?_eq_some_iff]

theorem node?_put (free : tree.find? location ≠ some .directory)
    (led : tree.node? place = .ok next) (folder : ∀ held, next ≠ .file held) :
    (tree.put location (.file content)).node? place = .ok next := by
  unfold node? at led ⊢
  split at led
  · rename_i held _
    exact absurd (Except.ok.inj led).symm (folder held)
  · rename_i directory
    have apart : place ≠ location := by
      rintro rfl
      exact free directory
    rw [find?_put, if_neg apart, directory]
    exact led
  · cases led
  · cases led

/-- A step that does not lead to a file leads to the same place after a file has been put where no
directory was. -/
theorem step_put (free : tree.find? location ≠ some .directory)
    (led : tree.step node part = .ok next) (folder : ∀ held, next ≠ .file held) :
    (tree.put location (.file content)).step node part = .ok next := by
  cases node with
  | file held => cases led
  | directory here =>
      cases part with
      | stay => exact led
      | up => exact led
      | name name =>
          by_cases long : FileName.longest < name.bytes.length
          · simp only [step, long, ↓reduceIte, reduceCtorEq] at led
          · simp only [step, long, ↓reduceIte] at led ⊢
            exact node?_put free led folder

/-- No way goes on from a file, so only directories are passed on the way to one. -/
theorem foldlM_step_put (content : List UInt8) (free : tree.find? location ≠ some .directory)
    {parts : List Path.Part} (led : parts.foldlM tree.step node = .ok (.directory place)) :
    parts.foldlM (tree.put location (.file content)).step node = .ok (.directory place) := by
  induction parts generalizing node with
  | nil => exact led
  | cons part rest ih =>
      rw [List.foldlM_cons] at led ⊢
      obtain ⟨next, first, later⟩ := Text.Source.bind_eq_ok led
      have folder : ∀ held, next ≠ .file held := by
        rintro held rfl
        cases rest <;> cases later
      rw [step_put free first folder]
      exact ih later

/-- What has to be there for a file to be created: a way to its directory, and a name under which
there is nothing or a file. -/
structure Creates (tree : FileTree) (path : Path) (begin : Node) (location : Location)
    (name : FileName) : Prop where
  begun : tree.start path = .ok begin
  walked : path.parts.dropLast.foldlM tree.step begin = .ok (.directory location)
  last : path.parts.getLast? = some (.name name)
  short : ¬ FileName.longest < name.bytes.length
  free : tree.find? (location ++ [name]) ≠ some .directory
  usable : ∀ reason, tree.find? (location ++ [name]) ≠ some (.closed reason)

theorem create_eq_ok_iff : tree.create path content = .ok grown ↔
    ∃ begin location name, tree.Creates path begin location name ∧
      grown = tree.put (location ++ [name]) (.file content) := by
  constructor
  · intro done
    unfold create at done
    obtain ⟨begin, begun, done⟩ := Text.Source.bind_eq_ok done
    obtain ⟨reached, walked, done⟩ := Text.Source.bind_eq_ok done
    split at done
    · cases done
    · rename_i location name last
      split at done
      · cases done
      · rename_i short
        split at done
        · cases done
        · cases done
        · rename_i free usable
          exact ⟨begin, location, name, ⟨begun, walked, last, short, free, usable⟩,
            (Except.ok.inj done).symm⟩
    · cases done
  · rintro ⟨begin, location, name, creates, rfl⟩
    simp only [create, creates.begun, bind, Except.bind, creates.walked, creates.last,
      creates.short, ↓reduceIte]
    split
    · exact absurd ‹_› creates.free
    · exact absurd ‹_› (creates.usable _)
    · rfl

theorem start_put (tree : FileTree) (location : Location) (entry : Entry) :
    (tree.put location entry).start = tree.start := by
  unfold put
  split <;> rfl

/-- A file that has been created has the content that it was created with. -/
theorem read_create (done : tree.create path content = .ok grown) :
    grown.read path = .ok content := by
  obtain ⟨begin, location, name, creates, rfl⟩ := create_eq_ok_iff.mp done
  obtain ⟨front, whole⟩ := List.getLast?_eq_some_iff.mp creates.last
  have walked := creates.walked
  rw [whole, List.dropLast_concat] at walked
  let grown := tree.put (location ++ [name]) (.file content)
  have arrived : grown.step (.directory location) (.name name) = .ok (.file content) := by
    simp only [grown, step, creates.short, ↓reduceIte, node?, find?_put]
  have goes : path.parts.foldlM grown.step begin = .ok (.file content) := by
    rw [whole, List.foldlM_append, foldlM_step_put content creates.free walked]
    simp only [bind, Except.bind, List.foldlM_cons, List.foldlM_nil, arrived, pure, Except.pure]
  have led : grown.resolve path = .ok (.file content) := by
    simp only [resolve, grown, start_put, creates.begun, bind, Except.bind, goes]
  rw [read, led]
  rfl

/-- The same system, with its directories listed in another order. -/
structure Reordered (tree other : FileTree) : Prop where
  here : other.here = tree.here
  entries : other.entries.Perm tree.entries

theorem Reordered.symm (same : tree.Reordered other) : other.Reordered tree :=
  ⟨same.here.symm, same.entries.symm⟩

/-- What a path leads to depends on the current directory and on what is where. -/
theorem Reordered.resolve_eq (same : tree.Reordered other) : other.resolve = tree.resolve := by
  have found : other.find? = tree.find? := by
    funext location
    apply Option.ext
    intro held
    rw [find?_eq_some_iff, find?_eq_some_iff, same.entries.mem_iff]
  have steps : other.step = tree.step := by
    funext node part
    unfold step node?
    rw [found]
  have begins : other.start = tree.start := by
    funext path
    unfold start
    rw [same.here]
  funext path
  rw [resolve, resolve, steps, begins]

theorem Reordered.bodyAt_eq (same : tree.Reordered other) : bodyAt other = bodyAt tree := by
  have reads : FileSystem.read other = FileSystem.read tree := by
    funext path
    change other.read path = tree.read path
    rw [read, read, same.resolve_eq]
  funext path
  unfold bodyAt
  rw [reads]

theorem Reordered.names_perm (same : tree.Reordered other) (location : Location) :
    (other.names location).Perm (tree.names location) := same.entries.filterMap _

theorem mem_names_iff : name ∈ tree.names location ↔
    ∃ held, (location ++ [name], held) ∈ tree.entries := by
  simp only [names, List.mem_filterMap]
  constructor
  · rintro ⟨⟨place, held⟩, member, named⟩
    split at named
    · rename_i inside
      obtain ⟨directory, rfl⟩ := List.getLast?_eq_some_iff.mp named
      rw [List.dropLast_concat] at inside
      subst inside
      exact ⟨held, member⟩
    · cases named
  · rintro ⟨held, member⟩
    exact ⟨_, member, by simp⟩

theorem names_nodup (tree : FileTree) (location : Location) : (tree.names location).Nodup := by
  have keyed : tree.names location = tree.locations.filterMap fun place =>
      if place.dropLast = location then place.getLast? else none := by
    rw [locations, List.filterMap_map]
    rfl
  rw [keyed]
  apply List.Nodup.filterMap _ tree.once
  intro one two name here there
  simp only [Option.mem_def, Option.ite_none_right_eq_some, List.getLast?_eq_some_iff] at here there
  obtain ⟨inside, front, rfl⟩ := here
  obtain ⟨alsoInside, other, rfl⟩ := there
  rw [List.dropLast_concat] at inside alsoInside
  rw [inside, alsoInside]

theorem list_eq_ok_iff {names : List FileName} : tree.list path = .ok names ↔
    ∃ location, tree.resolve path = .ok (.directory location) ∧ names = tree.names location := by
  unfold list
  cases tree.resolve path with
  | error error => simp [bind, Except.bind]
  | ok node =>
      cases node with
      | file content => simp [bind, Except.bind]
      | directory location => simp [bind, Except.bind, eq_comm]

/-- The tree with other entries in it, which are the same in another order. -/
def reorder (tree : FileTree) (entries : List (Location × Entry))
    (same : entries.Perm tree.entries) : FileTree :=
  { tree with
    entries
    once := (same.map Prod.fst).nodup_iff.mpr tree.once }

theorem exists_first_last (listed : name ∈ tree.names location) :
    ∃ (first last : FileTree) (rest : List FileName), tree.Reordered first ∧
      tree.Reordered last ∧ first.names location = name :: rest ∧
        last.names location = rest ++ [name] := by
  obtain ⟨held, member⟩ := mem_names_iff.mp listed
  have first := (List.perm_cons_erase member).symm
  have last := (List.perm_append_singleton (location ++ [name], held) _).trans first
  let rest := (tree.entries.erase (location ++ [name], held)).filterMap fun entry =>
    if entry.1.dropLast = location then entry.1.getLast? else none
  refine ⟨tree.reorder _ first, tree.reorder _ last, rest, ⟨rfl, first⟩, ⟨rfl, last⟩, ?_, ?_⟩
  · simp only [names, reorder, List.filterMap_cons, List.dropLast_concat, ↓reduceIte,
      List.getLast?_concat, rest]
  · simp only [names, reorder, List.filterMap_append, List.filterMap_cons, List.dropLast_concat,
      ↓reduceIte, List.getLast?_concat, List.filterMap_nil, rest]

end FileTree

end DisjointTraps
