import DisjointTraps.Proofs.World

set_option autoImplicit false

namespace DisjointTraps

theorem textOf?_eq_some {bytes : List UInt8} {text : String} (spelt : textOf? bytes = some text) :
    bytes = text.toUTF8.data.toList := by
  unfold textOf? String.fromUTF8? at spelt
  split at spelt
  · obtain rfl := Option.some.inj spelt
    rfl
  · cases spelt

theorem FileName.bytes_eq_of_split {name : FileName} {stem extension : List UInt8}
    (split : name.split = (stem, some extension)) : name.bytes = stem ++ 46 :: extension := by
  have whole : name.bytes.reverse.takeWhile (· ≠ 46) ++ name.bytes.reverse.dropWhile (· ≠ 46) =
      name.bytes.reverse := List.takeWhile_append_dropWhile
  have atDot := List.head?_dropWhile_not (fun byte => decide (byte ≠ 46)) name.bytes.reverse
  simp only [FileName.split] at split
  split at split
  · rename_i dot last before behind
    rw [behind] at whole atDot
    obtain rfl : dot = 46 := by simpa using atDot
    cases split
    simpa using congrArg List.reverse whole.symm
  · cases split

/-- The name of the body in an entry of a directory, if the entry is a body's file. -/
def bodyName? (entry : FileName) : Option String := if entry.isBody then entry.stem? else none

theorem bytes_eq_of_bodyName? {entry : FileName} {name : String}
    (named : bodyName? entry = some name) :
    entry.bytes = name.toUTF8.data.toList ++ [46, 116, 114, 97, 112] := by
  unfold bodyName? at named
  split at named
  · rename_i file
    rcases split : entry.split with ⟨stem, extension⟩
    obtain rfl : extension = some [116, 114, 97, 112] := by
      simpa [FileName.isBody, split] using file
    have spelt : textOf? stem = some name := by simpa [FileName.stem?, split] using named
    rw [FileName.bytes_eq_of_split split, textOf?_eq_some spelt]
  · cases named

theorem entry_unique {one two : FileName} {name : String} (named : bodyName? one = some name)
    (alsoNamed : bodyName? two = some name) : one = two := by
  have same := (bytes_eq_of_bodyName? named).trans (bytes_eq_of_bodyName? alsoNamed).symm
  cases one
  cases two
  cases same
  rfl

variable {σ : Type} [FileSystem σ]

/-- The names in the directory of named bodies. There are none if it cannot be listed. -/
def bodyEntries (files : σ) : List FileName :=
  match FileSystem.list files namedBodies with
  | .ok entries => entries
  | .error _ => []

def Samples.names : List String := Samples.all.map (·.name)

/-- The names of the bodies' files among some entries, but for one. -/
def otherNames (entries : List FileName) (name : String) : List String :=
  (entries.filterMap bodyName?).filter (· ≠ name)

/-- The names that are listed after a body's file. -/
def namesAfter (entries : List FileName) (name : String) : List String :=
  otherNames (entries.dropWhile fun entry => bodyName? entry ≠ some name) name

section Search

variable {name : String} {entry : FileName} {before after : List FileName}

theorem findAmong_cons (name : String) (entry : FileName) (rest : List FileName)
    (known : List String) :
    findAmong name (entry :: rest) known =
      match bodyName? entry with
      | none => findAmong name rest known
      | some stem =>
          if stem = name then do
            match ← readBody (namedBodies.entry entry) with
            | .ok body => return .ok body
            | .error error =>
                Session.say ("can't parse test file " ++ stem ++ ": " ++ error.details ++ "\n")
                return .error (inOrder known)
          else findAmong name rest (known ++ [stem]) := by
  rw [findAmong, bodyName?]
  cases entry.isBody with
  | false => rfl
  | true => rfl

/-- Entries of other names are passed, and their names are known from then on. -/
theorem findAmong_append (others : ∀ entry ∈ before, bodyName? entry ≠ some name)
    (rest : List FileName) (known : List String) :
    findAmong name (before ++ rest) known =
      findAmong name rest (known ++ before.filterMap bodyName?) := by
  induction before generalizing known with
  | nil => simp
  | cons entry before ih =>
      obtain ⟨here, others⟩ := List.forall_mem_cons.mp others
      rw [List.cons_append, findAmong_cons]
      cases held : bodyName? entry with
      | none => simp [ih others, held]
      | some stem =>
          have apart : stem ≠ name := fun same => here (held.trans (congrArg some same))
          simp [apart, ih others, held]

/-- The search ends at the first entry of the wanted name. -/
theorem run_findAmong_of_named (named : bodyName? entry = some name)
    (rest : List FileName) (known : List String) (host : Host σ) :
    ((findAmong name (entry :: rest) known).run host).1 =
      match bodyAt host.files (namedBodies.entry entry) with
      | .ok body => .ok body
      | .error _ => .error (inOrder known) := by
  rw [findAmong_cons, named]
  simp only [↓reduceIte, Session.run_bind, run_readBody]
  cases bodyAt host.files (namedBodies.entry entry) with
  | ok body => rfl
  | error error => rfl

theorem run_findBody (name : String) (host : Host σ) :
    ((findBody name).run host).1 =
      match Samples.all.find? (·.name = name) with
      | some body => .ok body
      | none => ((findAmong name (bodyEntries host.files) Samples.names).run host).1 := by
  unfold findBody bodyEntries
  cases Samples.all.find? (·.name = name) with
  | some body => rfl
  | none =>
      simp only [Session.run_bind, Session.run_listDirectory]
      cases FileSystem.list host.files namedBodies with
      | ok entries => rfl
      | error error => rfl

theorem split_at_name (entries : List FileName) (name : String) :
    (∀ entry ∈ entries, bodyName? entry ≠ some name) ∨
      ∃ before entry after, entries = before ++ entry :: after ∧
        (∀ earlier ∈ before, bodyName? earlier ≠ some name) ∧ bodyName? entry = some name := by
  cases found : entries.find? fun entry => bodyName? entry = some name with
  | none => exact .inl (by simpa using found)
  | some entry =>
      obtain ⟨named, before, after, whole, earlier⟩ := List.find?_eq_some_iff_append.mp found
      exact .inr ⟨before, entry, after, whole, by simpa using earlier, by simpa using named⟩

theorem otherNames_append (before after : List FileName) (name : String) :
    otherNames (before ++ after) name = otherNames before name ++ otherNames after name := by
  simp [otherNames]

theorem otherNames_cons (named : bodyName? entry = some name) (after : List FileName) :
    otherNames (entry :: after) name = otherNames after name := by
  simp [otherNames, named]

theorem otherNames_of_others (others : ∀ entry ∈ before, bodyName? entry ≠ some name) :
    otherNames before name = before.filterMap bodyName? := by
  rw [otherNames, List.filter_eq_self]
  intro stem member
  obtain ⟨entry, inside, held⟩ := List.mem_filterMap.mp member
  have apart : stem ≠ name := fun same => others entry inside (held.trans (congrArg some same))
  simpa using apart

theorem namesAfter_eq_nil {entries : List FileName} (alone : otherNames entries name = []) :
    namesAfter entries name = [] := by
  have part : (namesAfter entries name).Sublist (otherNames entries name) :=
    ((List.dropWhile_sublist _).filterMap bodyName?).filter _
  rw [alone] at part
  exact List.sublist_nil.mp part

theorem namesAfter_split (others : ∀ earlier ∈ before, bodyName? earlier ≠ some name)
    (named : bodyName? entry = some name) (after : List FileName) :
    namesAfter (before ++ entry :: after) name = otherNames after name := by
  have passed : ∀ earlier ∈ before, decide (bodyName? earlier ≠ some name) = true := by
    simpa using others
  rw [namesAfter, List.dropWhile_append_of_pos passed, List.dropWhile_cons_of_neg (by simp [named]),
    otherNames_cons named]

end Search

section Answer

variable {files : σ} {name : String} {entry : FileName} {before after : List FileName} {body : Body}
variable {answer : Except (List String) Body}

theorem mem_names_of_sample (known : body ∈ Samples.all) (named : body.name = name) :
    name ∈ Samples.names := by
  rw [← named]
  exact List.mem_map_of_mem known

theorem sample_eq (known : body ∈ Samples.all) :
    Samples.all.find? (·.name = body.name) = some body := by
  have each : ∀ body ∈ Samples.all, Samples.all.find? (·.name = body.name) = some body := by
    decide +kernel
  exact each body known

theorem no_sample (unknown : name ∉ Samples.names) :
    Samples.all.find? (·.name = name) = none := by
  rw [List.find?_eq_none]
  intro body known
  have apart : body.name ≠ name := fun same => unknown (mem_names_of_sample known same)
  simpa using apart

theorem findBody_of_sample (known : body ∈ Samples.all) (host : Host σ) :
    ((findBody body.name).run host).1 = .ok body := by
  rw [run_findBody, sample_eq known]

theorem findBody_of_absent (host : Host σ) (unknown : name ∉ Samples.names)
    (absent : ∀ entry ∈ bodyEntries host.files, bodyName? entry ≠ some name) :
    ((findBody name).run host).1 =
      .error (inOrder (Samples.names ++ otherNames (bodyEntries host.files) name)) := by
  have passed := findAmong_append absent [] Samples.names
  rw [List.append_nil] at passed
  rw [run_findBody, no_sample unknown, otherNames_of_others absent]
  simp only [passed, findAmong, Session.run_pure]

theorem findBody_of_first (host : Host σ) (unknown : name ∉ Samples.names)
    (whole : bodyEntries host.files = before ++ entry :: after)
    (others : ∀ earlier ∈ before, bodyName? earlier ≠ some name)
    (named : bodyName? entry = some name) :
    ((findBody name).run host).1 =
      match bodyAt host.files (namedBodies.entry entry) with
      | .ok body => .ok body
      | .error _ => .error (inOrder (Samples.names ++ otherNames before name)) := by
  rw [run_findBody, no_sample unknown, otherNames_of_others others]
  simp only [whole, findAmong_append others, run_findAmong_of_named named]

/-- No sample has this name, and the file that has it holds no body. -/
structure Unreadable (files : σ) (name : String) : Prop where
  unknown : name ∉ Samples.names
  file : ∃ entry ∈ bodyEntries files, bodyName? entry = some name ∧
    ∃ error, bodyAt files (namedBodies.entry entry) = .error error

/-- What is to be found under a name: the sample, else the body in the file of that name, else all
other names that there are, in order. -/
inductive Finds (files : σ) (name : String) : Except (List String) Body → Prop
  | sample {body : Body} (known : body ∈ Samples.all) (named : body.name = name) :
      Finds files name (.ok body)
  | file {entry : FileName} {body : Body} (unknown : name ∉ Samples.names)
      (listed : entry ∈ bodyEntries files) (named : bodyName? entry = some name)
      (holds : bodyAt files (namedBodies.entry entry) = .ok body) : Finds files name (.ok body)
  | names {names : List String} (unknown : name ∉ Samples.names)
      (unread : ∀ entry ∈ bodyEntries files, bodyName? entry = some name →
        ∀ body, bodyAt files (namedBodies.entry entry) ≠ .ok body)
      (sorted : names.Pairwise (· ≤ ·))
      (complete : names.Perm (Samples.names ++ otherNames (bodyEntries files) name)) :
      Finds files name (.error names)

/-- An answer without a body misses just the names that are listed after the unreadable file. -/
theorem findBody_of_unreadable (host : Host σ) (unreadable : Unreadable host.files name) :
    ∃ names, ((findBody name).run host).1 = .error names ∧ names.Pairwise (· ≤ ·) ∧
      (names ++ namesAfter (bodyEntries host.files) name).Perm
        (Samples.names ++ otherNames (bodyEntries host.files) name) := by
  obtain ⟨wanted, listed, wantedNamed, error, fails⟩ := unreadable.file
  rcases split_at_name (bodyEntries host.files) name with
    absent | ⟨before, entry, after, whole, others, named⟩
  · exact absurd wantedNamed (absent wanted listed)
  · obtain rfl := entry_unique wantedNamed named
    have found := findBody_of_first host unreadable.unknown whole others named
    rw [fails] at found
    refine ⟨_, found, inOrder_sorted _, ?_⟩
    have all : otherNames (bodyEntries host.files) name =
        otherNames before name ++ namesAfter (bodyEntries host.files) name := by
      rw [whole, namesAfter_split others named, otherNames_append, otherNames_cons named]
    rw [all, ← List.append_assoc]
    exact (inOrder_perm _).append_right _

/-- The answer is right unless names are listed after an unreadable file. -/
theorem finds_of_none_missing (host : Host σ)
    (none : Unreadable host.files name → namesAfter (bodyEntries host.files) name = []) :
    Finds host.files name ((findBody name).run host).1 := by
  rcases Decidable.em (name ∈ Samples.names) with sampled | unknown
  · obtain ⟨body, known, rfl⟩ := List.mem_map.mp sampled
    rw [findBody_of_sample known]
    exact .sample known rfl
  rcases split_at_name (bodyEntries host.files) name with
    absent | ⟨before, entry, after, whole, others, named⟩
  · rw [findBody_of_absent host unknown absent]
    apply Finds.names unknown _ (inOrder_sorted _) (inOrder_perm _)
    intro entry listed named
    exact absurd named (absent entry listed)
  · have listed : entry ∈ bodyEntries host.files := by simp [whole]
    cases holds : bodyAt host.files (namedBodies.entry entry) with
    | ok body =>
        rw [findBody_of_first host unknown whole others named, holds]
        exact .file unknown listed named holds
    | error error =>
        have unreadable : Unreadable host.files name :=
          ⟨unknown, entry, listed, named, error, holds⟩
        obtain ⟨names, found, sorted, complete⟩ := findBody_of_unreadable host unreadable
        rw [none unreadable, List.append_nil] at complete
        rw [found]
        refine .names unknown ?_ sorted complete
        intro other alsoListed alsoNamed
        rw [entry_unique alsoNamed named, holds]
        simp

theorem none_missing_of_finds (host : Host σ)
    (finds : Finds host.files name ((findBody name).run host).1)
    (unreadable : Unreadable host.files name) : namesAfter (bodyEntries host.files) name = [] := by
  obtain ⟨names, found, sorted, complete⟩ := findBody_of_unreadable host unreadable
  rw [found] at finds
  cases finds with
  | names _ _ _ whole =>
      have many := complete.length_eq
      have few := whole.length_eq
      rw [List.length_append] at many
      apply List.eq_nil_of_length_eq_zero
      omega

/-- There is only one right answer. -/
theorem Finds.unique {again : Except (List String) Body} (finds : Finds files name answer)
    (findsAgain : Finds files name again) : answer = again := by
  cases finds with
  | sample known named =>
      cases findsAgain with
      | sample alsoKnown same =>
          have found := sample_eq alsoKnown
          rw [same, ← named, sample_eq known] at found
          exact congrArg Except.ok (Option.some.inj found)
      | file unknown _ _ _ => exact absurd (mem_names_of_sample known named) unknown
      | names unknown _ _ _ => exact absurd (mem_names_of_sample known named) unknown
  | file unknown listed named holds =>
      cases findsAgain with
      | sample known same => exact absurd (mem_names_of_sample known same) unknown
      | file _ alsoListed alsoNamed alsoHolds =>
          rw [entry_unique named alsoNamed, alsoHolds] at holds
          cases holds
          rfl
      | names _ unread _ _ => exact absurd holds (unread _ listed named _)
  | names unknown unread sorted complete =>
      cases findsAgain with
      | sample known same => exact absurd (mem_names_of_sample known same) unknown
      | file _ listed named holds => exact absurd holds (unread _ listed named _)
      | names _ _ alsoSorted alsoComplete =>
          have ordered := List.Perm.eq_of_pairwise (fun _ _ _ _ => String.le_antisymm) sorted
            alsoSorted (complete.trans alsoComplete.symm)
          exact congrArg Except.error ordered

theorem otherNames_perm (same : before.Perm after) (name : String) :
    (otherNames before name).Perm (otherNames after name) := (same.filterMap _).filter _

end Answer

section Order

variable {files other : FileTree} {world : World} {name : String} {entry : FileName}
variable {answer : Except (List String) Body}

theorem bodyEntries_eq_of_resolve {location : Location}
    (led : files.resolve namedBodies = .ok (.directory location)) :
    bodyEntries files = files.names location := by
  have listed : FileSystem.list files namedBodies = .ok (files.names location) :=
    FileTree.list_eq_ok_iff.mpr ⟨location, led, rfl⟩
  rw [bodyEntries, listed]

theorem bodyEntries_cases (files : FileTree) :
    (∃ location, files.resolve namedBodies = .ok (.directory location)) ∨
      ∀ other, files.Reordered other → bodyEntries other = [] := by
  by_cases led : ∃ location, files.resolve namedBodies = .ok (.directory location)
  · exact .inl led
  · refine .inr fun other same => ?_
    unfold bodyEntries
    split
    · rename_i entries listed
      obtain ⟨location, led', -⟩ := FileTree.list_eq_ok_iff.mp listed
      rw [same.resolve_eq] at led'
      exact absurd ⟨location, led'⟩ led
    · rfl

theorem bodyEntries_perm (same : files.Reordered other) :
    (bodyEntries other).Perm (bodyEntries files) := by
  rcases bodyEntries_cases files with ⟨location, led⟩ | none
  · have again : other.resolve namedBodies = .ok (.directory location) := by
      rw [same.resolve_eq, led]
    rw [bodyEntries_eq_of_resolve led, bodyEntries_eq_of_resolve again]
    exact same.names_perm location
  · rw [none other same, none files ⟨rfl, .refl _⟩]

theorem bodyEntries_nodup (files : FileTree) : (bodyEntries files).Nodup := by
  rcases bodyEntries_cases files with ⟨location, led⟩ | none
  · rw [bodyEntries_eq_of_resolve led]
    exact files.names_nodup location
  · rw [none files ⟨rfl, .refl _⟩]
    exact List.nodup_nil

theorem exists_bodyEntries (listed : entry ∈ bodyEntries files) :
    ∃ (first last : FileTree) (rest : List FileName), files.Reordered first ∧
      files.Reordered last ∧ bodyEntries first = entry :: rest ∧
        bodyEntries last = rest ++ [entry] := by
  rcases bodyEntries_cases files with ⟨location, led⟩ | none
  · rw [bodyEntries_eq_of_resolve led] at listed
    obtain ⟨first, last, rest, toFirst, toLast, listedFirst, listedLast⟩ :=
      FileTree.exists_first_last listed
    refine ⟨first, last, rest, toFirst, toLast, ?_, ?_⟩
    · rw [bodyEntries_eq_of_resolve (toFirst.resolve_eq ▸ led), listedFirst]
    · rw [bodyEntries_eq_of_resolve (toLast.resolve_eq ▸ led), listedLast]
  · rw [none files ⟨rfl, .refl _⟩] at listed
    cases listed

theorem others_of_cons {after : List FileName} (listed : bodyEntries files = entry :: after)
    (named : bodyName? entry = some name) : ∀ other ∈ after, bodyName? other ≠ some name := by
  have once := bodyEntries_nodup files
  rw [listed, List.nodup_cons] at once
  intro other member alsoNamed
  rw [entry_unique alsoNamed named] at member
  exact once.1 member

theorem Unreadable.reordered (unreadable : Unreadable files name)
    (same : files.Reordered other) : Unreadable other name := by
  obtain ⟨unknown, entry, listed, named, error, fails⟩ := unreadable
  refine ⟨unknown, entry, (bodyEntries_perm same).mem_iff.mpr listed, named, error, ?_⟩
  rw [same.bodyAt_eq]
  exact fails

theorem Finds.reordered (finds : Finds files name answer) (same : files.Reordered other) :
    Finds other name answer := by
  have entries := bodyEntries_perm same
  have read := same.bodyAt_eq
  cases finds with
  | sample known named => exact .sample known named
  | file unknown listed named holds =>
      rw [← read] at holds
      exact .file unknown (entries.mem_iff.mpr listed) named holds
  | names unknown unread sorted complete =>
      refine .names unknown ?_ sorted (complete.trans ?_)
      · intro entry listed named
        rw [read]
        exact unread entry (entries.mem_iff.mp listed) named
      · exact (otherNames_perm entries.symm name).append_left _

/-- If there is no name that could be missing, the order of the entries makes no difference. -/
theorem findBody_reordered (same : world.files.Reordered files)
    (alone : Unreadable world.files name → otherNames (bodyEntries world.files) name = []) :
    ((findBody name).run { world with files }).1 = ((findBody name).run world).1 := by
  have one := finds_of_none_missing world fun unreadable => namesAfter_eq_nil (alone unreadable)
  have two : Finds files name ((findBody name).run { world with files }).1 := by
    apply finds_of_none_missing { world with files }
    intro unreadable
    have others := otherNames_perm (bodyEntries_perm same) name
    rw [alone (unreadable.reordered same.symm)] at others
    exact namesAfter_eq_nil others.eq_nil
  exact (two.reordered same.symm).unique one

/-- An unreadable file that is listed first hides all other names, and one that is listed last none
of them. -/
theorem alone_of_reordered
    (same : ∀ files : FileTree, world.files.Reordered files →
      ((findBody name).run { world with files }).1 = ((findBody name).run world).1)
    (unreadable : Unreadable world.files name) :
    otherNames (bodyEntries world.files) name = [] := by
  obtain ⟨entry, listed, named, -⟩ := unreadable.file
  obtain ⟨first, last, rest, toFirst, toLast, listedFirst, listedLast⟩ := exists_bodyEntries listed
  have others := others_of_cons listedFirst named
  obtain ⟨shown, foundFirst, -, hidden⟩ :=
    findBody_of_unreadable { world with files := first } (unreadable.reordered toFirst)
  obtain ⟨all, foundLast, -, complete⟩ :=
    findBody_of_unreadable { world with files := last } (unreadable.reordered toLast)
  -- Both orders give one answer, so it lacks all other names and none of them.
  rw [same first toFirst] at foundFirst
  rw [same last toLast, foundFirst] at foundLast
  cases foundLast
  have behindFirst : namesAfter (bodyEntries first) name = otherNames (bodyEntries first) name := by
    rw [listedFirst, otherNames_cons named]
    exact namesAfter_split (List.forall_mem_nil _) named rest
  have behindLast : namesAfter (bodyEntries last) name = [] := by
    rw [listedLast, namesAfter_split others named]
    rfl
  have sizeFirst := (otherNames_perm (bodyEntries_perm toFirst) name).length_eq
  have sizeLast := (otherNames_perm (bodyEntries_perm toLast) name).length_eq
  have few := hidden.length_eq
  have many := complete.length_eq
  simp only [behindFirst, behindLast, List.length_append, List.length_nil] at few many
  apply List.eq_nil_of_length_eq_zero
  omega

/-- Finding a body gives what it should unless names are listed after an unreadable file of the
wanted name. Just those names are missing then, so the order of the entries makes no difference
exactly if there are no other names at all whenever the wanted file is unreadable. -/
theorem findBody_right_iff (world : World) (name : String) :
    let entries := bodyEntries world.files
    let answer := ((findBody name).run world).1
    (Finds world.files name answer ↔
        (Unreadable world.files name → namesAfter entries name = [])) ∧
      (Unreadable world.files name → ∃ names, answer = .error names ∧ names.Pairwise (· ≤ ·) ∧
        (names ++ namesAfter entries name).Perm (Samples.names ++ otherNames entries name)) ∧
      ((∀ files : FileTree, world.files.Reordered files →
          ((findBody name).run { world with files }).1 = answer) ↔
        (Unreadable world.files name → otherNames entries name = [])) := by
  intro entries answer
  refine ⟨⟨none_missing_of_finds world, finds_of_none_missing world⟩,
    findBody_of_unreadable world, alone_of_reordered, ?_⟩
  intro alone files same
  exact findBody_reordered same alone

/-- A directory that lists a file without a body before one with a body. -/
def unreadableFirst : FileTree where
  here := []
  entries :=
    [([⟨[116, 101, 115, 116, 115], by decide⟩], .directory),
      ([⟨[116, 101, 115, 116, 115], by decide⟩, ⟨[120, 46, 116, 114, 97, 112], by decide⟩],
        .file [63]),
      ([⟨[116, 101, 115, 116, 115], by decide⟩, ⟨[121, 46, 116, 114, 97, 112], by decide⟩],
        .file [110, 111, 112])]
  once := by decide

def unreadableLast : FileTree :=
  unreadableFirst.reorder unreadableFirst.entries.reverse (List.reverse_perm _)

/-- Nothing is missing if the unreadable file comes last. -/
theorem findBody_right_unreadable_last :
    Unreadable unreadableLast "x" ∧
      Finds unreadableLast "x" ((findBody "x").run { files := unreadableLast }).1 := by
  have unreadable : Unreadable unreadableLast "x" := by
    refine ⟨by decide +kernel, ⟨[120, 46, 116, 114, 97, 112], by decide⟩, by decide +kernel,
      by decide +kernel, .text ⟨1, .expectedWord⟩, by decide +kernel⟩
  have none : namesAfter (bodyEntries unreadableLast) "x" = [] := by decide +kernel
  exact ⟨unreadable, (findBody_right_iff { files := unreadableLast } "x").1.mpr fun _ => none⟩

/-- A known name is missing if the unreadable file comes first, and is there if it comes last. -/
theorem findBody_wrong_unreadable_first :
    unreadableFirst.Reordered unreadableLast ∧
      ((findBody "x").run { files := unreadableFirst }).1 = .error (inOrder Samples.names) ∧
      ((findBody "x").run { files := unreadableLast }).1 =
        .error (inOrder (Samples.names ++ ["y"])) ∧
      ¬ Finds unreadableFirst "x" ((findBody "x").run { files := unreadableFirst }).1 := by
  let wanted : FileName := ⟨[120, 46, 116, 114, 97, 112], by decide⟩
  let known : FileName := ⟨[121, 46, 116, 114, 97, 112], by decide⟩
  have unknown : "x" ∉ Samples.names := by decide +kernel
  have named : bodyName? wanted = some "x" := by decide +kernel
  have other : ∀ earlier ∈ [known], bodyName? earlier ≠ some "x" := by decide +kernel
  have listed : bodyEntries unreadableFirst = [] ++ wanted :: [known] := by decide +kernel
  have listedLast : bodyEntries unreadableLast = [known] ++ wanted :: [] := by decide +kernel
  have fails : bodyAt unreadableFirst (namedBodies.entry wanted) =
      .error (.text ⟨1, .expectedWord⟩) := by
    decide +kernel
  have failsLast : bodyAt unreadableLast (namedBodies.entry wanted) =
      .error (.text ⟨1, .expectedWord⟩) := by
    decide +kernel
  have found := findBody_of_first { files := unreadableFirst } unknown listed
    (List.forall_mem_nil _) named
  have foundLast := findBody_of_first { files := unreadableLast } unknown listedLast other named
  have earlier : otherNames [known] "x" = ["y"] := by decide +kernel
  have nothing : otherNames [] "x" = [] := rfl
  rw [fails, nothing, List.append_nil] at found
  rw [failsLast, earlier] at foundLast
  refine ⟨⟨rfl, List.reverse_perm _⟩, found, foundLast, ?_⟩
  rw [found]
  intro finds
  cases finds with
  | names _ _ _ complete =>
      have expected : "y" ∈ Samples.names ++ otherNames (bodyEntries unreadableFirst) "x" := by
        decide +kernel
      have hidden : "y" ∉ Samples.names := by decide +kernel
      rw [← complete.mem_iff, (inOrder_perm _).mem_iff] at expected
      exact hidden expected

end Order

end DisjointTraps
