import DisjointTraps.Proofs.Binary
import DisjointTraps.Proofs.Command
import DisjointTraps.Proofs.World
import Mathlib.Data.List.Perm.Subperm

set_option autoImplicit false

namespace DisjointTraps

variable {σ : Type} [FileSystem σ]

theorem length_le_of_nodup {words : List UInt32} (distinct : words.Nodup) :
    words.length ≤ 2 ^ 32 := by
  have numbers : (words.map UInt32.toNat).Nodup :=
    distinct.map fun _ _ same => UInt32.toNat_inj.mp same
  have bounded : words.map UInt32.toNat ⊆ List.range (2 ^ 32) := by
    intro number member
    obtain ⟨word, -, rfl⟩ := List.mem_map.mp member
    exact List.mem_range.mpr word.toNat_lt
  have short := (List.subperm_of_subset numbers bounded).length_le
  rwa [List.length_map, List.length_range] at short

theorem Apart.firsts_nodup {ε : Type} {blocks : List (TryBlock ε)} (apart : Apart blocks) :
    (blocks.map (·.span.first)).Nodup := by
  rw [List.Nodup, List.pairwise_map]
  apply apart.ordered.imp_of_mem
  intro block later member _ before same
  have grows := apart.nonempty block member
  rw [← same] at before
  exact absurd (UInt32.lt_of_lt_of_le grows before) (UInt32.lt_irrefl _)

theorem Dispatch.Distinct.length_le {list : Dispatch ExceptionType} (distinct : list.Distinct) :
    list.length ≤ 2 ^ 32 := by
  have numbers : ((list.map (·.exception)).map ExceptionType.number).Nodup := by
    apply List.Nodup.map ?_ distinct
    rintro ⟨one⟩ ⟨two⟩ rfl
    rfl
  simpa using length_le_of_nodup numbers

/-- Positions and exception types are numbers of 32 bits, so a legal table has far fewer blocks and
handlers than its binary form can announce. -/
theorem Legal.lengthsFit {rule : BoundaryRule} {count : Position} {table : Table ExceptionType}
    (legal : Legal rule count table.blocks) : table.LengthsFit := by
  have small : 2 ^ 32 < 2 ^ 64 := by decide
  constructor
  · have firsts := length_le_of_nodup legal.firsts_nodup
    rw [List.length_map] at firsts
    exact Nat.lt_of_le_of_lt firsts small
  · intro block member
    exact Nat.lt_of_le_of_lt (legal.distinct block member).length_le small

theorem Body.decode?_encode_split {body : Body} {options : SplitOptions}
    {table : Table ExceptionType} (done : body.split options = .ok table) :
    Table.decode? table.encode = some table := by
  have fit := (splits_of_split_eq done).2.lengthsFit
  exact (Table.decode?_eq_some_iff _ table).mpr ⟨fit, List.prefix_rfl⟩

/-- A file can be created at a path with any content, and this is what is read from it then. -/
def Writable (files : σ) (path : Path) : Prop :=
  ∀ content, (FileSystem.create files path content).1 = .ok () ∧
    FileSystem.read (FileSystem.create files path content).2 path = .ok content

/-- What has been created in a tree is read back, so only creating can fail. -/
theorem FileTree.writable {tree : FileTree} {path : Path} {begin : Node} {location : Location}
    {name : FileName} (creates : tree.Creates path begin location name) : Writable tree path := by
  intro content
  let grown := tree.put (location ++ [name]) (.file content)
  have done : tree.create path content = .ok grown :=
    create_eq_ok_iff.mpr ⟨begin, location, name, creates, rfl⟩
  have created : FileSystem.create tree path content = (.ok (), grown) := by
    simp only [FileSystem.create, done]
  rw [created]
  exact ⟨rfl, read_create done⟩

namespace Command

variable {files : σ} {found : Matches} {body : Body} {options : SplitOptions}
variable {table : Table ExceptionType} {path : String}

def closing (body : Body) (table : Table ExceptionType) : String :=
  "\n" ++ Body.render "after splitting" { body with traps := table.toTraps }

theorem effect_showResult (valid : body.Valid) (done : body.split options = .ok table)
    (files : σ) : (showResult body table).effect files = ⟨.success, files, closing body table⟩ := by
  obtain ⟨installed, equal⟩ := valid.install?_eq done
  simp only [showResult, installed, display, closing, equal, Session.effect_bind,
    Session.effect_say, Session.effect_pure, Session.Effect.after, String.append_empty, ↓reduceIte]

theorem effect_splitAndWrite (valid : body.Valid) (done : body.split options = .ok table)
    (created : (FileSystem.create files path table.encode).1 = .ok ()) :
    (splitAndWrite body options (some path)).effect files =
      ⟨.success, (FileSystem.create files path table.encode).2, closing body table⟩ := by
  simp only [splitAndWrite, Session.effect_bind, effect_splitLogged, done, writeResult,
    Session.effect_createFile, created, effect_showResult valid done, Session.Effect.after_empty]

theorem effect_splitAndWrite_refused {p : Position} {before after : Dispatch ExceptionType}
    (refused : body.split options = .error (.illegalSplit p before after))
    (output : Option String) (files : σ) :
    (splitAndWrite body options output).effect files =
      ⟨.failure, files, "splitting failed: " ++
        (SplitError.illegalSplit p before after).message ++ "\n"⟩ := by
  simp only [splitAndWrite, Session.effect_bind, effect_splitLogged, refused, Session.effect_say,
    Session.effect_pure, Session.Effect.after, String.empty_append, String.append_empty]

structure Matches.Yields (found : Matches) (files : σ) (body : Body)
    (table : Table ExceptionType) : Prop where
  asked : found.body? files = some body
  clean : body.fault? = none
  split : body.split found.options.splitting = .ok table

theorem effect_fulfil_of_yields (consistent : found.Consistent) (named : found.output = some path)
    (yields : found.Yields files body table)
    (created : (FileSystem.create files path table.encode).1 = .ok ()) :
    found.fulfil.effect files =
      ⟨.success, (FileSystem.create files path table.encode).2,
        preamble body found.differential ++ closing body table⟩ := by
  have valid := body.fault?_eq_none_iff.mp yields.clean
  have done : body.split {} = .ok table := by
    rw [body.split_eq {} found.options.splitting, yields.split]
  rw [effect_fulfil_of_some consistent yields.asked, effect_splitOne valid, named,
    effect_splitAndWrite valid done created]
  rfl

theorem effect_fulfil_of_not_yields (consistent : found.Consistent)
    (single : found.directory = none) (fails : ¬ ∃ body table, found.Yields files body table) :
    (found.fulfil.effect files).result = .failure ∧
      (found.fulfil.effect files).files = files := by
  cases asked : found.body? files with
  | none =>
      rw [effect_fulfil_of_none consistent single asked]
      exact ⟨rfl, rfl⟩
  | some body =>
      rw [effect_fulfil_of_some consistent asked]
      cases clean : body.fault? with
      | some fault =>
          rw [effect_splitOne_invalid clean]
          exact ⟨rfl, rfl⟩
      | none =>
          have valid := body.fault?_eq_none_iff.mp clean
          rcases valid.split_cases {} with ⟨table, done⟩ | ⟨p, before, after, refused⟩
          · rw [body.split_eq {} found.options.splitting] at done
            exact absurd ⟨body, table, asked, clean, done⟩ fails
          · rw [effect_splitOne valid, effect_splitAndWrite_refused refused]
            exact ⟨rfl, rfl⟩

/-- With an output file that can be written, the program succeeds exactly if there is a body and it
is valid and has a table. The file then holds the table and nothing else, and what is read from it
are the traps that have been printed. In all other cases the program fails and no file has been
changed. -/
theorem output_all_or_nothing {Line : Type} (parser : ArgumentParser Line) {line : Line}
    (accepted : parser.parse line = .ok found) (named : found.output = some path) (host : Host σ)
    (writable : Writable host.files path) :
    let outcome := (runWith parser line).run host
    (outcome.1 = .success ↔ ∃ body table, found.Yields host.files body table) ∧
    (∀ body table, found.Yields host.files body table →
      outcome.2.files = (FileSystem.create host.files path table.encode).2 ∧
      FileSystem.read outcome.2.files path = .ok table.encode ∧
      ∃ decoded after, Table.decode? table.encode = some decoded ∧
        after = { body with traps := decoded.toTraps } ∧
        outcome.2.printed = host.printed ++ preamble body found.differential ++ "\n" ++
          after.render "after splitting") ∧
    ((¬ ∃ body table, found.Yields host.files body table) →
      outcome.1 = .failure ∧ outcome.2.files = host.files) := by
  intro outcome
  have consistent := parser.consistent accepted
  have single : found.directory = none := by
    rw [← Option.not_isSome_iff_eq_none]
    intro several
    rw [(consistent.directory several).2.2] at named
    cases named
  obtain ⟨code, files, printed⟩ := run_runWith accepted host
  have fails : (¬ ∃ body table, found.Yields host.files body table) →
      outcome.1 = .failure ∧ outcome.2.files = host.files := by
    intro none
    obtain ⟨failed, unchanged⟩ := effect_fulfil_of_not_yields consistent single none
    exact ⟨code.trans failed, files.trans unchanged⟩
  refine ⟨⟨?_, ?_⟩, ?_, fails⟩
  · intro success
    by_contra none
    rw [(fails none).1] at success
    exact absurd success (by decide)
  · rintro ⟨body, table, yields⟩
    rw [effect_fulfil_of_yields consistent named yields (writable table.encode).1] at code
    exact code
  · intro body table yields
    obtain ⟨created, reads⟩ := writable table.encode
    rw [effect_fulfil_of_yields consistent named yields created] at files printed
    refine ⟨files, files ▸ reads, table, _, Body.decode?_encode_split yields.split, rfl, ?_⟩
    exact printed.trans (by simp only [closing, String.append_assoc])

/-- A sample body with a trap inside another, written to a file that is named from the root. -/
theorem output_all_or_nothing_nested :
    let outcome := (run ["-t", "nested", "-o", "/tmp/table"]).run { files := FileTree.empty }
    let table : Table ExceptionType := ⟨12,
      [⟨⟨0, 1⟩, [⟨⟨1⟩, 9⟩]⟩, ⟨⟨1, 5⟩, [⟨⟨0⟩, 7⟩, ⟨⟨1⟩, 9⟩]⟩, ⟨⟨5, 7⟩, [⟨⟨1⟩, 9⟩]⟩]⟩
    outcome.1 = .success ∧ outcome.2.files.read "/tmp/table" = .ok table.encode := by
  intro outcome table
  have accepted : reader.parse ["-t", "nested", "-o", "/tmp/table"] =
      .ok { test := some "nested", output := some "/tmp/table" } := by decide +kernel
  let tmp : FileName := ⟨[116, 109, 112], by decide⟩
  let name : FileName := ⟨[116, 97, 98, 108, 101], by decide⟩
  have absent : FileTree.empty.find? ([tmp] ++ [name]) = none := by decide +kernel
  have creates : FileTree.empty.Creates "/tmp/table" (.directory []) [tmp] name :=
    { begun := by decide +kernel
      walked := by decide +kernel
      last := by decide +kernel
      short := by decide
      free := by
        rw [absent]
        nofun
      usable := by
        rw [absent]
        nofun }
  have yields : Matches.Yields { test := some "nested", output := some "/tmp/table" }
      FileTree.empty Samples.nested table := by
    refine ⟨by rfl, by decide, ?_⟩
    rw [Body.split_eq _ _ ⟨.instructionwise, false⟩]
    decide +kernel
  obtain ⟨succeeds, written, -⟩ :=
    output_all_or_nothing reader accepted rfl { files := FileTree.empty }
      (FileTree.writable creates)
  exact ⟨succeeds.mpr ⟨_, _, yields⟩, (written _ _ yields).2.1⟩

end Command

end DisjointTraps
