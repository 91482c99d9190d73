import DisjointTraps.Command.Run
import DisjointTraps.Proofs.Batch

set_option autoImplicit false

namespace DisjointTraps

variable {σ : Type} [FileSystem σ]

theorem Session.effect_eq {α : Type} (session : Session α) (files : σ) :
    session.effect files =
      ⟨(session.run { files }).1, (session.run { files }).2.files,
        (session.run { files }).2.printed⟩ := by
  obtain ⟨result, left, printed⟩ := session.run_eq_effect { files }
  rw [result, left, printed, String.empty_append]

namespace Command

variable {files : σ} {body : Body} {found : Matches}

/-- The items that say how to split and what to check, not what to split or where to write. -/
def Item.isCheck : Item → Bool
  | .value .algorithm _ | .flag .checker | .flag .differential => true
  | _ => false

theorem valueOf_filter (option : ValueOption) (about : option ≠ .algorithm) (items : List Item) :
    valueOf option (items.filter (!·.isCheck)) = valueOf option items := by
  have same : (items.filter (!·.isCheck)).filterMap (Item.valueFor? option) =
      items.filterMap (Item.valueFor? option) := by
    rw [List.filterMap_filter]
    congr 1
    funext item
    cases item with
    | flag flag => simp [Item.valueFor?]
    | value given text =>
        cases given with
        | algorithm => simp [Item.isCheck, Item.valueFor?, about.symm]
        | _ => simp [Item.isCheck, Item.valueFor?]
  rw [valueOf, same]
  rfl

/-- The same matches apart from how to split and what to check. -/
def Matches.checking (found : Matches) (algorithm : Option String) (checker differential : Bool) :
    Matches :=
  { found with algorithm, checker, differential }

theorem collect_eq_ok {items : List Item} (given : collect items = .ok found) :
    valueOf .test items = .ok found.test ∧ valueOf .file items = .ok found.file ∧
      valueOf .directory items = .ok found.directory ∧
      valueOf .output items = .ok found.output := by
  unfold collect at given
  obtain ⟨test, tested, given⟩ := Text.Source.bind_eq_ok given
  obtain ⟨file, filed, given⟩ := Text.Source.bind_eq_ok given
  obtain ⟨directory, listed, given⟩ := Text.Source.bind_eq_ok given
  obtain ⟨algorithm, -, given⟩ := Text.Source.bind_eq_ok given
  obtain ⟨checker, -, given⟩ := Text.Source.bind_eq_ok given
  obtain ⟨differential, -, given⟩ := Text.Source.bind_eq_ok given
  obtain ⟨output, written, given⟩ := Text.Source.bind_eq_ok given
  cases given
  exact ⟨tested, filed, listed, written⟩

/-- Two lists of words whose items differ in how to split and what to check alone give matches that
differ in nothing else. -/
theorem reader_checking {words other : List String} {items others : List Item} {altered : Matches}
    (read : readItems none words = .ok items) (reread : readItems none other = .ok others)
    (same : items.filter (!·.isCheck) = others.filter (!·.isCheck))
    (accepted : reader.parse words = .ok found) (also : reader.parse other = .ok altered) :
    altered = found.checking altered.algorithm altered.checker altered.differential := by
  have values : ∀ option, option ≠ .algorithm → valueOf option others = valueOf option items := by
    intro option about
    rw [← valueOf_filter option about, ← same, valueOf_filter option about]
  have collects : ∀ {words items found}, readItems none words = .ok items →
      reader.parse words = .ok found → collect items = .ok found := by
    intro words items found read accepted
    change (readItems none words >>= fun items => collect items >>= Matches.check) = _ at accepted
    obtain ⟨all, again, accepted⟩ := Text.Source.bind_eq_ok accepted
    obtain rfl := Except.ok.inj (read.symm.trans again)
    obtain ⟨collected, given, accepted⟩ := Text.Source.bind_eq_ok accepted
    rwa [(Matches.check_eq_ok accepted).1]
  obtain ⟨test, file, directory, output⟩ := collect_eq_ok (collects read accepted)
  obtain ⟨tests, reads, lists, writes⟩ := collect_eq_ok (collects reread also)
  rw [values _ (by decide), test] at tests
  rw [values _ (by decide), file] at reads
  rw [values _ (by decide), directory] at lists
  rw [values _ (by decide), output] at writes
  cases found
  cases altered
  simp only [Except.ok.injEq] at tests reads lists writes
  subst tests reads lists writes
  rfl

/-- The body that is asked for, if it is a single one and there is one. -/
def Matches.body? (files : σ) (found : Matches) : Option Body :=
  match found.directory, found.test, found.file with
  | none, some name, _ => ((findBody name).effect files).result.toOption
  | none, none, some path => (bodyAt files path).toOption
  | _, _, _ => none

/-- A search changes no file, and prints nothing if it succeeds. -/
structure Searches {ε α : Type} (session : Session (Except ε α)) (files : σ) : Prop where
  unchanged : (session.effect files).files = files
  silent : ∀ item, (session.effect files).result = .ok item → (session.effect files).printed = ""

theorem findAmong_searches (name : String) (entries : List FileName) (known : List String)
    (files : σ) : Searches (findAmong name entries known) files := by
  induction entries generalizing known with
  | nil => exact ⟨rfl, nofun⟩
  | cons entry rest ih =>
      unfold findAmong
      split
      · exact ih known
      · split
        · exact ih known
        · rename_i stem _
          split
          · constructor
            · simp only [Session.effect_bind, effect_readBody]
              split <;> rfl
            · intro body
              simp only [Session.effect_bind, effect_readBody]
              split
              · exact fun _ => rfl
              · exact nofun
          · exact ih (known ++ [stem])

theorem findBody_searches (name : String) (files : σ) : Searches (findBody name) files := by
  unfold findBody
  split
  · exact ⟨rfl, fun _ _ => rfl⟩
  · constructor
    · simp only [Session.effect_bind, Session.effect_listDirectory, Session.Effect.after_empty]
      split
      · exact (findAmong_searches name _ _ files).unchanged
      · rfl
    · intro body
      simp only [Session.effect_bind, Session.effect_listDirectory, Session.Effect.after_empty]
      split
      · exact (findAmong_searches name _ _ files).silent body
      · exact nofun

/-- Loading comes to the body that there is and does nothing else. If there is none, it comes to a
failure and changes no file. -/
def Loads (session : Session (Except ExitCode Body)) (files : σ) (wanted : Option Body) : Prop :=
  match wanted with
  | some body => session.effect files = ⟨.ok body, files, ""⟩
  | none => ∃ shown, session.effect files = ⟨.error .failure, files, shown⟩

theorem loadNamed_loads (name : String) (files : σ) :
    Loads (loadNamed name) files ((findBody name).effect files).result.toOption := by
  have search := findBody_searches name files
  cases found : ((findBody name).effect files).result with
  | ok body =>
      simp only [Loads, Except.toOption, loadNamed, Session.effect_bind, found, search.unchanged,
        search.silent body found, Session.effect_pure, Session.Effect.after_empty]
  | error names =>
      simp only [Loads, Except.toOption, loadNamed, Session.effect_bind, found, search.unchanged,
        Session.effect_record, Session.effect_say, Session.effect_pure, Session.Effect.after]
      exact ⟨_, rfl⟩

theorem loadFile_loads (path : String) (files : σ) :
    Loads (loadFile path) files (bodyAt files path).toOption := by
  cases found : bodyAt files path with
  | ok body =>
      simp only [Loads, Except.toOption, loadFile, Session.effect_bind, effect_readBody, found,
        Session.effect_pure, Session.Effect.after_empty]
  | error error =>
      simp only [Loads, Except.toOption, loadFile, Session.effect_bind, effect_readBody, found,
        Session.effect_record, Session.effect_pure, Session.Effect.after]
      exact ⟨_, rfl⟩

theorem load_loads (consistent : found.Consistent) (single : found.directory = none) (files : σ) :
    Loads found.load files (found.body? files) := by
  rcases found with ⟨test, file, _, algorithm, checker, differential, output⟩
  subst single
  cases test with
  | some name => exact loadNamed_loads name files
  | none =>
      cases file with
      | some path => exact loadFile_loads path files
      | none => rcases consistent.source with named | named | named <;> cases named

/-- What is printed about a valid body before it is split. -/
def preamble (body : Body) (crossChecked : Bool) : String :=
  "\n" ++ body.render "before splitting" ++
    if crossChecked then "sweep and reference agree\n" else ""

theorem effect_splitLogged (body : Body) (options : SplitOptions) (files : σ) :
    (body.splitLogged options).effect files = ⟨body.split options, files, ""⟩ := by
  simp only [Body.splitLogged, Session.effect_bind, Session.effect_recordAll, Session.effect_pure,
    Session.Effect.after_empty]

theorem effect_crossCheckLogged (body : Body) (files : σ) :
    body.crossCheckLogged.effect files = ⟨body.crossCheck, files, ""⟩ := by
  simp only [Body.crossCheckLogged, Session.effect_bind, Session.effect_recordAll,
    Session.effect_pure, Session.Effect.after_empty]

theorem effect_splitAndWrite_congr (body : Body) (options other : SplitOptions)
    (output : Option String) (files : σ) :
    (splitAndWrite body options output).effect files =
      (splitAndWrite body other output).effect files := by
  simp only [splitAndWrite, Session.effect_bind, effect_splitLogged, body.split_eq options other]

/-- Splitting a valid body prints the preamble, and then what is done does not depend on how it is
split. -/
theorem effect_splitOne (valid : body.Valid) (options : BatchOptions) (output : Option String)
    (files : σ) :
    (splitOne body options output).effect files =
      ((splitAndWrite body {} output).effect files).after (preamble body options.crossChecked) := by
  simp only [splitOne, body.fault?_eq_none_iff.mpr valid, splitValid, display,
    Session.effect_bind, Session.effect_say, preamble]
  cases options.crossChecked with
  | false =>
      simp only [Bool.false_eq_true, ↓reduceIte, String.append_empty,
        effect_splitAndWrite_congr body options.splitting {}]
  | true =>
      simp only [↓reduceIte, Session.effect_bind, effect_crossCheckLogged, valid.crossCheck_eq,
        Session.effect_say, effect_splitAndWrite_congr body options.splitting {},
        Session.Effect.after, String.empty_append, String.append_assoc]

theorem effect_splitOne_invalid {fault : BodyFault} (faulty : body.fault? = some fault)
    (options : BatchOptions) (output : Option String) (files : σ) :
    (splitOne body options output).effect files = ⟨.failure, files, ""⟩ := by
  simp only [splitOne, faulty, Session.effect_bind, Session.effect_record, Session.effect_pure,
    Session.Effect.after_empty]

/-- A run over a directory changes and prints nothing, and what it comes to does not depend on how
the bodies are split. -/
theorem effect_runBatch_congr (options other : BatchOptions) (directory : Path) (files : σ) :
    (runBatch options directory).effect files = (runBatch other directory).effect files := by
  cases listed : FileSystem.list files directory with
  | error error => simp only [runBatch, Session.effect_bind, Session.effect_listDirectory, listed]
  | ok names =>
      have run : ∀ options, (runBatch options directory).run { files } = _ := fun options =>
        (run_runBatch options listed).trans (run_runBatchOn options {} _ { files })
      have same := tableOrReason_congr options.splitting other.splitting
      rw [Session.effect_eq, Session.effect_eq, run, run, same]

theorem directory_eq_none_of_body? (asked : found.body? files = some body) :
    found.directory = none := by
  unfold Matches.body? at asked
  split at asked
  · assumption
  · assumption
  · cases asked

theorem effect_fulfil_of_some (consistent : found.Consistent)
    (asked : found.body? files = some body) :
    found.fulfil.effect files = (splitOne body found.options found.output).effect files := by
  have single := directory_eq_none_of_body? asked
  have loads := load_loads consistent single files
  rw [asked] at loads
  simp only [Matches.fulfil, Session.effect_bind, Session.effect_record, single,
    show found.load.effect files = ⟨.ok body, files, ""⟩ from loads, Session.Effect.after_empty]

theorem effect_fulfil_of_none (consistent : found.Consistent) (single : found.directory = none)
    (none : found.body? files = none) :
    found.fulfil.effect files = ⟨.failure, files, (found.load.effect files).printed⟩ := by
  have loads := load_loads consistent single files
  rw [none] at loads
  obtain ⟨shown, loaded⟩ := loads
  simp only [Matches.fulfil, Session.effect_bind, Session.effect_record, single, loaded,
    Session.effect_pure, Session.Effect.after, String.empty_append, String.append_empty]

section Checking

variable (algorithm : Option String) (checker differential : Bool)

theorem Matches.Consistent.checking (consistent : found.Consistent) :
    (found.checking algorithm checker differential).Consistent :=
  ⟨consistent.source, consistent.file, consistent.directory⟩

/-- Without a valid body to split, how to split and what to check makes no difference at all. -/
theorem effect_fulfil_checking (consistent : found.Consistent)
    (none : ∀ body, found.body? files = some body → ¬ body.Valid) :
    (found.checking algorithm checker differential).fulfil.effect files =
      found.fulfil.effect files := by
  have also := consistent.checking algorithm checker differential
  cases several : found.directory with
  | some directory =>
      have altered : (found.checking algorithm checker differential).directory = some directory :=
        several
      simp only [Matches.fulfil, splitDirectory, Session.effect_bind, Session.effect_record,
        altered, several, effect_runBatch_congr _ found.options]
  | none =>
      cases asked : found.body? files with
      | none =>
          rw [effect_fulfil_of_none consistent several asked,
            effect_fulfil_of_none also several asked]
          rfl
      | some body =>
          cases faulty : body.fault? with
          | none => exact absurd (body.fault?_eq_none_iff.mp faulty) (none body asked)
          | some fault =>
              rw [effect_fulfil_of_some consistent asked, effect_fulfil_of_some also asked,
                effect_splitOne_invalid faulty, effect_splitOne_invalid faulty]

/-- With a valid body to split, how to split and what to check makes no difference after the
preamble. -/
theorem effect_fulfil_checking_valid (consistent : found.Consistent)
    (asked : found.body? files = some body) (valid : body.Valid) :
    (found.checking algorithm checker differential).fulfil.effect files =
      ((splitAndWrite body {} found.output).effect files).after (preamble body differential) :=
  (effect_fulfil_of_some (consistent.checking algorithm checker differential) asked).trans
    (effect_splitOne valid _ _ files)

end Checking

theorem run_runWith {Line : Type} {parser : ArgumentParser Line} {line : Line}
    (accepted : parser.parse line = .ok found) (host : Host σ) :
    let outcome := (runWith parser line).run host
    let effect := found.fulfil.effect host.files
    outcome.1 = effect.result ∧ outcome.2.files = effect.files ∧
      outcome.2.printed = host.printed ++ effect.printed := by
  rw [runWith, accepted]
  exact found.fulfil.run_eq_effect host

/-- Two accepted command lines that differ in how to split and in what to check have the same
exit code, leave the same files and print the same text, apart from one line: if only one of them
compares the algorithms and there is a valid body to split, it says after the preamble that they
agree. -/
theorem run_indifferent_to_checks {Line : Type} (parser : ArgumentParser Line) {line other : Line}
    {algorithm : Option String} {checker differential : Bool}
    (accepted : parser.parse line = .ok found)
    (also : parser.parse other = .ok (found.checking algorithm checker differential))
    (host : Host σ) :
    let one := (runWith parser line).run host
    let two := (runWith parser other).run host
    two.1 = one.1 ∧ two.2.files = one.2.files ∧
    (differential = found.differential → two.2.printed = one.2.printed) ∧
    ((∀ body, found.body? host.files = some body → body.fault? ≠ none) →
      two.2.printed = one.2.printed) ∧
    (found.differential = false → differential = true →
      ∀ body, found.body? host.files = some body → body.fault? = none → ∃ rest,
        one.2.printed = host.printed ++ "\n" ++ body.render "before splitting" ++ rest ∧
        two.2.printed = host.printed ++ "\n" ++ body.render "before splitting" ++
          "sweep and reference agree\n" ++ rest) := by
  intro one two
  have consistent := parser.consistent accepted
  obtain ⟨code, files, printed⟩ := run_runWith accepted host
  obtain ⟨code', files', printed'⟩ := run_runWith also host
  by_cases asked : ∃ body, found.body? host.files = some body ∧ body.Valid
  · obtain ⟨body, asked, valid⟩ := asked
    have clean := body.fault?_eq_none_iff.mpr valid
    have plain := effect_fulfil_checking_valid found.algorithm found.checker found.differential
      consistent asked valid
    have checked := effect_fulfil_checking_valid algorithm checker differential consistent asked
      valid
    change found.fulfil.effect host.files = _ at plain
    rw [plain] at code files printed
    rw [checked] at code' files' printed'
    refine ⟨code'.trans code.symm, files'.trans files.symm, ?_,
      fun none => absurd clean (none body asked), ?_⟩
    · intro both
      rw [both] at printed'
      exact printed'.trans printed.symm
    · intro silent compared candidate named _
      obtain rfl := Option.some.inj (asked.symm.trans named)
      rw [silent] at printed
      rw [compared] at printed'
      refine ⟨((splitAndWrite body {} found.output).effect host.files).printed,
        printed.trans ?_, printed'.trans ?_⟩
      · simp only [Session.Effect.after, preamble, Bool.false_eq_true, ↓reduceIte,
          String.append_empty, String.append_assoc]
      · simp only [Session.Effect.after, preamble, ↓reduceIte, String.append_assoc]
  · have none : ∀ body, found.body? host.files = some body → ¬ body.Valid :=
      fun body found valid => asked ⟨body, found, valid⟩
    rw [effect_fulfil_checking _ _ _ consistent none] at code' files' printed'
    refine ⟨code'.trans code.symm, files'.trans files.symm, fun _ => printed'.trans printed.symm,
      fun _ => printed'.trans printed.symm, ?_⟩
    intro _ _ body named clean
    exact absurd (body.fault?_eq_none_iff.mp clean) (none body named)

/-- A sample body with two traps, split by the default and then with everything checked. -/
theorem run_indifferent_to_checks_nested :
    let plain := (run ["-t", "nested", "-o", "/tmp/table"]).run { files := FileTree.empty }
    let checked := (run ["-t", "nested", "--algorithm=reference", "-cd", "-o", "/tmp/table"]).run
      { files := FileTree.empty }
    checked.1 = plain.1 ∧ checked.2.files = plain.2.files ∧ ∃ rest,
      plain.2.printed = "" ++ "\n" ++ Samples.nested.render "before splitting" ++ rest ∧
      checked.2.printed = "" ++ "\n" ++ Samples.nested.render "before splitting" ++
        "sweep and reference agree\n" ++ rest := by
  have accepted : reader.parse ["-t", "nested", "-o", "/tmp/table"] =
      .ok { test := some "nested", output := some "/tmp/table" } := by decide +kernel
  have also : reader.parse ["-t", "nested", "--algorithm=reference", "-cd", "-o", "/tmp/table"] =
      .ok ({ test := some "nested", output := some "/tmp/table" : Matches }.checking
        (some "reference") true true) := by decide +kernel
  obtain ⟨code, files, -, -, line⟩ :=
    run_indifferent_to_checks reader accepted also { files := FileTree.empty }
  exact ⟨code, files, line rfl rfl Samples.nested (by rfl) (by decide)⟩

end Command

end DisjointTraps
