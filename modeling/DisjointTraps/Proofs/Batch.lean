import DisjointTraps.Batch
import DisjointTraps.Proofs.Validity
import DisjointTraps.Proofs.Session
import DisjointTraps.World

set_option autoImplicit false

namespace DisjointTraps

variable {σ : Type} [FileSystem σ]

/-- The table of what was read from a file, or the reason why it has none: it must have been read,
be valid and have a split. -/
def tableOrReason (options : SplitOptions) (read : Except ReadError Body) :
    Except String (Table ExceptionType) :=
  match read with
  | .error error => .error ("can't parse: " ++ error.details)
  | .ok body =>
      match body.fault? with
      | some fault => .error ("invalid body: " ++ fault.message)
      | none => (body.split options).mapError SplitError.message

def BatchSummary.add (summary : BatchSummary) :
    Except String (Table ExceptionType) → BatchSummary
  | .ok table =>
      { summary with split := summary.split + 1, blocks := summary.blocks + table.size }
  | .error _ => { summary with skipped := summary.skipped + 1 }

def entryRecord (path : Path) : Except String (Table ExceptionType) → LogRecord
  | .ok table => ⟨.batch, .info, path.display ++ ": " ++ table.size.repr ++ " trap ranges"⟩
  | .error reason => ⟨.batch, .error, path.display ++ ": " ++ reason⟩

/-- What splitting logs while a run goes through what was read from a file. -/
def splittingRecords (options : BatchOptions) (read : Except ReadError Body) : List LogRecord :=
  match read with
  | .error _ => []
  | .ok body =>
      match body.fault? with
      | some _ => []
      | none =>
          (if options.crossChecked then
            body.splitRecords ⟨.sweep, true⟩ ++ body.splitRecords ⟨.instructionwise, true⟩
          else []) ++ body.splitRecords options.splitting

/-- All that is logged about a file: what splitting logs, and then the record of the run. -/
def fileRecords (options : BatchOptions) (files : σ) (path : Path) : List LogRecord :=
  splittingRecords options (bodyAt files path) ++
    [entryRecord path (tableOrReason options.splitting (bodyAt files path))]

theorem tableOrReason_congr (options other : SplitOptions) :
    tableOrReason options = tableOrReason other := by
  funext read
  unfold tableOrReason
  cases read with
  | error error => rfl
  | ok body => simp only [body.split_eq options other]

namespace Body

theorem source_of_mem_instructionwiseRecords (body : Body) :
    ∀ record ∈ body.instructionwiseRecords, record.source = .instructionwise := by
  unfold instructionwiseRecords
  cases splitByInstruction body.rule body.count body.traps <;> simp

theorem source_of_mem_splitRecords (body : Body) (options : SplitOptions) :
    ∀ record ∈ body.splitRecords options, record.source ≠ .batch := by
  simp only [splitRecords, List.forall_mem_append, List.forall_mem_cons]
  refine ⟨⟨nofun, ?_⟩, ?_⟩
  · cases options.algorithm with
    | sweep => nofun
    | instructionwise =>
        intro record member
        rw [body.source_of_mem_instructionwiseRecords record member]
        nofun
  · cases body.split options <;> simp

theorem run_splitLogged (body : Body) (options : SplitOptions) (host : Host σ) :
    (body.splitLogged options).run host =
      (body.split options, { host with records := host.records ++ body.splitRecords options }) := by
  simp only [splitLogged, Session.run_bind, Session.run_recordAll, Session.run_pure]

theorem run_crossCheckLogged (body : Body) (host : Host σ) :
    body.crossCheckLogged.run host =
      (body.crossCheck, { host with
        records := host.records ++ (body.splitRecords ⟨.sweep, true⟩ ++
          body.splitRecords ⟨.instructionwise, true⟩) }) := by
  simp only [crossCheckLogged, Session.run_bind, Session.run_recordAll, Session.run_pure,
    List.append_assoc]

end Body

/-- The records of splitting are not the run's own. -/
theorem source_of_mem_splittingRecords (options : BatchOptions) (read : Except ReadError Body) :
    ∀ record ∈ splittingRecords options read, record.source ≠ .batch := by
  unfold splittingRecords
  split
  · nofun
  · split
    · nofun
    · rename_i body _ _
      have sweep := body.source_of_mem_splitRecords ⟨.sweep, true⟩
      have single := body.source_of_mem_splitRecords ⟨.instructionwise, true⟩
      rw [List.forall_mem_append]
      refine ⟨?_, body.source_of_mem_splitRecords options.splitting⟩
      cases options.crossChecked with
      | false => nofun
      | true => exact List.forall_mem_append.mpr ⟨sweep, single⟩

theorem run_splitOutcome {body : Body} (valid : body.Valid) (options : SplitOptions) (path : Path)
    (host : Host σ) :
    (splitOutcome options path body).run host =
      (match (body.split options).mapError SplitError.message with
        | .ok table => .split table.size
        | .error reason => .skipped reason,
        { host with records := host.records ++ body.splitRecords options }) := by
  simp only [splitOutcome, Session.run_bind, Body.run_splitLogged]
  rcases valid.split_cases options with ⟨table, done⟩ | ⟨p, before, after, refused⟩
  · rw [done]
    simp only [tableOutcome, valid.checkDispatch_eq done, Except.mapError, Session.run_pure]
  · rw [refused]
    rfl

/-- No body makes a run fail. -/
theorem run_batchOutcome (options : BatchOptions) (path : Path) (read : Except ReadError Body)
    (host : Host σ) :
    (batchOutcome options path read).run host =
      (match tableOrReason options.splitting read with
        | .ok table => .split table.size
        | .error reason => .skipped reason,
        { host with records := host.records ++ splittingRecords options read }) := by
  unfold batchOutcome tableOrReason splittingRecords
  cases read with
  | error error => simp only [Session.run_pure, List.append_nil]
  | ok body =>
      cases clean : body.fault? with
      | some fault => simp only [clean, Session.run_pure, List.append_nil]
      | none =>
          have valid := body.fault?_eq_none_iff.mp clean
          cases options.crossChecked with
          | false =>
              simp only [clean, Bool.false_eq_true, ↓reduceIte, run_splitOutcome valid,
                List.nil_append]
          | true =>
              simp only [clean, ↓reduceIte, Session.run_bind, Body.run_crossCheckLogged,
                valid.crossCheck_eq, run_splitOutcome valid, List.append_assoc]

/-- A run goes through all files, counts each and puts one record about each into the log. -/
theorem run_runBatchOn (options : BatchOptions) (summary : BatchSummary) (paths : List Path)
    (host : Host σ) :
    (runBatchOn options summary paths).run host =
      (.ok ((paths.map fun path => tableOrReason options.splitting (bodyAt host.files path)).foldl
          BatchSummary.add summary),
        { host with
          records := host.records ++ paths.flatMap (fileRecords options host.files) }) := by
  induction paths generalizing summary host with
  | nil => simp only [runBatchOn, Session.run_pure, List.map_nil, List.foldl_nil,
      List.flatMap_nil, List.append_nil]
  | cons path rest ih =>
      simp only [runBatchOn, Session.run_bind, run_readBody, run_batchOutcome]
      cases found : tableOrReason options.splitting (bodyAt host.files path) with
      | ok table =>
          simp only [Session.run_bind, Session.run_record, ih, List.map_cons, List.foldl_cons,
            List.flatMap_cons, fileRecords, found, entryRecord, BatchSummary.add,
            List.append_assoc]
      | error reason =>
          simp only [Session.run_bind, Session.run_record, ih, List.map_cons, List.foldl_cons,
            List.flatMap_cons, fileRecords, found, entryRecord, BatchSummary.add,
            List.append_assoc]

/-- A run over a directory is a run over its body files, in the order of their names. -/
theorem run_runBatch (options : BatchOptions) {directory : Path} {host : Host σ}
    {names : List FileName} (readable : FileSystem.list host.files directory = .ok names) :
    (runBatch options directory).run host =
      (runBatchOn options {} ((inOrder (names.filter (·.isBody))).map directory.entry)).run
        host := by
  simp only [runBatch, Session.run_bind, Session.run_listDirectory, readable]

/-- Of all that is logged about some files, the records of the run are one for each. -/
theorem filter_fileRecords (options : BatchOptions) (files : σ) (paths : List Path) :
    (paths.flatMap (fileRecords options files)).filter (·.source = .batch) =
      paths.map fun path =>
        entryRecord path (tableOrReason options.splitting (bodyAt files path)) := by
  induction paths with
  | nil => rfl
  | cons path rest ih =>
      have others : (splittingRecords options (bodyAt files path)).filter (·.source = .batch) =
          [] := by
        rw [List.filter_eq_nil_iff]
        intro record member
        simpa using source_of_mem_splittingRecords options _ record member
      have own : (entryRecord path (tableOrReason options.splitting (bodyAt files path))).source =
          .batch := by
        cases tableOrReason options.splitting (bodyAt files path) <;> rfl
      rw [List.flatMap_cons, List.filter_append, ih, fileRecords, List.filter_append, others,
        List.nil_append, List.map_cons, List.filter_cons_of_pos (by simpa using own),
        List.filter_nil, List.singleton_append]

/-- What has been counted: tables, files without one, and blocks. -/
theorem foldl_add (summary : BatchSummary) (found : List (Except String (Table ExceptionType))) :
    found.foldl BatchSummary.add summary =
      ⟨summary.split + found.countP (·.isOk), summary.skipped + found.countP (!·.isOk),
        summary.blocks + ((found.filterMap Except.toOption).map Table.size).sum⟩ := by
  induction found generalizing summary with
  | nil => rfl
  | cons result rest ih =>
      rw [List.foldl_cons, ih]
      cases result with
      | ok table =>
          have here : (Except.ok table : Except String _).toOption = some table := rfl
          rw [List.filterMap_cons_some here]
          simp [BatchSummary.add, Except.isOk, Except.toBool, Nat.add_assoc, Nat.add_comm 1]
      | error reason =>
          have here : (Except.error reason : Except String (Table ExceptionType)).toOption = none :=
            rfl
          rw [List.filterMap_cons_none here]
          simp [BatchSummary.add, Except.isOk, Except.toBool, Nat.add_assoc, Nat.add_comm 1]

theorem split_add_skipped (found : List (Except String (Table ExceptionType))) :
    (found.foldl BatchSummary.add {}).split + (found.foldl BatchSummary.add {}).skipped =
      found.length := by
  have every := List.length_eq_countP_add_countP (fun result => result.isOk) (l := found)
  simp only [Bool.not_eq_true, Bool.decide_eq_false] at every
  simp only [foldl_add]
  omega

/-- A run over a directory that can be listed always comes to its end. It counts each body file
once, as split exactly if it could be read, is valid and has a split, and changes and prints
nothing. Its own records in the log are one about each body file, in the order of their names;
before each stands what splitting that body logs. How a run splits and what it checks makes no
difference to its result and to its own records. -/
theorem runBatch_accounts (options : BatchOptions) (directory : Path) (host : Host σ)
    (names : List FileName) (readable : FileSystem.list host.files directory = .ok names) :
    ∃ (summary : BatchSummary) (order : List FileName) (paths : List Path)
      (found : List (Except String (Table ExceptionType))),
      let after := (runBatch options directory).run host
      order.Perm (names.filter (·.isBody)) ∧ order.Pairwise (· ≤ ·) ∧
      paths = order.map directory.entry ∧
      found = paths.map (fun path => tableOrReason options.splitting (bodyAt host.files path)) ∧
      after.1 = .ok summary ∧ after.2.files = host.files ∧ after.2.printed = host.printed ∧
      after.2.records = host.records ++ paths.flatMap (fileRecords options host.files) ∧
      after.2.log = host.log ++ List.zipWith entryRecord paths found ∧
      summary.split + summary.skipped = (names.filter (·.isBody)).length ∧
      summary.split = found.countP (·.isOk) ∧
      summary.blocks = ((found.filterMap Except.toOption).map Table.size).sum ∧
      ∀ other, ((runBatch other directory).run host).1 = after.1 ∧
        ((runBatch other directory).run host).2.log = after.2.log := by
  let order := inOrder (names.filter (·.isBody))
  have run : ∀ options, (runBatch options directory).run host = _ := fun options =>
    (run_runBatch options readable).trans (run_runBatchOn options {} _ host)
  have log : ∀ options, ((runBatch options directory).run host).2.log =
      host.log ++ (order.map directory.entry).map fun path =>
        entryRecord path (tableOrReason options.splitting (bodyAt host.files path)) := by
    intro options
    rw [run, Host.log, List.filter_append, filter_fileRecords]
    rfl
  refine ⟨_, order, _, _, inOrder_perm _, inOrder_sorted _, rfl, rfl, by rw [run], by rw [run],
    by rw [run], by rw [run], ?_, ?_, ?_, ?_, ?_⟩
  · rw [log, List.zipWith_map_right, List.zipWith_self]
  · rw [split_add_skipped, List.length_map, List.length_map, (inOrder_perm _).length_eq]
  · rw [foldl_add]
    exact Nat.zero_add _
  · rw [foldl_add]
    exact Nat.zero_add _
  · intro other
    have same := tableOrReason_congr other.splitting options.splitting
    refine ⟨?_, ?_⟩
    · rw [run, run, same]
    · rw [log, log, same]

/-- A directory with a body file that parses, one that is not text, one whose name is not text, a
directory with the name of a body file, and a file with another extension. -/
def mixedBodies : FileTree where
  here := []
  entries :=
    [([⟨[100], by decide⟩], .directory),
      ([⟨[100], by decide⟩, ⟨[98, 46, 116, 114, 97, 112], by decide⟩],
        .file [116, 104, 114, 111, 119]),
      ([⟨[100], by decide⟩, ⟨[97, 46, 116, 114, 97, 112], by decide⟩], .file [255]),
      ([⟨[100], by decide⟩, ⟨[255, 46, 116, 114, 97, 112], by decide⟩], .file []),
      ([⟨[100], by decide⟩, ⟨[122, 46, 116, 114, 97, 112], by decide⟩], .directory),
      ([⟨[100], by decide⟩, ⟨[110], by decide⟩], .file [])]
  once := by decide

theorem runBatch_accounts_mixed :
    ∃ summary,
      let after := (runBatch ⟨⟨.instructionwise, true⟩, true⟩ "/d").run { files := mixedBodies }
      after.1 = .ok summary ∧ summary.split = 1 ∧ summary.split + summary.skipped = 4 ∧
        after.2.log.map (·.line) =
          ["ERROR: /d/a.trap: can't parse: IoError(Error \x7b kind: InvalidData, message: " ++
              "\"stream did not contain valid UTF-8\" \x7d)",
            "INFO: /d/b.trap: 0 trap ranges",
            "ERROR: /d/z.trap: can't parse: IoError(Os \x7b code: 21, kind: IsADirectory, " ++
              "message: \"Is a directory\" \x7d)",
            "ERROR: /d/\uFFFD.trap: can't parse: Parse(\"bad file name\")"] := by
  let names : List FileName := [⟨[98, 46, 116, 114, 97, 112], by decide⟩,
    ⟨[97, 46, 116, 114, 97, 112], by decide⟩, ⟨[255, 46, 116, 114, 97, 112], by decide⟩,
    ⟨[122, 46, 116, 114, 97, 112], by decide⟩, ⟨[110], by decide⟩]
  let sorted : List FileName := [⟨[97, 46, 116, 114, 97, 112], by decide⟩,
    ⟨[98, 46, 116, 114, 97, 112], by decide⟩, ⟨[122, 46, 116, 114, 97, 112], by decide⟩,
    ⟨[255, 46, 116, 114, 97, 112], by decide⟩]
  have readable : FileSystem.list mixedBodies "/d" = .ok names := by decide +kernel
  obtain ⟨summary, order, paths, found, all, ordered, rfl, rfl, done, -, -, -, log, counted, split,
    -⟩ := runBatch_accounts ⟨⟨.instructionwise, true⟩, true⟩ "/d" { files := mixedBodies } names
      readable
  obtain rfl : order = sorted :=
    (all.trans (by decide +kernel)).eq_of_pairwise (fun _ _ _ _ => Std.le_antisymm) ordered
      (by decide +kernel)
  refine ⟨summary, done, split.trans (by decide +kernel), counted.trans (by decide +kernel), ?_⟩
  rw [log]
  decide +kernel

end DisjointTraps
