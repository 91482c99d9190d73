import DisjointTraps.Path
import DisjointTraps.Proofs.Lines
import DisjointTraps.Proofs.RoundTrip

set_option autoImplicit false

namespace DisjointTraps

namespace Text

section Lines

variable {piece gap rest whole : List Char} {lexemes more : List Lexeme} {c : Char}

def EndsLine (text : List Char) : Prop := text.getLast? = some '\n'

theorem EndsLine.of_append (ended : EndsLine (piece ++ rest)) (inLine : '\n' ∉ piece) :
    EndsLine rest := by
  rw [EndsLine, List.getLast?_append] at ended
  cases last : rest.getLast? with
  | none =>
      rw [last] at ended
      exact absurd (List.mem_of_getLast? ended) inLine
  | some d =>
      rw [last] at ended
      exact last.trans ended

theorem EndsLine.ne_nil (ended : EndsLine rest) : rest ≠ [] := by
  rintro rfl
  cases ended

theorem EndsLine.tail (ended : EndsLine (c :: rest)) : rest = [] ∨ EndsLine rest := by
  cases rest with
  | nil => exact .inl rfl
  | cons d rest => exact .inr ended

theorem eq_nil_of_spells_nil (spells : Spells [] lexemes) : lexemes = [] := by
  have read := tokenize_of_spells spells 1
  rw [tokenize] at read
  exact read.symm

theorem spells_nil_iff (text : List Char) : Spells text [] ↔ (tokenize 1 text).1 = [] := by
  constructor
  · intro spells
    exact List.map_eq_nil_iff.mp (tokenize_of_spells spells 1)
  · intro nothing
    have spelled := spells_tokenize 1 text
    rw [nothing] at spelled
    exact spelled (by simp)

theorem notMem_of_class {p : Char → Bool} (noLine : p '\n' = false)
    (chars : ∀ d ∈ piece, p d = true) : '\n' ∉ piece :=
  List.count_eq_zero.mp (count_eq_zero_of_class noLine chars)

/-- No lexeme and no comment goes on beyond the end of a line. -/
theorem Spells.prints (spells : Spells whole lexemes) (ended : EndsLine whole) :
    Prints whole lexemes := by
  induction spells with
  | nothing => exact prints_nil
  | blank blank later ih =>
      intro other more following
      rcases ended.tail with rfl | line
      · rw [eq_nil_of_spells_nil later]
        exact .blank blank following
      · exact .blank blank (ih line other more following)
  | @comment text rest lexemes inLine longest later ih =>
      have whole : EndsLine ((';' :: text) ++ rest) := ended
      have line := whole.of_append (by simp [inLine])
      intro other more following
      have spelled := Spells.comment inLine (longest.append line.ne_nil other)
        (ih line other more following)
      simpa using spelled
  | @word c text rest lexemes start chars longest later ih =>
      -- The line feed is no part of the word, so what is put behind it cannot prolong the word.
      have whole : EndsLine ((c :: text) ++ rest) := ended
      have all : ∀ d ∈ c :: text, isWordChar d = true :=
        List.forall_mem_cons.mpr ⟨isWordChar_of_isWordStart start, chars⟩
      have line := whole.of_append (notMem_of_class rfl all)
      intro other more following
      have spelled := Spells.word start chars (longest.append line.ne_nil other)
        (ih line other more following)
      simpa using spelled
  | @number digits rest lexemes nonempty chars longest apart fits later ih =>
      have line := ended.of_append (notMem_of_class rfl chars)
      intro other more following
      have spelled := Spells.number nonempty chars (longest.append line.ne_nil other)
        (apart.append line.ne_nil other) fits (ih line other more following)
      simpa using spelled
  | @colon rest lexemes later ih =>
      have whole : EndsLine ([':'] ++ rest) := ended
      have line := whole.of_append (by decide)
      intro other more following
      exact .colon (ih line other more following)

theorem Spells.skipped (spells : Spells gap []) (ended : EndsLine gap) (rest : List Char) :
    Skipped rest gap := by
  generalize none : ([] : List Lexeme) = lexemes at spells
  induction spells with
  | nothing => exact .nothing
  | blank blank later ih =>
      rcases ended.tail with rfl | line
      · exact .blank blank .nothing
      · exact .blank blank (ih line none)
  | @comment text gap lexemes inLine longest later ih =>
      have whole : EndsLine ((';' :: text) ++ gap) := ended
      have line := whole.of_append (by simp [inLine])
      exact .comment inLine (longest.append line.ne_nil rest) (ih line none)
  | _ => cases none

theorem Skipped.spells (skipped : Skipped rest gap) (later : Spells rest lexemes) :
    Spells (gap ++ rest) lexemes := by
  induction skipped with
  | nothing => exact later
  | blank blank _ ih => exact .blank blank ih
  | comment inLine ended _ ih =>
      have spelled := Spells.comment inLine ended ih
      simpa using spelled

end Lines

section Programs

variable {gap rest : List Char} {lexemes others : List Lexeme} {program later : List Clause}

theorem Forms.append (forms : Forms lexemes program) (following : Forms others later) :
    Forms (lexemes ++ others) (program ++ later) := by
  induction forms with
  | nothing => exact following
  | statement phrase _ ih =>
      rw [List.append_assoc]
      exact .statement phrase ih

/-- A text of whole lines and another one behind it are a text for both programs. -/
theorem Writes.append {text : List Char} (writes : Writes text program) (ended : EndsLine text)
    (following : Writes rest later) : Writes (text ++ rest) (program ++ later) := by
  obtain ⟨lexemes, spells, forms⟩ := writes
  obtain ⟨others, spelled, formed⟩ := following
  exact ⟨lexemes ++ others, spells.prints ended _ _ spelled, forms.append formed⟩

/-- A gap in front of a text makes no difference to its program. -/
theorem Skipped.writes_iff (skipped : Skipped rest gap) (program : List Clause) :
    Writes (gap ++ rest) program ↔ Writes rest program := by
  constructor
  · rintro ⟨lexemes, spells, forms⟩
    have read := tokenize_of_spells spells 1
    rw [tokenize_skipped skipped] at read
    have spelled := spells_tokenize (1 + gap.count '\n') rest
    rw [read] at spelled
    exact ⟨lexemes, spelled forms.sound, forms⟩
  · rintro ⟨lexemes, spells, forms⟩
    exact ⟨lexemes, skipped.spells spells, forms⟩

/-- A text has at most one program. -/
theorem Writes.unique {text : String} (one : Writes text.toList program)
    (two : Writes text.toList later) : program = later := by
  obtain ⟨statements, read, rfl⟩ := (writes_iff text program).mp one
  obtain ⟨others, again, rfl⟩ := (writes_iff text later).mp two
  rw [read] at again
  cases again
  rfl

end Programs

end Text

namespace Body

def header (title name : String) : String := "; " ++ title ++ ": " ++ name ++ "\n"

def lines (body : Body) : String :=
  String.join (body.exceptionNames.map fun name => "exception " ++ name ++ "\n") ++
    String.join (body.insts.zipIdx.map fun (inst, index) => inst.line index) ++
    String.join (body.traps.map body.trapLine)

/-- Nothing is read of the header: what stands behind its first line feed, if anything does, is
blanks and comments. -/
def Quiet (title name : String) : Prop := Text.Spells (header title name).toList []

instance : DecidableRel Quiet := fun title name =>
  decidable_of_iff _ (Text.spells_nil_iff (header title name).toList).symm

/-- Both readings fail, or both give a body, and the bodies differ at most in their names. -/
inductive SameOutcome : Except Text.Error Body → Except Text.Error Body → Prop
  | fail (error other : Text.Error) : SameOutcome (.error error) (.error other)
  | read {body other : Body} (alike : Alike body other) : SameOutcome (.ok body) (.ok other)

theorem SameOutcome.read_of_ok {result : Except Text.Error Body} {other : Body}
    (same : SameOutcome result (.ok other)) : ∃ body, result = .ok body ∧ Alike body other := by
  cases same with
  | read alike => exact ⟨_, rfl, alike⟩

section Headers

variable {title otherTitle name : String} {body other : Body}

theorem render_eq (title : String) (body : Body) :
    body.render title = header title body.name ++ body.lines := by
  simp [render, header, lines, String.append_assoc]

theorem Alike.lines_eq (alike : Alike body other) : other.lines = body.lines := by
  have named : other.exceptionName = body.exceptionName := by
    funext exception
    rw [exceptionName, exceptionName, alike.exceptionNames]
  have trapLines : other.trapLine = body.trapLine := by
    funext trap
    rw [trapLine, trapLine, named]
  rw [lines, lines, alike.exceptionNames, alike.insts, alike.traps, trapLines]

theorem endsLine_header (title name : String) : Text.EndsLine (header title name).toList := by
  rw [Text.EndsLine, header, String.toList_append, List.getLast?_append]
  rfl

theorem quiet_of_inLine (inTitle : '\n' ∉ title.toList) (inName : '\n' ∉ name.toList) :
    Quiet title name := by
  have spells := Text.prints_header inTitle inName [] [] .nothing
  simpa [Quiet, header] using spells

/-- Behind a quiet header, a text has the programs that it has without it. -/
theorem Quiet.writes_iff (quiet : Quiet title name) (text : String) (program : List Text.Clause) :
    Text.Writes (header title name ++ text).toList program ↔ Text.Writes text.toList program := by
  have skipped := Text.Spells.skipped quiet (endsLine_header title name) text.toList
  rw [String.toList_append]
  exact skipped.writes_iff program

theorem sameOutcome_of_writes {text otherText : String}
    (same : ∀ program, Text.Writes text.toList program ↔ Text.Writes otherText.toList program)
    (reader otherReader : String) :
    SameOutcome (Body.parse reader text) (Body.parse otherReader otherText) := by
  cases one : Body.parse reader text with
  | ok body =>
      rw [Text.parse_of_writes one (fun program => (same program).mp) otherReader]
      exact .read ⟨rfl, rfl, rfl⟩
  | error error =>
      cases two : Body.parse otherReader otherText with
      | ok body =>
          have again := Text.parse_of_writes two (fun program => (same program).mpr) reader
          rw [one] at again
          cases again
      | error other => exact .fail error other

/-- Under quiet headers, bodies that differ at most in their names are read alike. -/
theorem Alike.sameOutcome (alike : Alike body other) (quiet : Quiet title body.name)
    (otherQuiet : Quiet otherTitle other.name) (reader otherReader : String) :
    SameOutcome (Body.parse reader (body.render title))
      (Body.parse otherReader (other.render otherTitle)) := by
  apply sameOutcome_of_writes
  intro program
  rw [render_eq, render_eq, quiet.writes_iff, otherQuiet.writes_iff, alike.lines_eq]

end Headers

section Loud

open Text

variable {title name : String} {program : List Clause} {body : Body}

/-- Only labels can stand in the program of a body without instructions, exception names and
traps. -/
theorem label_of_describes_empty (describes : Describes program ⟨name, [], [], []⟩) {clause : Clause}
    (member : clause ∈ program) : ∃ label, clause = .label label := by
  have insts := List.forall₂_nil_right_iff.mp describes.insts
  have traps := List.forall₂_nil_right_iff.mp describes.traps
  rw [List.filter_eq_nil_iff] at insts traps
  have names : program.filterMap Clause.exceptionName? = [] := by
    have once := describes.names
    cases known : program.filterMap Clause.exceptionName? with
    | nil => rfl
    | cons name names => simp [known, List.eraseDups_cons] at once
  rw [List.filterMap_eq_nil_iff] at names
  cases clause with
  | inst inst => exact absurd rfl (insts _ member)
  | goto target => exact absurd rfl (insts _ member)
  | exception name => cases names _ member
  | trap first limit name target => cases names _ member
  | label label => exact ⟨label, rfl⟩

/-- A body whose written form defines a label behind the name of its one exception type. -/
def defining (name label : String) : Body := ⟨name, [], ["E\n" ++ label ++ " :"], []⟩

theorem writes_defining (name : String) {label : String} (word : IsWord label)
    (free : label ∉ keywords) :
    Writes (defining name label).lines.toList [.exception "E", .label label] := by
  have declares : PrintsAs ("exception " ++ "E" ++ "\n").toList (.exception "E") :=
    prints_exception (by decide)
  have colon : Prints [':', '\n'] [.colon] := fun rest more later => .colon (.blank rfl later)
  have named : Prints (label.toList ++ [' ']) [.word label] := prints_word label word rfl
  have defines : PrintsAs ((label.toList ++ [' ']) ++ [':', '\n']) (.label label) :=
    ⟨_, .label free, named.append colon⟩
  have writes := declares.writes (defines.writes ⟨[], .nothing, .nothing⟩)
  simpa [lines, defining] using writes

/-- The label that a body defines behind its exception type is read, and no fault. -/
theorem parse_defining {label : String} (word : IsWord label) (free : label ∉ keywords) :
    ∃ body, Body.parse "" ((defining "" label).render "") = .ok body := by
  have quiet : Quiet "" "" := quiet_of_inLine (by simp) (by simp)
  refine ⟨⟨"", [], ["E"], []⟩, ?_⟩
  rw [parse_eq_ok_iff, render_eq]
  exact ⟨rfl, _, (quiet.writes_iff _ _).mpr (writes_defining "" word free),
    List.pairwise_singleton _ label, .nil, rfl, .nil⟩

/-- A label that the header defines cannot be defined again behind it. -/
theorem parse_defining_ne_ok (written : Writes (header title name).toList program) {label : String}
    (defined : label ∈ labels program) (word : IsWord label) (free : label ∉ keywords) :
    Body.parse "" ((defining name label).render title) ≠ .ok body := by
  intro parses
  obtain ⟨-, whole, writes, once, -⟩ := (parse_eq_ok_iff _ _ _).mp parses
  have both := written.append (endsLine_header title name) (writes_defining name word free)
  rw [← String.toList_append] at both
  rw [render_eq] at writes
  cases writes.unique both
  have labelled : labels [.exception "E", .label label] = [label] := rfl
  rw [labels, List.filterMap_append, ← labels, ← labels, labelled] at once
  exact (List.nodup_append.mp once).2.2 label defined label List.mem_cons_self rfl

/-- A header that makes no difference to any body is quiet: nothing can be read of it but labels,
or the body without lines would show it, and no label, or a body that defines it again would. -/
theorem quiet_of_sameOutcome (inert : ∀ body other : Body, body.name = name → other.name = "" →
    Alike body other → SameOutcome (Body.parse "" (body.render title))
      (Body.parse "" (other.render ""))) : Quiet title name := by
  have bare : Body.parse "" (Body.render "" ⟨"", [], [], []⟩) = .ok ⟨"", [], [], []⟩ :=
    parse_render (by simp) (by simp) List.nodup_nil ⟨by simp, by simp⟩
  have same := inert ⟨name, [], [], []⟩ ⟨"", [], [], []⟩ rfl rfl ⟨rfl, rfl, rfl⟩
  rw [bare] at same
  -- The body without lines is read from its header alone.
  obtain ⟨⟨_, _, _, _⟩, parses, rfl, rfl, rfl⟩ := same.read_of_ok
  obtain ⟨-, program, writes, -, describes⟩ := (parse_eq_ok_iff _ _ _).mp parses
  rw [render_eq, lines] at writes
  simp only [List.map_nil, List.zipIdx_nil, String.join_nil, String.append_empty] at writes
  have ⟨lexemes, spells, forms⟩ := writes
  cases forms with
  | nothing => exact spells
  | @statement phrase rest clause more here later =>
      obtain ⟨label, rfl⟩ := label_of_describes_empty describes List.mem_cons_self
      cases here with
      | label free =>
          have word : IsWord label := isWord_of_spells spells List.mem_cons_self
          obtain ⟨found, plain⟩ := parse_defining word free
          have again := inert (defining name label) (defining "" label) rfl rfl ⟨rfl, rfl, rfl⟩
          rw [plain] at again
          obtain ⟨body, read, -⟩ := again.read_of_ok
          exact absurd read (parse_defining_ne_ok writes List.mem_cons_self word free)

end Loud

/-- A header without a line feed in title and name is quiet, and the quiet headers are the inert
ones: bodies that differ at most in their names are then read alike. -/
theorem header_inert_iff (title name : String) :
    ('\n' ∉ title.toList → '\n' ∉ name.toList → Quiet title name) ∧
      (Quiet title name ↔
        ∀ (otherTitle : String) (body other : Body) (reader otherReader : String),
          body.name = name → Quiet otherTitle other.name → Alike body other →
            SameOutcome (Body.parse reader (body.render title))
              (Body.parse otherReader (other.render otherTitle))) := by
  refine ⟨quiet_of_inLine, ?_, ?_⟩
  · rintro quiet otherTitle body other reader otherReader rfl otherQuiet alike
    exact alike.sameOutcome quiet otherQuiet reader otherReader
  · intro inert
    apply quiet_of_sameOutcome
    intro body other named bare alike
    have otherQuiet : Quiet "" other.name := by
      rw [bare]
      exact quiet_of_inLine (by simp) (by simp)
    exact inert "" body other "" "" named otherQuiet alike

/-- A name that goes on in a second comment line. -/
theorem header_inert_second_line :
    SameOutcome
      (Body.parse "b" (Body.render "body" ⟨"b\n; exception E", [.goto 1, .nop], [], []⟩))
      (Body.parse "c" (Body.render "before" ⟨"c", [.goto 1, .nop], [], []⟩)) :=
  (header_inert_iff "body" "b\n; exception E").2.mp (by decide +kernel) "before" _ _ "b" "c" rfl
    ((header_inert_iff "before" "c").1 (by decide) (by decide)) ⟨rfl, rfl, rfl⟩

/-- The name of a file can hold a statement behind a line feed. Written and read again, the body
gains an instruction. -/
theorem header_not_inert_statement_in_name :
    (Path.name? "b\nnop.trap").bind (·.stem?) = some "b\nnop" ∧
      Alike ⟨"b", [], [], []⟩ ⟨"b\nnop", [], [], []⟩ ∧
      Body.parse "c" (Body.render "body" ⟨"b", [], [], []⟩) = .ok ⟨"c", [], [], []⟩ ∧
      Body.parse "c" (Body.render "body" ⟨"b\nnop", [], [], []⟩) = .ok ⟨"c", [.nop], [], []⟩ ∧
      ¬ SameOutcome (Body.parse "c" (Body.render "body" ⟨"b", [], [], []⟩))
        (Body.parse "c" (Body.render "body" ⟨"b\nnop", [], [], []⟩)) := by
  have plain : Body.parse "c" (Body.render "body" ⟨"b", [], [], []⟩) = .ok ⟨"c", [], [], []⟩ := by
    decide +kernel
  have gained : Body.parse "c" (Body.render "body" ⟨"b\nnop", [], [], []⟩) =
      .ok ⟨"c", [.nop], [], []⟩ := by
    decide +kernel
  refine ⟨by decide +kernel, ⟨rfl, rfl, rfl⟩, plain, gained, ?_⟩
  rw [plain, gained]
  intro same
  obtain ⟨body, read, alike⟩ := same.read_of_ok
  cases read
  cases alike.insts

end Body

end DisjointTraps
