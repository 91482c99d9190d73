import DisjointTraps.Body
import DisjointTraps.Text.Token

set_option autoImplicit false

namespace DisjointTraps.Text

/-- A position that a statement asks for. -/
inductive Operand where
  | number (p : Position)
  | label (name : String)
deriving DecidableEq

/-- A statement. Those that can be at fault after they have been read know their line: branches
and traps that of their keyword, labels that of their colon. -/
inductive Statement where
  | inst (inst : Inst)
  | goto (line : Nat) (target : Operand)
  | exception (name : String)
  | trap (line : Nat) (first limit : Operand) (exception : String) (target : Operand)
  | label (line : Nat) (name : String)
deriving DecidableEq

def appendDigit? (number : Position) (digit : Char) : Option Position :=
  let value := 10 * number.toNat + (digit.toNat - '0'.toNat)
  if value < UInt32.size then some (UInt32.ofNat value) else none

def ofDigits? (digits : List Char) : Option Position := digits.foldlM appendDigit? 0

/-- A text's tokens from some place on, with the line on which the text ends. -/
structure Source where
  tokens : List Token
  lastLine : Nat

namespace Source

def ofText (text : String) : Source :=
  let (tokens, lastLine) := tokenize 1 text.toList
  ⟨tokens, lastLine⟩

def line (source : Source) : Nat :=
  match source.tokens with
  | [] => source.lastLine
  | token :: _ => token.line

def fail {α : Type} (source : Source) (fault : Fault) : Except Error α :=
  .error ⟨source.line, fault⟩

def word (source : Source) : Except Error (String × Source) :=
  match source.tokens with
  | ⟨_, .word text⟩ :: rest => .ok (text, { source with tokens := rest })
  | _ => source.fail .expectedWord

/-- Reads a number if one comes next, and nothing if none does. -/
def number (source : Source) : Except Error (Option Position × Source) :=
  match source.tokens with
  | ⟨_, .number digits glued⟩ :: rest =>
      match ofDigits? digits with
      | none => source.fail .numberTooLarge
      | some p =>
          if glued then source.fail .gluedNumber
          else .ok (some p, { source with tokens := rest })
  | _ => .ok (none, source)

def operand (source : Source) : Except Error (Operand × Source) := do
  match ← source.number with
  | (some p, rest) => return (.number p, rest)
  | (none, rest) =>
      match rest.tokens with
      | ⟨_, .word text⟩ :: later => return (.label text, { rest with tokens := later })
      | _ => rest.fail .expectedPosition

def labelEnd (name : String) (source : Source) : Except Error (Statement × Source) :=
  match source.tokens with
  | ⟨line, .colon⟩ :: rest => .ok (.label line name, { source with tokens := rest })
  | _ => source.fail (.unknownInstruction name)

/-- Reads a statement after its first word, which stands on the given line. -/
def statementAfter (line : Nat) (first : String) (source : Source) :
    Except Error (Statement × Source) :=
  match Inst.ofMnemonic? first with
  | some inst => .ok (.inst inst, source)
  | none =>
      if first = "goto" then do
        let (target, source) ← source.operand
        return (.goto line target, source)
      else if first = "exception" then do
        let (name, source) ← source.word
        return (.exception name, source)
      else if first = "trap" then do
        let (first, source) ← source.operand
        let (limit, source) ← source.operand
        let (name, source) ← source.word
        let (target, source) ← source.operand
        return (.trap line first limit name target, source)
      else source.labelEnd first

def statement (source : Source) : Except Error (Statement × Source) := do
  let (first, rest) ← source.word
  rest.statementAfter source.line first

theorem word_length_lt {source rest : Source} {text : String}
    (success : source.word = .ok (text, rest)) : rest.tokens.length < source.tokens.length := by
  unfold word at success
  split at success
  · rename_i tokens
    simp only [Except.ok.injEq, Prod.mk.injEq] at success
    rw [← success.2, tokens]
    exact Nat.lt_succ_self _
  · cases success

theorem operand_eq (source : Source) :
    source.operand =
      match source.tokens with
      | ⟨_, .number digits glued⟩ :: rest =>
          match ofDigits? digits with
          | none => source.fail .numberTooLarge
          | some p =>
              if glued then source.fail .gluedNumber
              else .ok (.number p, { source with tokens := rest })
      | ⟨_, .word text⟩ :: rest => .ok (.label text, { source with tokens := rest })
      | _ => source.fail .expectedPosition := by
  obtain ⟨tokens, lastLine⟩ := source
  rcases tokens with _ | ⟨⟨line, lexeme⟩, rest⟩
  · rfl
  cases lexeme with
  | number digits glued =>
      simp only [operand, number]
      cases ofDigits? digits with
      | none => rfl
      | some p => cases glued <;> rfl
  | _ => rfl

theorem operand_length_lt {source rest : Source} {operand : Operand}
    (success : source.operand = .ok (operand, rest)) :
    rest.tokens.length < source.tokens.length := by
  rw [operand_eq] at success
  split at success
  · rename_i tokens
    split at success
    · cases success
    · split at success
      · cases success
      · simp only [Except.ok.injEq, Prod.mk.injEq] at success
        rw [← success.2, tokens]
        exact Nat.lt_succ_self _
  · rename_i tokens
    simp only [Except.ok.injEq, Prod.mk.injEq] at success
    rw [← success.2, tokens]
    exact Nat.lt_succ_self _
  · cases success

theorem labelEnd_length_le {source rest : Source} {name : String} {statement : Statement}
    (success : source.labelEnd name = .ok (statement, rest)) :
    rest.tokens.length ≤ source.tokens.length := by
  unfold labelEnd at success
  split at success
  · rename_i tokens
    simp only [Except.ok.injEq, Prod.mk.injEq] at success
    rw [← success.2, tokens]
    exact Nat.le_succ _
  · cases success

theorem bind_eq_ok {ε α β : Type} {first : Except ε α} {next : α → Except ε β} {result : β}
    (success : (first >>= next) = .ok result) :
    ∃ value, first = .ok value ∧ next value = .ok result := by
  cases first with
  | error error => cases success
  | ok value => exact ⟨value, rfl, success⟩

theorem statementAfter_length_le {source rest : Source} {line : Nat} {first : String}
    {statement : Statement} (success : source.statementAfter line first = .ok (statement, rest)) :
    rest.tokens.length ≤ source.tokens.length := by
  unfold statementAfter at success
  split at success
  · cases success
    exact Nat.le_refl _
  · split at success
    · obtain ⟨target, read, finish⟩ := bind_eq_ok success
      cases finish
      exact Nat.le_of_lt (operand_length_lt read)
    · split at success
      · obtain ⟨name, read, finish⟩ := bind_eq_ok success
        cases finish
        exact Nat.le_of_lt (word_length_lt read)
      · split at success
        · obtain ⟨first, readFirst, success⟩ := bind_eq_ok success
          obtain ⟨limit, readLimit, success⟩ := bind_eq_ok success
          obtain ⟨name, readName, success⟩ := bind_eq_ok success
          obtain ⟨target, readTarget, finish⟩ := bind_eq_ok success
          cases finish
          have := operand_length_lt readFirst
          have := operand_length_lt readLimit
          have := word_length_lt readName
          have := operand_length_lt readTarget
          omega
        · exact labelEnd_length_le success

theorem statement_length_lt {source rest : Source} {statement : Statement}
    (success : source.statement = .ok (statement, rest)) :
    rest.tokens.length < source.tokens.length := by
  obtain ⟨first, readFirst, readRest⟩ := bind_eq_ok success
  exact Nat.lt_of_le_of_lt (statementAfter_length_le readRest) (word_length_lt readFirst)

/-- The statements of a source up to its first fault, and that fault if there is one. -/
def statements (source : Source) : List Statement × Option Error :=
  if source.tokens.isEmpty then ([], none)
  else
    match _success : source.statement with
    | .error error => ([], some error)
    | .ok (statement, rest) =>
        let later := statements rest
        (statement :: later.1, later.2)
termination_by source.tokens.length
decreasing_by exact statement_length_lt _success

end Source

def Statement.instCount : Statement → Nat
  | .inst _ | .goto _ _ => 1
  | _ => 0

abbrev Labels := List (String × Position)

/-- Adds the labels that some statements define to those defined before, where the next
instruction has position `p`. -/
def collectLabels (known : Labels) (p : Nat) : List Statement → Except Error Labels
  | [] => .ok known
  | .label line name :: rest =>
      if (known.lookup name).isSome then .error ⟨line, .duplicateLabel⟩
      else collectLabels ((name, UInt32.ofNat p) :: known) p rest
  | statement :: rest => collectLabels known (p + statement.instCount) rest

def Labels.resolve (labels : Labels) (line : Nat) : Operand → Except Error Position
  | .number p => .ok p
  | .label name =>
      match labels.lookup name with
      | some p => .ok p
      | none => .error ⟨line, .undefinedLabel name⟩

def resolveInsts (labels : Labels) : List Statement → Except Error (List Inst)
  | [] => .ok []
  | .inst inst :: rest => return inst :: (← resolveInsts labels rest)
  | .goto line target :: rest => do
      let target ← labels.resolve line target
      return .goto target :: (← resolveInsts labels rest)
  | _ :: rest => resolveInsts labels rest

def Statement.exceptionName? : Statement → Option String
  | .exception name => some name
  | .trap _ _ _ name _ => some name
  | _ => none

def exceptionNames (statements : List Statement) : List String :=
  (statements.filterMap Statement.exceptionName?).foldl addName []

def resolveTraps (labels : Labels) (names : List String) :
    List Statement → Except Error (List (Trap ExceptionType))
  | [] => .ok []
  | .trap line first limit name target :: rest => do
      let first ← labels.resolve line first
      let limit ← labels.resolve line limit
      let target ← labels.resolve line target
      return ⟨⟨first, limit⟩, ⟨typeOf names name, target⟩⟩ :: (← resolveTraps labels names rest)
  | _ :: rest => resolveTraps labels names rest

def assemble (name : String) (labels : Labels) (statements : List Statement) :
    Except Error Body := do
  let insts ← resolveInsts labels statements
  let names := exceptionNames statements
  let traps ← resolveTraps labels names statements
  return { name, insts, exceptionNames := names, traps }

end DisjointTraps.Text

namespace DisjointTraps

def Body.parse (name text : String) : Except Text.Error Body := do
  let (statements, fault) := (Text.Source.ofText text).statements
  let labels ← Text.collectLabels [] 0 statements
  match fault with
  | some error => .error error
  | none => Text.assemble name labels statements

end DisjointTraps
