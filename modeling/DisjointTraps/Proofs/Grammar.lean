import DisjointTraps.Text.Statement
import Mathlib.Data.List.Forall2

set_option autoImplicit false

namespace DisjointTraps.Text

/-- No character of the class `p` comes next. -/
def Ends (p : Char → Bool) (rest : List Char) : Prop := ∀ c, rest.head? = some c → p c = false

/-- A text is a sequence of lexemes with blanks and comments before, between and after them. Words
and numbers are as long as they can be, and a number does not run into a word. -/
inductive Spells : List Char → List Lexeme → Prop
  | nothing : Spells [] []
  | blank {c : Char} {rest : List Char} {lexemes : List Lexeme} (blank : isBlank c = true)
      (later : Spells rest lexemes) : Spells (c :: rest) lexemes
  | comment {text rest : List Char} {lexemes : List Lexeme} (inLine : '\n' ∉ text)
      (ended : Ends (· ≠ '\n') rest) (later : Spells rest lexemes) :
      Spells (';' :: (text ++ rest)) lexemes
  | word {c : Char} {text rest : List Char} {lexemes : List Lexeme} (start : isWordStart c = true)
      (chars : ∀ d ∈ text, isWordChar d = true) (longest : Ends isWordChar rest)
      (later : Spells rest lexemes) :
      Spells (c :: (text ++ rest)) (.word (String.ofList (c :: text)) :: lexemes)
  | number {digits rest : List Char} {lexemes : List Lexeme} (nonempty : digits ≠ [])
      (chars : ∀ d ∈ digits, isDigit d = true) (longest : Ends isDigit rest)
      (apart : Ends isWordStart rest) (fits : Nat.ofDigitChars 10 digits 0 < UInt32.size)
      (later : Spells rest lexemes) : Spells (digits ++ rest) (.number digits false :: lexemes)
  | colon {rest : List Char} {lexemes : List Lexeme} (later : Spells rest lexemes) :
      Spells (':' :: rest) (.colon :: lexemes)

/-- What a statement says, its line left aside. -/
inductive Clause where
  | inst (inst : Inst)
  | goto (target : Operand)
  | exception (name : String)
  | trap (first limit : Operand) (exception : String) (target : Operand)
  | label (name : String)
deriving DecidableEq

def Statement.clause : Statement → Clause
  | .inst plain => .inst plain
  | .goto _ target => .goto target
  | .exception name => .exception name
  | .trap _ first limit name target => .trap first limit name target
  | .label _ name => .label name

/-- The words that cannot be defined as labels. -/
def keywords : List String :=
  ["nop", "invoke", "move-result", "move-exception", "throw", "return", "goto", "exception", "trap"]

/-- A number stands for its value and a word for the label of that name, keyword or not. -/
inductive Operand.Reads : Lexeme → Operand → Prop
  | number {digits : List Char} {p : Position} (value : p.toNat = Nat.ofDigitChars 10 digits 0) :
      Reads (.number digits false) (.number p)
  | label (name : String) : Reads (.word name) (.label name)

/-- The lexemes of one statement. -/
inductive Phrase : List Lexeme → Clause → Prop
  | inst {inst : Inst} (plain : inst ∈ Inst.plain) : Phrase [.word inst.mnemonic] (.inst inst)
  | goto {lexeme : Lexeme} {target : Operand} (reads : target.Reads lexeme) :
      Phrase [.word "goto", lexeme] (.goto target)
  | exception (name : String) : Phrase [.word "exception", .word name] (.exception name)
  | trap {one two three : Lexeme} {first limit target : Operand} (name : String)
      (readsFirst : first.Reads one) (readsLimit : limit.Reads two)
      (readsTarget : target.Reads three) :
      Phrase [.word "trap", one, two, .word name, three] (.trap first limit name target)
  | label {name : String} (free : name ∉ keywords) : Phrase [.word name, .colon] (.label name)

/-- The lexemes of a program, statement by statement. -/
inductive Forms : List Lexeme → List Clause → Prop
  | nothing : Forms [] []
  | statement {lexemes rest : List Lexeme} {clause : Clause} {program : List Clause}
      (phrase : Phrase lexemes clause) (later : Forms rest program) :
      Forms (lexemes ++ rest) (clause :: program)

/-- A text is written for a program. -/
def Writes (text : List Char) (program : List Clause) : Prop :=
  ∃ lexemes, Spells text lexemes ∧ Forms lexemes program

namespace Clause

def isInst : Clause → Bool
  | inst _ | goto _ => true
  | _ => false

def isTrap : Clause → Bool
  | trap _ _ _ _ => true
  | _ => false

/-- The label that a statement defines. -/
def label? : Clause → Option String
  | label name => some name
  | _ => none

def exceptionName? : Clause → Option String
  | exception name => some name
  | trap _ _ name _ => some name
  | _ => none

def operands : Clause → List Operand
  | goto target => [target]
  | trap first limit _ target => [first, limit, target]
  | _ => []

end Clause

def labels (program : List Clause) : List String := program.filterMap Clause.label?

/-- A label names the number of instructions before its definition, wherever it is used. -/
inductive Names (program : List Clause) : Operand → Position → Prop
  | number (p : Position) : Names program (.number p) p
  | label {before after : List Clause} {name : String}
      (defined : program = before ++ .label name :: after) :
      Names program (.label name) (UInt32.ofNat (before.countP Clause.isInst))

/-- No label is defined twice, and each one that is used is defined. -/
structure WellLabelled (program : List Clause) : Prop where
  once : (labels program).Nodup
  defined : ∀ clause ∈ program, ∀ name, Operand.label name ∈ clause.operands →
    name ∈ labels program

/-- The instruction that a statement of a program stands for. -/
inductive InstOf (program : List Clause) : Clause → Inst → Prop
  | plain (inst : Inst) : InstOf program (.inst inst) inst
  | goto {target : Operand} {p : Position} (names : Names program target p) :
      InstOf program (.goto target) (.goto p)

/-- The trap that a statement of a program declares, in a body with these exception names. -/
inductive TrapOf (program : List Clause) (exceptions : List String) :
    Clause → Trap ExceptionType → Prop
  | trap {first limit target : Operand} {p q r : Position} (name : String)
      (begins : Names program first p) (ends : Names program limit q)
      (goes : Names program target r) :
      TrapOf program exceptions (.trap first limit name target)
        ⟨⟨p, q⟩, ⟨typeOf exceptions name, r⟩⟩

/-- A body has the instructions and traps of a program in their order, and its exception names by
first use. -/
structure Describes (program : List Clause) (body : Body) : Prop where
  insts : List.Forall₂ (InstOf program) (program.filter Clause.isInst) body.insts
  names : body.exceptionNames = (program.filterMap Clause.exceptionName?).eraseDups
  traps : List.Forall₂ (TrapOf program body.exceptionNames) (program.filter Clause.isTrap)
    body.traps

end DisjointTraps.Text
