set_option autoImplicit false

namespace DisjointTraps.Text

inductive Fault where
  | expectedWord
  | expectedPosition
  | numberTooLarge
  /-- A number runs into a word. -/
  | gluedNumber
  /-- A word that is no keyword and is not followed by a colon. -/
  | unknownInstruction (word : String)
  | duplicateLabel
  | undefinedLabel (name : String)
deriving DecidableEq

def Fault.message : Fault → String
  | expectedWord => "expected identifier or keyword"
  | expectedPosition => "expected a label or an instruction number"
  | numberTooLarge => "integer too large"
  | gluedNumber => "unexpected character after number"
  | unknownInstruction word => "unknown instruction '" ++ word ++ "'"
  | duplicateLabel => "duplicate label"
  | undefinedLabel name => "undefined label '" ++ name ++ "'"

/-- The fault that ended the reading of a text, and its line. -/
structure Error where
  line : Nat
  fault : Fault
deriving DecidableEq

def Error.message (error : Error) : String :=
  "error at line " ++ error.line.repr ++ ": " ++ error.fault.message

def isBlank (c : Char) : Bool := c = ' ' || c = '\t' || c = '\r' || c = '\n'

def isDigit (c : Char) : Bool := decide ('0' ≤ c) && decide (c ≤ '9')

def isWordStart (c : Char) : Bool :=
  (decide ('a' ≤ c) && decide (c ≤ 'z')) || (decide ('A' ≤ c) && decide (c ≤ 'Z')) ||
    c = '_' || c = '$'

def isWordChar (c : Char) : Bool := isDigit c || isWordStart c || c = '-' || c = '.' || c = '/'

inductive Lexeme where
  /-- A keyword, a label or the name of an exception type. -/
  | word (text : String)
  /-- A longest run of digits. It is glued if a character that can begin a word follows it with
  nothing between. -/
  | number (digits : List Char) (glued : Bool)
  | colon
  /-- A character that is part of no token. -/
  | stray (c : Char)
deriving DecidableEq

/-- A token and the number of its line, where the first line has number one. -/
structure Token where
  line : Nat
  lexeme : Lexeme
deriving DecidableEq

/-- The lexeme that begins with `c`, and what comes after it. Words and numbers are as long as they
can be. -/
def readLexeme (c : Char) (rest : List Char) : Lexeme × List Char :=
  if isWordStart c then
    (.word (String.ofList (c :: rest.takeWhile isWordChar)), rest.dropWhile isWordChar)
  else if isDigit c then
    let after := rest.dropWhile isDigit
    (.number (c :: rest.takeWhile isDigit) (after.head?.any isWordStart), after)
  else if c = ':' then (.colon, rest)
  else (.stray c, rest)

theorem length_dropWhile_le {α : Type} (p : α → Bool) (items : List α) :
    (items.dropWhile p).length ≤ items.length :=
  (List.dropWhile_sublist p).length_le

theorem readLexeme_length_le (c : Char) (rest : List Char) :
    (readLexeme c rest).2.length ≤ rest.length := by
  unfold readLexeme
  split
  · exact length_dropWhile_le _ _
  · split
    · exact length_dropWhile_le _ _
    · split <;> exact Nat.le_refl _

/-- The tokens of a text that begins on the given line, and the line on which it ends. A comment
runs from a semicolon to the end of its line. -/
def tokenize (line : Nat) (text : List Char) : List Token × Nat :=
  match text with
  | [] => ([], line)
  | c :: rest =>
      if c = '\n' then tokenize (line + 1) rest
      else if isBlank c then tokenize line rest
      else if c = ';' then tokenize line (rest.dropWhile (· ≠ '\n'))
      else
        let read := readLexeme c rest
        let later := tokenize line read.2
        (⟨line, read.1⟩ :: later.1, later.2)
termination_by text.length
decreasing_by
  · exact Nat.lt_succ_self _
  · exact Nat.lt_succ_self _
  · exact Nat.lt_succ_of_le (length_dropWhile_le _ _)
  · exact Nat.lt_succ_of_le (readLexeme_length_le _ _)

end DisjointTraps.Text
