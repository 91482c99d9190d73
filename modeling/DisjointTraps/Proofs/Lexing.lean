import DisjointTraps.Proofs.Grammar
import Mathlib.Data.List.TakeWhile

set_option autoImplicit false

namespace DisjointTraps.Text

theorem le_ofDigitChars (digits : List Char) (value : Nat) :
    value ≤ Nat.ofDigitChars 10 digits value := by
  rw [Nat.ofDigitChars_eq_ofDigitChars_zero]
  have scaled : value ≤ 10 ^ digits.length * value :=
    Nat.le_mul_of_pos_left value (Nat.pow_pos (by decide))
  omega

theorem appendDigit?_eq_some_iff (number p : Position) (digit : Char) :
    appendDigit? number digit = some p ↔
      p.toNat = 10 * number.toNat + (digit.toNat - '0'.toNat) := by
  simp only [appendDigit?]
  split
  · rename_i fits
    rw [Option.some_inj, ← UInt32.toNat_inj, UInt32.toNat_ofNat_of_lt' fits]
    exact eq_comm
  · rename_i large
    have bounded := p.toNat_lt_size
    simp only [reduceCtorEq, false_iff]
    omega

/-- A prefix of digits that is too large makes the whole number too large, so reading digit by
digit finds the value whenever it fits. -/
theorem foldlM_appendDigit?_eq_some_iff (digits : List Char) (number p : Position) :
    digits.foldlM appendDigit? number = some p ↔
      p.toNat = Nat.ofDigitChars 10 digits number.toNat := by
  induction digits generalizing number with
  | nil =>
      rw [Nat.ofDigitChars_nil, UInt32.toNat_inj]
      exact ⟨fun same => (Option.some.inj same).symm, fun same => congrArg some same.symm⟩
  | cons digit digits ih =>
      rw [List.foldlM_cons, Nat.ofDigitChars_cons]
      constructor
      · intro read
        obtain ⟨next, step, later⟩ := Option.bind_eq_some_iff.mp read
        rw [← (appendDigit?_eq_some_iff number next digit).mp step]
        exact (ih next).mp later
      · intro value
        have grows := le_ofDigitChars digits (10 * number.toNat + (digit.toNat - '0'.toNat))
        have fits : 10 * number.toNat + (digit.toNat - '0'.toNat) < UInt32.size := by
          have bounded := p.toNat_lt_size
          omega
        have step := (appendDigit?_eq_some_iff number _ digit).mpr (UInt32.toNat_ofNat_of_lt' fits)
        refine Option.bind_eq_some_iff.mpr ⟨_, step, (ih _).mpr ?_⟩
        rw [UInt32.toNat_ofNat_of_lt' fits]
        exact value

theorem ofDigits?_eq_some_iff (digits : List Char) (p : Position) :
    ofDigits? digits = some p ↔ p.toNat = Nat.ofDigitChars 10 digits 0 :=
  foldlM_appendDigit?_eq_some_iff digits 0 p

theorem ofDigits?_eq_none_iff (digits : List Char) :
    ofDigits? digits = none ↔ UInt32.size ≤ Nat.ofDigitChars 10 digits 0 := by
  rw [Option.eq_none_iff_forall_ne_some]
  simp only [ne_eq, ofDigits?_eq_some_iff]
  constructor
  · intro none
    apply Nat.le_of_not_lt
    intro fits
    exact none (UInt32.ofNat _) (UInt32.toNat_ofNat_of_lt' fits)
  · intro large p same
    have bounded := p.toNat_lt_size
    omega

section Classes

variable {p : Char → Bool} {text rest : List Char} {c : Char}

theorem takeWhile_eq_of_ends (chars : ∀ d ∈ text, p d = true) (ended : Ends p rest) :
    (text ++ rest).takeWhile p = text := by
  rw [List.takeWhile_append_of_pos chars]
  cases rest with
  | nil => simp
  | cons c rest => simp [ended c rfl]

theorem dropWhile_eq_of_ends (chars : ∀ d ∈ text, p d = true) (ended : Ends p rest) :
    (text ++ rest).dropWhile p = rest := by
  rw [List.dropWhile_append_of_pos chars]
  cases rest with
  | nil => simp
  | cons c rest => simp [ended c rfl]

theorem ends_dropWhile (p : Char → Bool) (text : List Char) : Ends p (text.dropWhile p) := by
  intro c found
  have stopped := List.head?_dropWhile_not p text
  rw [found] at stopped
  exact stopped

theorem notMem_takeWhile_line (text : List Char) : '\n' ∉ text.takeWhile (· ≠ '\n') :=
  fun member => by simpa using List.mem_takeWhile_imp member

theorem ends_iff_any (p : Char → Bool) (rest : List Char) :
    Ends p rest ↔ rest.head?.any p = false := by
  cases rest <;> simp [Ends]

theorem isDigit_iff (c : Char) : isDigit c = true ↔ 48 ≤ c.toNat ∧ c.toNat ≤ 57 := by
  simp only [isDigit, Bool.and_eq_true, decide_eq_true_eq, Char.le_def, UInt32.le_iff_toNat_le]
  exact Iff.rfl

theorem isWordStart_eq_false_of_isDigit (digit : isDigit c = true) : isWordStart c = false := by
  have range := (isDigit_iff c).mp digit
  rw [← Bool.not_eq_true]
  intro start
  simp only [isWordStart, Bool.or_eq_true, Bool.and_eq_true, decide_eq_true_eq, Char.le_def,
    UInt32.le_iff_toNat_le] at start
  rcases start with ((lower | upper) | rfl) | rfl
  · change 97 ≤ c.toNat ∧ c.toNat ≤ 122 at lower
    omega
  · change 65 ≤ c.toNat ∧ c.toNat ≤ 90 at upper
    omega
  · cases digit
  · cases digit

theorem not_skipped (begins : isWordStart c = true ∨ isDigit c = true) :
    c ≠ '\n' ∧ isBlank c = false ∧ c ≠ ';' := by
  have other : c ∉ [' ', '\t', '\r', '\n', ';'] := by
    intro member
    revert begins
    simp only [List.mem_cons, List.not_mem_nil, or_false] at member
    rcases member with rfl | rfl | rfl | rfl | rfl <;> decide
  simp only [List.mem_cons, List.not_mem_nil, not_or] at other
  simp [isBlank, other]

end Classes

/-- A lexeme that statements can be made of. -/
def Lexeme.Sound : Lexeme → Prop
  | .word _ | .colon => True
  | .number digits glued => glued = false ∧ Nat.ofDigitChars 10 digits 0 < UInt32.size
  | .stray _ => False

@[simp] theorem Lexeme.sound_word (text : String) : (Lexeme.word text).Sound := trivial

@[simp] theorem Lexeme.sound_colon : Lexeme.colon.Sound := trivial

theorem readLexeme_cases {c : Char} {rest : List Char} (sound : (readLexeme c rest).1.Sound) :
    (∃ text after, rest = text ++ after ∧ isWordStart c = true ∧
      (∀ d ∈ text, isWordChar d = true) ∧ Ends isWordChar after ∧
      readLexeme c rest = (.word (String.ofList (c :: text)), after)) ∨
    (∃ digits after, rest = digits ++ after ∧ (∀ d ∈ c :: digits, isDigit d = true) ∧
      Ends isDigit after ∧ Ends isWordStart after ∧
      Nat.ofDigitChars 10 (c :: digits) 0 < UInt32.size ∧
      readLexeme c rest = (.number (c :: digits) false, after)) ∨
    (c = ':' ∧ readLexeme c rest = (.colon, rest)) := by
  have join : ∀ p : Char → Bool, rest = rest.takeWhile p ++ rest.dropWhile p :=
    fun p => List.takeWhile_append_dropWhile.symm
  have inside : ∀ p : Char → Bool, ∀ d ∈ rest.takeWhile p, p d = true :=
    fun p d => List.mem_takeWhile_imp
  unfold readLexeme at sound ⊢
  split at sound
  · rename_i start
    rw [if_pos start]
    exact .inl ⟨_, _, join _, start, inside _, ends_dropWhile _ rest, rfl⟩
  · rename_i noWord
    rw [if_neg noWord]
    split at sound
    · rename_i digit
      rw [if_pos digit]
      obtain ⟨free, fits⟩ := sound
      have apart := (ends_iff_any isWordStart _).mpr free
      have chars : ∀ d ∈ c :: rest.takeWhile isDigit, isDigit d = true :=
        List.forall_mem_cons.mpr ⟨digit, inside isDigit⟩
      exact .inr (.inl ⟨_, _, join _, chars, ends_dropWhile _ rest, apart, fits,
        by simp only [free]⟩)
    · rename_i noDigit
      rw [if_neg noDigit]
      split at sound
      · rename_i colon
        rw [if_pos colon]
        exact .inr (.inr ⟨colon, rfl⟩)
      · cases sound

theorem spells_readLexeme {c : Char} {rest : List Char} {lexemes : List Lexeme}
    (sound : (readLexeme c rest).1.Sound) (later : Spells (readLexeme c rest).2 lexemes) :
    Spells (c :: rest) ((readLexeme c rest).1 :: lexemes) := by
  rcases readLexeme_cases sound with ⟨text, after, rfl, start, chars, longest, read⟩ |
    ⟨digits, after, rfl, chars, longest, apart, fits, read⟩ | ⟨rfl, read⟩
  · rw [read] at later ⊢
    exact .word start chars longest later
  · rw [read] at later ⊢
    exact .number (List.cons_ne_nil c digits) chars longest apart fits later
  · rw [read] at later ⊢
    exact .colon later

/-- What is read from a text is what the text spells, if all of it is sound. -/
theorem spells_tokenize (line : Nat) (text : List Char) :
    (∀ lexeme ∈ (tokenize line text).1.map Token.lexeme, lexeme.Sound) →
      Spells text ((tokenize line text).1.map Token.lexeme) := by
  fun_induction tokenize line text with
  | case1 line =>
      intro _
      exact .nothing
  | case2 line rest ih =>
      intro sound
      exact .blank rfl (ih sound)
  | case3 line c rest noLine blank ih =>
      intro sound
      exact .blank blank (ih sound)
  | case4 line rest _ _ ih =>
      intro sound
      have comment : Spells (';' :: (rest.takeWhile (· ≠ '\n') ++ rest.dropWhile (· ≠ '\n'))) _ :=
        .comment (notMem_takeWhile_line rest) (ends_dropWhile _ rest) (ih sound)
      rwa [List.takeWhile_append_dropWhile] at comment
  | case5 line c rest noLine noBlank noComment read later ih =>
      intro sound
      obtain ⟨here, rest⟩ := List.forall_mem_cons.mp sound
      exact spells_readLexeme here (ih rest)

theorem readLexeme_word {c : Char} {text rest : List Char} (start : isWordStart c = true)
    (chars : ∀ d ∈ text, isWordChar d = true) (longest : Ends isWordChar rest) :
    readLexeme c (text ++ rest) = (.word (String.ofList (c :: text)), rest) := by
  rw [readLexeme, if_pos start, takeWhile_eq_of_ends chars longest,
    dropWhile_eq_of_ends chars longest]

theorem readLexeme_digits {c : Char} {digits rest : List Char} (digit : isDigit c = true)
    (chars : ∀ d ∈ digits, isDigit d = true) (longest : Ends isDigit rest) :
    readLexeme c (digits ++ rest) =
      (.number (c :: digits) (rest.head?.any isWordStart), rest) := by
  have noWord : ¬ isWordStart c = true := by simp [isWordStart_eq_false_of_isDigit digit]
  simp only [readLexeme, if_neg noWord, if_pos digit, takeWhile_eq_of_ends chars longest,
    dropWhile_eq_of_ends chars longest]

theorem readLexeme_number {c : Char} {digits rest : List Char} (digit : isDigit c = true)
    (chars : ∀ d ∈ digits, isDigit d = true) (longest : Ends isDigit rest)
    (apart : Ends isWordStart rest) :
    readLexeme c (digits ++ rest) = (.number (c :: digits) false, rest) := by
  rw [readLexeme_digits digit chars longest, (ends_iff_any isWordStart rest).mp apart]

theorem tokenize_cons {c : Char} (noLine : c ≠ '\n') (noBlank : isBlank c = false)
    (noComment : c ≠ ';') (line : Nat) (rest : List Char) :
    tokenize line (c :: rest) =
      (⟨line, (readLexeme c rest).1⟩ :: (tokenize line (readLexeme c rest).2).1,
        (tokenize line (readLexeme c rest).2).2) := by
  rw [tokenize, if_neg noLine, noBlank, if_neg Bool.false_ne_true, if_neg noComment]

theorem lexemes_tokenize_cons {c : Char} {rest : List Char} (noLine : c ≠ '\n')
    (noBlank : isBlank c = false) (noComment : c ≠ ';') (line : Nat) :
    (tokenize line (c :: rest)).1.map Token.lexeme = (readLexeme c rest).1 ::
      (tokenize line (readLexeme c rest).2).1.map Token.lexeme := by
  rw [tokenize_cons noLine noBlank noComment, List.map_cons]

/-- What a text spells is what is read from it. -/
theorem tokenize_of_spells {text : List Char} {lexemes : List Lexeme}
    (spells : Spells text lexemes) (line : Nat) :
    (tokenize line text).1.map Token.lexeme = lexemes := by
  induction spells generalizing line with
  | nothing =>
      rw [tokenize]
      rfl
  | blank blank later ih =>
      rw [tokenize, if_pos blank]
      split
      · exact ih (line + 1)
      · exact ih line
  | comment inLine ended later ih =>
      have chars : ∀ d ∈ _, decide (d ≠ '\n') = true :=
        fun d member => decide_eq_true (ne_of_mem_of_not_mem member inLine)
      rw [tokenize, if_neg (by decide), if_neg (by decide), if_pos rfl,
        dropWhile_eq_of_ends chars ended]
      exact ih line
  | word start chars longest later ih =>
      obtain ⟨noLine, noBlank, noComment⟩ := not_skipped (.inl start)
      rw [lexemes_tokenize_cons noLine noBlank noComment, readLexeme_word start chars longest,
        ih line]
  | @number digits rest lexemes nonempty chars longest apart fits later ih =>
      obtain ⟨c, more, rfl⟩ := List.exists_cons_of_ne_nil nonempty
      obtain ⟨digit, digits⟩ := List.forall_mem_cons.mp chars
      obtain ⟨noLine, noBlank, noComment⟩ := not_skipped (.inr digit)
      rw [List.cons_append, lexemes_tokenize_cons noLine noBlank noComment,
        readLexeme_number digit digits longest apart, ih line]
  | colon later ih =>
      rw [lexemes_tokenize_cons (by decide) (by decide) (by decide)]
      exact congrArg _ (ih line)

end DisjointTraps.Text
