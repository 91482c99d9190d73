import DisjointTraps.Batch

set_option autoImplicit false

namespace DisjointTraps.Command

/-- What is found on a command line: the values of its options, and which of its flags there are. -/
structure Matches where
  test : Option String := none
  file : Option String := none
  directory : Option String := none
  algorithm : Option String := some "sweep"
  checker : Bool := false
  differential : Bool := false
  output : Option String := none
deriving DecidableEq

/-- Options that are declared to need or to exclude one another. -/
structure Matches.Consistent (found : Matches) : Prop where
  source : found.test.isSome ∨ found.file.isSome ∨ found.directory.isSome
  file : found.file.isSome → found.test = none
  directory : found.directory.isSome → found.test = none ∧ found.file = none ∧ found.output = none

instance : DecidablePred Matches.Consistent := fun _ =>
  decidable_of_iff (_ ∧ _ ∧ _)
    ⟨fun ⟨source, file, directory⟩ => ⟨source, file, directory⟩,
      fun ⟨source, file, directory⟩ => ⟨source, file, directory⟩⟩

inductive Refusal where
  /-- The words make no sense. -/
  | misuse
  /-- Only help is asked for. -/
  | help
deriving DecidableEq

/-- A parser of command lines. Whatever form a line has, what is found on it is consistent. -/
structure ArgumentParser (Line : Type) where
  parse : Line → Except Refusal Matches
  consistent : ∀ {line found}, parse line = .ok found → found.Consistent

inductive ValueOption where
  | test
  | file
  | directory
  | algorithm
  | output
deriving DecidableEq

inductive Flag where
  | checker
  | differential
  | help
deriving DecidableEq

inductive OptionName where
  | value (option : ValueOption)
  | flag (flag : Flag)
deriving DecidableEq

def ofLong? : String → Option OptionName
  | "test" => some (.value .test)
  | "file" => some (.value .file)
  | "dir" => some (.value .directory)
  | "algorithm" => some (.value .algorithm)
  | "output" => some (.value .output)
  | "checker" => some (.flag .checker)
  | "differential" => some (.flag .differential)
  | "help" => some (.flag .help)
  | _ => none

def ofShort? : Char → Option OptionName
  | 't' => some (.value .test)
  | 'f' => some (.value .file)
  | 'D' => some (.value .directory)
  | 'a' => some (.value .algorithm)
  | 'o' => some (.value .output)
  | 'c' => some (.flag .checker)
  | 'd' => some (.flag .differential)
  | 'h' => some (.flag .help)
  | _ => none

inductive Item where
  /-- An option and its value, which may be missing. -/
  | value (option : ValueOption) (text : Option String)
  | flag (flag : Flag)
deriving DecidableEq

/-- The items of one word with short forms, and the option whose value is still to come. -/
def readShort : List Char → Except Refusal (List Item × Option ValueOption)
  | [] => .ok ([], none)
  | c :: rest =>
      match ofShort? c with
      | none => .error .misuse
      | some (.flag .help) => .error .help
      | some (.flag flag) => do
          let (items, pending) ← readShort rest
          return (.flag flag :: items, pending)
      | some (.value option) =>
          match rest with
          | [] => .ok ([], some option)
          | '=' :: text => .ok ([.value option (some (String.ofList text))], none)
          | text => .ok ([.value option (some (String.ofList text))], none)

/-- The items of one word with a long form, without its two dashes. -/
def readLong (word : List Char) : Except Refusal (List Item × Option ValueOption) :=
  let name := word.takeWhile (· ≠ '=')
  match ofLong? (String.ofList name), word.dropWhile (· ≠ '=') with
  | none, _ => .error .misuse
  | some (.flag .help), [] => .error .help
  | some (.flag flag), [] => .ok ([.flag flag], none)
  | some (.flag _), _ :: _ => .error .misuse
  | some (.value option), [] => .ok ([], some option)
  | some (.value option), _ :: text => .ok ([.value option (some (String.ofList text))], none)

def unfinished (pending : Option ValueOption) : List Item :=
  match pending with
  | some option => [.value option none]
  | none => []

/-- The items of a command line, where `pending` is the option whose value may come next. A single
dash is a value like any other, and nothing can follow two dashes. -/
def readItems (pending : Option ValueOption) : List String → Except Refusal (List Item)
  | [] => .ok (unfinished pending)
  | word :: rest =>
      match word.toList with
      | ['-', '-'] => if rest.isEmpty then .ok (unfinished pending) else .error .misuse
      | '-' :: '-' :: long => do
          let (items, next) ← readLong long
          return unfinished pending ++ items ++ (← readItems next rest)
      | '-' :: c :: short => do
          let (items, next) ← readShort (c :: short)
          return unfinished pending ++ items ++ (← readItems next rest)
      | _ =>
          match pending with
          | some option => return .value option (some word) :: (← readItems none rest)
          | none => .error .misuse

/-- What an item says about the value of an option. -/
def Item.valueFor? (option : ValueOption) : Item → Option (Option String)
  | .value other text => if other = option then some text else none
  | .flag _ => none

def valueOf (option : ValueOption) (items : List Item) : Except Refusal (Option String) :=
  match items.filterMap (Item.valueFor? option) with
  | [] => .ok none
  | [some text] => .ok (some text)
  | _ => .error .misuse

def flagOf (flag : Flag) (items : List Item) : Except Refusal Bool :=
  match items.count (.flag flag) with
  | 0 => .ok false
  | 1 => .ok true
  | _ => .error .misuse

/-- What some items say together, whether or not it is consistent. -/
def collect (items : List Item) : Except Refusal Matches := do
  return {
    test := ← valueOf .test items
    file := ← valueOf .file items
    directory := ← valueOf .directory items
    algorithm := some ((← valueOf .algorithm items).getD "sweep")
    checker := ← flagOf .checker items
    differential := ← flagOf .differential items
    output := ← valueOf .output items }

/-- Accepts what is consistent and names one of the two algorithms. -/
def Matches.check (found : Matches) : Except Refusal Matches :=
  if found.Consistent ∧ found.algorithm ∈ [some "sweep", some "reference"] then .ok found
  else .error .misuse

theorem Matches.check_eq_ok {found checked : Matches} (accepted : found.check = .ok checked) :
    checked = found ∧ found.Consistent := by
  unfold check at accepted
  split at accepted
  · rename_i fits
    exact ⟨(Except.ok.inj accepted).symm, fits.1⟩
  · cases accepted

def reader : ArgumentParser (List String) where
  parse words := do (← collect (← readItems none words)).check
  consistent accepted := by
    obtain ⟨items, -, accepted⟩ := Text.Source.bind_eq_ok accepted
    obtain ⟨found, -, accepted⟩ := Text.Source.bind_eq_ok accepted
    obtain ⟨rfl, consistent⟩ := Matches.check_eq_ok accepted
    exact consistent

end DisjointTraps.Command
