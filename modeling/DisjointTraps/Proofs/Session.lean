import DisjointTraps.Batch

set_option autoImplicit false

namespace DisjointTraps

variable {σ α β : Type} [FileSystem σ]

namespace Session

structure Effect (σ α : Type) where
  result : α
  files : σ
  printed : String

omit [FileSystem σ] in
def Effect.after (text : String) (effect : Effect σ α) : Effect σ α :=
  { effect with printed := text ++ effect.printed }

def effect : Session α → σ → Effect σ α
  | .done result, files => ⟨result, files, ""⟩
  | .print text next, files => (next.effect files).after text
  | .log _ next, files => next.effect files
  | .read path next, files => (next (FileSystem.read files path)).effect files
  | .list path next, files => (next (FileSystem.list files path)).effect files
  | .create path content next, files =>
      let created := FileSystem.create files path content
      (next created.1).effect created.2

/-- What has been printed and logged before makes no difference. -/
theorem run_eq_effect (session : Session α) (host : Host σ) :
    (session.run host).1 = (session.effect host.files).result ∧
      (session.run host).2.files = (session.effect host.files).files ∧
      (session.run host).2.printed = host.printed ++ (session.effect host.files).printed := by
  induction session generalizing host with
  | done result => exact ⟨rfl, rfl, String.append_empty.symm⟩
  | print text next ih =>
      obtain ⟨result, files, printed⟩ := ih { host with printed := host.printed ++ text }
      exact ⟨result, files, printed.trans String.append_assoc⟩
  | log record next ih => exact ih { host with records := host.records ++ [record] }
  | read path next ih => exact ih _ host
  | list path next ih => exact ih _ host
  | create path content next ih =>
      exact ih _ { host with files := (FileSystem.create host.files path content).2 }

@[simp] theorem effect_pure (result : α) (files : σ) :
    (pure result : Session α).effect files = ⟨result, files, ""⟩ := rfl

@[simp] theorem effect_bind (session : Session α) (next : α → Session β) (files : σ) :
    (session >>= next).effect files =
      ((next (session.effect files).result).effect (session.effect files).files).after
        (session.effect files).printed := by
  change (session.andThen next).effect files = _
  induction session generalizing files with
  | done result => simp only [andThen, effect, Effect.after, String.empty_append]
  | print text rest ih => simp only [andThen, effect, Effect.after, ih, String.append_assoc]
  | log record rest ih => exact ih files
  | read path rest ih => exact ih _ files
  | list path rest ih => exact ih _ files
  | create path content rest ih => exact ih _ _

@[simp] theorem effect_say (text : String) (files : σ) :
    (say text).effect files = ⟨(), files, text⟩ := by
  simp only [say, effect, Effect.after, String.append_empty]

@[simp] theorem effect_record (source : LogSource) (level : LogLevel) (text : String) (files : σ) :
    (record source level text).effect files = ⟨(), files, ""⟩ := rfl

@[simp] theorem effect_recordAll (records : List LogRecord) (files : σ) :
    (recordAll records).effect files = ⟨(), files, ""⟩ := by
  induction records with
  | nil => rfl
  | cons record rest ih => exact ih

@[simp] theorem effect_readFile (path : Path) (files : σ) :
    (readFile path).effect files = ⟨FileSystem.read files path, files, ""⟩ := rfl

@[simp] theorem effect_listDirectory (path : Path) (files : σ) :
    (listDirectory path).effect files = ⟨FileSystem.list files path, files, ""⟩ := rfl

@[simp] theorem effect_createFile (path : Path) (content : List UInt8) (files : σ) :
    (createFile path content).effect files =
      ⟨(FileSystem.create files path content).1, (FileSystem.create files path content).2, ""⟩ :=
  rfl

omit [FileSystem σ] in
@[simp] theorem Effect.after_empty (effect : Effect σ α) : effect.after "" = effect := by
  simp only [Effect.after, String.empty_append]

end Session

/-- The body in the file at a path, or why there is none. -/
def bodyAt (files : σ) (path : Path) : Except ReadError Body :=
  match path.name?.bind (·.stem?) with
  | none => .error .noFileName
  | some name => bodyOfContent name (FileSystem.read files path)

@[simp] theorem run_readBody (path : Path) (host : Host σ) :
    (readBody path).run host = (bodyAt host.files path, host) := by
  unfold readBody bodyAt
  cases path.name?.bind (·.stem?) with
  | none => rfl
  | some name => rfl

@[simp] theorem effect_readBody (path : Path) (files : σ) :
    (readBody path).effect files = ⟨bodyAt files path, files, ""⟩ := by
  unfold readBody bodyAt
  cases path.name?.bind (·.stem?) with
  | none => rfl
  | some name => rfl

instance : Std.IsLinearOrder FileName where
  le_refl one := Std.le_refl one.bytes
  le_trans _ _ _ before after := List.le_trans before after
  le_antisymm one two := by
    intro before after
    obtain ⟨bytes, proper⟩ := one
    obtain ⟨others, fits⟩ := two
    have same : bytes = others := Std.le_antisymm before after
    subst same
    rfl
  le_total one two := Std.le_total (a := one.bytes) (b := two.bytes)

instance : Std.LawfulOrderLT FileName where
  lt_iff one two := Std.lt_iff_le_and_not_ge (a := one.bytes) (b := two.bytes)

section Order

variable {ι : Type} [LT ι] [DecidableLT ι]

theorem inOrder_perm (items : List ι) : (inOrder items).Perm items := List.mergeSort_perm items _

theorem inOrder_sorted [LE ι] [Std.IsLinearOrder ι] [Std.LawfulOrderLT ι] (items : List ι) :
    (inOrder items).Pairwise (· ≤ ·) := by
  have before : ∀ one two : ι, (!decide (two < one)) = true ↔ one ≤ two := by
    intro one two
    rw [Bool.not_eq_true', decide_eq_false_iff_not, Std.not_lt]
  have sorted : (inOrder items).Pairwise fun one two => !decide (two < one) := by
    apply List.pairwise_mergeSort
    · intro one two three
      rw [before, before, before]
      exact Std.le_trans
    · intro one two
      rw [Bool.or_eq_true, before, before]
      exact Std.le_total
  exact sorted.imp fun ordered => (before _ _).mp ordered

end Order

end DisjointTraps
