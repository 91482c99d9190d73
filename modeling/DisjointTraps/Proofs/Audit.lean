import DisjointTraps.Audit
import DisjointTraps.Proofs.Blocks
import DisjointTraps.Proofs.Changes
import DisjointTraps.Proofs.Dispatch
import DisjointTraps.Proofs.Trap

set_option autoImplicit false

namespace DisjointTraps

variable {ε : Type}

/-- The form of a finished table for a body of `count` instructions and a boundary rule. -/
structure Legal (rule : BoundaryRule) (count : Position) (blocks : List (TryBlock ε)) : Prop
    extends Canonical blocks where
  inside : ∀ block ∈ blocks, block.span.limit ≤ count
  distinct : ∀ block ∈ blocks, block.handlers.Distinct
  allowed : ∀ block ∈ blocks, ∀ p ∈ [block.span.first, block.span.limit],
    rule.forbids count p = false

theorem not_forbiddenChange_of_allowed {rule : BoundaryRule} {count : Position}
    {blocks : List (TryBlock ε)}
    (allowed : ∀ block ∈ blocks, ∀ p ∈ [block.span.first, block.span.limit],
      rule.forbids count p = false) (p : Position) :
    ¬ ForbiddenChange rule count (dispatchIn blocks) p := by
  intro change
  obtain ⟨block, member, ends⟩ := exists_boundary_of_change change.positive change.differ
  have free := allowed block member p (by simpa using ends)
  rw [change.forbidden] at free
  cases free

theorem repeatedExceptions_eq_nil_iff [DecidableEq ε] (seen : List ε) (list : Dispatch ε) :
    repeatedExceptions seen list = [] ↔
      list.Distinct ∧ ∀ handler ∈ list, handler.exception ∉ seen := by
  induction list generalizing seen with
  | nil => simp [repeatedExceptions, Dispatch.Distinct]
  | cons handler rest ih =>
      have distinct : Dispatch.Distinct (handler :: rest) ↔
          (∀ later ∈ rest, later.exception ≠ handler.exception) ∧ Dispatch.Distinct rest := by
        simp only [Dispatch.Distinct, List.map_cons, List.nodup_cons, List.mem_map, not_exists,
          not_and]
      rw [repeatedExceptions, distinct, List.forall_mem_cons]
      by_cases caught : handler.exception ∈ seen
      · simp [caught]
      · simp only [caught, ↓reduceIte, not_false_eq_true, true_and]
        rw [ih]
        simp only [List.mem_cons, not_or]
        grind

theorem boundaryFindings_clear {rule : BoundaryRule} {count : Position} (last : Option Position)
    {positions : List Position} (allowed : ∀ p ∈ positions, rule.forbids count p = false) :
    boundaryFindings (ε := ε) rule count last positions = ([], last) := by
  induction positions with
  | nil => rfl
  | cons p rest ih =>
      rw [List.forall_mem_cons] at allowed
      rw [boundaryFindings, allowed.1, if_neg (by simp), ih allowed.2]

theorem boundaryFindings_eq_nil_iff (rule : BoundaryRule) (count : Position)
    (positions : List Position) :
    (boundaryFindings (ε := ε) rule count none positions).1 = [] ↔
      ∀ p ∈ positions, rule.forbids count p = false := by
  constructor
  · intro clear
    induction positions with
    | nil => simp
    | cons p rest ih =>
        rw [boundaryFindings] at clear
        by_cases forbidden : rule.forbids count p = true
        · rw [if_pos ⟨by simp, forbidden⟩] at clear
          cases clear
        · rw [if_neg (fun both => forbidden both.2)] at clear
          exact List.forall_mem_cons.mpr ⟨Bool.eq_false_iff.mpr forbidden, ih clear⟩
  · intro allowed
    rw [boundaryFindings_clear none allowed]

theorem malformedFindings_eq_nil_iff (side : Side) (count : Position) (traps : List (Trap ε)) :
    malformedFindings side count traps = [] ↔ ∀ trap ∈ traps, trap.WellFormed count := by
  rw [malformedFindings, List.map_eq_nil_iff, malformed_eq_nil_iff]

variable [DecidableEq ε]

theorem blockFindings_eq_nil_iff (count : Position) (block : TryBlock ε) :
    blockFindings count block = [] ↔ block.span.first < block.span.limit ∧
      block.span.limit ≤ count ∧ block.handlers ≠ [] ∧ block.handlers.Distinct := by
  simp only [blockFindings, List.append_eq_nil_iff, List.map_eq_nil_iff,
    repeatedExceptions_eq_nil_iff, ite_eq_right_iff, List.cons_ne_nil, imp_false, Span.isEmpty,
    decide_eq_true_eq, List.isEmpty_iff, List.not_mem_nil, not_false_eq_true, implies_true,
    and_true, and_assoc, UInt32.not_le, UInt32.not_lt, ne_eq]

theorem neighbourFindings_eq_nil_iff (earlier block : TryBlock ε) :
    neighbourFindings (some earlier) block = [] ↔
      earlier.span.limit ≤ block.span.first ∧ ¬ earlier.Joins block := by
  rw [neighbourFindings]
  by_cases overlap : block.span.first < earlier.span.limit
  · rw [if_pos overlap]
    grind
  · by_cases joins : earlier.Joins block
    · simp [overlap, joins]
    · simp only [overlap, joins, ↓reduceIte, not_false_eq_true, and_true, true_iff]
      grind

/-- The pass over all blocks reports nothing if it finds nothing wrong with any block or between
any two neighbours. -/
theorem structureFrom_eq_nil_iff (rule : BoundaryRule) (count : Position)
    (previous : Option (TryBlock ε)) (blocks : List (TryBlock ε)) :
    structureFrom rule count previous none blocks = [] ↔
      (∀ block ∈ blocks, blockFindings count block = [] ∧
        ∀ p ∈ [block.span.first, block.span.limit], rule.forbids count p = false) ∧
      (previous.toList ++ blocks).IsChain fun earlier block =>
        neighbourFindings (some earlier) block = [] := by
  induction blocks generalizing previous with
  | nil => cases previous <;> simp [structureFrom]
  | cons block rest ih =>
      have chain : (previous.toList ++ block :: rest).IsChain
            (fun earlier block => neighbourFindings (some earlier) block = []) ↔
          neighbourFindings previous block = [] ∧ (block :: rest).IsChain
            fun earlier block => neighbourFindings (some earlier) block = [] := by
        cases previous with
        | none => simp [neighbourFindings]
        | some earlier => exact List.isChain_cons_cons
      have later := ih (some block)
      have boundaries := boundaryFindings_eq_nil_iff (ε := ε) rule count
        [block.span.first, block.span.limit]
      rw [structureFrom, chain, List.forall_mem_cons]
      simp only [List.append_eq_nil_iff, boundaries]
      constructor
      · rintro ⟨⟨⟨alone, allowed⟩, beside⟩, after⟩
        rw [boundaryFindings_clear none allowed, later] at after
        exact ⟨⟨⟨alone, allowed⟩, after.1⟩, beside, after.2⟩
      · rintro ⟨⟨⟨alone, allowed⟩, others⟩, beside, linked⟩
        rw [boundaryFindings_clear none allowed, later]
        exact ⟨⟨⟨alone, allowed⟩, beside⟩, others, linked⟩

theorem checkStructure_eq_nil_iff (rule : BoundaryRule) (table : Table ε) :
    checkStructure rule table = [] ↔ Legal rule table.count table.blocks := by
  rw [checkStructure, structureFrom_eq_nil_iff, Option.toList_none, List.nil_append]
  simp only [blockFindings_eq_nil_iff, neighbourFindings_eq_nil_iff]
  constructor
  · rintro ⟨alone, linked⟩
    have apart : Apart table.blocks :=
      .of_chain (fun block member => (alone block member).1.1) (linked.imp fun _ _ both => both.1)
    exact {
      toApart := apart
      handled := fun block member => (alone block member).1.2.2.1
      coalesced := linked.imp fun _ _ both => both.2
      inside := fun block member => (alone block member).1.2.1
      distinct := fun block member => (alone block member).1.2.2.2
      allowed := fun block member => (alone block member).2 }
  · intro legal
    refine ⟨fun block member => ⟨⟨legal.nonempty block member, legal.inside block member,
      legal.handled block member, legal.distinct block member⟩, legal.allowed block member⟩, ?_⟩
    have order := List.isChain_iff_getElem.mp legal.ordered.isChain
    have differ := List.isChain_iff_getElem.mp legal.coalesced
    exact List.isChain_iff_getElem.mpr fun i within => ⟨order i within, differ i within⟩

/-- The lists of a body have a mismatch at each position where they differ, in order. -/
theorem mismatches_upFrom (count : Position) (expected actual : Position → Dispatch ε) :
    mismatches ((upFrom 0 count.toNat).map expected) ((upFrom 0 count.toNat).map actual) =
      ((upFrom 0 count.toNat).filter fun p => expected p ≠ actual p).map fun p =>
        .mismatch p (expected p) (actual p) := by
  have places := zipIdx_upFrom 0 count.toNat (by simpa using count.toNat_lt_size)
  rw [UInt32.toNat_zero] at places
  rw [mismatches, List.zip_map', List.zipIdx_map, places, List.map_map, List.filterMap_map,
    ← List.filterMap_eq_map, List.filterMap_filter]
  congr 1
  funext p
  simp only [Function.comp_apply, Prod.map_apply, id_eq, UInt32.ofNat_toNat, decide_eq_true_eq,
    ne_eq, ite_not]

theorem mismatches_upFrom_eq_nil_iff (count : Position) (expected actual : Position → Dispatch ε) :
    mismatches ((upFrom 0 count.toNat).map expected) ((upFrom 0 count.toNat).map actual) = [] ↔
      ∀ p, p < count → expected p = actual p := by
  simp only [mismatches_upFrom, List.map_eq_nil_iff, List.filter_eq_nil_iff, mem_upFrom_zero,
    decide_eq_true_eq, not_not]

/-- The check accepts a table that has the form of a finished one and gives each instruction of
the body its dispatch list. -/
theorem checkTable_eq_nil_iff (rule : BoundaryRule) (count : Position) (traps : List (Trap ε))
    (table : Table ε) :
    checkTable rule count traps table = some [] ↔ count = table.count ∧
      (∀ trap ∈ traps, trap.WellFormed count) ∧ Legal rule count table.blocks ∧
      ∀ p, p < count → dispatchAt traps p = table.dispatchAt p := by
  rw [checkTable]
  by_cases lengths : count = table.count
  · have clear := checkStructure_eq_nil_iff rule table
    rw [← lengths] at clear
    rw [if_neg (not_not.mpr lengths), and_iff_right lengths,
      ← malformedFindings_eq_nil_iff .before, ← clear]
    by_cases bad : malformedFindings .before count traps ++ checkStructure rule table = []
    · obtain ⟨fits, formed⟩ := List.append_eq_nil_iff.mp bad
      have inside := (malformedFindings_eq_nil_iff .before count traps).mp fits
      obtain ⟨lists, computed, entries⟩ :=
        dispatchAll_eq fun trap member _ => (inside trap member).2.1
      have agree := mismatches_upFrom_eq_nil_iff count (dispatchAt traps) table.dispatchAt
      rw [← entries] at agree
      simp only [fits, formed, computed, agree, Span.take_body, List.append_nil, List.isEmpty_nil,
        Bool.not_true, Bool.false_eq_true, ↓reduceIte, Option.bind_eq_bind, Option.bind_some,
        Option.pure_def, Option.some.injEq, true_and]
    · have refused : (!(malformedFindings .before count traps ++
          checkStructure rule table).isEmpty) = true := by
        simpa only [Bool.not_eq_true', List.isEmpty_eq_false_iff] using bad
      rw [if_pos refused, Option.some_inj]
      constructor
      · exact fun clean => absurd clean bad
      · rintro ⟨fits, formed, -⟩
        exact List.append_eq_nil_iff.mpr ⟨fits, formed⟩
  · simp [lengths]

end DisjointTraps
