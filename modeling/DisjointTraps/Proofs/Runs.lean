import DisjointTraps.Proofs.Cut
import DisjointTraps.Proofs.Dispatch
import DisjointTraps.Proofs.Placement
import DisjointTraps.Split

set_option autoImplicit false

namespace DisjointTraps

variable {ε : Type} {lists : Position → Dispatch ε}

theorem upFrom_steady (lists : Position → Dispatch ε) (p : Position) (n : Nat)
    (small : p.toNat + n < UInt32.size) : (upFrom p (n + 1)).IsChain (Steady lists) := by
  induction n generalizing p with
  | zero => exact .singleton p
  | succ n ih =>
      have next := toNat_succ (by omega : p.toNat + 1 < UInt32.size)
      refine List.isChain_cons_cons.mpr ⟨⟨?_, fun q begun before => ?_⟩, ih (p + 1) (by omega)⟩
      · rw [UInt32.lt_iff_toNat_lt]
        omega
      · rw [UInt32.le_iff_toNat_le] at begun
        rw [UInt32.lt_iff_toNat_lt] at before
        rw [UInt32.toNat_inj.mp (show q.toNat = p.toNat by omega)]

variable [DecidableEq ε]

theorem coalesceFrom_eq_cons {block : TryBlock ε} {blocks : List (TryBlock ε)}
    (apart : ∀ next ∈ blocks.head?, ¬ block.Joins next) :
    coalesceFrom block blocks = block :: coalesce blocks := by
  cases blocks with
  | nil => rfl
  | cons next rest => exact coalesceFrom_cons_apart rest (apart next rfl)

/-- With or without a run that ends at `p`, the runs from there on are what merging makes of the
blocks of single instructions. -/
theorem runsFrom_eq (n : Nat) (p : Position) (small : p.toNat + n < UInt32.size) :
    runsFrom none p ((upFrom p n).map lists) = coalesce (cutAt lists (upFrom p (n + 1))) ∧
      ∀ block : TryBlock ε, block.span.limit = p → block.handlers ≠ [] →
        runsFrom (some block) p ((upFrom p n).map lists) =
          coalesceFrom block (cutAt lists (upFrom p (n + 1))) := by
  induction n generalizing p with
  | zero => exact ⟨rfl, fun block _ _ => rfl⟩
  | succ n ih =>
      have next := toNat_succ (by omega : p.toNat + 1 < UInt32.size)
      obtain ⟨without, within⟩ := ih (p + 1) (by omega)
      have cuts : upFrom p (n + 2) = p :: (p + 1) :: upFrom (p + 1 + 1) n := rfl
      have later : upFrom (p + 1) (n + 1) = (p + 1) :: upFrom (p + 1 + 1) n := rfl
      have fresh : runsFrom none p ((upFrom p (n + 1)).map lists) =
          coalesce (cutAt lists (upFrom p (n + 2))) := by
        rw [upFrom, List.map_cons, runsFrom, cuts]
        by_cases gap : lists p = []
        · rw [cutAt_gap _ _ gap, startRun, gap, List.isEmpty_nil, if_pos rfl, without, later]
        · rw [cutAt_block _ _ gap, startRun, if_neg (by simpa using gap),
            within _ rfl gap, later]
          rfl
      refine ⟨fresh, fun block ends handled => ?_⟩
      rw [upFrom, List.map_cons, runsFrom]
      by_cases equal : block.handlers = lists p
      · rw [if_pos equal, within (block.extend (p + 1)) rfl handled, cuts,
          cutAt_block _ _ (equal ▸ handled), coalesceFrom_cons_join _ ⟨ends, equal⟩, later]
      · rw [if_neg equal, coalesceFrom_eq_cons]
        · rw [← fresh, upFrom, List.map_cons, runsFrom]
        · exact not_joins_cutAt (upFrom_steady lists p (n + 1) small) ends equal

/-- The pass over all neighbouring lists stops at the lowest forbidden change. -/
theorem forbiddenChange?_screened {α : Type} {good : α → Prop} (rule : BoundaryRule)
    (count : Position) (value : α) (holds : good value) (n : Nat) (p : Position)
    (whole : p.toNat + n + 1 = count.toNat) :
    Screened rule count lists p good
      (match forbiddenChange? rule count (p + 1) ((upFrom p (n + 1)).map lists) with
        | some error => .error error
        | none => .ok value) := by
  have small := count.toNat_lt_size
  induction n generalizing p with
  | zero =>
      refine .passed value (fun q past change => ?_) holds
      have inside := change.inside
      rw [UInt32.lt_iff_toNat_lt] at past inside
      omega
  | succ n ih =>
      have next := toNat_succ (by omega : p.toNat + 1 < UInt32.size)
      have onward := ih (p + 1) (by omega)
      have less : p < p + 1 := by
        rw [UInt32.lt_iff_toNat_lt]
        omega
      have back : lists (p + 1 - 1) = lists p := congrArg lists (by grind)
      simp only [upFrom, List.map_cons] at onward ⊢
      rw [forbiddenChange?]
      by_cases here : lists p ≠ lists (p + 1) ∧ rule.forbids count (p + 1) = true
      · have change : ForbiddenChange rule count lists (p + 1) :=
          ⟨here.2, by rw [back]; exact here.1⟩
        rw [if_pos here, ← back]
        exact .refused (p + 1) less change fun q past early => absurd early (by grind)
      · rw [if_neg here]
        refine onward.skip (by grind) fun q past reached change => ?_
        have only : q = p + 1 := by grind
        subst only
        exact here ⟨by rw [← back]; exact change.differ, change.forbidden⟩

/-- The blocks of all lists of a body are the finished table of its dispatch, unless the dispatch
changes where the rule forbids it. -/
theorem blocksOfLists_screened (rule : BoundaryRule) (count : Position)
    (past : ∀ p, count ≤ p → lists p = []) :
    Screened rule count lists 0 (Finished lists)
      (blocksOfLists rule count ((upFrom 0 count.toNat).map lists)) := by
  have small := count.toNat_lt_size
  have finished : Finished lists (runs ((upFrom 0 count.toNat).map lists)) := by
    rw [runs, (runsFrom_eq count.toNat 0 (by rw [UInt32.toNat_zero]; omega)).1]
    refine coalesce_finished (cutAt_realizes (upFrom_steady lists 0 count.toNat ?_) ?_ ?_)
    · rw [UInt32.toNat_zero]
      omega
    · intro p before
      have := before 0 List.mem_cons_self
      grind
    · intro p after
      refine past p (after count ?_)
      rw [upFrom_eq_map]
      refine List.mem_map.mpr ⟨count.toNat, List.mem_range.mpr (Nat.lt_succ_self _), ?_⟩
      rw [UInt32.zero_add, UInt32.ofNat_toNat]
  unfold blocksOfLists
  cases length : count.toNat with
  | zero =>
      refine .passed _ (fun p after change => ?_) (length ▸ finished)
      have inside := change.inside
      rw [UInt32.lt_iff_toNat_lt] at inside
      omega
  | succ n =>
      exact forbiddenChange?_screened rule count _ (length ▸ finished) n 0
        (by rw [UInt32.toNat_zero]; omega)

end DisjointTraps
