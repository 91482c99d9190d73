import DisjointTraps.Split
import DisjointTraps.Proofs.Timeline

set_option autoImplicit false

namespace DisjointTraps

theorem mem_takeWhile_le {α : Type} (key : α → Position) (p : Position) {items : List α}
    (sorted : items.Pairwise fun a b => key a ≤ key b) (x : α) :
    x ∈ items.takeWhile (fun a => decide (key a ≤ p)) ↔ x ∈ items ∧ key x ≤ p := by
  induction items with
  | nil => simp
  | cons head rest ih =>
      obtain ⟨above, later⟩ := List.pairwise_cons.mp sorted
      by_cases reached : key head ≤ p
      · rw [List.takeWhile_cons_of_pos (by simpa using reached), List.mem_cons, ih later,
          List.mem_cons]
        grind
      · rw [List.takeWhile_cons_of_neg (by simpa using reached), List.mem_cons]
        grind

theorem mem_dropWhile_le {α : Type} (key : α → Position) (p : Position) {items : List α}
    (sorted : items.Pairwise fun a b => key a ≤ key b) (x : α) :
    x ∈ items.dropWhile (fun a => decide (key a ≤ p)) ↔ x ∈ items ∧ p < key x := by
  induction items with
  | nil => simp
  | cons head rest ih =>
      obtain ⟨above, later⟩ := List.pairwise_cons.mp sorted
      by_cases reached : key head ≤ p
      · rw [List.dropWhile_cons_of_pos (by simpa using reached), ih later, List.mem_cons]
        grind
      · rw [List.dropWhile_cons_of_neg (by simpa using reached), List.mem_cons]
        grind

variable {ε : Type}

def InOrder (active : List (Declared ε)) : Prop :=
  active.Pairwise fun d e => d.index < e.index

namespace Coverage

theorem mem_insert (entry d : Declared ε) (active : List (Declared ε)) :
    d ∈ insert entry active ↔ d = entry ∨ d ∈ active := by
  induction active with
  | nil => simp [insert]
  | cons first rest ih =>
      rw [insert]
      split
      · exact List.mem_cons
      · rw [List.mem_cons, ih, List.mem_cons]
        exact or_left_comm

theorem insert_inOrder {entry : Declared ε} {active : List (Declared ε)} (sorted : InOrder active)
    (fresh : ∀ d ∈ active, d.index ≠ entry.index) : InOrder (insert entry active) := by
  induction active with
  | nil => exact List.pairwise_singleton _ entry
  | cons first rest ih =>
      obtain ⟨below, later⟩ := List.pairwise_cons.mp sorted
      have differ := fresh first List.mem_cons_self
      rw [insert]
      split
      · refine List.pairwise_cons.mpr ⟨fun d member => ?_, sorted⟩
        rcases List.mem_cons.mp member with rfl | member
        · omega
        · have := below d member
          omega
      · refine List.pairwise_cons.mpr ⟨fun d member => ?_, ih later fun d member =>
          fresh d (List.mem_cons_of_mem _ member)⟩
        rcases (mem_insert entry d rest).mp member with rfl | member
        · omega
        · exact below d member

theorem foldl_insert {entries : List (Declared ε)} {active : List (Declared ε)}
    (sorted : InOrder active) (distinct : entries.Pairwise fun d e => d.index ≠ e.index)
    (fresh : ∀ d ∈ active, ∀ e ∈ entries, d.index ≠ e.index) :
    InOrder (entries.foldl (fun active d => insert d active) active) ∧
      ∀ d, d ∈ entries.foldl (fun active d => insert d active) active ↔
        d ∈ entries ∨ d ∈ active := by
  induction entries generalizing active with
  | nil => exact ⟨sorted, fun d => by simp⟩
  | cons entry rest ih =>
      obtain ⟨apart, later⟩ := List.pairwise_cons.mp distinct
      have grown : InOrder (insert entry active) :=
        insert_inOrder sorted fun d member => fresh d member entry List.mem_cons_self
      obtain ⟨order, members⟩ := ih grown later fun d member e inRest => by
        rcases (mem_insert entry d active).mp member with rfl | member
        · exact apart e inRest
        · exact fresh d member e (List.mem_cons_of_mem _ inRest)
      refine ⟨order, fun d => ?_⟩
      rw [List.foldl_cons, members, mem_insert, List.mem_cons]
      exact or_left_comm.trans or_assoc.symm

theorem mem_remove {active : List (Declared ε)} (sorted : InOrder active)
    (entry d : Declared ε) :
    d ∈ remove entry active ↔ d ∈ active ∧ d.index ≠ entry.index := by
  induction active with
  | nil => simp [remove]
  | cons first rest ih =>
      obtain ⟨below, later⟩ := List.pairwise_cons.mp sorted
      by_cases found : first.index = entry.index
      · rw [remove, List.eraseP_cons_of_pos (by simpa using found), List.mem_cons]
        have := below d
        grind
      · rw [remove, List.eraseP_cons_of_neg (by simpa using found), List.mem_cons,
          List.mem_cons]
        have rest := ih later
        rw [remove] at rest
        grind

theorem foldl_remove {active : List (Declared ε)} (entries : List (Declared ε))
    (sorted : InOrder active) :
    InOrder (entries.foldl (fun active d => remove d active) active) ∧
      ∀ d, d ∈ entries.foldl (fun active d => remove d active) active ↔
        d ∈ active ∧ ∀ e ∈ entries, d.index ≠ e.index := by
  induction entries generalizing active with
  | nil => exact ⟨sorted, fun d => by simp⟩
  | cons entry rest ih =>
      have shrunk : InOrder (remove entry active) := sorted.sublist List.eraseP_sublist
      obtain ⟨order, members⟩ := ih shrunk
      refine ⟨order, fun d => ?_⟩
      rw [List.foldl_cons, members, mem_remove sorted, List.forall_mem_cons, and_assoc]

/-- The state on the way through a timeline, by the boundaries that have been passed: a trap is
active if its beginning has been passed and its end has not. -/
structure Reached (traps : List (Trap ε)) (passed : Position → Prop) (coverage : Coverage ε) :
    Prop where
  sorted : InOrder coverage.active
  active : ∀ d, d ∈ coverage.active ↔
    d ∈ declared traps ∧ passed d.trap.span.first ∧ ¬ passed d.trap.span.limit
  opens_sorted : coverage.opens.Pairwise fun d e => d.trap.span.first ≤ e.trap.span.first
  opens_distinct : coverage.opens.Pairwise fun d e => d.index ≠ e.index
  opens : ∀ d, d ∈ coverage.opens ↔ d ∈ declared traps ∧ ¬ passed d.trap.span.first
  closes_sorted : coverage.closes.Pairwise fun d e => d.trap.span.limit ≤ e.trap.span.limit
  closes : ∀ d, d ∈ coverage.closes ↔ d ∈ declared traps ∧ ¬ passed d.trap.span.limit

theorem start_reached (traps : List (Trap ε)) :
    Reached traps (fun _ => False) (start (Timeline.ofTraps traps)) where
  sorted := .nil
  active d := by simp [start]
  opens_sorted := mergeSort_by (fun d : Declared ε => d.trap.span.first) _
  opens_distinct := by
    have indices : (declared traps).Pairwise fun d e => d.index ≠ e.index :=
      (declared_sorted traps).imp Nat.ne_of_lt
    exact (List.mergeSort_perm (declared traps) _).symm.pairwise indices fun differ => differ.symm
  opens d := by simp [start, Timeline.ofTraps]
  closes_sorted := mergeSort_by (fun d : Declared ε => d.trap.span.limit) _
  closes d := by simp [start, Timeline.ofTraps]

def leave (p : Position) (coverage : Coverage ε) : List (Declared ε) :=
  (coverage.closes.takeWhile fun d => decide (d.trap.span.limit ≤ p)).foldl
    (fun active d => remove d active) coverage.active

variable {traps : List (Trap ε)} {passed : Position → Prop} {coverage : Coverage ε}

theorem Reached.leave (reached : Reached traps passed coverage) {p : Position}
    (behind : ∀ q, passed q → q ≤ p) :
    InOrder (coverage.leave p) ∧ ∀ d, d ∈ coverage.leave p ↔
      d ∈ declared traps ∧ passed d.trap.span.first ∧ ¬ d.trap.span.limit ≤ p := by
  have closing := mem_takeWhile_le (fun d : Declared ε => d.trap.span.limit) p
    reached.closes_sorted
  obtain ⟨kept, left⟩ := foldl_remove
    (coverage.closes.takeWhile fun d => decide (d.trap.span.limit ≤ p)) reached.sorted
  refine ⟨kept, fun d => ?_⟩
  rw [Coverage.leave, left, reached.active]
  constructor
  · rintro ⟨⟨member, begun, unclosed⟩, remains⟩
    refine ⟨member, begun, fun ended => ?_⟩
    exact remains d ((closing d).mpr ⟨(reached.closes d).mpr ⟨member, unclosed⟩, ended⟩) rfl
  · rintro ⟨member, begun, lasts⟩
    refine ⟨⟨member, begun, fun closed => lasts (behind _ closed)⟩, fun e closes same => ?_⟩
    obtain ⟨present, ended⟩ := (closing e).mp closes
    have equal := eq_of_index_eq member ((reached.closes e).mp present).1 same
    exact lasts (equal ▸ ended)

theorem Reached.enter (reached : Reached traps passed coverage) {p : Position}
    (behind : ∀ q, passed q → q ≤ p)
    (begun : ∀ trap ∈ traps, trap.span.limit ≤ p → passed trap.span.first) :
    InOrder (coverage.reach p).active ∧ ∀ d, d ∈ (coverage.reach p).active ↔
      d ∈ declared traps ∧ d.trap.span.first ≤ p ∧ ¬ d.trap.span.limit ≤ p := by
  obtain ⟨kept, left⟩ := reached.leave behind
  have opening := mem_takeWhile_le (fun d : Declared ε => d.trap.span.first) p
    reached.opens_sorted
  have fresh : ∀ d ∈ coverage.leave p,
      ∀ e ∈ coverage.opens.takeWhile fun d => decide (d.trap.span.first ≤ p),
        d.index ≠ e.index := by
    intro d member e opens same
    have old := (left d).mp member
    have new := (reached.opens e).mp ((opening e).mp opens).1
    exact new.2 (eq_of_index_eq old.1 new.1 same ▸ old.2.1)
  obtain ⟨order, entered⟩ := foldl_insert kept
    (reached.opens_distinct.sublist (List.takeWhile_sublist _)) fresh
  refine ⟨order, fun d => ?_⟩
  change d ∈ List.foldl _ (coverage.leave p) _ ↔ _
  rw [entered, opening, left, reached.opens]
  constructor
  · rintro (⟨⟨member, unopened⟩, reaches⟩ | ⟨member, opened, lasts⟩)
    · have ends := begun d.trap (trap_mem_of_mem_declared member)
      exact ⟨member, reaches, fun ended => unopened (ends ended)⟩
    · exact ⟨member, behind _ opened, lasts⟩
  · rintro ⟨member, reaches, lasts⟩
    by_cases opened : passed d.trap.span.first
    · exact .inr ⟨member, opened, lasts⟩
    · exact .inl ⟨⟨member, opened⟩, reaches⟩

/-- Passing all boundaries up to `p` is right if no trap ends there that has not begun before. -/
theorem Reached.reach (reached : Reached traps passed coverage) {p : Position}
    (behind : ∀ q, passed q → q ≤ p)
    (begun : ∀ trap ∈ traps, trap.span.limit ≤ p → passed trap.span.first) :
    Reached traps (· ≤ p) (coverage.reach p) where
  sorted := (reached.enter behind begun).1
  active := (reached.enter behind begun).2
  opens_sorted := reached.opens_sorted.sublist (List.dropWhile_sublist _)
  opens_distinct := reached.opens_distinct.sublist (List.dropWhile_sublist _)
  opens d := by
    have later := mem_dropWhile_le (fun d : Declared ε => d.trap.span.first) p
      reached.opens_sorted d
    have before := behind d.trap.span.first
    simp only [Coverage.reach]
    rw [later, reached.opens]
    grind
  closes_sorted := reached.closes_sorted.sublist (List.dropWhile_sublist _)
  closes d := by
    have later := mem_dropWhile_le (fun d : Declared ε => d.trap.span.limit) p
      reached.closes_sorted d
    have before := behind d.trap.span.limit
    simp only [Coverage.reach]
    rw [later, reached.closes]
    grind

/-- The active traps are the covering ones, in declaration order. -/
theorem Reached.active_eq {p : Position} (reached : Reached traps (· ≤ p) coverage) :
    coverage.active = (declared traps).filter fun d => p ∈ d.trap.span := by
  have filtered : InOrder ((declared traps).filter fun d => p ∈ d.trap.span) :=
    (declared_sorted traps).sublist List.filter_sublist
  have distinct : ∀ {entries : List (Declared ε)}, InOrder entries → entries.Nodup :=
    fun order => order.imp fun less same => Nat.ne_of_lt less (congrArg Declared.index same)
  refine List.Perm.eq_of_pairwise (fun d e _ _ less more => by omega) reached.sorted filtered
    ((List.perm_ext_iff_of_nodup (distinct reached.sorted) (distinct filtered)).mpr fun d => ?_)
  rw [reached.active, List.mem_filter]
  grind

theorem Reached.firstMatch_active [DecidableEq ε] {p : Position}
    (reached : Reached traps (· ≤ p) coverage) :
    firstMatch (coverage.active.map (·.trap.handler)) = dispatchAt traps p := by
  have covering : (coverage.active.map (·.trap)) = traps.filter fun trap => p ∈ trap.span := by
    rw [reached.active_eq]
    conv_rhs => rw [← declared_map_trap traps, List.filter_map]
    rfl
  rw [dispatchAt, ← covering, List.map_map]
  rfl

end Coverage

variable [DecidableEq ε]

theorem piecesFrom_eq_cutAt {traps : List (Trap ε)} {count : Position}
    (fits : ∀ trap ∈ traps, trap.WellFormed count) (first : Position) (rest : List Position)
    (adjacent : (first :: rest).IsChain (Timeline.Adjacent traps))
    {passed : Position → Prop} {coverage : Coverage ε}
    (reached : Coverage.Reached traps passed coverage) (behind : ∀ q, passed q → q ≤ first)
    (ahead : ∀ q, IsBoundary traps q → q < first → passed q) :
    piecesFrom (first :: rest) coverage = cutAt (dispatchAt traps) (first :: rest) := by
  induction rest generalizing first passed coverage with
  | nil => rfl
  | cons limit rest ih =>
      obtain ⟨next, later⟩ := List.isChain_cons_cons.mp adjacent
      have here : Coverage.Reached traps (· ≤ first) (coverage.reach first) := by
        refine reached.reach behind fun trap member ended => ?_
        have order := (fits trap member).1
        exact ahead _ ⟨trap, member, .inl rfl⟩ (by grind)
      have onward := ih limit later here (fun q below => by have := next.less; grind)
        next.between
      have list := here.firstMatch_active
      have empty : (coverage.reach first).active.isEmpty = (dispatchAt traps first).isEmpty := by
        rw [← list, Bool.eq_iff_iff, List.isEmpty_iff, List.isEmpty_iff, firstMatch_eq_nil_iff,
          List.map_eq_nil_iff]
      simp only [piecesFrom, cutAt, onward, list, empty]

/-- The pieces along the timeline are the body cut at every boundary. -/
theorem Timeline.pieces_eq_cutAt {traps : List (Trap ε)} {count : Position}
    (fits : ∀ trap ∈ traps, trap.WellFormed count) :
    (ofTraps traps).pieces = cutAt (dispatchAt traps) (ofTraps traps).boundaries := by
  have adjacent := boundaries_adjacent traps
  have sorted := boundaries_sorted traps
  have boundary := mem_boundaries traps
  have start := Coverage.start_reached traps
  unfold Timeline.pieces
  generalize (ofTraps traps).boundaries = cuts at adjacent sorted boundary
  cases cuts with
  | nil => rfl
  | cons first rest =>
      refine piecesFrom_eq_cutAt fits first rest adjacent start (fun q none => none.elim) ?_
      intro q bounds early
      rcases List.mem_cons.mp ((boundary q).mpr bounds) with rfl | member
      · grind
      · have := (List.pairwise_cons.mp sorted).1 q member
        grind

theorem Timeline.pieces_realizes {traps : List (Trap ε)} {count : Position}
    (fits : ∀ trap ∈ traps, trap.WellFormed count) :
    Realizes (dispatchAt traps) (ofTraps traps).pieces := by
  rw [pieces_eq_cutAt fits]
  exact cutAt_boundaries_realizes traps

end DisjointTraps
