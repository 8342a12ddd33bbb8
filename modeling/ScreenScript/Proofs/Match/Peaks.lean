import ScreenScript.Proofs.Match.Scan

/-!
# Peaks

A map's placements stand in one order (`Peaks.pairwise_order`, from the stability of the sort). While they
are gone through, each placement behind has been picked or is near a peak that precedes it, and each peak
precedes all that is ahead (`Peaks.Picking`); so this is what the peaks of a map are (`peaks_greedy`).
-/

namespace ScreenScript

namespace Peaks

def Apart (radius : Nat) (p q : Placement) : Prop :=
  radius < Nat.dist p.x q.x ∨ radius < Nat.dist p.y q.y

theorem not_near_iff {radius : Nat} {p q : Placement} : (!near radius p q) = true ↔ Apart radius p q := by
  simp [near, Apart, Nat.dist]

/-! ## The order of scores -/

section Order

variable (scores : Array UInt64) (columns : Nat)

def scoreRank (p : Placement) : Int64 :=
  Number.rank (scores.getD (p.y * columns + p.x) 0)

def Precedes (p q : Placement) : Prop :=
  scoreRank scores columns q < scoreRank scores columns p ∨
    scoreRank scores columns p = scoreRank scores columns q ∧ p.Before q

theorem scoreRank_placement (i : Nat) :
    scoreRank scores columns (placement columns i) = Number.rank (scores.getD i 0) := by
  rw [scoreRank, placement, Nat.div_add_mod']

variable {scores columns} {p q r : Placement}

theorem not_precedes_self (p : Placement) : ¬ Precedes scores columns p p := by
  simp [Precedes, Placement.Before, Int64.lt_irrefl]

theorem Precedes.trans (pq : Precedes scores columns p q) (qr : Precedes scores columns q r) :
    Precedes scores columns p r := by
  unfold Precedes Placement.Before at *
  simp only [Int64.lt_iff_toInt_lt, ← Int64.toInt_inj] at *
  omega

theorem Precedes.of_pairwise {list : List Placement}
    (sorted : (p :: list).Pairwise (Precedes scores columns)) (mem : r ∈ p :: list)
    (before : Precedes scores columns r q) : Precedes scores columns p q := by
  rcases List.mem_cons.1 mem with rfl | later
  · exact before
  · exact (List.rel_of_pairwise_cons sorted later).trans before

theorem filter_mergeSort {α : Type} {le : α → α → Bool}
    (trans : ∀ a b c, le a b = true → le b c = true → le a c = true)
    (total : ∀ a b, (le a b || le b a) = true) {list : List α} {kept : α → Bool}
    (sorted : (list.filter kept).Pairwise fun a b => le a b = true) :
    (list.mergeSort le).filter kept = list.filter kept := by
  have sub : ((list.filter kept).filter kept).Sublist ((list.mergeSort le).filter kept) :=
    (List.sublist_mergeSort trans total sorted List.filter_sublist).filter kept
  rw [List.filter_filter] at sub
  simp only [Bool.and_self] at sub
  exact (sub.eq_of_length ((List.mergeSort_perm list le).filter kept).length_eq.symm).symm

theorem pairwise_order (scores : Array UInt64) (columns : Nat) :
    (order scores).Pairwise fun i j =>
      Precedes scores columns (placement columns i) (placement columns j) := by
  let rank (i : Nat) := Number.rank (scores.getD i 0)
  have trans (a b c : Nat) (ab : decide (rank b ≤ rank a) = true) (bc : decide (rank c ≤ rank b) = true) :
      decide (rank c ≤ rank a) = true :=
    decide_eq_true (Int64.le_trans (of_decide_eq_true bc) (of_decide_eq_true ab))
  have total (a b : Nat) : (decide (rank b ≤ rank a) || decide (rank a ≤ rank b)) = true := by
    simpa using Int64.le_total (rank b) (rank a)
  have falling := List.pairwise_mergeSort trans total (List.range scores.size)
  rw [List.pairwise_iff_forall_sublist] at falling ⊢
  intro i j ij
  have le : rank j ≤ rank i := of_decide_eq_true (falling ij)
  rw [Precedes, scoreRank_placement, scoreRank_placement]
  by_cases same : rank i = rank j
  · -- Among the indices of one rank the sort has changed nothing.
    have kept : (order scores).filter (rank · = rank j) =
        (List.range scores.size).filter (rank · = rank j) := by
      refine filter_mergeSort trans total (List.pairwise_of_forall_mem_list fun a ha b hb => ?_)
      have eq : rank b = rank a := by
        rw [of_decide_eq_true (List.mem_filter.1 ha).2, of_decide_eq_true (List.mem_filter.1 hb).2]
      exact decide_eq_true (eq ▸ Int64.le_refl _)
    have pair := ij.filter (rank · = rank j)
    rw [kept, List.filter_eq_self.2 (by simp [same])] at pair
    have increasing := (List.pairwise_lt_range (n := scores.size)).filter (rank · = rank j)
    exact .inr ⟨same, placement_before (List.pairwise_iff_forall_sublist.1 increasing pair)⟩
  · exact .inl (Int64.lt_of_le_of_ne le (Ne.symm same))

end Order

/-! ## Picking -/

def Within (scores : Array UInt64) (columns : Nat) (p : Placement) : Prop :=
  ∃ i < scores.size, p = placement columns i

/--
Whether some placements of a map, the last one first, are what greedy picking has taken while the indices
`rest` are ahead: of what is behind, the others are near one that precedes them.
-/
structure Picking (scores : Array UInt64) (columns radius : Nat) (picked : List Placement)
    (rest : List Nat) : Prop where
  within : ∀ p ∈ picked, Within scores columns p
  apart : picked.Pairwise fun later earlier => Apart radius earlier later
  sorted : picked.Pairwise fun later earlier => Precedes scores columns earlier later
  ahead : ∀ p ∈ picked, ∀ i ∈ rest, Precedes scores columns p (placement columns i)
  inside : ∀ i ∈ rest, i < scores.size
  upcoming : rest.Pairwise fun i j =>
    Precedes scores columns (placement columns i) (placement columns j)
  settled : ∀ q, Within scores columns q → q ∈ picked ∨
    (∃ p ∈ picked, Precedes scores columns p q ∧ ¬ Apart radius p q) ∨
    ∃ i ∈ rest, q = placement columns i

namespace Picking

variable {scores : Array UInt64} {columns radius count i : Nat} {picked : List Placement}
  {rest : List Nat} {p q : Placement}

theorem nil (scores : Array UInt64) (columns radius : Nat) :
    Picking scores columns radius [] (order scores) where
  within := nofun
  apart := .nil
  sorted := .nil
  ahead := nofun
  inside _ mem := mem_order.1 mem
  upcoming := pairwise_order scores columns
  settled := by
    rintro q ⟨i, below, rfl⟩
    exact .inr (.inr ⟨i, mem_order.2 below, rfl⟩)

theorem pass (h : Picking scores columns radius picked (i :: rest)) (mem : p ∈ picked)
    (close : ¬ Apart radius p (placement columns i)) : Picking scores columns radius picked rest where
  within := h.within
  apart := h.apart
  sorted := h.sorted
  ahead p mem j later := h.ahead p mem j (List.mem_cons_of_mem i later)
  inside j later := h.inside j (List.mem_cons_of_mem i later)
  upcoming := h.upcoming.of_cons
  settled q within := by
    rcases h.settled q within with old | near | ⟨j, member, rfl⟩
    · exact .inl old
    · exact .inr (.inl near)
    · rcases List.mem_cons.1 member with rfl | later
      · exact .inr (.inl ⟨p, mem, h.ahead p mem j List.mem_cons_self, close⟩)
      · exact .inr (.inr ⟨j, later, rfl⟩)

theorem take (h : Picking scores columns radius picked (i :: rest))
    (free : ∀ p ∈ picked, Apart radius p (placement columns i)) :
    Picking scores columns radius (placement columns i :: picked) rest where
  within := List.forall_mem_cons.2 ⟨⟨i, h.inside i List.mem_cons_self, rfl⟩, h.within⟩
  apart := .cons free h.apart
  sorted := .cons (fun p mem => h.ahead p mem i List.mem_cons_self) h.sorted
  ahead := List.forall_mem_cons.2 ⟨fun _ later => List.rel_of_pairwise_cons h.upcoming later,
    fun p mem j later => h.ahead p mem j (List.mem_cons_of_mem i later)⟩
  inside j later := h.inside j (List.mem_cons_of_mem i later)
  upcoming := h.upcoming.of_cons
  settled q within := by
    rcases h.settled q within with old | ⟨p, mem, near⟩ | ⟨j, member, rfl⟩
    · exact .inl (List.mem_cons_of_mem _ old)
    · exact .inr (.inl ⟨p, List.mem_cons_of_mem _ mem, near⟩)
    · rcases List.mem_cons.1 member with rfl | later
      · exact .inl List.mem_cons_self
      · exact .inr (.inr ⟨j, later, rfl⟩)

theorem exists_pick (h : Picking scores columns radius picked rest) (room : picked.length < count) :
    ∃ left, Picking scores columns radius (pick columns radius count rest picked) left ∧
      (pick columns radius count rest picked).length ≤ count ∧
      ((pick columns radius count rest picked).length = count ∨ left = []) := by
  induction rest generalizing picked with
  | nil => exact ⟨[], h, room.le, .inr rfl⟩
  | cons i rest ih =>
      rw [pick]
      split
      case isTrue free =>
        have next := h.take fun p mem => not_near_iff.1 (List.all_eq_true.1 free p mem)
        split
        case isTrue full => exact ⟨rest, next, full.le, .inl full⟩
        case isFalse more => exact ih next (Nat.lt_of_le_of_ne room more)
      case isFalse near =>
        rw [Bool.not_eq_true, List.all_eq_false] at near
        obtain ⟨p, mem, close⟩ := near
        exact ih (h.pass mem fun apart => close (not_near_iff.2 apart)) room

theorem pairwise_reverse (h : Picking scores columns radius picked rest) :
    picked.reverse.Pairwise (Precedes scores columns) :=
  List.pairwise_reverse.2 h.sorted

theorem exists_precedes (h : Picking scores columns radius picked rest) (filled : picked ≠ [])
    (within : Within scores columns q) (other : q ∉ picked) :
    ∃ p ∈ picked, Precedes scores columns p q := by
  rcases h.settled q within with old | ⟨p, mem, before, -⟩ | ⟨i, later, rfl⟩
  · exact absurd old other
  · exact ⟨p, mem, before⟩
  · obtain ⟨p, mem⟩ := List.exists_mem_of_ne_nil picked filled
    exact ⟨p, mem, h.ahead p mem i later⟩

theorem exists_first (h : Picking scores columns radius picked rest) (filled : picked ≠ []) :
    ∃ p, picked.reverse.head? = some p ∧
      ∀ q, Within scores columns q → q ≠ p → Precedes scores columns p q := by
  obtain ⟨p, others, list⟩ := List.exists_cons_of_ne_nil (List.reverse_ne_nil_iff.2 filled)
  have sorted := h.pairwise_reverse
  refine ⟨p, by rw [list]; rfl, fun q within other => ?_⟩
  rw [list] at sorted
  by_cases old : q ∈ picked
  · have mem : q ∈ p :: others := list ▸ List.mem_reverse.2 old
    exact List.rel_of_pairwise_cons sorted (List.mem_of_ne_of_mem other mem)
  · obtain ⟨r, mem, before⟩ := h.exists_precedes filled within old
    exact .of_pairwise sorted (list ▸ List.mem_reverse.2 mem) before

theorem near_or_full (h : Picking scores columns radius picked rest)
    (ended : picked.length = count ∨ rest = []) (within : Within scores columns q)
    (other : q ∉ picked) :
    (∃ p ∈ picked, Precedes scores columns p q ∧ ¬ Apart radius p q) ∨
      picked.length = count ∧ ∀ p ∈ picked, Precedes scores columns p q := by
  rcases h.settled q within with old | near | ⟨i, later, rfl⟩
  · exact absurd old other
  · exact .inl near
  · exact .inr ⟨ended.resolve_right (List.ne_nil_of_mem later), fun p mem => h.ahead p mem i later⟩

end Picking

theorem within_iff {scores : Array UInt64} {columns rows : Nat} (size : scores.size = columns * rows)
    {p : Placement} : Within scores columns p ↔ p.x < columns ∧ p.y < rows := by
  constructor
  · rintro ⟨i, below, rfl⟩
    rw [size] at below
    have positive : 0 < columns := Nat.pos_of_mul_pos_right (Nat.zero_lt_of_lt below)
    exact ⟨Nat.mod_lt i positive, Nat.div_lt_of_lt_mul below⟩
  · rintro ⟨column, row⟩
    exact ⟨_, size ▸ Raster.index_lt column row, (placement_index column).symm⟩

/-- Whether placements of a map are its peaks, with the best first. -/
structure Greedy (scores : Array UInt64) (columns rows radius count : Nat) (list : List Placement) :
    Prop where
  length_le : list.length ≤ count
  inside : ∀ p ∈ list, p.x < columns ∧ p.y < rows
  nodup : list.Nodup
  apart : list.Pairwise (Apart radius)
  sorted : list.Pairwise (Precedes scores columns)
  first : ∃ p, list.head? = some p ∧
    ∀ q, q.x < columns → q.y < rows → q ≠ p → Precedes scores columns p q
  /-- Nothing is left out but what is near a better peak, or comes after as many as were asked for. -/
  maximal : ∀ q, q.x < columns → q.y < rows → q ∉ list →
    (∃ p ∈ list, Precedes scores columns p q ∧ ¬ Apart radius p q) ∨
      list.length = count ∧ ∀ p ∈ list, Precedes scores columns p q

end Peaks

open Peaks in
/--
The peaks of a map are picked greedily from its placements, in the order of falling scores and row by row
among equal ones: each of them is taken that is apart from all taken before it, until there are enough.
-/
theorem peaks_greedy (scores : Array UInt64) (columns rows radius count : Nat)
    (size : scores.size = columns * rows) (entries : 0 < scores.size) (wanted : 0 < count) :
    Greedy scores columns rows radius count (peaks scores columns radius count) := by
  obtain ⟨left, picking, le, ended⟩ := (Picking.nil scores columns radius).exists_pick wanted
  have filled : pick columns radius count (order scores) [] ≠ [] :=
    pick_ne_nil (List.ne_nil_of_mem (mem_order.2 entries))
  obtain ⟨first, head, before⟩ := picking.exists_first filled
  rw [peaks]
  exact {
    length_le := List.length_reverse.trans_le le
    inside p mem := (within_iff size).1 (picking.within p (List.mem_reverse.1 mem))
    nodup := picking.pairwise_reverse.imp fun {p q} before (same : p = q) =>
      not_precedes_self q (same ▸ before)
    apart := List.pairwise_reverse.2 picking.apart
    sorted := picking.pairwise_reverse
    first := ⟨first, head, fun q column row => before q ((within_iff size).2 ⟨column, row⟩)⟩
    maximal q column row other := by
      rw [List.length_reverse]
      simp only [List.mem_reverse] at other ⊢
      exact picking.near_or_full ended ((within_iff size).2 ⟨column, row⟩) other }

theorem peaks_greedy_ties :
    let scores : Array UInt64 := #[0xFFF8000000000000, 0x3FF0000000000000, 0x3FE0000000000000,
      0x3FF0000000000000, 0x3FE0000000000000, 0, 0x3FE8000000000000, 0x8000000000000000]
    scores.size = 4 * 2 ∧ 0 < scores.size ∧ peaks scores 4 1 3 = [⟨1, 0⟩, ⟨3, 0⟩] ∧
      Peaks.Greedy scores 4 2 1 3 [⟨1, 0⟩, ⟨3, 0⟩] := by
  intro scores
  have picked : peaks scores 4 1 3 = [⟨1, 0⟩, ⟨3, 0⟩] := by cbv
  exact ⟨rfl, by decide, picked, picked ▸ peaks_greedy scores 4 2 1 3 rfl (by decide) (by decide)⟩

end ScreenScript
