import ScreenScript.Proofs.Match.Scores
import ScreenScript.Proofs.Match.SummedArea

namespace ScreenScript

open Peaks (Placement placement)

def Needle.FitsAt {α : Type} (n : Needle α) (image : Gray) (p : Placement) : Prop :=
  p.x + n.width ≤ image.width ∧ p.y + n.height ≤ image.height

structure Window.IsAt (w : Window) (n : Needle Float) (image : Gray) : Prop where
  fits : n.FitsAt image w.corner
  score : w.score = n.scoreAt image w.corner.x w.corner.y

theorem foldl_best_mem {β : Type} (better : β → β → Prop) [∀ best a, Decidable (better best a)]
    (others : List β) (first : β) :
    others.foldl (fun best a => if better best a then a else best) first ∈ first :: others := by
  induction others generalizing first with
  | nil => exact List.mem_singleton.2 rfl
  | cons a others ih =>
      rw [List.foldl_cons]
      by_cases replaced : better first a
      · rw [if_pos replaced]
        exact List.mem_cons_of_mem _ (ih a)
      · rw [if_neg replaced]
        rcases List.mem_cons.1 (ih first) with stays | later
        · rw [stays]
          exact List.mem_cons_self
        · exact List.mem_cons_of_mem _ (List.mem_cons_of_mem _ later)

/-! ## Score maps -/

namespace Needle

section Maps

variable {α : Type} {n : Needle α} {image : Gray} {i : Nat}

theorem fitsAt_placement (width : n.width ≤ image.width) (height : n.height ≤ image.height)
    (h : i < n.columns image * n.rows image) :
    n.FitsAt image (placement (n.columns image) i) := by
  have column : i % n.columns image < n.columns image := Nat.mod_lt _ (Nat.succ_pos _)
  have row : i / n.columns image < n.rows image := Nat.div_lt_of_lt_mul h
  unfold columns at column
  unfold rows at row
  constructor
  · change i % (image.width - n.width + 1) + n.width ≤ image.width
    omega
  · change i / n.columns image + n.height ≤ image.height
    omega

variable [Scalar α]

theorem size_scoreMap : (n.scoreMap image).size = n.columns image * n.rows image :=
  Array.size_ofFn

theorem getD_scoreMap (width : n.width ≤ image.width) (height : n.height ≤ image.height)
    (h : i < n.columns image * n.rows image) (d : α) :
    (n.scoreMap image).getD i d =
      n.scoreAt image (placement (n.columns image) i).x (placement (n.columns image) i).y := by
  have fits := fitsAt_placement width height h
  rw [Array.getD_eq_getD_getElem?, scoreMap, Array.getElem?_ofFn, dif_pos h]
  exact score_moments fits.1 fits.2

end Maps

end Needle

namespace Window

/-! ## Scans -/

section Scan

variable {n i : Nat} {score : Nat → Float} {s : Float}

theorem firstBest_succ (n : Nat) (score : Nat → Float) :
    firstBest (n + 1) score =
      match firstBest n score with
      | some (i, top) => if top < score n then some (n, score n) else some (i, top)
      | none => some (n, score n) := by
  rw [firstBest, Nat.fold_succ, ← firstBest]
  cases firstBest n score with
  | none => rfl
  | some best => rfl

theorem firstBest_eq_some (h : firstBest n score = some (i, s)) : i < n ∧ s = score i := by
  induction n with
  | zero => cases h
  | succ n ih =>
      rw [firstBest_succ] at h
      cases earlier : firstBest n score with
      | none =>
          rw [earlier] at h
          cases h
          exact ⟨Nat.lt_succ_self _, rfl⟩
      | some best =>
          rw [earlier] at h
          dsimp only at h
          split at h
          · cases h
            exact ⟨Nat.lt_succ_self _, rfl⟩
          · cases h
            obtain ⟨less, same⟩ := ih earlier
            exact ⟨Nat.lt_succ_of_lt less, same⟩

theorem isSome_firstBest (pos : 0 < n) : (firstBest n score).isSome := by
  obtain ⟨k, rfl⟩ := Nat.exists_eq_succ_of_ne_zero pos.ne'
  rw [firstBest_succ]
  split
  · split
    · rfl
    · rfl
  · rfl

end Scan

section Needle

variable {image : Gray} {n : Needle Float} {w : Window}

theorem isAt_of_scan (width : n.width ≤ image.width) (height : n.height ≤ image.height)
    (h : scan (n.scoreMap image) (n.columns image) = some w) : w.IsAt n image := by
  obtain ⟨⟨i, s⟩, best, rfl⟩ := Option.map_eq_some_iff.1 h
  obtain ⟨inside, rfl⟩ := firstBest_eq_some best
  rw [Needle.size_scoreMap] at inside
  exact ⟨Needle.fitsAt_placement width height inside, Needle.getD_scoreMap width height inside _⟩

theorem isSome_scan : (scan (n.scoreMap image) (n.columns image)).isSome := by
  rw [scan, Option.isSome_map]
  apply isSome_firstBest
  rw [Needle.size_scoreMap]
  exact Nat.mul_pos (Nat.succ_pos _) (Nat.succ_pos _)

/-! ## Refinements -/

theorem exists_fold_best (corner : Nat → Placement) (score : Nat → Float) (start : Window)
    (above : start.score < score 0) (k : Nat) :
    ∃ i, i < k + 1 ∧ (k + 1).fold (fun i _ best =>
      if best.score < score i then ⟨corner i, score i⟩ else best) start = ⟨corner i, score i⟩ := by
  -- From the first candidate on, the best so far is a candidate: the start has been replaced.
  induction k with
  | zero =>
      refine ⟨0, Nat.one_pos, ?_⟩
      rw [Nat.fold_succ, Nat.fold_zero, if_pos above]
  | succ k ih =>
      obtain ⟨i, less, best⟩ := ih
      rw [Nat.fold_succ, best]
      split
      · exact ⟨k + 1, Nat.lt_succ_self _, rfl⟩
      · exact ⟨i, Nat.lt_succ_of_lt less, rfl⟩

/-- Some placements next to each other, listed row by row. -/
structure Block where
  left : Nat
  top : Nat
  columns : Nat
  rows : Nat

def Block.count (b : Block) : Nat :=
  b.columns * b.rows

def Block.corner (b : Block) (i : Nat) : Placement :=
  ⟨b.left + i % b.columns, b.top + i / b.columns⟩

def centre (image : Gray) (n : Needle Float) (p : Placement) : Placement :=
  ⟨latest image.width n.width p.x, latest image.height n.height p.y⟩

def around (image : Gray) (n : Needle Float) (p : Placement) : Block :=
  let c := centre image n p
  { left := c.x - refineRadius
    top := c.y - refineRadius
    columns := latest image.width n.width (c.x + refineRadius) - (c.x - refineRadius) + 1
    rows := latest image.height n.height (c.y + refineRadius) - (c.y - refineRadius) + 1 }

theorem refine_eq (image : Gray) (n : Needle Float) (p : Placement) :
    refine image n p = (around image n p).count.fold (fun i _ best =>
      let score := n.scoreAt image ((around image n p).corner i).x ((around image n p).corner i).y
      if best.score < score then ⟨(around image n p).corner i, score⟩ else best)
      ⟨centre image n p, lowest⟩ :=
  rfl

theorem step_add_le {m n k step : Nat} (h : n ≤ m)
    (within : step < latest m n (latest m n k + refineRadius) - (latest m n k - refineRadius) + 1) :
    latest m n k - refineRadius + step + n ≤ m := by
  simp only [latest] at within ⊢
  omega

theorem fitsAt_corner (width : n.width ≤ image.width) (height : n.height ≤ image.height)
    {p : Placement} {i : Nat} (h : i < (around image n p).count) :
    n.FitsAt image ((around image n p).corner i) := by
  have column : i % (around image n p).columns < (around image n p).columns :=
    Nat.mod_lt _ (Nat.succ_pos _)
  have row : i / (around image n p).columns < (around image n p).rows := Nat.div_lt_of_lt_mul h
  exact ⟨step_add_le width column, step_add_le height row⟩

theorem isAt_refine (width : n.width ≤ image.width) (height : n.height ≤ image.height)
    (numbers : ∀ x y, lowest < n.scoreAt image x y) (p : Placement) :
    (refine image n p).IsAt n image := by
  have candidates : 0 < (around image n p).count := Nat.mul_pos (Nat.succ_pos _) (Nat.succ_pos _)
  obtain ⟨k, count⟩ := Nat.exists_eq_succ_of_ne_zero candidates.ne'
  obtain ⟨i, less, best⟩ := exists_fold_best (around image n p).corner
    (fun i => n.scoreAt image ((around image n p).corner i).x ((around image n p).corner i).y)
    ⟨centre image n p, lowest⟩ (numbers _ _) k
  rw [refine_eq, count, best]
  exact ⟨fitsAt_corner width height (count ▸ less), rfl⟩

theorem isAt_of_mem_descend {p : Pyramid} {needle : Nat → Needle Float}
    (width : (needle 0).width ≤ p.base.width) (height : (needle 0).height ≤ p.base.height)
    (numbers : ∀ x y, lowest < (needle 0).scoreAt p.base x y) (k : Nat) (made : k < p.made.length)
    (windows : List Window) :
    ∀ w ∈ descend p needle (k + 1) made windows, w.IsAt (needle 0) p.base := by
  -- Only the last refinement counts; it does not matter where the earlier ones have led.
  induction k generalizing windows with
  | zero =>
      intro w mem
      obtain ⟨v, -, rfl⟩ := List.mem_map.1 mem
      rw [p.level_eq]
      exact isAt_refine width height numbers _
  | succ k ih => exact ih _ _

theorem length_descend (p : Pyramid) (needle : Nat → Needle Float) (k : Nat)
    (made : k ≤ p.made.length) (windows : List Window) :
    (descend p needle k made windows).length = windows.length := by
  induction k generalizing windows with
  | zero => rfl
  | succ k ih =>
      rw [descend, ih, List.length_map]

theorem descend_congr {p q : Pyramid} (base : p.base = q.base) (needle : Nat → Needle Float) (k : Nat)
    (made : k ≤ p.made.length) (made' : k ≤ q.made.length) (windows : List Window) :
    descend p needle k made windows = descend q needle k made' windows := by
  induction k generalizing windows with
  | zero => rfl
  | succ k ih =>
      rw [descend, descend, p.level_eq, q.level_eq, base]
      exact ih _ _ _

end Needle

/-! ## Choices -/

theorem mem_of_preferred {windows : List Window} {w : Window} (h : preferred windows = some w) :
    w ∈ windows := by
  cases windows with
  | nil => cases h
  | cons first rest =>
      cases h
      exact foldl_best_mem (fun best w => better w best = true) rest first

theorem isSome_preferred {windows : List Window} (h : windows ≠ []) : (preferred windows).isSome := by
  cases windows with
  | nil => exact absurd rfl h
  | cons => rfl

end Window

/-! ## Peaks -/

namespace Peaks

variable {columns radius count : Nat} {rest : List Nat} {picked : List Placement} {p : Placement}

theorem mem_order {scores : Array UInt64} {i : Nat} : i ∈ order scores ↔ i < scores.size :=
  List.mem_mergeSort.trans List.mem_range

theorem exists_of_mem_pick (h : p ∈ pick columns radius count rest picked) :
    p ∈ picked ∨ ∃ i ∈ rest, p = placement columns i := by
  induction rest generalizing picked with
  | nil => exact .inl h
  | cons i rest ih =>
      have here (mem : p ∈ placement columns i :: picked) :
          p ∈ picked ∨ ∃ j ∈ i :: rest, p = placement columns j :=
        (List.mem_cons.1 mem).symm.imp_right fun eq => ⟨i, List.mem_cons_self, eq⟩
      have later : (∃ j ∈ rest, p = placement columns j) → ∃ j ∈ i :: rest, p = placement columns j :=
        fun ⟨j, mem, eq⟩ => ⟨j, List.mem_cons_of_mem i mem, eq⟩
      rw [pick] at h
      split at h
      · split at h
        · exact here h
        · exact (ih h).elim here fun found => .inr (later found)
      · exact (ih h).imp_right later

theorem length_le_pick (columns radius count : Nat) (rest : List Nat) (picked : List Placement) :
    picked.length ≤ (pick columns radius count rest picked).length := by
  induction rest generalizing picked with
  | nil => exact le_rfl
  | cons i rest ih =>
      rw [pick]
      split
      · split
        · exact Nat.le_succ _
        · exact (Nat.le_succ _).trans (ih (placement columns i :: picked))
      · exact ih picked

theorem pick_ne_nil (some : rest ≠ []) : pick columns radius count rest [] ≠ [] := by
  obtain ⟨i, rest, rfl⟩ := List.exists_cons_of_ne_nil some
  rw [pick, if_pos List.all_nil]
  split
  · exact List.cons_ne_nil _ _
  · exact List.length_pos_iff.1 (length_le_pick columns radius count rest [placement columns i])

end Peaks

theorem peaks_ne_nil {scores : Array UInt64} (pos : 0 < scores.size) (columns radius count : Nat) :
    peaks scores columns radius count ≠ [] :=
  List.reverse_ne_nil_iff.2 (Peaks.pick_ne_nil (List.ne_nil_of_mem (Peaks.mem_order.2 pos)))

theorem exists_of_mem_peaks {scores : Array UInt64} {columns radius count : Nat} {p : Placement}
    (h : p ∈ peaks scores columns radius count) : ∃ i < scores.size, p = placement columns i := by
  obtain ⟨i, mem, eq⟩ :=
    (Peaks.exists_of_mem_pick (List.mem_reverse.1 h)).resolve_left List.not_mem_nil
  exact ⟨i, Peaks.mem_order.1 mem, eq⟩

end ScreenScript
