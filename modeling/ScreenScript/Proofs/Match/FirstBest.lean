import ScreenScript.Match.Find
import ScreenScript.Proofs.Match.Placements
import ScreenScript.Proofs.Number.Order

namespace ScreenScript

open Double (IsNumber)

variable {β γ : Type} {score : β → Float} {list : List β} {best a : β}

def IsFirstBest (score : β → Float) (list : List β) (best : β) : Prop :=
  ∃ earlier later, list = earlier ++ best :: later ∧
    (∀ b ∈ earlier, score b < score best) ∧ ∀ b ∈ later, score b ≤ score best

theorem isFirstBest_singleton (score : β → Float) (a : β) : IsFirstBest score [a] a :=
  ⟨[], [], rfl, nofun, nofun⟩

namespace IsFirstBest

theorem mem (h : IsFirstBest score list best) : best ∈ list := by
  obtain ⟨earlier, later, rfl, -, -⟩ := h
  exact List.mem_append_right _ List.mem_cons_self

theorem le (h : IsFirstBest score list best) (number : IsNumber (score best)) (mem : a ∈ list) :
    score a ≤ score best := by
  obtain ⟨earlier, later, rfl, less, most⟩ := h
  rcases List.mem_append.1 mem with before | here
  · exact Double.le_of_lt (less a before)
  · rcases List.mem_cons.1 here with rfl | after
    · exact Double.le_refl number
    · exact most a after

theorem lt (h : IsFirstBest score list best) {before : β → β → Prop} (sorted : list.Pairwise before)
    (asymm : ∀ a b, before a b → ¬ before b a) (mem : a ∈ list) (first : before a best) :
    score a < score best := by
  obtain ⟨earlier, later, rfl, less, -⟩ := h
  obtain ⟨-, sorted, -⟩ := List.pairwise_append.1 sorted
  rcases List.mem_append.1 mem with before | here
  · exact less a before
  · rcases List.mem_cons.1 here with rfl | after
    · exact absurd first (asymm _ _ first)
    · exact absurd first (asymm _ _ ((List.pairwise_cons.1 sorted).1 a after))

theorem keep (h : IsFirstBest score list best) (le : score a ≤ score best) :
    IsFirstBest score (list ++ [a]) best := by
  obtain ⟨earlier, later, rfl, less, most⟩ := h
  refine ⟨earlier, later ++ [a], by simp, less, fun b mem => ?_⟩
  rcases List.mem_append.1 mem with old | new
  · exact most b old
  · rwa [List.mem_singleton.1 new]

theorem replace (h : IsFirstBest score list best) (lt : score best < score a) :
    IsFirstBest score (list ++ [a]) a := by
  obtain ⟨number, -, -⟩ := Double.lt_iff_place.1 lt
  exact ⟨list, [], rfl, fun b mem => Double.lt_of_le_of_lt (h.le number mem) lt, nofun⟩

theorem next (h : IsFirstBest score list best) (number : IsNumber (score best))
    (number' : IsNumber (score a)) :
    IsFirstBest score (list ++ [a]) (if score best < score a then a else best) := by
  split
  case isTrue higher => exact h.replace higher
  case isFalse lower => exact h.keep ((Double.not_lt number number').1 lower)

theorem map {f : β → γ} {score' : γ → Float} (h : IsFirstBest score list best)
    (same : ∀ b ∈ list, score' (f b) = score b) : IsFirstBest score' (list.map f) (f best) := by
  have best_eq := same best h.mem
  obtain ⟨earlier, later, rfl, less, most⟩ := h
  refine ⟨earlier.map f, later.map f, by simp, fun c mem => ?_, fun c mem => ?_⟩
  · obtain ⟨b, before, rfl⟩ := List.mem_map.1 mem
    rw [best_eq, same b (List.mem_append_left _ before)]
    exact less b before
  · obtain ⟨b, after, rfl⟩ := List.mem_map.1 mem
    rw [best_eq, same b (List.mem_append_right _ (List.mem_cons_of_mem _ after))]
    exact most b after

theorem foldl (h : IsFirstBest score list best) (others : List β)
    (numbers : ∀ b ∈ list ++ others, IsNumber (score b)) :
    IsFirstBest score (list ++ others)
      (others.foldl (fun best a => if score best < score a then a else best) best) := by
  -- The best so far is the first best of what was compared, and each step compares one more.
  induction others generalizing list best with
  | nil =>
      rw [List.append_nil]
      exact h
  | cons a others ih =>
      have number : IsNumber (score best) := numbers best (List.mem_append_left _ h.mem)
      have number' : IsNumber (score a) := numbers a (List.mem_append_right _ List.mem_cons_self)
      rw [List.append_cons] at numbers ⊢
      exact ih (h.next number number') numbers

end IsFirstBest

theorem Window.isFirstBest_of_firstBest {n i : Nat} {score : Nat → Float} {s : Float}
    (h : firstBest n score = some (i, s)) (numbers : ∀ j < n, IsNumber (score j)) :
    IsFirstBest score (List.range n) i := by
  induction n generalizing i s with
  | zero => cases h
  | succ n ih =>
      rw [firstBest_succ] at h
      rw [List.range_succ]
      cases earlier : firstBest n score with
      | none =>
          have first : n = 0 := by
            by_contra some
            have isSome := @isSome_firstBest n score (Nat.pos_of_ne_zero some)
            rw [earlier] at isSome
            cases isSome
          rw [earlier] at h
          cases h
          cases first
          exact isFirstBest_singleton score 0
      | some best =>
          obtain ⟨j, top⟩ := best
          obtain ⟨less, rfl⟩ := firstBest_eq_some earlier
          have so_far := ih earlier fun k less => numbers k (Nat.lt_succ_of_lt less)
          have next := so_far.next (numbers j (Nat.lt_succ_of_lt less)) (numbers n n.lt_succ_self)
          rw [earlier] at h
          dsimp only at h
          split at h
          case isTrue higher =>
            cases h
            rwa [if_pos higher] at next
          case isFalse lower =>
            cases h
            rwa [if_neg lower] at next

end ScreenScript
