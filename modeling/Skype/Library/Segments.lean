import Mathlib

/-!
# A stream that arrives in segments

The elements of a stream are the concatenation of its segments; `drop n` takes
the first `n` elements off and leaves the segmentation of the others as it was.
-/

namespace Library.Segments

variable {α : Type*}

def drop : ℕ → List (List α) → List (List α)
  | _, [] => []
  | n, segment :: segments =>
    if segment.length ≤ n then drop (n - segment.length) segments else segment.drop n :: segments

theorem flatten_drop (n : ℕ) (segments : List (List α)) :
    (drop n segments).flatten = segments.flatten.drop n := by
  induction segments generalizing n with
  | nil => simp [drop]
  | cons segment segments ih =>
    by_cases h : segment.length ≤ n
    · rw [drop, if_pos h, ih, List.flatten_cons, List.drop_append,
        List.drop_of_length_le h, List.nil_append]
    · rw [drop, if_neg h, List.flatten_cons, List.flatten_cons,
        List.drop_append_of_le_length (by omega)]

theorem ne_nil_of_mem_drop {n : ℕ} {segments : List (List α)}
    (h : ∀ segment ∈ segments, segment ≠ []) :
    ∀ segment ∈ drop n segments, segment ≠ [] := by
  induction segments generalizing n with
  | nil => simp [drop]
  | cons segment segments ih =>
    have htail : ∀ p ∈ segments, p ≠ [] := fun p hp => h p (List.mem_cons_of_mem _ hp)
    by_cases hle : segment.length ≤ n
    · rw [drop, if_pos hle]
      exact ih htail
    · rw [drop, if_neg hle]
      intro p hp
      rcases List.mem_cons.mp hp with rfl | hp
      · intro hnil
        exact hle (List.drop_eq_nil_iff.mp hnil)
      · exact htail p hp

theorem drop_zero {segments : List (List α)} (h : ∀ segment ∈ segments, segment ≠ []) :
    drop 0 segments = segments := by
  cases segments with
  | nil => rfl
  | cons segment segments =>
    have hpos := List.length_pos_of_ne_nil (h segment List.mem_cons_self)
    rw [drop, if_neg (by omega), List.drop_zero]

theorem drop_drop (a b : ℕ) {segments : List (List α)} (h : ∀ segment ∈ segments, segment ≠ []) :
    drop b (drop a segments) = drop (a + b) segments := by
  induction segments generalizing a with
  | nil => simp [drop]
  | cons segment segments ih =>
    have htail : ∀ p ∈ segments, p ≠ [] := fun p hp => h p (List.mem_cons_of_mem _ hp)
    by_cases hle : segment.length ≤ a
    · have hsub : a + b - segment.length = a - segment.length + b := by omega
      rw [drop, if_pos hle, ih _ htail, drop, if_pos (by omega), hsub]
    · rw [drop, if_neg hle, drop, drop, List.length_drop, List.drop_drop]
      by_cases hsum : segment.length ≤ a + b
      · have hsub : b - (segment.length - a) = a + b - segment.length := by omega
        rw [if_pos (by omega), if_pos hsum, hsub]
      · rw [if_neg (by omega), if_neg hsum]

end Library.Segments
