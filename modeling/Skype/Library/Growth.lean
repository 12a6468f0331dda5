import Mathlib

/-!
# Lists that grow

A list has grown into another when each of its elements still stands in its place, at most
changed as `R` allows, and what is new stands behind them.
-/

namespace Library

def Grows {α : Type*} (R : α → α → Prop) (as bs : List α) : Prop :=
  ∀ (i : ℕ) (a : α), as[i]? = some a → ∃ b, bs[i]? = some b ∧ R a b

namespace Grows

variable {α : Type*} {R : α → α → Prop} {as bs cs : List α}

theorem refl (hrefl : ∀ a, R a a) (as : List α) : Grows R as as :=
  fun _ a ha => ⟨a, ha, hrefl a⟩

theorem trans (htrans : ∀ {a b c}, R a b → R b c → R a c) (hab : Grows R as bs)
    (hbc : Grows R bs cs) : Grows R as cs := by
  intro i a ha
  obtain ⟨b, hb, hR⟩ := hab i a ha
  obtain ⟨c, hc, hS⟩ := hbc i b hb
  exact ⟨c, hc, htrans hR hS⟩

theorem append (hrefl : ∀ a, R a a) (as new : List α) : Grows R as (as ++ new) := by
  intro i a ha
  obtain ⟨hi, -⟩ := List.getElem?_eq_some_iff.mp ha
  exact ⟨a, (List.getElem?_append_left hi).trans ha, hrefl a⟩

theorem map (f : α → α) (hf : ∀ a ∈ as, R a (f a)) : Grows R as (as.map f) := by
  intro i a ha
  exact ⟨f a, by rw [List.getElem?_map, ha]; rfl, hf a (List.mem_of_getElem? ha)⟩

theorem length_le (h : Grows R as bs) : as.length ≤ bs.length := by
  by_contra hlt
  have hi : bs.length < as.length := by omega
  obtain ⟨b, hb, -⟩ := h bs.length as[bs.length] (List.getElem?_eq_getElem hi)
  obtain ⟨hlen, -⟩ := List.getElem?_eq_some_iff.mp hb
  omega

theorem mem {a : α} (h : Grows R as bs) (ha : a ∈ as) : ∃ b ∈ bs, R a b := by
  obtain ⟨i, hi⟩ := List.mem_iff_getElem?.mp ha
  obtain ⟨b, hb, hR⟩ := h i a hi
  exact ⟨b, List.mem_of_getElem? hb, hR⟩

end Grows

end Library
