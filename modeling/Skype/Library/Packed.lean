import Mathlib

/-!
# Slots packed to the left

A list of slots is packed when its entries stand in front of its blanks. One pass from
the left that moves an entry into a blank slot before it closes a single hole, and the
number of entries is the length of the part before the first blank.
-/

namespace Library.Packed

variable {α : Type*} [DecidableEq α]

def passFrom (blank a : α) : List α → List α
  | [] => [a]
  | b :: slots =>
    if a = blank ∧ b ≠ blank then b :: passFrom blank blank slots
    else a :: passFrom blank b slots

def pass (blank : α) : List α → List α
  | [] => []
  | a :: slots => passFrom blank a slots

def slots (blank : α) (entries : List α) (n : ℕ) : List α := entries ++ List.replicate n blank

section

variable {blank : α}

theorem pass_cons {a : α} (h : a ≠ blank) (rest : List α) :
    pass blank (a :: rest) = a :: pass blank rest := by
  cases rest with
  | nil => rfl
  | cons b rest => simp [pass, passFrom, h]

theorem pass_append {entries : List α} (h : blank ∉ entries) (rest : List α) :
    pass blank (entries ++ rest) = entries ++ pass blank rest := by
  induction entries with
  | nil => rfl
  | cons a entries ih =>
    have hne : a ≠ blank := fun he => h (he ▸ List.mem_cons_self)
    have hrest : blank ∉ entries := fun hm => h (List.mem_cons_of_mem a hm)
    rw [List.cons_append, pass_cons hne, ih hrest, List.cons_append]

theorem passFrom_blanks (n : ℕ) :
    passFrom blank blank (List.replicate n blank) = List.replicate (n + 1) blank := by
  induction n with
  | zero => rfl
  | succ n ih => simp [List.replicate_succ, passFrom, ih]

theorem passFrom_hole {entries : List α} (h : blank ∉ entries) (n : ℕ) :
    passFrom blank blank (slots blank entries n) = slots blank entries (n + 1) := by
  induction entries with
  | nil => exact passFrom_blanks n
  | cons a entries ih =>
    have hne : a ≠ blank := fun he => h (he ▸ List.mem_cons_self)
    have hrest : blank ∉ entries := fun hm => h (List.mem_cons_of_mem a hm)
    have hcons : ∀ m, slots blank (a :: entries) m = a :: slots blank entries m := fun _ => rfl
    rw [hcons, hcons, passFrom, if_pos ⟨rfl, hne⟩, ih hrest]

theorem pass_slots {entries : List α} (h : blank ∉ entries) (n : ℕ) :
    pass blank (slots blank entries n) = slots blank entries n := by
  rw [slots, pass_append h]
  cases n with
  | zero => rfl
  | succ n => rw [List.replicate_succ, pass, passFrom_blanks, List.replicate_succ]

theorem pass_hole {a b : List α} (ha : blank ∉ a) (hb : blank ∉ b) (n : ℕ) :
    pass blank (a ++ blank :: slots blank b n) = slots blank (a ++ b) (n + 1) := by
  rw [pass_append ha, pass, passFrom_hole hb, slots, slots, List.append_assoc]

theorem takeWhile_slots {entries : List α} (h : blank ∉ entries) (n : ℕ) :
    (slots blank entries n).takeWhile (· ≠ blank) = entries := by
  have hentries : ∀ a ∈ entries, decide (a ≠ blank) = true := by
    intro a ha
    have hne : a ≠ blank := fun he => h (he ▸ ha)
    simpa using hne
  rw [slots, List.takeWhile_append_of_pos hentries]
  cases n with
  | zero => simp
  | succ n => simp [List.replicate_succ]

theorem map_blank_of_notMem {t : α} {l : List α} (h : t ∉ l) :
    (l.map fun a => if a = t then blank else a) = l := by
  have hsame : ∀ a ∈ l, (if a = t then blank else a) = id a := by
    intro a ha
    have hne : a ≠ t := fun he => h (he ▸ ha)
    exact if_neg hne
  rw [List.map_congr_left hsame, List.map_id]

theorem filter_ne_of_notMem {t : α} {l : List α} (h : t ∉ l) : l.filter (· ≠ t) = l := by
  apply List.filter_eq_self.mpr
  intro a ha
  have hne : a ≠ t := fun he => h (he ▸ ha)
  simpa using hne

theorem pass_blanked {entries : List α} (h : blank ∉ entries) (hnodup : entries.Nodup) {t : α}
    (ht : t ∈ entries) (n : ℕ) :
    pass blank ((slots blank entries n).map fun a => if a = t then blank else a) =
      slots blank (entries.filter (· ≠ t)) (n + 1) := by
  obtain ⟨a, b, rfl⟩ := List.append_of_mem ht
  simp only [List.mem_append, List.mem_cons, not_or] at h
  obtain ⟨hblanka, hne, hblankb⟩ := h
  obtain ⟨-, htb, hdisjoint⟩ := List.nodup_append.mp hnodup
  have hta : t ∉ a := fun hm => hdisjoint t hm t List.mem_cons_self rfl
  have hnotb : t ∉ b := (List.nodup_cons.mp htb).1
  have htail : t ∉ slots blank b n := by
    rw [slots, List.mem_append, List.mem_replicate]
    rintro (hm | ⟨-, he⟩)
    · exact hnotb hm
    · exact hne he.symm
  have hmap : ((slots blank (a ++ t :: b) n).map fun x => if x = t then blank else x) =
      a ++ blank :: slots blank b n := by
    have hsplit : slots blank (a ++ t :: b) n = a ++ t :: slots blank b n := by
      simp [slots]
    rw [hsplit, List.map_append, map_blank_of_notMem hta, List.map_cons, if_pos rfl,
      map_blank_of_notMem htail]
  have hfilter : (a ++ t :: b).filter (· ≠ t) = a ++ b := by
    rw [List.filter_append, filter_ne_of_notMem hta, List.filter_cons_of_neg (by simp),
      filter_ne_of_notMem hnotb]
  rw [hmap, hfilter, pass_hole hblanka hblankb]

end

end Library.Packed
