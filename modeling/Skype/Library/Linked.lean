import Mathlib

/-!
# Paths along successors

`next` gives the successor of a node, where it has one. The nodes of a linked list are a
path from its first node up to its last, which is not counted to it; what lies off the path
may change.
-/

namespace Library.Linked

variable {α : Type*} {next next' : α → Option α}

def Path (next : α → Option α) : α → List α → α → Prop
  | a, [], b => a = b
  | a, x :: xs, b => a = x ∧ ∃ c, next x = some c ∧ Path next c xs b

theorem path_refl (a : α) : Path next a [] a := rfl

theorem Path.append_last {a b c : α} {xs : List α} (h : Path next a xs b)
    (hb : next b = some c) : Path next a (xs ++ [b]) c := by
  induction xs generalizing a with
  | nil =>
    obtain rfl := h
    exact ⟨rfl, c, hb, rfl⟩
  | cons x xs ih =>
    obtain ⟨rfl, d, hd, hrest⟩ := h
    exact ⟨rfl, d, hd, ih hrest⟩

theorem Path.congr {a b : α} {xs : List α} (h : Path next a xs b)
    (hsame : ∀ x ∈ xs, next' x = next x) : Path next' a xs b := by
  induction xs generalizing a with
  | nil => exact h
  | cons x xs ih =>
    obtain ⟨rfl, c, hc, hrest⟩ := h
    refine ⟨rfl, c, (hsame a List.mem_cons_self).trans hc, ih hrest ?_⟩
    intro y hy
    exact hsame y (List.mem_cons_of_mem a hy)

theorem Path.uncons {a b : α} {xs : List α} (h : Path next a xs b) (hne : xs ≠ []) :
    ∃ c rest, xs = a :: rest ∧ next a = some c ∧ Path next c rest b := by
  cases xs with
  | nil => exact absurd rfl hne
  | cons x rest =>
    obtain ⟨rfl, c, hc, hrest⟩ := h
    exact ⟨c, rest, rfl, hc, hrest⟩

theorem Path.eq_nil_iff {a b : α} {xs : List α} (h : Path next a xs b) (hb : b ∉ xs) :
    xs = [] ↔ a = b := by
  constructor
  · rintro rfl
    exact h
  · rintro rfl
    by_contra hne
    obtain ⟨c, rest, rfl, -⟩ := h.uncons hne
    exact hb List.mem_cons_self

theorem Path.isSome {a b : α} {xs : List α} (h : Path next a xs b) :
    ∀ x ∈ xs, (next x).isSome = true := by
  induction xs generalizing a with
  | nil =>
    intro x hx
    exact absurd hx List.not_mem_nil
  | cons y xs ih =>
    obtain ⟨rfl, c, hc, hrest⟩ := h
    intro x hx
    rcases List.mem_cons.mp hx with rfl | hx
    · rw [hc]
      rfl
    · exact ih hrest x hx

end Library.Linked
