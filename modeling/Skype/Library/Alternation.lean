import Mathlib

/-!
# Logs of flags that alternate

A log holds a flag for a key in every entry. The flags of one key alternate when each
is the opposite of the one before it, the first being `true`.
-/

namespace Library.Alternation

def Alternates : Bool → List Bool → Prop
  | _, [] => True
  | expected, flag :: flags => flag = expected ∧ Alternates (!expected) flags

theorem alternates_append_singleton (expected : Bool) (flags : List Bool) (flag : Bool) :
    Alternates expected (flags ++ [flag]) ↔
      Alternates expected flags ∧ flag = !(flags.getLast?.getD (!expected)) := by
  induction flags generalizing expected with
  | nil => simp [Alternates]
  | cons first flags ih =>
    rw [List.cons_append, Alternates, Alternates, ih, and_assoc]
    apply and_congr_right
    rintro rfl
    rw [List.getLast?_cons, Bool.not_not, Option.getD_some]

theorem alternates_left {expected : Bool} {pre post : List Bool}
    (h : Alternates expected (pre ++ post)) : Alternates expected pre := by
  induction pre generalizing expected with
  | nil => trivial
  | cons flag pre ih => exact ⟨h.1, ih h.2⟩

variable {κ : Type*} [DecidableEq κ]

def flagsOf (key : κ) (log : List (κ × Bool)) : List Bool :=
  (log.filter fun entry => entry.1 = key).map Prod.snd

def lastFlag (key : κ) (log : List (κ × Bool)) : Bool := (flagsOf key log).getLast?.getD false

def InTurn (log : List (κ × Bool)) : Prop := ∀ key, Alternates true (flagsOf key log)

theorem flagsOf_append (key : κ) (pre post : List (κ × Bool)) :
    flagsOf key (pre ++ post) = flagsOf key pre ++ flagsOf key post := by
  simp [flagsOf]

theorem lastFlag_append_singleton (key : κ) (log : List (κ × Bool)) (entry : κ × Bool) :
    lastFlag key (log ++ [entry]) = if entry.1 = key then entry.2 else lastFlag key log := by
  rw [lastFlag, flagsOf_append]
  by_cases hkey : entry.1 = key
  · simp [flagsOf, hkey]
  · simp [flagsOf, hkey, lastFlag]

theorem inTurn_nil : InTurn ([] : List (κ × Bool)) := fun _ => trivial

theorem inTurn_left {pre post : List (κ × Bool)} (h : InTurn (pre ++ post)) : InTurn pre := by
  intro key
  have hkey := h key
  rw [flagsOf_append] at hkey
  exact alternates_left hkey

theorem inTurn_append_singleton_iff {log : List (κ × Bool)} (h : InTurn log) (entry : κ × Bool) :
    InTurn (log ++ [entry]) ↔ entry.2 = !lastFlag entry.1 log := by
  have hflags : ∀ key, flagsOf key [entry] = if entry.1 = key then [entry.2] else [] := by
    intro key
    by_cases hkey : entry.1 = key
    · simp [flagsOf, hkey]
    · simp [flagsOf, hkey]
  constructor
  · intro hlog
    have hkey := hlog entry.1
    rw [flagsOf_append, hflags, if_pos rfl, alternates_append_singleton] at hkey
    exact hkey.2
  · intro hflag key
    rw [flagsOf_append, hflags]
    by_cases hkey : entry.1 = key
    · rw [if_pos hkey, alternates_append_singleton]
      exact ⟨h key, hkey ▸ hflag⟩
    · rw [if_neg hkey, List.append_nil]
      exact h key

end Library.Alternation
