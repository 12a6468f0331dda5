import Mathlib

/-!
# Finite maps as lists of entries with different keys

The entries stand in the order in which their keys were first inserted; inserting
under a key that is there replaces its entry.
-/

namespace Library

structure Keyed {α κ : Type*} (key : α → κ) where
  entries : List α
  nodup : (entries.map key).Nodup

namespace Keyed

variable {α κ : Type*} {key : α → κ}

def empty : Keyed key := ⟨[], List.nodup_nil⟩

def mapEntries (m : Keyed key) (f : α → α) (hkey : ∀ a, key (f a) = key a) : Keyed key where
  entries := m.entries.map f
  nodup := by
    have hsame : key ∘ f = key := funext hkey
    rw [List.map_map, hsame]
    exact m.nodup

section

variable [DecidableEq κ]

def find? (m : Keyed key) (k : κ) : Option α := m.entries.find? fun a => key a = k

def insertEntry (key : α → κ) (a : α) : List α → List α
  | [] => [a]
  | b :: entries => if key b = key a then a :: entries else b :: insertEntry key a entries

theorem map_insertEntry (a : α) (entries : List α) :
    (insertEntry key a entries).map key =
      if key a ∈ entries.map key then entries.map key else entries.map key ++ [key a] := by
  induction entries with
  | nil => simp [insertEntry]
  | cons b entries ih =>
    by_cases hb : key b = key a
    · simp [insertEntry, hb]
    · rw [insertEntry, if_neg hb, List.map_cons, ih]
      by_cases hmem : key a ∈ entries.map key
      · simp [hmem]
      · simp [hmem, Ne.symm hb]

theorem nodup_insertEntry (a : α) {entries : List α} (h : (entries.map key).Nodup) :
    ((insertEntry key a entries).map key).Nodup := by
  rw [map_insertEntry]
  split
  · exact h
  · next hmem =>
    apply List.Nodup.append h (List.nodup_singleton _)
    intro k hk hka
    rw [List.mem_singleton.mp hka] at hk
    exact hmem hk

def insert (m : Keyed key) (a : α) : Keyed key :=
  ⟨insertEntry key a m.entries, nodup_insertEntry a m.nodup⟩

theorem filter_key {entries : List α} (h : (entries.map key).Nodup) {a : α} (ha : a ∈ entries) :
    (entries.filter fun b => key b = key a) = [a] := by
  have hperm : (entries.filter fun b => key b = key a).Perm [a] := by
    rw [List.perm_ext_iff_of_nodup (h.of_map.filter _) (List.nodup_singleton a)]
    intro b
    rw [List.mem_filter, List.mem_singleton, decide_eq_true_eq]
    constructor
    · rintro ⟨hb, hkey⟩
      exact List.inj_on_of_nodup_map h hb ha hkey
    · rintro rfl
      exact ⟨ha, rfl⟩
  exact List.perm_singleton.mp hperm

theorem insertEntry_of_notMem {a : α} {entries : List α} (h : key a ∉ entries.map key) :
    insertEntry key a entries = entries ++ [a] := by
  induction entries with
  | nil => rfl
  | cons b entries ih =>
    rw [List.map_cons, List.mem_cons, not_or] at h
    rw [insertEntry, if_neg (Ne.symm h.1), ih h.2, List.cons_append]

theorem find?_insert (m : Keyed key) (a : α) (k : κ) :
    (m.insert a).find? k = if key a = k then some a else m.find? k := by
  obtain ⟨entries, hnodup⟩ := m
  unfold insert find?
  dsimp only
  clear hnodup
  induction entries with
  | nil => simp [insertEntry]
  | cons b entries ih =>
    rw [insertEntry]
    by_cases hb : key b = key a
    · rw [if_pos hb, List.find?_cons, List.find?_cons, hb]
      by_cases hk : key a = k
      · simp [hk]
      · simp [hk]
    · rw [if_neg hb, List.find?_cons, List.find?_cons, ih]
      by_cases hk : key b = k
      · have hne : key a ≠ k := fun h => hb (hk.trans h.symm)
        simp [hk, hne]
      · simp [hk]

theorem mem_insertEntry {a b : α} {entries : List α} (h : b ∈ insertEntry key a entries) :
    b = a ∨ b ∈ entries := by
  induction entries with
  | nil => exact Or.inl (List.mem_singleton.mp h)
  | cons c entries ih =>
    rw [insertEntry] at h
    split at h
    · rcases List.mem_cons.mp h with hb | hb
      · exact Or.inl hb
      · exact Or.inr (List.mem_cons_of_mem c hb)
    · rcases List.mem_cons.mp h with rfl | hb
      · exact Or.inr List.mem_cons_self
      · rcases ih hb with hb | hb
        · exact Or.inl hb
        · exact Or.inr (List.mem_cons_of_mem c hb)

theorem find?_eq_none_iff (m : Keyed key) (k : κ) :
    m.find? k = none ↔ k ∉ m.entries.map key := by
  rw [find?, List.find?_eq_none, List.mem_map, not_exists]
  apply forall_congr'
  intro a
  rw [decide_eq_true_eq, not_and]

theorem entries_insert {m : Keyed key} {a : α} (h : m.find? (key a) = none) :
    (m.insert a).entries = m.entries ++ [a] :=
  insertEntry_of_notMem ((find?_eq_none_iff m (key a)).mp h)

theorem map_entries_insert {m : Keyed key} {a : α} (h : key a ∈ m.entries.map key) :
    (m.insert a).entries.map key = m.entries.map key := by
  unfold insert
  dsimp only
  rw [map_insertEntry, if_pos h]

theorem mem_entries_iff (m : Keyed key) (a : α) : a ∈ m.entries ↔ m.find? (key a) = some a := by
  constructor
  · intro ha
    cases h : m.find? (key a) with
    | none =>
      have hnone := List.find?_eq_none.mp h a ha
      simp at hnone
    | some b =>
      have hkey : key b = key a := by simpa using List.find?_some h
      have hb := List.mem_of_find?_eq_some h
      rw [List.inj_on_of_nodup_map m.nodup hb ha hkey]
  · exact List.mem_of_find?_eq_some

theorem find?_agree_iff {m m' : Keyed key} {front back back' : List α} {a : α}
    (hm : m.entries = front ++ back) (hm' : m'.entries = front ++ a :: back')
    (hkeys : back.map key = back'.map key) :
    (∀ k ∈ (front ++ back).map key, m'.find? k = m.find? k) ↔ back = back' := by
  have hlen : back.length = back'.length := by simpa using congrArg List.length hkeys
  constructor
  · intro h
    apply List.ext_getElem hlen
    intro i hi hi'
    have hkey : key back[i] = key back'[i] := by
      have hget := List.getElem_of_eq hkeys (by simpa using hi)
      simpa using hget
    have hmem : back[i] ∈ m.entries := by
      rw [hm]
      exact List.mem_append_right front (List.getElem_mem hi)
    have hmem' : back'[i] ∈ m'.entries := by
      rw [hm']
      exact List.mem_append_right front (List.mem_cons_of_mem a (List.getElem_mem hi'))
    have hagree := h (key back[i])
      (List.mem_map_of_mem (List.mem_append_right front (List.getElem_mem hi)))
    rw [(m.mem_entries_iff _).mp hmem, hkey, (m'.mem_entries_iff _).mp hmem'] at hagree
    exact (Option.some.inj hagree).symm
  · rintro rfl k hk
    obtain ⟨b, hb, rfl⟩ := List.mem_map.mp hk
    have hmem : b ∈ m.entries := hm ▸ hb
    have hmem' : b ∈ m'.entries := by
      rw [hm', List.mem_append, List.mem_cons]
      rcases List.mem_append.mp hb with hfront | hback
      · exact Or.inl hfront
      · exact Or.inr (Or.inr hback)
    rw [(m.mem_entries_iff b).mp hmem, (m'.mem_entries_iff b).mp hmem']

end

end Keyed

end Library
