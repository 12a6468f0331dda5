import Mathlib

/-!
# Leftmost occurrences, cutting and splitting of lists

`search d s` is the position of the first occurrence of the delimiter `d` in
`s`. Cutting removes that occurrence and returns the two sides; splitting cuts
until no occurrence is left. Everything is over an arbitrary alphabet with
decidable equality and for delimiters of any length.
-/

namespace Library.Search

variable {α : Type*} [DecidableEq α]

def search (d : List α) : List α → Option ℕ
  | [] => if d = [] then some 0 else none
  | a :: s => if d.isPrefixOf (a :: s) then some 0 else (search d s).map (· + 1)

theorem search_le {d s : List α} {i : ℕ} (h : search d s = some i) :
    i + d.length ≤ s.length := by
  induction s generalizing i with
  | nil =>
    by_cases hd : d = []
    · simp only [search, if_pos hd, Option.some.injEq] at h
      simp [hd, ← h]
    · simp [search, hd] at h
  | cons a s ih =>
    by_cases hp : d.isPrefixOf (a :: s)
    · simp only [search, if_pos hp, Option.some.injEq] at h
      have hle := (List.isPrefixOf_iff_prefix.mp hp).length_le
      omega
    · simp only [search, if_neg hp, Option.map_eq_some_iff] at h
      obtain ⟨j, hj, rfl⟩ := h
      have hle := ih hj
      simp only [List.length_cons]
      omega

theorem search_eq_none_iff {d s : List α} : search d s = none ↔ ¬d <:+: s := by
  induction s with
  | nil =>
    rw [search, List.infix_nil]
    split
    · next hd => simp [hd]
    · next hd => simp [hd]
  | cons a s ih =>
    rw [search, List.infix_cons_iff, not_or, ← ih, ← List.isPrefixOf_iff_prefix]
    split
    · next hp => simp [hp]
    · next hp => simp [hp]

theorem eq_of_search {d s : List α} {i : ℕ} (h : search d s = some i) :
    s = s.take i ++ d ++ s.drop (i + d.length) := by
  induction s generalizing i with
  | nil =>
    rw [search] at h
    split at h
    · next hd => simp [hd]
    · cases h
  | cons a s ih =>
    rw [search] at h
    split at h
    · next hp =>
      obtain rfl := Option.some.inj h
      obtain ⟨rest, hrest⟩ := List.isPrefixOf_iff_prefix.mp hp
      rw [List.take_zero, List.nil_append, Nat.zero_add, ← hrest, List.drop_left]
    · obtain ⟨j, hj, rfl⟩ := Option.map_eq_some_iff.mp h
      have hindex : j + 1 + d.length = j + d.length + 1 := by omega
      rw [List.take_succ_cons, hindex, List.drop_succ_cons, List.cons_append, List.cons_append,
        ← ih hj]

theorem search_take_eq_none {d s : List α} (hd : d ≠ []) {i : ℕ} (h : search d s = some i) :
    search d (s.take i) = none := by
  induction s generalizing i with
  | nil => simp [search, hd]
  | cons a s ih =>
    rw [search] at h
    split at h
    · obtain rfl := Option.some.inj h
      simp [search, hd]
    · next hp =>
      obtain ⟨j, hj, rfl⟩ := Option.map_eq_some_iff.mp h
      have hshort : ¬d.isPrefixOf (a :: s.take j) = true := by
        rw [List.isPrefixOf_iff_prefix] at hp ⊢
        intro hfront
        exact hp (hfront.trans (List.take_prefix (j + 1) (a :: s)))
      rw [List.take_succ_cons, search, if_neg hshort, ih hj]
      rfl

theorem search_self_append (d b : List α) : search d (d ++ b) = some 0 := by
  cases h : d ++ b with
  | nil =>
    have hd : d = [] := (List.append_eq_nil_iff.mp h).1
    simp [search, hd]
  | cons a s =>
    have hp : d.isPrefixOf (a :: s) := List.isPrefixOf_iff_prefix.mpr (h ▸ List.prefix_append d b)
    simp [search, hp]

theorem search_of_notMem {c : α} {s : List α} (h : c ∉ s) : search [c] s = none := by
  rw [search_eq_none_iff, List.singleton_infix_iff]
  exact h

theorem search_append_cons {c : α} {a : List α} (b : List α) (h : c ∉ a) :
    search [c] (a ++ c :: b) = some a.length := by
  induction a with
  | nil => exact search_self_append [c] b
  | cons x a ih =>
    have hne : c ≠ x := fun e => h (e ▸ List.mem_cons_self)
    have ha : c ∉ a := fun hm => h (List.mem_cons_of_mem _ hm)
    simp [search, List.isPrefixOf, hne, ih ha]

theorem getElem?_of_search {c : α} {s : List α} {i : ℕ} (h : search [c] s = some i) :
    s[i]? = some c := by
  have hi : (s.take i).length = i := List.length_take_of_le (Nat.le_of_lt (search_le h))
  rw [eq_of_search h, List.append_assoc, List.getElem?_append_right hi.le, hi, Nat.sub_self]
  rfl

theorem search_drop_of_getElem? {c : α} {s : List α} {a q : ℕ} (hq : s[q]? = some c)
    (ha : a ≤ q) : ∃ i, search [c] (s.drop a) = some i ∧ a + i ≤ q := by
  have hat : (s.drop a)[q - a]? = some c := by
    rw [List.getElem?_drop, Nat.add_sub_cancel' ha]
    exact hq
  obtain ⟨x, y, hsplit, hx⟩ := List.eq_append_cons_of_mem (List.mem_of_getElem? hat)
  refine ⟨x.length, ?_, ?_⟩
  · rw [hsplit, search_append_cons y hx]
  · by_contra hlt
    rw [hsplit, List.getElem?_append_left (by omega)] at hat
    exact hx (List.mem_of_getElem? hat)

/-- The text before the first occurrence and the text after it; all of the text
and nothing when the delimiter does not occur. -/
def cutFirst (d s : List α) : List α × List α :=
  match search d s with
  | none => (s, [])
  | some i => (s.take i, s.drop (i + d.length))

theorem cutFirst_append_cons {c : α} {a : List α} (b : List α) (h : c ∉ a) :
    cutFirst [c] (a ++ c :: b) = (a, b) := by
  have hdrop : (a ++ c :: b).drop (a.length + 1) = b := by
    rw [List.drop_append]
    simp
  simp [cutFirst, search_append_cons b h, hdrop]

theorem cutFirst_of_notMem {c : α} {s : List α} (h : c ∉ s) : cutFirst [c] s = (s, []) := by
  rw [cutFirst, search_of_notMem h]

theorem length_cutFirst_fst_le (d s : List α) : (cutFirst d s).1.length ≤ s.length := by
  unfold cutFirst
  split
  · exact le_rfl
  · rw [List.length_take]
    exact min_le_right _ _

theorem length_cutFirst_snd_le (d s : List α) : (cutFirst d s).2.length ≤ s.length := by
  rw [cutFirst]
  split
  · exact Nat.zero_le _
  · rw [List.length_drop]
    omega

/-- The pieces of `s` between successive leftmost occurrences of `d`. An empty
delimiter separates nothing. -/
def splitOn (d s : List α) : List (List α) :=
  if _hd : d = [] then [s]
  else
    match _h : search d s with
    | none => [s]
    | some i => s.take i :: splitOn d (s.drop (i + d.length))
termination_by s.length
decreasing_by
  have hle := search_le _h
  have hpos := List.length_pos_of_ne_nil _hd
  simp only [List.length_drop]
  omega

theorem splitOn_of_search_none {d s : List α} (h : search d s = none) : splitOn d s = [s] := by
  rw [splitOn]
  split
  · rfl
  · split
    · rfl
    · simp_all

theorem splitOn_of_search_some {d s : List α} {i : ℕ} (hd : d ≠ []) (h : search d s = some i) :
    splitOn d s = s.take i :: splitOn d (s.drop (i + d.length)) := by
  rw [splitOn, dif_neg hd]
  split
  · simp_all
  · simp_all

theorem splitOn_of_notMem {c : α} {s : List α} (h : c ∉ s) : splitOn [c] s = [s] :=
  splitOn_of_search_none (search_of_notMem h)

theorem splitOn_append_cons {c : α} {a : List α} (b : List α) (h : c ∉ a) :
    splitOn [c] (a ++ c :: b) = a :: splitOn [c] b := by
  have hs := search_append_cons b h
  have hdrop : (a ++ c :: b).drop (a.length + 1) = b := by
    rw [List.drop_append]
    simp
  rw [splitOn_of_search_some (by simp) hs]
  simp [hdrop]

/-- A list is one piece, or a piece and a delimiter with a list behind them. -/
theorem piece_induction {c : α} {motive : List α → Prop}
    (piece : ∀ s, c ∉ s → motive s)
    (cut : ∀ a b, c ∉ a → motive b → motive (a ++ c :: b)) (s : List α) : motive s := by
  induction hn : s.length using Nat.strong_induction_on generalizing s with
  | _ n ih =>
    by_cases h : c ∈ s
    · obtain ⟨a, b, rfl, ha⟩ := List.eq_append_cons_of_mem h
      refine cut a b ha (ih b.length ?_ b rfl)
      rw [← hn, List.length_append, List.length_cons]
      omega
    · exact piece s h

/-- A list holds no delimiter, or it is cut at the first one. -/
theorem cut_induction {d : List α} (hd : d ≠ []) {motive : List α → Prop}
    (piece : ∀ s, search d s = none → motive s)
    (cut : ∀ s i, search d s = some i → motive (s.drop (i + d.length)) → motive s)
    (s : List α) : motive s := by
  induction hn : s.length using Nat.strong_induction_on generalizing s with
  | _ n ih =>
    cases h : search d s with
    | none => exact piece s h
    | some i =>
      have hle := search_le h
      have hpos := List.length_pos_of_ne_nil hd
      refine cut s i h (ih (s.drop (i + d.length)).length ?_ _ rfl)
      rw [← hn, List.length_drop]
      omega

theorem splitOn_append_delim (c : α) (a b : List α) :
    splitOn [c] (a ++ c :: b) = splitOn [c] a ++ splitOn [c] b := by
  induction a using piece_induction (c := c) with
  | piece a ha => rw [splitOn_append_cons b ha, splitOn_of_notMem ha, List.singleton_append]
  | cut a rest ha ih =>
    rw [List.append_assoc, List.cons_append, splitOn_append_cons _ ha, ih,
      splitOn_append_cons rest ha, List.cons_append]

theorem splitOn_ne_nil (d s : List α) : splitOn d s ≠ [] := by
  rw [splitOn]
  split
  · exact List.cons_ne_nil _ _
  · split
    · exact List.cons_ne_nil _ _
    · exact List.cons_ne_nil _ _

theorem infix_of_mem_splitOn {d s p : List α} (h : p ∈ splitOn d s) : p <:+: s := by
  by_cases hd : d = []
  · rw [splitOn, dif_pos hd, List.mem_singleton] at h
    exact h ▸ List.infix_rfl
  induction s using cut_induction hd with
  | piece s hs =>
    rw [splitOn_of_search_none hs, List.mem_singleton] at h
    exact h ▸ List.infix_rfl
  | cut s i hs ih =>
    rw [splitOn_of_search_some hd hs, List.mem_cons] at h
    rcases h with rfl | h
    · exact (List.take_prefix i s).isInfix
    · exact (ih h).trans (List.drop_suffix (i + d.length) s).isInfix

theorem not_infix_of_mem_splitOn {d s p : List α} (hd : d ≠ []) (h : p ∈ splitOn d s) :
    ¬d <:+: p := by
  induction s using cut_induction hd with
  | piece s hs =>
    rw [splitOn_of_search_none hs, List.mem_singleton] at h
    rw [h]
    exact search_eq_none_iff.mp hs
  | cut s i hs ih =>
    rw [splitOn_of_search_some hd hs, List.mem_cons] at h
    rcases h with rfl | h
    · exact search_eq_none_iff.mp (search_take_eq_none hd hs)
    · exact ih h

theorem notMem_of_mem_splitOn {c : α} {s p : List α} (h : p ∈ splitOn [c] s) : c ∉ p := by
  rw [← List.singleton_infix_iff]
  exact not_infix_of_mem_splitOn (List.cons_ne_nil c []) h

theorem intercalate_splitOn {d : List α} (hd : d ≠ []) (s : List α) :
    d.intercalate (splitOn d s) = s := by
  induction s using cut_induction hd with
  | piece s h => rw [splitOn_of_search_none h, List.intercalate_singleton]
  | cut s i h ih =>
    rw [splitOn_of_search_some hd h, List.intercalate_cons_of_ne_nil (splitOn_ne_nil d _), ih,
      ← eq_of_search h]

theorem splitOn_cutFirst {d : List α} (hd : d ≠ []) (s : List α) :
    ∃ rest, splitOn d s = (cutFirst d s).1 :: rest ∧ (cutFirst d s).2 = d.intercalate rest := by
  unfold cutFirst
  cases h : search d s with
  | none => exact ⟨[], splitOn_of_search_none h, rfl⟩
  | some i =>
    exact ⟨splitOn d (s.drop (i + d.length)), splitOn_of_search_some hd h,
      (intercalate_splitOn hd _).symm⟩

omit [DecidableEq α] in
theorem intercalate_cons_eq_append_flatMap (c : α) (p : List α) (ps : List (List α)) :
    [c].intercalate (p :: ps) = p ++ ps.flatMap (c :: ·) := by
  induction ps generalizing p with
  | nil => simp [List.intercalate]
  | cons q qs ih =>
    have hglue : [c].intercalate (p :: q :: qs) = p ++ c :: [c].intercalate (q :: qs) := by
      simp [List.intercalate]
    rw [hglue, ih q, List.flatMap_cons, List.cons_append]

omit [DecidableEq α] in
theorem flatMap_append_eq_intercalate (d : List α) {pieces : List (List α)} (h : pieces ≠ []) :
    pieces.flatMap (· ++ d) = d.intercalate pieces ++ d := by
  induction pieces with
  | nil => exact absurd rfl h
  | cons p ps ih =>
    cases ps with
    | nil => simp
    | cons q qs =>
      rw [List.flatMap_cons, ih (List.cons_ne_nil q qs), List.intercalate_cons_cons]
      simp only [List.append_assoc]

omit [DecidableEq α] in
theorem length_le_length_intercalate (c : α) {p : List α} {pieces : List (List α)}
    (h : p ∈ pieces) : p.length ≤ ([c].intercalate pieces).length := by
  obtain ⟨first, rest, rfl⟩ := List.exists_cons_of_ne_nil (List.ne_nil_of_mem h)
  rw [intercalate_cons_eq_append_flatMap, List.length_append, List.length_flatMap]
  rcases List.mem_cons.mp h with rfl | hrest
  · exact Nat.le_add_right _ _
  · have hle := List.le_sum_of_mem (List.mem_map_of_mem (f := fun q => (c :: q).length) hrest)
    rw [List.length_cons] at hle
    omega

theorem splitOn_intercalate {c : α} {pieces : List (List α)} (hne : pieces ≠ [])
    (h : ∀ p ∈ pieces, c ∉ p) : splitOn [c] ([c].intercalate pieces) = pieces := by
  induction pieces with
  | nil => exact absurd rfl hne
  | cons p ps ih =>
    cases ps with
    | nil => simpa [List.intercalate] using splitOn_of_notMem (h p (by simp))
    | cons q qs =>
      have hrest := ih (by simp) fun r hr => h r (List.mem_cons_of_mem _ hr)
      rw [intercalate_cons_eq_append_flatMap, List.flatMap_cons, List.cons_append,
        ← intercalate_cons_eq_append_flatMap, splitOn_append_cons _ (h p (by simp)), hrest]

theorem splitOn_intercalate_flatMap {c : α} {texts : List (List α)} (hne : texts ≠ []) :
    splitOn [c] ([c].intercalate texts) = texts.flatMap (splitOn [c]) := by
  induction texts with
  | nil => exact absurd rfl hne
  | cons s texts ih =>
    cases texts with
    | nil => simp [List.intercalate]
    | cons t texts =>
      rw [intercalate_cons_eq_append_flatMap, List.flatMap_cons, List.cons_append,
        ← intercalate_cons_eq_append_flatMap, splitOn_append_delim, ih (by simp),
        ← List.flatMap_cons]

theorem find_eq_find_iff {α : Type*} {p q : α → Bool} (hpq : ∀ x, p x = true → q x = true)
    (l : List α) :
    l.find? q = l.find? p ↔ ∀ x ∈ l.takeWhile fun x => !p x, q x = false := by
  induction l with
  | nil => simp
  | cons x l ih =>
    rw [List.find?_cons, List.find?_cons, List.takeWhile_cons]
    cases hp : p x with
    | true =>
      rw [hpq x hp]
      simp
    | false =>
      cases hq : q x with
      | true =>
        refine iff_of_false ?_ (by simp [hq])
        intro hfirst
        have hfound := List.find?_some hfirst.symm
        rw [hp] at hfound
        cases hfound
      | false => simpa [hq] using ih

end Library.Search
