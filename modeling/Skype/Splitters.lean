import Skype.StringUtils

/-!
# What the splitters say about each other

`split`, `splitToInts` and `splitFirst` cut at the same occurrences, each the leftmost
one behind the cut before it. `join` drops one byte at the end, whatever the length of
the delimiter, and `last` looks for the delimiter once, in front of its loop.
-/

namespace Skype.StringUtils

open Library

variable {s d : ByteString}

/-- The pieces of `split`, and the other two splitters read off them. Numbers are
stored as `std::size_t`. -/
structure SplittersAgree (s d : ByteString) (pieces : List ByteString) : Prop where
  split : split s d = .ok pieces
  glued : d.intercalate pieces = s
  free : ∀ piece ∈ pieces, ¬d <:+: piece
  first : ∃ first rest, pieces = first :: rest ∧ splitFirst s d = .ok (first, d.intercalate rest)
  numbers : ∀ vals : List Int32, pieces.map stoi = vals.map .ok →
    splitToInts s d = .ok (vals.map intToSize)
  unread : (∃ piece ∈ pieces, ∀ val, stoi piece ≠ .ok val) → splitToInts s d = .ok []

theorem splitToInts_unread (hs : s.length < 2 ^ 31) (hd : d ≠ []) {piece : ByteString}
    (hpiece : piece ∈ Search.splitOn d s) (hunread : ∀ val, stoi piece ≠ .ok val) :
    splitToInts s d = .ok [] := by
  rcases splitToInts_cases hs hd with ⟨vals, hvals, -⟩ | ⟨-, hnone⟩
  · have hread : stoi piece ∈ vals.map Except.ok := hvals ▸ List.mem_map_of_mem hpiece
    obtain ⟨val, -, hval⟩ := List.mem_map.mp hread
    exact absurd hval.symm (hunread val)
  · exact hnone

theorem splitters_agree (hs : s.length < 2 ^ 31) (hd : d ≠ []) :
    ∃ pieces, SplittersAgree s d pieces := by
  obtain ⟨rest, hpieces, hrest⟩ := Search.splitOn_cutFirst hd s
  refine ⟨Search.splitOn d s, split_eq hs hd, Search.intercalate_splitOn hd s, ?_, ?_, ?_, ?_⟩
  · intro piece hpiece
    exact Search.not_infix_of_mem_splitOn hd hpiece
  · refine ⟨_, rest, hpieces, ?_⟩
    rw [splitFirst_eq hs, ← hrest]
  · intro vals hvals
    exact splitToInts_eq hs hd hvals
  · rintro ⟨piece, hpiece, hunread⟩
    exact splitToInts_unread hs hd hpiece hunread

theorem splitters_agree_overlapping : ∃ pieces, SplittersAgree (str "1aaa2") (str "aa") pieces :=
  splitters_agree (by decide) (by decide)

theorem splitToInts_negative :
    ¬∀ (s d : ByteString) (pieces : List ByteString) (vals : List Int32),
      s.length < 2 ^ 31 → d ≠ [] → split s d = .ok pieces → pieces.map stoi = vals.map .ok →
        ∃ ns, splitToInts s d = .ok ns ∧ ns.map (fun n : ℕ => (n : ℤ)) = vals.map Int32.toInt := by
  intro h
  have hsplit : split (str "-1") (str ",") = .ok [str "-1"] := by decide
  have hread : [str "-1"].map stoi = [(-1 : Int32)].map .ok := by decide
  have hstored : splitToInts (str "-1") (str ",") = .ok [2 ^ 64 - 1] := by decide
  obtain ⟨ns, hns, hvals⟩ := h _ _ _ _ (by decide) (by decide) hsplit hread
  obtain rfl := Except.ok.inj (hstored.symm.trans hns)
  revert hvals
  decide

theorem join_eq {pieces : List ByteString} (hd : d ≠ []) (hpieces : pieces ≠ []) :
    join pieces d = .ok (d.intercalate pieces ++ d.dropLast) := by
  have hfold : pieces.foldl (fun result s => result ++ (s ++ d)) [] =
      d.intercalate pieces ++ d := by
    rw [← Search.flatMap_append_eq_intercalate d hpieces, List.flatMap_eq_foldl]
  have hne : d.intercalate pieces ++ d ≠ [] := List.append_ne_nil_of_right_ne_nil _ hd
  rw [join, hfold, if_pos hd, popBack, if_neg hne, List.dropLast_append_of_ne_nil hd]

theorem dropLast_eq_nil_iff (hd : d ≠ []) : d.dropLast = [] ↔ d.length = 1 := by
  have hpos := List.length_pos_of_ne_nil hd
  rw [← List.length_eq_zero_iff, List.length_dropLast]
  omega

/-- All but the last byte of the delimiter stays behind the last piece. -/
theorem join_split (hs : s.length < 2 ^ 31) (hd : d ≠ []) :
    (split s d >>= fun pieces => join pieces d) = .ok (s ++ d.dropLast) := by
  rw [split_eq hs hd, ok_bind, join_eq hd (Search.splitOn_ne_nil d s),
    Search.intercalate_splitOn hd]

theorem join_split_iff (hs : s.length < 2 ^ 31) (hd : d ≠ []) :
    (split s d >>= fun pieces => join pieces d) = .ok s ↔ d.length = 1 := by
  rw [join_split hs hd, Except.ok.injEq, List.append_right_eq_self, dropLast_eq_nil_iff hd]

theorem join_split_iff_empty_piece :
    (split (str "a,,b,") (str ",") >>= fun pieces => join pieces (str ",")) = .ok (str "a,,b,") ↔
      (str ",").length = 1 :=
  join_split_iff (by decide) (by decide)

theorem not_join_split :
    ¬∀ s d : ByteString, s.length < 2 ^ 31 → d ≠ [] →
      (split s d >>= fun pieces => join pieces d) = .ok s := by
  intro h
  have hkept : (split (str "a, b") (str ", ") >>= fun pieces => join pieces (str ", ")) =
      .ok (str "a, b,") := by decide
  have hlost := h (str "a, b") (str ", ") (by decide) (by decide)
  rw [hkept] at hlost
  revert hlost
  decide

def LastAgrees (s d : ByteString) : Prop :=
  ∃ piece pieces, split s d = .ok pieces ∧ pieces.getLast? = some piece ∧
    ∃ fuel, last fuel s d = .ok piece

theorem lastLoop_endless {stop : Int32} (hstop : stop ≠ -1) (fuel : ℕ) (start : Int32) :
    lastLoop d stop fuel start = .error .endless := by
  induction fuel generalizing start with
  | zero => rfl
  | succ fuel ih => rw [lastLoop, if_pos hstop, ih]

theorem last_of_search_none (hs : s.length < 2 ^ 31) (h : Search.search d s = none) (fuel : ℕ) :
    last (fuel + 1) s d = .ok s := by
  have hrest := substr_last (a := 0) (hs.trans (by decide)) (Nat.zero_le _) (by decide)
  rw [last, find_of_search_none h, sizeToInt_npos]
  exact hrest

theorem last_of_search_some (hs : s.length < 2 ^ 31) {i : ℕ} (h : Search.search d s = some i)
    (fuel : ℕ) : last fuel s d = .error .endless := by
  have hle := Search.search_le h
  have hfind : find s d 0 = 0 + i := find_of_search_some (Nat.zero_le _) h
  have hne : sizeToInt (0 + i) ≠ -1 := sizeToInt_ne_neg_one (by omega)
  rw [last, hfind, lastLoop_endless hne, error_bind]

theorem last_agrees_iff (hs : s.length < 2 ^ 31) (hd : d ≠ []) :
    LastAgrees s d ↔ ¬d <:+: s := by
  rw [← Search.search_eq_none_iff]
  cases h : Search.search d s with
  | none =>
    have hsplit := split_eq hs hd
    rw [Search.splitOn_of_search_none h] at hsplit
    exact iff_of_true ⟨s, [s], hsplit, rfl, 1, last_of_search_none hs h 0⟩ rfl
  | some i =>
    apply iff_of_false
    · rintro ⟨piece, pieces, -, -, fuel, hfuel⟩
      rw [last_of_search_some hs h] at hfuel
      cases hfuel
    · exact Option.some_ne_none i

theorem last_agrees_iff_absent : LastAgrees (str "ab") (str " ") ↔ ¬str " " <:+: str "ab" :=
  last_agrees_iff (by decide) (by decide)

theorem not_last_agrees :
    ¬∀ s d : ByteString, s.length < 2 ^ 31 → d ≠ [] → LastAgrees s d := by
  intro h
  obtain ⟨piece, pieces, -, -, fuel, hfuel⟩ := h (str "a b") (str " ") (by decide) (by decide)
  have hfound : Search.search (str " ") (str "a b") = some 1 := by decide
  rw [last_of_search_some (by decide) hfound] at hfuel
  cases hfuel

end Skype.StringUtils
