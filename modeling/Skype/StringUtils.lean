import Skype.StdString

/-!
# `StringUtils`

The splitters are written over `int` positions with `-1` for "not found", as in
the source. On strings shorter than `2 ^ 31` bytes the positions are exact, and
each splitter is the list function of the same purpose: `split` is `splitOn`,
`splitFirst` is `cutFirst`.
-/

namespace Skype.StringUtils

open Library

def splitLoop (s delim : ByteString) : ℕ → Int32 → Int32 → Exec (List ByteString)
  | 0, _, _ => .error .endless
  | fuel + 1, start, stop => do
    let piece ← substr s (intToSize start) (intToSize (stop - start))
    if stop ≠ -1 then
      let start' := sizeToInt (intToSize stop + delim.length)
      let rest ← splitLoop s delim fuel start' (sizeToInt (find s delim (intToSize start')))
      return piece :: rest
    else
      return [piece]

/-- Every round of the loop moves past a delimiter, so `s.size() + 1` rounds are
enough unless the delimiter is empty. -/
def split (s delim : ByteString) : Exec (List ByteString) :=
  splitLoop s delim (s.length + 1) 0 (sizeToInt (find s delim 0))

def splitToIntsLoop (s delim : ByteString) : ℕ → Int32 → Int32 → Exec (List ℕ)
  | 0, _, _ => .error .endless
  | fuel + 1, start, stop => do
    let piece ← substr s (intToSize start) (intToSize (stop - start))
    let val ← stoi piece
    if stop ≠ -1 then
      let start' := sizeToInt (intToSize stop + delim.length)
      let rest ← splitToIntsLoop s delim fuel start' (sizeToInt (find s delim (intToSize start')))
      return intToSize val :: rest
    else
      return [intToSize val]

/-- `split_to_ints`: the values are stored as `std::size_t`, and any exception
gives the empty vector. -/
def splitToInts (s delim : ByteString) : Exec (List ℕ) :=
  catchAll (splitToIntsLoop s delim (s.length + 1) 0 (sizeToInt (find s delim 0))) (.ok [])

/-- The loop of `last`. `end` is set before it and never again. -/
def lastLoop (delim : ByteString) (stop : Int32) : ℕ → Int32 → Exec Int32
  | 0, _ => .error .endless
  | fuel + 1, start =>
    if stop ≠ -1 then lastLoop delim stop fuel (sizeToInt (intToSize stop + delim.length))
    else .ok start

def last (fuel : ℕ) (s delim : ByteString) : Exec ByteString := do
  let stop := sizeToInt (find s delim 0)
  let start ← lastLoop delim stop fuel 0
  substr s (intToSize start) (intToSize (stop - start))

def splitFirst (s delim : ByteString) : Exec (ByteString × ByteString) :=
  if s = [] then .ok ([], [])
  else
    let stop := find s delim 0
    if stop = npos then .ok (s, [])
    else do
      let first ← substr s 0 stop
      let start := sizeToInt (stop + delim.length)
      let second ← substr s (intToSize start)
        ((s.length + 2 ^ 64 - intToSize start) % 2 ^ 64)
      return (first, second)

def splitAt (s : ByteString) (tPos : ℕ) : Exec (ByteString × ByteString) := do
  let first ← substr s 0 tPos
  let second ← substr s tPos s.length
  return (first, second)

/-- `split_at(s, t_pos)` for a vector of positions. With an empty vector
`t_pos.size() - 1` wraps around and the first `t_pos.at(0)` throws. -/
def splitAtAll (s : ByteString) : List ℕ → Exec (List ByteString)
  | [] => .error .outOfRange
  | [_] => .ok []
  | a :: b :: tPos => do
    let start := sizeToInt a
    let count := sizeToInt ((b + 2 ^ 64 - a) % 2 ^ 64)
    let piece ← substr s (intToSize start) (intToSize count)
    let rest ← splitAtAll s (b :: tPos)
    return piece :: rest

def toInt (s : ByteString) : Bool × Int32 :=
  match stoi s with
  | .ok val => (true, val)
  | .error _ => (false, -1)

def join (tStrVec : List ByteString) (tDelim : ByteString) : Exec ByteString :=
  let result := tStrVec.foldl (fun result s => result ++ (s ++ tDelim)) []
  if tDelim ≠ [] then popBack result else .ok result

section Short

variable {s d : ByteString}

theorem find_of_search_none {a : ℕ} (h : Search.search d (s.drop a) = none) :
    find s d a = npos := by
  simp [find, h]

theorem find_of_search_some {a i : ℕ} (ha : a ≤ s.length)
    (h : Search.search d (s.drop a) = some i) : find s d a = a + i := by
  simp [find, h, ha]

theorem search_drop_le {a i : ℕ} (ha : a ≤ s.length)
    (h : Search.search d (s.drop a) = some i) : a + i + d.length ≤ s.length := by
  have hle := Search.search_le h
  rw [List.length_drop] at hle
  omega

def Near (d s : ByteString) : Prop :=
  ∀ a i, a ≤ s.length → Search.search d (s.drop a) = some i → a + i + d.length < 2 ^ 31

theorem near_of_short (hs : s.length < 2 ^ 31) : Near d s := by
  intro a i ha h
  have hle := search_drop_le ha h
  omega

theorem near_of_front {c : UInt8} {front last : ByteString} (hfront : front.length < 2 ^ 31)
    (hlast : c ∉ last) : Near [c] (front ++ last) := by
  intro a i ha h
  have hat := Search.getElem?_of_search h
  rw [List.getElem?_drop] at hat
  by_contra hfar
  rw [List.length_singleton] at hfar
  rw [List.getElem?_append_right (by omega)] at hat
  exact hlast (List.mem_of_getElem? hat)

theorem substr_last {a : ℕ} (hs : s.length < 2 ^ 63) (ha : a ≤ s.length) (hint : a < 2 ^ 31) :
    substr s (intToSize (sizeToInt a)) (intToSize (-1 - sizeToInt a)) = .ok (s.drop a) := by
  rw [intToSize_sizeToInt hint, intToSize_neg_one_sub hint]
  exact substr_rest ha (by omega)

theorem substr_piece {a i : ℕ} (ha : a + i ≤ s.length) (hint : a + i < 2 ^ 31) :
    substr s (intToSize (sizeToInt a)) (intToSize (sizeToInt (a + i) - sizeToInt a)) =
      .ok ((s.drop a).take i) := by
  have hcount : a + i - a = i := by omega
  rw [intToSize_sizeToInt (by omega), intToSize_sub (by omega) hint, hcount]
  exact substr_of_le i (by omega)

/-- One round of the loop consumes the piece and the delimiter; the induction is
on the fuel, which bounds the bytes that are left. -/
theorem splitLoop_eq (hs : s.length < 2 ^ 63) (hnear : Near d s) (hd : d ≠ []) (fuel : ℕ) {a : ℕ}
    (ha : a ≤ s.length) (hint : a < 2 ^ 31) (hfuel : s.length - a < fuel) :
    splitLoop s d fuel (sizeToInt a) (sizeToInt (find s d a)) =
      .ok (Search.splitOn d (s.drop a)) := by
  induction fuel generalizing a with
  | zero => omega
  | succ fuel ih =>
    cases h : Search.search d (s.drop a) with
    | none =>
      rw [splitLoop, find_of_search_none h, sizeToInt_npos, substr_last hs ha hint,
        Search.splitOn_of_search_none h]
      simp
    | some i =>
      have hle := search_drop_le ha h
      have hsmall := hnear a i ha h
      have hpos := List.length_pos_of_ne_nil hd
      have hne : sizeToInt (a + i) ≠ -1 := sizeToInt_ne_neg_one (by omega)
      have hdrop : (s.drop a).drop (i + d.length) = s.drop (a + i + d.length) := by
        rw [List.drop_drop, Nat.add_assoc]
      have hrest := ih (a := a + i + d.length) hle hsmall (by omega)
      rw [splitLoop, find_of_search_some ha h, substr_piece (by omega) (by omega),
        Search.splitOn_of_search_some hd h, hdrop]
      simp only [ok_bind, if_pos hne, intToSize_sizeToInt (show a + i < 2 ^ 31 by omega),
        intToSize_sizeToInt hsmall, hrest, pure_eq_ok]

theorem split_of_near (hs : s.length < 2 ^ 63) (hnear : Near d s) (hd : d ≠ []) :
    split s d = .ok (Search.splitOn d s) :=
  splitLoop_eq hs hnear hd (s.length + 1) (Nat.zero_le _) (by decide) (by omega)

theorem split_eq (hs : s.length < 2 ^ 31) (hd : d ≠ []) :
    split s d = .ok (Search.splitOn d s) :=
  split_of_near (by omega) (near_of_short hs) hd

theorem splitToIntsLoop_mapM (hs : s.length < 2 ^ 31) (hd : d ≠ []) (fuel : ℕ) {a : ℕ}
    (ha : a ≤ s.length) (hfuel : s.length - a < fuel) :
    splitToIntsLoop s d fuel (sizeToInt a) (sizeToInt (find s d a)) =
      ((Search.splitOn d (s.drop a)).mapM stoi).map (List.map intToSize) := by
  induction fuel generalizing a with
  | zero => omega
  | succ fuel ih =>
    cases h : Search.search d (s.drop a) with
    | none =>
      rw [splitToIntsLoop, find_of_search_none h, sizeToInt_npos,
        substr_last (by omega) ha (by omega),
        Search.splitOn_of_search_none h, List.mapM_cons, List.mapM_nil, ok_bind]
      cases stoi (s.drop a) with
      | error e => rfl
      | ok n => rfl
    | some i =>
      have hle := search_drop_le ha h
      have hpos := List.length_pos_of_ne_nil hd
      have hne : sizeToInt (a + i) ≠ -1 := sizeToInt_ne_neg_one (by omega)
      have hdrop : (s.drop a).drop (i + d.length) = s.drop (a + i + d.length) := by
        rw [List.drop_drop, Nat.add_assoc]
      have hrest := ih (a := a + i + d.length) hle (by omega)
      rw [splitToIntsLoop, find_of_search_some ha h, substr_piece (by omega) (by omega),
        Search.splitOn_of_search_some hd h, hdrop, List.mapM_cons, ok_bind]
      cases stoi ((s.drop a).take i) with
      | error e => rfl
      | ok n =>
        rw [ok_bind, ok_bind, if_pos hne, intToSize_sizeToInt (show a + i < 2 ^ 31 by omega)]
        dsimp only
        rw [intToSize_sizeToInt (show a + i + d.length < 2 ^ 31 by omega), hrest]
        cases (Search.splitOn d (s.drop (a + i + d.length))).mapM stoi with
        | error e => rfl
        | ok vals => rfl

theorem mapM_stoi_error {pieces : List ByteString} {e : Stop} (h : pieces.mapM stoi = .error e) :
    e = .invalidArgument ∨ e = .outOfRange := by
  induction pieces with
  | nil => cases h
  | cons piece pieces ih =>
    rw [List.mapM_cons] at h
    cases hpiece : stoi piece with
    | error e' =>
      rw [hpiece] at h
      cases h
      exact stoi_error hpiece
    | ok n =>
      rw [hpiece, ok_bind] at h
      cases hrest : pieces.mapM stoi with
      | error e' =>
        rw [hrest] at h
        cases h
        exact ih hrest
      | ok vals =>
        rw [hrest] at h
        cases h

theorem splitToInts_cases (hs : s.length < 2 ^ 31) (hd : d ≠ []) :
    (∃ vals : List Int32, (Search.splitOn d s).map stoi = vals.map .ok ∧
        splitToInts s d = .ok (vals.map intToSize)) ∨
      ((¬∃ vals : List Int32, (Search.splitOn d s).map stoi = vals.map .ok) ∧
        splitToInts s d = .ok []) := by
  have hzero : sizeToInt 0 = 0 := by decide
  have hloop := splitToIntsLoop_mapM hs hd (s.length + 1) (Nat.zero_le _) (by omega)
  rw [hzero, List.drop_zero] at hloop
  rw [splitToInts, hloop]
  simp only [← mapM_eq_ok_iff]
  cases hvals : (Search.splitOn d s).mapM stoi with
  | error e =>
    refine Or.inr ⟨by simp, ?_⟩
    rcases mapM_stoi_error hvals with rfl | rfl
    · rfl
    · rfl
  | ok vals => exact Or.inl ⟨vals, rfl, rfl⟩

theorem splitToInts_eq (hs : s.length < 2 ^ 31) (hd : d ≠ []) {vals : List Int32}
    (hvals : (Search.splitOn d s).map stoi = vals.map .ok) :
    splitToInts s d = .ok (vals.map intToSize) := by
  rcases splitToInts_cases hs hd with ⟨vals', hvals', h⟩ | ⟨hnone, -⟩
  · have hsame : vals' = vals :=
      List.map_injective_iff.mpr (fun _ _ => Except.ok.inj) (hvals'.symm.trans hvals)
    rw [← hsame]
    exact h
  · exact absurd ⟨vals, hvals⟩ hnone

theorem splitFirst_of_near (hs : s.length < 2 ^ 63)
    (hnear : ∀ i, Search.search d s = some i → i + d.length < 2 ^ 31) :
    splitFirst s d = .ok (Search.cutFirst d s) := by
  by_cases hnil : s = []
  · subst hnil
    by_cases hd : d = [] <;> simp [splitFirst, Search.cutFirst, Search.search, hd]
  · cases h : Search.search d s with
    | none =>
      have hfind : find s d 0 = npos := find_of_search_none (by simpa using h)
      simp [splitFirst, hnil, hfind, Search.cutFirst, h]
    | some i =>
      have hle := Search.search_le h
      have hsmall := hnear i h
      have hfind : find s d 0 = i := by
        simpa using find_of_search_some (a := 0) (Nat.zero_le _) (by simpa using h)
      have hnpos : i ≠ npos := by
        simp only [npos]
        omega
      have hcount : (s.length + 2 ^ 64 - (i + d.length)) % 2 ^ 64 = s.length - (i + d.length) := by
        omega
      simp only [splitFirst, if_neg hnil, hfind, if_neg hnpos, Search.cutFirst, h,
        intToSize_sizeToInt hsmall, hcount]
      rw [substr_of_le i (Nat.zero_le _), ok_bind, substr_rest hle (by omega)]
      simp

theorem splitFirst_append_cons {c : UInt8} {front rest : ByteString}
    (hlen : (front ++ c :: rest).length < 2 ^ 63) (hfront : front.length + 1 < 2 ^ 31)
    (h : c ∉ front) : splitFirst (front ++ c :: rest) [c] = .ok (front, rest) := by
  rw [splitFirst_of_near hlen, Search.cutFirst_append_cons rest h]
  intro i hi
  rw [Search.search_append_cons rest h] at hi
  obtain rfl := Option.some.inj hi
  exact hfront

theorem splitFirst_eq (hs : s.length < 2 ^ 31) : splitFirst s d = .ok (Search.cutFirst d s) := by
  refine splitFirst_of_near (by omega) fun i h => ?_
  have hle := Search.search_le h
  omega

end Short

theorem splitAt_of_le {s : ByteString} {n : ℕ} (h : n ≤ s.length) :
    splitAt s n = .ok (s.take n, s.drop n) := by
  rw [splitAt, substr_of_le n (Nat.zero_le _), ok_bind, substr_rest h (by omega)]
  simp

end Skype.StringUtils
