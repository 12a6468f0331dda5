import Mathlib

/-!
# Decimal numbers in ASCII

Printing of natural numbers and integers as digit bytes, and the reading of the
longest numeric prefix of a byte list: leading white space, one optional sign,
then at least one digit. Reading what was printed gives the number back, with
any non-digit text behind it and any zero padding before it.
-/

namespace Library.Decimal

def isDigit (b : UInt8) : Bool := 48 ≤ b && b ≤ 57

def isSpace (b : UInt8) : Bool := b == 32 || (9 ≤ b && b ≤ 13)

def digitByte (d : ℕ) : UInt8 := UInt8.ofNat (48 + d)

def value (ds : List UInt8) : ℕ := ds.foldl (fun acc b => 10 * acc + (b.toNat - 48)) 0

def print (n : ℕ) : List UInt8 :=
  if n = 0 then [48] else (Nat.digits 10 n).reverse.map digitByte

def printInt (z : ℤ) : List UInt8 :=
  if z < 0 then 45 :: print z.natAbs else print z.natAbs

def scanNat (s : List UInt8) : Option ℕ :=
  let ds := s.takeWhile isDigit
  if ds = [] then none else some (value ds)

def scanInt (s : List UInt8) : Option ℤ :=
  match s.dropWhile isSpace with
  | 45 :: t => (scanNat t).map fun n : ℕ => -(n : ℤ)
  | 43 :: t => (scanNat t).map fun n : ℕ => (n : ℤ)
  | t => (scanNat t).map fun n : ℕ => (n : ℤ)

theorem toNat_digitByte {d : ℕ} (h : d < 10) : (digitByte d).toNat = 48 + d := by
  simp only [digitByte, UInt8.toNat_ofNat']
  omega

theorem isDigit_iff (b : UInt8) : isDigit b = true ↔ 48 ≤ b.toNat ∧ b.toNat ≤ 57 := by
  simp [isDigit, UInt8.le_iff_toNat_le]

theorem isDigit_digitByte {d : ℕ} (h : d < 10) : isDigit (digitByte d) = true := by
  rw [isDigit_iff, toNat_digitByte h]
  omega

theorem value_append_singleton (ds : List UInt8) (b : UInt8) :
    value (ds ++ [b]) = 10 * value ds + (b.toNat - 48) := by
  simp [value, List.foldl_append]

theorem value_lt {ds : List UInt8} (h : ∀ b ∈ ds, isDigit b = true) :
    value ds < 10 ^ ds.length := by
  induction ds using List.reverseRecOn with
  | nil => exact Nat.one_pos
  | append_singleton ds b ih =>
    have hds := ih fun c hc => h c (List.mem_append_left _ hc)
    have hb := (isDigit_iff b).mp (h b (List.mem_append_right _ (List.mem_singleton_self b)))
    rw [value_append_singleton, List.length_append, List.length_singleton, Nat.pow_succ]
    omega

theorem value_cons_zero (ds : List UInt8) : value (48 :: ds) = value ds := by
  simp [value]

theorem value_replicate_zero_append (k : ℕ) (ds : List UInt8) :
    value (List.replicate k 48 ++ ds) = value ds := by
  induction k with
  | zero => rfl
  | succ k ih => rw [List.replicate_succ, List.cons_append, value_cons_zero, ih]

theorem value_reverse_map_digitByte {ds : List ℕ} (h : ∀ d ∈ ds, d < 10) :
    value (ds.reverse.map digitByte) = Nat.ofDigits 10 ds := by
  induction ds with
  | nil => rfl
  | cons d ds ih =>
    have hd := toNat_digitByte (h d List.mem_cons_self)
    have hds := ih fun e he => h e (List.mem_cons_of_mem _ he)
    rw [List.reverse_cons, List.map_append, List.map_singleton, value_append_singleton, hds, hd,
      Nat.ofDigits_cons]
    omega

theorem value_print (n : ℕ) : value (print n) = n := by
  by_cases hn : n = 0
  · simp [print, hn, value]
  · have hlt : ∀ d ∈ Nat.digits 10 n, d < 10 := fun d hd => Nat.digits_lt_base (by omega) hd
    rw [print, if_neg hn, value_reverse_map_digitByte hlt, Nat.ofDigits_digits]

theorem isDigit_of_mem_print {n : ℕ} {b : UInt8} (h : b ∈ print n) : isDigit b = true := by
  by_cases hn : n = 0
  · simp only [print, if_pos hn, List.mem_singleton] at h
    subst h
    decide
  · simp only [print, if_neg hn, List.mem_map, List.mem_reverse] at h
    obtain ⟨d, hd, rfl⟩ := h
    exact isDigit_digitByte (Nat.digits_lt_base (by omega) hd)

theorem print_ne_nil (n : ℕ) : print n ≠ [] := by
  by_cases hn : n = 0
  · simp [print, hn]
  · simp [print, hn, Nat.digits_ne_nil_iff_ne_zero.mpr hn]

theorem length_print_le {n k : ℕ} (hk : 0 < k) (h : n < 10 ^ k) : (print n).length ≤ k := by
  by_cases hn : n = 0
  · simp only [print, if_pos hn, List.length_singleton]
    omega
  · rw [print, if_neg hn, List.length_map, List.length_reverse]
    exact (Nat.digits_length_le_iff (by omega) n).mpr h

theorem notMem_print {n : ℕ} {b : UInt8} (hb : isDigit b = false) : b ∉ print n := by
  intro h
  rw [isDigit_of_mem_print h] at hb
  exact Bool.noConfusion hb

theorem notMem_printInt {z : ℤ} {b : UInt8} (hb : isDigit b = false) (hm : b ≠ 45) :
    b ∉ printInt z := by
  by_cases hz : z < 0
  · simp [printInt, hz, hm, notMem_print hb]
  · simpa [printInt, hz] using notMem_print hb

theorem takeWhile_isDigit_append {ds t : List UInt8} (hds : ∀ b ∈ ds, isDigit b = true)
    (ht : ∀ b ∈ t.head?, isDigit b = false) :
    (ds ++ t).takeWhile isDigit = ds := by
  rw [List.takeWhile_append_of_pos hds]
  cases t with
  | nil => simp
  | cons b t =>
    have hb := ht b (by simp)
    simp [hb]

theorem scanNat_append {ds t : List UInt8} (hne : ds ≠ [])
    (hds : ∀ b ∈ ds, isDigit b = true) (ht : ∀ b ∈ t.head?, isDigit b = false) :
    scanNat (ds ++ t) = some (value ds) := by
  simp [scanNat, takeWhile_isDigit_append hds ht, hne]

theorem scanInt_of_digit {b : UInt8} (s : List UInt8) (hb : isDigit b = true) :
    scanInt (b :: s) = (scanNat (b :: s)).map fun n : ℕ => (n : ℤ) := by
  have hr := (isDigit_iff b).mp hb
  have hspace : isSpace b = false := by
    simp only [isSpace, Bool.or_eq_false_iff, Bool.and_eq_false_imp, beq_eq_false_iff_ne, ne_eq,
      decide_eq_true_eq, decide_eq_false_iff_not, UInt8.le_iff_toNat_le, UInt8.toNat_ofNat,
      ← UInt8.toNat_inj]
    omega
  have hminus : b ≠ 45 := by rintro rfl; simp at hr
  have hplus : b ≠ 43 := by rintro rfl; simp at hr
  rw [scanInt, List.dropWhile_cons_of_neg (by simp [hspace])]
  split
  · simp_all
  · simp_all
  · rfl

theorem scanInt_append {ds t : List UInt8} (hne : ds ≠ [])
    (hds : ∀ b ∈ ds, isDigit b = true) (ht : ∀ b ∈ t.head?, isDigit b = false) :
    scanInt (ds ++ t) = some (value ds : ℤ) := by
  have hscan := scanNat_append hne hds ht
  cases ds with
  | nil => exact absurd rfl hne
  | cons b ds =>
    rw [List.cons_append] at hscan ⊢
    rw [scanInt_of_digit _ (hds b List.mem_cons_self), hscan]
    rfl

theorem scanInt_print_append (n : ℕ) {t : List UInt8}
    (ht : ∀ b ∈ t.head?, isDigit b = false) : scanInt (print n ++ t) = some (n : ℤ) := by
  rw [scanInt_append (print_ne_nil n) (fun b hb => isDigit_of_mem_print hb) ht, value_print]

theorem scanInt_print (n : ℕ) : scanInt (print n) = some (n : ℤ) := by
  simpa using scanInt_print_append n (t := []) (by simp)

theorem scanInt_printInt (z : ℤ) : scanInt (printInt z) = some z := by
  by_cases hz : z < 0
  · have hscan : scanNat (print z.natAbs) = some z.natAbs := by
      have h := scanNat_append (t := []) (print_ne_nil z.natAbs)
        (fun b hb => isDigit_of_mem_print hb) (by simp)
      rwa [List.append_nil, value_print] at h
    have hspace : isSpace 45 = false := by decide
    rw [printInt, if_pos hz, scanInt, List.dropWhile_cons_of_neg (by simp [hspace])]
    simp only [hscan, Option.map_some, Option.some.injEq]
    omega
  · rw [printInt, if_neg hz, scanInt_print]
    congr 1
    omega

theorem printInt_inj {a b : ℤ} (h : printInt a = printInt b) : a = b := by
  have hscan := congrArg scanInt h
  rw [scanInt_printInt, scanInt_printInt] at hscan
  exact Option.some.inj hscan

theorem scanInt_padded (k n : ℕ) : scanInt (List.replicate k 48 ++ print n) = some (n : ℤ) := by
  have hne : List.replicate k 48 ++ print n ≠ [] := by simp [print_ne_nil]
  have hds : ∀ b ∈ List.replicate k 48 ++ print n, isDigit b = true := by
    intro b hb
    rcases List.mem_append.mp hb with hb | hb
    · rw [List.eq_of_mem_replicate hb]
      decide
    · exact isDigit_of_mem_print hb
  have h := scanInt_append (t := []) hne hds (by simp)
  rwa [List.append_nil, value_replicate_zero_append, value_print] at h

theorem eq_of_value_eq {a b : List UInt8} (ha : ∀ c ∈ a, isDigit c = true)
    (hb : ∀ c ∈ b, isDigit c = true) (hlength : a.length = b.length) (h : value a = value b) :
    a = b := by
  induction a using List.reverseRecOn generalizing b with
  | nil => exact (List.eq_nil_of_length_eq_zero hlength.symm).symm
  | append_singleton a x ih =>
    rcases List.eq_nil_or_concat b with rfl | ⟨b, y, rfl⟩
    · simp at hlength
    · rw [List.concat_eq_append] at hb hlength h ⊢
      have hx := (isDigit_iff x).mp (ha x (by simp))
      have hy := (isDigit_iff y).mp (hb y (by simp))
      rw [value_append_singleton, value_append_singleton] at h
      have hfront : a = b := by
        apply ih (fun c hc => ha c (List.mem_append_left _ hc))
          (fun c hc => hb c (List.mem_append_left _ hc))
        · simpa using hlength
        · omega
      have hlast : x = y := UInt8.toNat_inj.mp (by omega)
      rw [hfront, hlast]

end Library.Decimal
