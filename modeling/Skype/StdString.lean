import Skype.Library.Search
import Skype.Library.Decimal

/-!
# `std::string`, `std::stoi` and the conversions between `int` and `size_t`

A `std::string` is its bytes. The string helpers of the program keep positions
in an `int` and pass them to functions that take a `size_t`, so both
conversions are explicit here: `sizeToInt` keeps the low 32 bits and `intToSize`
sign-extends to 64. A call that does not return normally is an `Except.error`.
-/

namespace Skype

open Library

abbrev ByteString := List UInt8

def str (s : String) : ByteString := s.toList.map fun c => UInt8.ofNat c.toNat

abbrev comma : UInt8 := 44
abbrev colon : UInt8 := 58
abbrev space : UInt8 := 32

/-- Why a call does not return: a standard exception, a loop that never ends, a
datagram that has not come, or behaviour the language leaves undefined. -/
inductive Stop
  | outOfRange
  | invalidArgument
  | lengthError
  | endless
  | waiting
  | undefined
  deriving DecidableEq, Repr

abbrev Exec := Except Stop

@[simp] theorem ok_bind {α β : Type} (a : α) (f : α → Exec β) :
    ((Except.ok a : Exec α) >>= f) = f a := rfl

@[simp] theorem error_bind {α β : Type} (e : Stop) (f : α → Exec β) :
    ((Except.error e : Exec α) >>= f) = .error e := rfl

@[simp] theorem pure_eq_ok {α : Type} (a : α) : (pure a : Exec α) = .ok a := rfl

theorem bind_eq_ok {α β : Type} {x : Exec α} {f : α → Exec β} {b : β} :
    x >>= f = .ok b ↔ ∃ a, x = .ok a ∧ f a = .ok b := by
  cases x with
  | error e => simp
  | ok a => simp

theorem mapM_eq_ok_iff {α β : Type} {f : α → Exec β} {as : List α} {bs : List β} :
    as.mapM f = .ok bs ↔ as.map f = bs.map .ok := by
  induction as generalizing bs with
  | nil =>
    rw [List.mapM_nil, pure_eq_ok, Except.ok.injEq, eq_comm]
    cases bs with
    | nil => simp
    | cons b bs => simp
  | cons a as ih =>
    rw [List.mapM_cons, bind_eq_ok]
    cases bs with
    | nil => simp [bind_eq_ok]
    | cons b bs =>
      simp only [bind_eq_ok, pure_eq_ok, Except.ok.injEq, List.cons.injEq, List.map_cons]
      constructor
      · rintro ⟨b', hb, bs', hbs, rfl, rfl⟩
        exact ⟨hb, ih.mp hbs⟩
      · rintro ⟨hb, hbs⟩
        exact ⟨b, hb, bs, ih.mpr hbs, rfl, rfl⟩

theorem mapM_returns_iff {α β : Type} {f : α → Exec β} {as : List α} :
    (∃ bs, as.mapM f = .ok bs) ↔ ∀ a ∈ as, ∃ b, f a = .ok b := by
  induction as with
  | nil => simp
  | cons a as ih =>
    rw [List.forall_mem_cons, ← ih, List.mapM_cons]
    simp only [bind_eq_ok, pure_eq_ok, Except.ok.injEq]
    constructor
    · rintro ⟨-, b, hb, bs, hbs, -⟩
      exact ⟨⟨b, hb⟩, bs, hbs⟩
    · rintro ⟨⟨b, hb⟩, bs, hbs⟩
      exact ⟨b :: bs, b, hb, bs, hbs, rfl⟩

/-- `catch (...)` catches the exceptions; a loop that never ends is not one. -/
def catchAll {α : Type} (body : Exec α) (handler : Exec α) : Exec α :=
  match body with
  | .error .endless => .error .endless
  | .error .waiting => .error .waiting
  | .error .undefined => .error .undefined
  | .error _ => handler
  | .ok a => .ok a

@[simp] theorem catchAll_ok {α : Type} (a : α) (handler : Exec α) :
    catchAll (.ok a) handler = .ok a := rfl

def npos : ℕ := 2 ^ 64 - 1

def sizeToInt (n : ℕ) : Int32 := Int32.ofNat n

def intToSize (i : Int32) : ℕ := (i.toInt % 2 ^ 64).toNat

def find (s d : ByteString) (pos : ℕ) : ℕ :=
  if pos ≤ s.length then
    match Search.search d (s.drop pos) with
    | some i => pos + i
    | none => npos
  else npos

def substr (s : ByteString) (pos count : ℕ) : Exec ByteString :=
  if pos ≤ s.length then .ok ((s.drop pos).take count) else .error .outOfRange

def popBack (s : ByteString) : Exec ByteString :=
  if s = [] then .error .undefined else .ok s.dropLast

def stoi (s : ByteString) : Exec Int32 :=
  match Decimal.scanInt s with
  | none => .error .invalidArgument
  | some z => if -2 ^ 31 ≤ z ∧ z < 2 ^ 31 then .ok (Int32.ofInt z) else .error .outOfRange

theorem stoi_error {s : ByteString} {e : Stop} (h : stoi s = .error e) :
    e = .invalidArgument ∨ e = .outOfRange := by
  unfold stoi at h
  split at h
  · exact Or.inl (Except.error.inj h).symm
  · split at h
    · cases h
    · exact Or.inr (Except.error.inj h).symm

def vecAt {α : Type} (v : List α) (i : ℕ) : Exec α :=
  match v[i]? with
  | some a => .ok a
  | none => .error .outOfRange

def intToString (i : Int32) : ByteString := Decimal.printInt i.toInt

def sizeToString (n : ℕ) : ByteString := Decimal.print n

theorem toInt_sizeToInt {n : ℕ} (h : n < 2 ^ 31) : (sizeToInt n).toInt = n :=
  Int32.toInt_ofNat_of_lt h

theorem intToSize_sizeToInt {n : ℕ} (h : n < 2 ^ 31) : intToSize (sizeToInt n) = n := by
  rw [intToSize, toInt_sizeToInt h]
  omega

theorem nonneg_iff_toInt {n : Int32} : 0 ≤ n ↔ 0 ≤ n.toInt := by
  rw [Int32.le_iff_toInt_le, Int32.toInt_zero]

theorem sizeToInt_nonneg {n : ℕ} (h : n < 2 ^ 31) : 0 ≤ sizeToInt n := by
  rw [nonneg_iff_toInt, toInt_sizeToInt h]
  omega

theorem sizeToInt_toNat {n : Int32} (h : 0 ≤ n) : sizeToInt n.toInt.toNat = n := by
  have hpos := nonneg_iff_toInt.mp h
  have hlt := n.toInt_lt
  apply Int32.toInt_inj.mp
  rw [toInt_sizeToInt (by omega)]
  omega

theorem sizeToInt_npos : sizeToInt npos = -1 := by decide

theorem sizeToInt_ne_neg_one {n : ℕ} (h : n < 2 ^ 31) : sizeToInt n ≠ -1 := by
  intro he
  have hv := congrArg Int32.toInt he
  rw [toInt_sizeToInt h] at hv
  have hneg : (-1 : Int32).toInt = -1 := by decide
  omega

theorem intToSize_sub {a b : ℕ} (hab : a ≤ b) (hb : b < 2 ^ 31) :
    intToSize (sizeToInt b - sizeToInt a) = b - a := by
  have hsub : (sizeToInt b - sizeToInt a).toInt = (b : ℤ) - a := by
    rw [Int32.toInt_sub, toInt_sizeToInt hb, toInt_sizeToInt (hab.trans_lt hb)]
    exact Int.bmod_eq_of_le (by omega) (by omega)
  rw [intToSize, hsub]
  omega

theorem intToSize_neg_one_sub {a : ℕ} (h : a < 2 ^ 31) :
    intToSize (-1 - sizeToInt a) = 2 ^ 64 - 1 - a := by
  have hneg : (-1 : Int32).toInt = -1 := by decide
  have hsub : (-1 - sizeToInt a).toInt = -1 - (a : ℤ) := by
    rw [Int32.toInt_sub, hneg, toInt_sizeToInt h]
    exact Int.bmod_eq_of_le (by omega) (by omega)
  rw [intToSize, hsub]
  omega

theorem stoi_of_scanInt {s : ByteString} {z : ℤ} (hs : Decimal.scanInt s = some z)
    (hlo : -2 ^ 31 ≤ z) (hhi : z < 2 ^ 31) : stoi s = .ok (Int32.ofInt z) := by
  simp only [stoi, hs]
  rw [if_pos ⟨hlo, hhi⟩]

theorem stoi_intToString (i : Int32) : stoi (intToString i) = .ok i := by
  have h := stoi_of_scanInt (Decimal.scanInt_printInt i.toInt) i.le_toInt i.toInt_lt
  rwa [Int32.ofInt_toInt] at h

theorem stoi_sizeToString {n : ℕ} (h : n < 2 ^ 31) : stoi (sizeToString n) = .ok (sizeToInt n) := by
  have hs := stoi_of_scanInt (Decimal.scanInt_print n) (by omega) (by omega)
  rwa [Int32.ofInt_eq_ofNat] at hs

theorem substr_of_le {s : ByteString} {pos : ℕ} (count : ℕ) (h : pos ≤ s.length) :
    substr s pos count = .ok ((s.drop pos).take count) := if_pos h

theorem substr_rest {s : ByteString} {pos count : ℕ} (h : pos ≤ s.length)
    (hc : s.length ≤ pos + count) : substr s pos count = .ok (s.drop pos) := by
  rw [substr_of_le count h, List.take_of_length_le]
  simp only [List.length_drop]
  omega

end Skype
