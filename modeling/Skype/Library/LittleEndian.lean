import Mathlib

/-!
# Little-endian byte lists

`encode w n` is the `w` low bytes of `n`, least significant first, and `decode`
is the number that a byte list stands for.
-/

namespace Library.LittleEndian

def encode : ℕ → ℕ → List UInt8
  | 0, _ => []
  | w + 1, n => UInt8.ofNat n :: encode w (n / 256)

def decode : List UInt8 → ℕ
  | [] => 0
  | b :: bs => b.toNat + 256 * decode bs

@[simp] theorem length_encode (w n : ℕ) : (encode w n).length = w := by
  induction w generalizing n with
  | zero => rfl
  | succ w ih => simp [encode, ih]

theorem decode_encode {w n : ℕ} (h : n < 256 ^ w) : decode (encode w n) = n := by
  induction w generalizing n with
  | zero =>
    simp only [pow_zero] at h
    simp only [encode, decode]
    omega
  | succ w ih =>
    have hdiv : n / 256 < 256 ^ w := by
      rw [pow_succ] at h
      omega
    simp only [encode, decode, ih hdiv, UInt8.toNat_ofNat']
    omega

end Library.LittleEndian
