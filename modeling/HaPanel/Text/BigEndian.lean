import HaPanel.Text.Bytes
import Mathlib.Tactic.Ring

/-!
# Numbers in network byte order

`bigEndian w n` are the `w` bytes of `n`, the most significant first, and `ofBigEndian` is the
number a byte string denotes.  `shiftIn` computes it as C code does, in an unsigned integer of 64
bits.
-/

namespace HaPanel

namespace Text

/-- The lowest `w` bytes of `n`, the most significant first. -/
def bigEndian : ℕ → ℕ → Bytes
  | 0, _ => []
  | w + 1, n => UInt8.ofNat (n / 256 ^ w) :: bigEndian w n

/-- The number a byte string denotes. -/
def ofBigEndian (bs : Bytes) : ℕ := bs.foldl (fun n b => 256 * n + b.toNat) 0

/-- Shift bytes into an unsigned integer of 64 bits: `n = (n << 8) | b`. -/
def shiftIn (bs : Bytes) : ℕ := bs.foldl (fun n b => (n <<< 8 % 2 ^ 64) ||| b.toNat) 0

@[simp] theorem length_bigEndian (w n : ℕ) : (bigEndian w n).length = w := by
  induction w with
  | zero => rfl
  | succ w ih => simp [bigEndian, ih]

theorem foldl_bigEndian (w n m : ℕ) :
    (bigEndian w n).foldl (fun n b => 256 * n + b.toNat) m = m * 256 ^ w + n % 256 ^ w := by
  induction w generalizing m with
  | zero => simp [bigEndian, Nat.mod_one]
  | succ w ih =>
    have hdigit : n % 256 ^ (w + 1) = n % 256 ^ w + 256 ^ w * (n / 256 ^ w % 256) := by
      rw [pow_succ, Nat.mod_mul]
    rw [bigEndian, List.foldl_cons, ih, UInt8.toNat_ofNat', hdigit]
    ring

/-- The bytes of a number denote it. -/
theorem ofBigEndian_bigEndian {w n : ℕ} (h : n < 256 ^ w) : ofBigEndian (bigEndian w n) = n := by
  rw [ofBigEndian, foldl_bigEndian, Nat.zero_mul, Nat.zero_add, Nat.mod_eq_of_lt h]

theorem ofBigEndian_concat (bs : Bytes) (b : UInt8) :
    ofBigEndian (bs ++ [b]) = 256 * ofBigEndian bs + b.toNat := by
  simp [ofBigEndian]

theorem ofBigEndian_lt (bs : Bytes) : ofBigEndian bs < 256 ^ bs.length := by
  induction bs using List.reverseRecOn with
  | nil => decide
  | append_singleton bs b ih =>
    have hb := b.toNat_lt
    rw [ofBigEndian_concat, List.length_append, List.length_singleton, pow_succ]
    omega

/-- Up to eight bytes nothing is shifted out. -/
theorem shiftIn_eq_ofBigEndian {bs : Bytes} (h : bs.length ≤ 8) :
    shiftIn bs = ofBigEndian bs := by
  induction bs using List.reverseRecOn with
  | nil => rfl
  | append_singleton bs b ih =>
    rw [List.length_append, List.length_singleton] at h
    have hlt : ofBigEndian bs < 256 ^ 7 :=
      lt_of_lt_of_le (ofBigEndian_lt bs) (Nat.pow_le_pow_right (by decide) (by omega))
    have hb : b.toNat < 2 ^ 8 := b.toNat_lt
    have hshift : ofBigEndian bs <<< 8 % 2 ^ 64 = ofBigEndian bs <<< 8 := by
      rw [Nat.shiftLeft_eq]
      exact Nat.mod_eq_of_lt (by omega)
    have hstep : shiftIn (bs ++ [b]) = (shiftIn bs <<< 8 % 2 ^ 64) ||| b.toNat := by
      simp [shiftIn]
    rw [hstep, ih (by omega), hshift, ← Nat.shiftLeft_add_eq_or_of_lt hb, ofBigEndian_concat,
      Nat.shiftLeft_eq]
    omega

end Text

end HaPanel
