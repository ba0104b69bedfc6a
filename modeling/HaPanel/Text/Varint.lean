import HaPanel.Text.Bytes
import Mathlib.Tactic.Ring

/-!
# Numbers of variable length

Groups of seven bits, the least significant group first, one group a byte; the highest bit of a
byte says that another one follows.  `IsVarint` admits leading zero groups, which a sender may
write and `varint` does not.
-/

namespace HaPanel

namespace Text

/-- All bytes but the last have the continuation bit. -/
inductive IsVarint : Bytes → Prop where
  | last {b : UInt8} (h : b.toNat < 128) : IsVarint [b]
  | more {b : UInt8} {bs : Bytes} (h : 128 ≤ b.toNat) (hbs : IsVarint bs) : IsVarint (b :: bs)

/-- The number the groups denote. -/
def ofVarint : Bytes → ℕ
  | [] => 0
  | b :: bs => b.toNat % 128 + 128 * ofVarint bs

/-- The shortest encoding of a number. -/
def varint (n : ℕ) : Bytes :=
  if h : n < 128 then [UInt8.ofNat n]
  else UInt8.ofNat (n % 128 + 128) :: varint (n / 128)
termination_by n
decreasing_by omega

theorem IsVarint.ne_nil {bs : Bytes} (h : IsVarint bs) : bs ≠ [] := by
  cases h <;> simp

theorem varint_of_lt {n : ℕ} (h : n < 128) : varint n = [UInt8.ofNat n] := by
  rw [varint, dif_pos h]

theorem varint_of_ge {n : ℕ} (h : 128 ≤ n) :
    varint n = UInt8.ofNat (n % 128 + 128) :: varint (n / 128) := by
  rw [varint, dif_neg (by omega)]

theorem isVarint_varint (n : ℕ) : IsVarint (varint n) := by
  induction n using Nat.strongRecOn with
  | ind n ih =>
    by_cases h : n < 128
    · rw [varint_of_lt h]
      exact .last (by rw [UInt8.toNat_ofNat']; omega)
    · rw [varint_of_ge (by omega)]
      exact .more (by rw [UInt8.toNat_ofNat']; omega) (ih (n / 128) (by omega))

/-- The encoding of a number denotes it. -/
theorem ofVarint_varint (n : ℕ) : ofVarint (varint n) = n := by
  induction n using Nat.strongRecOn with
  | ind n ih =>
    by_cases h : n < 128
    · rw [varint_of_lt h, ofVarint, ofVarint, UInt8.toNat_ofNat']
      omega
    · rw [varint_of_ge (by omega), ofVarint, ih (n / 128) (by omega), UInt8.toNat_ofNat']
      omega

theorem ofVarint_lt (bs : Bytes) : ofVarint bs < 128 ^ bs.length := by
  induction bs with
  | nil => simp [ofVarint]
  | cons b bs ih =>
    have hgroup := Nat.mod_lt b.toNat (by decide : 0 < 128)
    rw [ofVarint, List.length_cons, pow_succ]
    omega

theorem length_varint_le {n k : ℕ} (h : n < 128 ^ (k + 1)) : (varint n).length ≤ k + 1 := by
  induction k generalizing n with
  | zero => rw [varint_of_lt (by simpa using h), List.length_singleton]
  | succ k ih =>
    by_cases hn : n < 128
    · rw [varint_of_lt hn, List.length_singleton]
      omega
    · have hdiv : n / 128 < 128 ^ (k + 1) := by
        rw [Nat.div_lt_iff_lt_mul (by decide), ← pow_succ]
        exact h
      rw [varint_of_ge (by omega), List.length_cons]
      exact Nat.succ_le_succ (ih hdiv)

end Text

end HaPanel
