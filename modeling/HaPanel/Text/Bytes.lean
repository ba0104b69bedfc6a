import Mathlib.Data.List.TakeDrop
import Mathlib.Data.List.TakeWhile
import Mathlib.Data.List.Infix
import Mathlib.Data.UInt

/-!
# Byte strings

Strings of the C and C++ standard libraries are lists of bytes.  This file has the character
classes of the "C" locale, decimal numerals, and `strtol` with its relatives.  The main lemma is
`strtol_decimalInt`: a printed integer is read back, and the text after it is left.

`long` has 64 bits and `int` 32.
-/

namespace HaPanel

namespace Text

/-- A byte string. -/
abbrev Bytes := List UInt8

/-- The byte of an ASCII character. -/
def byte (c : Char) : UInt8 := UInt8.ofNat c.toNat

/-- The UTF-8 bytes of a literal. -/
def str (s : String) : Bytes := s.toList.flatMap String.utf8EncodeChar

/-- The bytes of a literal in a form that the kernel evaluates fast. -/
theorem str_ofList (cs : List Char) : str (String.ofList cs) = cs.flatMap String.utf8EncodeChar := by
  rw [str, String.toList_ofList]

/-- A property of bytes can be checked on all 256 of them. -/
theorem forall_byte {p : UInt8 → Prop} (h : ∀ n < 256, p (UInt8.ofNat n)) (c : UInt8) : p c := by
  have := h c.toNat c.toNat_lt
  rwa [UInt8.ofNat_toNat] at this

theorem forall_mem_of_all {p : UInt8 → Prop} [DecidablePred p] {s : Bytes}
    (h : s.all (fun c => decide (p c)) = true) : ∀ c ∈ s, p c := by
  simpa using h

theorem forall_mem_of_option_all {p : UInt8 → Prop} [DecidablePred p] {o : Option UInt8}
    (h : o.all (fun c => decide (p c)) = true) : ∀ c ∈ o, p c := by
  rintro c rfl
  simpa using h

/-- Keys are plain words if this can be seen byte by byte. -/
theorem plainKeys_of_all {keys : List Bytes} {sep : Bytes} {escape : UInt8 → Bytes}
    (h : ∀ key ∈ keys, byte '"' ∉ key ∧ byte ':' ∉ key ∧ byte '\\' ∉ key ∧ sep ≠ key ∧
      key.all (fun c => decide (escape c = [c])) = true) :
    ∀ key ∈ keys, byte '"' ∉ key ∧ byte ':' ∉ key ∧ byte '\\' ∉ key ∧ sep ≠ key ∧
      ∀ c ∈ key, escape c = [c] := by
  intro key hkey
  obtain ⟨hquote, hcolon, hesc, hsep, hplain⟩ := h key hkey
  exact ⟨hquote, hcolon, hesc, hsep, forall_mem_of_all hplain⟩

/-! ### The punctuation of JSON -/

theorem quote_ne_colon : byte '"' ≠ byte ':' := by decide

theorem quote_ne_backslash : byte '"' ≠ byte '\\' := by decide

theorem quote_notMem_nil : byte '"' ∉ ([] : Bytes) := by decide

theorem quote_notMem_leftBrace : byte '"' ∉ str "\x7b" := by decide

theorem quote_notMem_rightBrace : byte '"' ∉ str "\x7d" := by decide

theorem quote_notMem_comma : byte '"' ∉ str "," := by decide

theorem colon_notMem_rightBrace : byte ':' ∉ str "\x7d" := by decide

theorem colon_notMem_comma : byte ':' ∉ str "," := by decide

/-! ### Character classes -/

def isSpace (c : UInt8) : Bool := c == byte ' ' || (9 ≤ c && c ≤ 13)

def isDigit (c : UInt8) : Bool := byte '0' ≤ c && c ≤ byte '9'

def isAlpha (c : UInt8) : Bool :=
  (byte 'a' ≤ c && c ≤ byte 'z') || (byte 'A' ≤ c && c ≤ byte 'Z')

def isAlnum (c : UInt8) : Bool := isAlpha c || isDigit c

/-- The value of a hexadecimal digit. -/
def hexDigit (c : UInt8) : Option ℕ :=
  if isDigit c then some (c.toNat - 48)
  else if byte 'a' ≤ c && c ≤ byte 'f' then some (c.toNat - 97 + 10)
  else if byte 'A' ≤ c && c ≤ byte 'F' then some (c.toNat - 65 + 10)
  else none

/-- The string that a `const char *` into `s` denotes: it ends at the first zero byte. -/
def cStr (s : Bytes) : Bytes := s.takeWhile (· ≠ 0)

theorem cStr_append {s t : Bytes} (hs : ∀ c ∈ s, c ≠ 0) :
    cStr (s ++ t) = s ++ cStr t := by
  rw [cStr, List.takeWhile_append_of_pos (by simpa using hs), cStr]

theorem zero_notMem_cStr (s : Bytes) : 0 ∉ cStr s := by
  intro h
  simpa using List.mem_takeWhile_imp h

theorem cStr_eq_self {s : Bytes} (h : 0 ∉ s) : cStr s = s := by
  rw [cStr, List.takeWhile_eq_self_iff]
  intro c hc
  exact decide_eq_true fun h0 => h (h0 ▸ hc)

/-! ### Boolean literals -/

/-- `b ? "true" : "false"`. -/
def boolLit (b : Bool) : Bytes := if b then str "true" else str "false"

theorem quote_notMem_boolLit (b : Bool) : byte '"' ∉ boolLit b := by
  cases b <;> decide

/-! ### Quoted keys -/

/-- The value ends, behind a quotation mark, with the key.  The quotation mark that opens the
value where it is written counts. -/
def LooksLike (v key : Bytes) : Prop := v = key ∨ byte '"' :: key <:+ v

instance (v key : Bytes) : Decidable (LooksLike v key) :=
  inferInstanceAs (Decidable (_ ∨ _))

/-! ### Decimal numerals -/

/-- The number a string of digits denotes. -/
def digitsValue (ds : Bytes) : ℕ := ds.foldl (fun n d => 10 * n + (d.toNat - 48)) 0

/-- The decimal numeral of a natural number. -/
def decimal (n : ℕ) : Bytes := (Nat.toDigits 10 n).map byte

/-- The decimal numeral of an integer. -/
def decimalInt (i : ℤ) : Bytes := if i < 0 then byte '-' :: decimal i.natAbs else decimal i.natAbs

theorem decimalInt_natCast (n : ℕ) : decimalInt n = decimal n := by simp [decimalInt]

/-- `v` brought into the range of a signed integer of `w` bits. -/
def clamp (w : ℕ) (v : ℤ) : ℤ := max (-2 ^ (w - 1)) (min (2 ^ (w - 1) - 1) v)

/-- An optional sign: whether it is a minus, and the rest. -/
def takeSign : Bytes → Bool × Bytes
  | [] => (false, [])
  | c :: s => if c = byte '-' then (true, s) else if c = byte '+' then (false, s) else (false, c :: s)

/-- `strtol(s, &end, 10)` on a zero-terminated string: the value and the text from `end` on.
Without a digit nothing is converted and `end` is `s`. -/
def strtol (s : Bytes) : ℤ × Bytes :=
  let t := takeSign (s.dropWhile isSpace)
  let ds := t.2.takeWhile isDigit
  if ds = [] then (0, s)
  else (clamp 64 (if t.1 then -digitsValue ds else digitsValue ds), t.2.dropWhile isDigit)

/-- `atoll`. -/
def atoll (s : Bytes) : ℤ := (strtol (cStr s)).1

/-- Conversion to `int`. -/
def toInt32 (v : ℤ) : ℤ := v.bmod (2 ^ 32)

/-- `atoi`. -/
def atoi (s : Bytes) : ℤ := toInt32 (strtol (cStr s)).1

theorem byte_toNat_of_isDigit {c : Char} (h : c.isDigit) : (byte c).toNat = c.toNat := by
  simp only [Char.isDigit, Bool.and_eq_true, decide_eq_true_eq, ge_iff_le] at h
  have h9 : c.toNat ≤ 57 := h.2
  rw [byte, UInt8.toNat_ofNat']
  omega

theorem isDigit_zero : isDigit 0 = false := rfl

theorem isDigit_of_mem_decimal {n : ℕ} {d : UInt8} (h : d ∈ decimal n) : isDigit d = true := by
  obtain ⟨c, hc, rfl⟩ := List.mem_map.1 h
  have hd := Nat.isDigit_of_mem_toDigits (by decide) (by decide) hc
  have hn := byte_toNat_of_isDigit hd
  simp only [Char.isDigit, Bool.and_eq_true, decide_eq_true_eq, ge_iff_le] at hd
  have h0 : 48 ≤ c.toNat := hd.1
  have h9 : c.toNat ≤ 57 := hd.2
  simp only [isDigit, Bool.and_eq_true, decide_eq_true_eq, UInt8.le_iff_toNat_le, hn]
  exact ⟨h0, h9⟩

theorem digitsValue_decimal (n : ℕ) : digitsValue (decimal n) = n := by
  have h := Nat.ofDigitChars_ten_toDigits (n := n)
  rw [Nat.ofDigitChars_eq_foldl] at h
  rw [digitsValue, decimal, List.foldl_map]
  conv_rhs => rw [← h]
  refine List.foldl_ext _ _ _ fun a c hc => ?_
  rw [byte_toNat_of_isDigit (Nat.isDigit_of_mem_toDigits (by decide) (by decide) hc)]
  rfl

theorem decimal_ne_nil (n : ℕ) : decimal n ≠ [] := by
  simp [decimal, Nat.toDigits_ne_nil]

theorem notMem_decimal {c : UInt8} (hc : isDigit c = false) (n : ℕ) : c ∉ decimal n := by
  intro h
  rw [isDigit_of_mem_decimal h] at hc
  cases hc

theorem cStr_decimal (n : ℕ) : cStr (decimal n) = decimal n :=
  cStr_eq_self (notMem_decimal isDigit_zero n)

theorem decimal_injective : Function.Injective decimal := by
  intro m n h
  rw [← digitsValue_decimal m, h, digitsValue_decimal]

theorem notMem_decimalInt {c : UInt8} (hc : isDigit c = false) (hm : c ≠ byte '-') (i : ℤ) :
    c ∉ decimalInt i := by
  unfold decimalInt
  split_ifs <;> simp [notMem_decimal hc, hm]

/-- Digits followed by something else: where the digits end. -/
theorem span_decimal (n : ℕ) {s : Bytes} (hs : ∀ c, s.head? = some c → isDigit c = false) :
    (decimal n ++ s).takeWhile isDigit = decimal n ∧ (decimal n ++ s).dropWhile isDigit = s := by
  have hd : ∀ d ∈ decimal n, isDigit d = true := fun d hd => isDigit_of_mem_decimal hd
  rw [List.takeWhile_append_of_pos hd, List.dropWhile_append_of_pos hd]
  cases s with
  | nil => simp
  | cons c s => simp [hs c rfl]

theorem clamp_of_mem {w : ℕ} {v : ℤ} (h₁ : -2 ^ (w - 1) ≤ v) (h₂ : v < 2 ^ (w - 1)) :
    clamp w v = v := by
  unfold clamp; omega

/-- A numeral starts with no space. -/
theorem dropWhile_isSpace_decimalInt (i : ℤ) (s : Bytes) :
    (decimalInt i ++ s).dropWhile isSpace = decimalInt i ++ s := by
  have hne := decimal_ne_nil i.natAbs
  unfold decimalInt
  split_ifs
  · rfl
  · cases hd : decimal i.natAbs with
    | nil => exact absurd hd hne
    | cons d ds =>
      have hdig : isDigit d = true := isDigit_of_mem_decimal (n := i.natAbs) (by simp [hd])
      have hsp : isSpace d = false := by
        simp only [isDigit, Bool.and_eq_true, decide_eq_true_eq, UInt8.le_iff_toNat_le] at hdig
        simp only [isSpace, Bool.or_eq_false_iff, beq_eq_false_iff_ne, Bool.and_eq_false_iff,
          decide_eq_false_iff_not, UInt8.le_iff_toNat_le, ne_eq, ← UInt8.toNat_inj]
        have h0 : (byte '0').toNat = 48 := rfl
        have hs : (byte ' ').toNat = 32 := rfl
        have h13 : (13 : UInt8).toNat = 13 := rfl
        omega
      simp [hsp]

theorem takeSign_decimalInt (i : ℤ) (s : Bytes) :
    takeSign (decimalInt i ++ s) = (decide (i < 0), decimal i.natAbs ++ s) := by
  unfold decimalInt
  split_ifs with h
  · simp [takeSign, h]
  · cases hd : decimal i.natAbs with
    | nil => exact absurd hd (decimal_ne_nil _)
    | cons d ds =>
      have hdig : isDigit d = true := isDigit_of_mem_decimal (n := i.natAbs) (by simp [hd])
      have hm : d ≠ byte '-' := by rintro rfl; exact absurd hdig (by decide)
      have hp : d ≠ byte '+' := by rintro rfl; exact absurd hdig (by decide)
      simp [takeSign, hm, hp, h]

/-- **A printed integer is read back**, up to the first character that is no digit. -/
theorem strtol_decimalInt {i : ℤ} (h₁ : -2 ^ 63 ≤ i) (h₂ : i < 2 ^ 63) {s : Bytes}
    (hs : ∀ c, s.head? = some c → isDigit c = false) :
    strtol (decimalInt i ++ s) = (i, s) := by
  obtain ⟨ht, hd⟩ := span_decimal i.natAbs hs
  have hv : (if i < 0 then -(i.natAbs : ℤ) else i.natAbs) = i := by split_ifs <;> omega
  simp only [strtol, dropWhile_isSpace_decimalInt, takeSign_decimalInt, ht, hd, decimal_ne_nil,
    ↓reduceIte, digitsValue_decimal, decide_eq_true_eq, hv]
  rw [clamp_of_mem h₁ h₂]

theorem strtol_decimal {n : ℕ} (h : n < 2 ^ 63) : strtol (decimal n) = ((n : ℤ), []) := by
  have hread := strtol_decimalInt (i := n) (s := []) (by omega) (by omega) (by simp)
  rwa [decimalInt_natCast, List.append_nil] at hread

theorem atoi_decimal {n : ℕ} (h : n < 2 ^ 31) : atoi (decimal n) = n := by
  rw [atoi, cStr_decimal, strtol_decimal (by omega), toInt32]
  exact Int.bmod_eq_of_le (by omega) (by omega)

/-- Nothing is converted if the text does not start like a numeral. -/
theorem strtol_of_head {c : UInt8} (hspace : isSpace c = false) (hsign : c ≠ byte '-' ∧ c ≠ byte '+')
    (hdigit : isDigit c = false) (s : Bytes) : strtol (c :: s) = (0, c :: s) := by
  simp [strtol, takeSign, hspace, hsign, hdigit]

/-- A numeral starts with a digit or a minus sign. -/
theorem decimalInt_eq_cons (i : ℤ) :
    ∃ c s, decimalInt i = c :: s ∧ (isDigit c = true ∨ c = byte '-') := by
  cases h : decimalInt i with
  | nil =>
    unfold decimalInt at h
    split_ifs at h
    exact absurd h (decimal_ne_nil _)
  | cons c s =>
    refine ⟨c, s, rfl, ?_⟩
    unfold decimalInt at h
    split_ifs at h
    · exact .inr (List.cons.inj h).1.symm
    · exact .inl (isDigit_of_mem_decimal (n := i.natAbs) (by simp [h]))

theorem toInt32_of_mem {i : ℤ} (h₁ : -2 ^ 31 ≤ i) (h₂ : i < 2 ^ 31) : toInt32 i = i := by
  unfold toInt32
  rw [Int.bmod_eq_of_le] <;> omega

end Text

end HaPanel
