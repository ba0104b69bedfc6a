import HaPanel.Text.JsonText

/-!
# Characters in UTF-8

`IsUtf8` of `HaPanel.Text.JsonText` says that some bytes are the encoding of characters.  The first
byte of a character says how many follow it (`utf8EncodeChar_eq`), and the ones that follow can be
told from a first byte.  `forall_mem_splitOn` is about the lines of a text.
-/

namespace HaPanel

namespace Text

open Json

/-- The encoding of some characters. -/
def encode (cs : List Char) : Bytes := cs.flatMap String.utf8EncodeChar

/-- The byte follows the first byte of a character. -/
def isContinuation (b : UInt8) : Bool := b &&& 0xC0 = 0x80

theorem encode_cons (c : Char) (cs : List Char) :
    encode (c :: cs) = String.utf8EncodeChar c ++ encode cs :=
  List.flatMap_cons ..

theorem encode_append (cs ds : List Char) : encode (cs ++ ds) = encode cs ++ encode ds :=
  List.flatMap_append

/-! ### First bytes -/

theorem isContinuation_ofNat {n : ℕ} (h : n < 64) :
    isContinuation (UInt8.ofNat (n + 0x80)) = true := by
  have hall : ∀ n < 64, isContinuation (UInt8.ofNat (n + 0x80)) = true := by decide +kernel
  exact hall n h

/-- What the first byte of a character with `n` more bytes looks like. -/
def LeadOf (n : ℕ) (lead : UInt8) : Prop :=
  n = 0 ∧ lead < 0x80 ∨ n = 1 ∧ 0xC0 ≤ lead ∧ lead < 0xE0 ∨ n = 2 ∧ 0xE0 ≤ lead ∧ lead < 0xF0 ∨
    n = 3 ∧ 0xF0 ≤ lead ∧ lead < 0xF8

theorem ofNat_mem {n : ℕ} (low high : ℕ) (hlow : low ≤ n) (hhigh : n < high) (h : high < 256) :
    UInt8.ofNat low ≤ UInt8.ofNat n ∧ UInt8.ofNat n < UInt8.ofNat high := by
  rw [UInt8.le_iff_toNat_le, UInt8.lt_iff_toNat_lt,
    UInt8.toNat_ofNat_of_lt' (show low < 256 by omega),
    UInt8.toNat_ofNat_of_lt' (show n < 256 by omega), UInt8.toNat_ofNat_of_lt' h]
  exact ⟨hlow, hhigh⟩

/-- **A character is a first byte and some bytes that follow**, and the first says how many. -/
theorem utf8EncodeChar_eq (c : Char) :
    ∃ lead rest, String.utf8EncodeChar c = lead :: rest ∧ LeadOf rest.length lead ∧
      ∀ b ∈ rest, isContinuation b = true := by
  have hcont (n : ℕ) : isContinuation (UInt8.ofNat (n % 0x40 + 0x80)) = true :=
    isContinuation_ofNat (Nat.mod_lt _ (by decide))
  unfold String.utf8EncodeChar
  dsimp only
  generalize c.val.toNat = v
  split_ifs with h₁ h₂ h₃
  · have hlead := ofNat_mem 0 0x80 (Nat.zero_le v) (Nat.lt_succ_of_le h₁) (by decide)
    exact ⟨_, [], rfl, .inl ⟨rfl, hlead.2⟩, by simp⟩
  · have hlead := ofNat_mem (n := v / 64 % 32 + 0xc0) 0xc0 0xe0
      (by omega) (by omega) (by decide)
    have hrest : ∀ b ∈ [UInt8.ofNat (v % 64 + 0x80)], isContinuation b = true := by
      rw [List.forall_mem_singleton]
      exact hcont v
    exact ⟨_, _, rfl, .inr (.inl ⟨rfl, hlead⟩), hrest⟩
  · have hlead := ofNat_mem (n := v / 4096 % 16 + 0xe0) 0xe0 0xf0
      (by omega) (by omega) (by decide)
    have hrest : ∀ b ∈ [UInt8.ofNat (v / 64 % 64 + 0x80), UInt8.ofNat (v % 64 + 0x80)],
        isContinuation b = true := by
      rw [List.forall_mem_cons, List.forall_mem_singleton]
      exact ⟨hcont _, hcont v⟩
    exact ⟨_, _, rfl, .inr (.inr (.inl ⟨rfl, hlead⟩)), hrest⟩
  · have hlead := ofNat_mem (n := v / 262144 % 8 + 0xf0) 0xf0 0xf8
      (by omega) (by omega) (by decide)
    have hrest : ∀ b ∈ [UInt8.ofNat (v / 4096 % 64 + 0x80), UInt8.ofNat (v / 64 % 64 + 0x80),
        UInt8.ofNat (v % 64 + 0x80)], isContinuation b = true := by
      rw [List.forall_mem_cons, List.forall_mem_cons, List.forall_mem_singleton]
      exact ⟨hcont _, hcont _, hcont v⟩
    exact ⟨_, _, rfl, .inr (.inr (.inr ⟨rfl, hlead⟩)), hrest⟩

theorem LeadOf.not_isContinuation {n : ℕ} {lead : UInt8} (h : LeadOf n lead) :
    isContinuation lead = false := by
  have hall : ∀ b : UInt8, b < 0x80 ∨ 0xC0 ≤ b → isContinuation b = false :=
    forall_byte (by decide +kernel)
  refine hall lead ?_
  have hlow {low : UInt8} (hlow : 0xC0 ≤ low) (hle : low ≤ lead) : lead < 0x80 ∨ 0xC0 ≤ lead :=
    .inr (UInt8.le_trans hlow hle)
  rcases h with ⟨-, h⟩ | ⟨-, h, -⟩ | ⟨-, h, -⟩ | ⟨-, h, -⟩
  · exact .inl h
  · exact hlow (by decide) h
  · exact hlow (by decide) h
  · exact hlow (by decide) h

/-! ### Cutting -/

section

variable {α : Type*} {P : List α → Prop} {q : α}

theorem forall_mem_intercalate (hsplit : ∀ s t, P (s ++ q :: t) → P s ∧ P t)
    {lines : List (List α)} (h : P ([q].intercalate lines)) : ∀ line ∈ lines, P line := by
  induction lines with
  | nil => simp
  | cons line lines ih =>
    cases lines with
    | nil =>
      rw [List.intercalate_singleton] at h
      rw [List.forall_mem_singleton]
      exact h
    | cons next lines =>
      rw [List.intercalate_cons_cons, List.append_assoc, List.singleton_append] at h
      obtain ⟨hline, hrest⟩ := hsplit _ _ h
      rw [List.forall_mem_cons]
      exact ⟨hline, ih hrest⟩

/-- What passes on to both sides of a separator holds of every line. -/
theorem forall_mem_splitOn [BEq α] [LawfulBEq α] (hsplit : ∀ s t, P (s ++ q :: t) → P s ∧ P t)
    {s : List α} (h : P s) : ∀ line ∈ s.splitOn q, P line := by
  have hjoin : [q].intercalate (s.splitOn q) = s := List.intercalate_splitOn q
  rw [← hjoin] at h
  exact forall_mem_intercalate hsplit h

end

end Text

end HaPanel
