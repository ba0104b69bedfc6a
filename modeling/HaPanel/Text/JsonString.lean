import HaPanel.Text.JsonText
import HaPanel.Text.Search

/-!
# String literals, character by character

`Json.Chars` relates the text between the quotation marks of a string to the bytes it stands for.
Here a string literal is a list of `Written` characters, each one written as itself, with a short
escape, with a `\u` escape or with a pair of them; `chars_iff` says that these are the literals of
the grammar that are UTF-8.  The `escapes` of a literal are what stands behind its backslashes.

A `Member` is such a literal as the value of a key in some text, at the first place where the quoted
key occurs.  The last section compares two ways to put together a text from pieces.
-/

namespace HaPanel

namespace Json

open Text

/-! ### Characters of a string -/

/-- One character of a string, as it is written. -/
inductive Written where
  | plain (c : Char) (hc : 0x20 ≤ c.toNat ∧ c ≠ '"' ∧ c ≠ '\\')
  | short (e c : UInt8) (he : shortEscape e = some c)
  | unicode (a b c d : UInt8) (n : ℕ) (hn : hexQuad a b c d = some n)
    (hvalid : n < 0xD800 ∨ 0xE000 ≤ n)
  | pair (a b c d a' b' c' d' : UInt8) (m n : ℕ) (hm : hexQuad a b c d = some m)
    (hhigh : 0xD800 ≤ m ∧ m < 0xDC00) (hn : hexQuad a' b' c' d' = some n)
    (hlow : 0xDC00 ≤ n ∧ n < 0xE000)

namespace Written

/-- The bytes that are written. -/
def text : Written → Bytes
  | plain c _ => String.utf8EncodeChar c
  | short e _ _ => [byte '\\', e]
  | unicode a b c d _ _ _ => [byte '\\', byte 'u', a, b, c, d]
  | pair a b c d a' b' c' d' .. =>
    [byte '\\', byte 'u', a, b, c, d, byte '\\', byte 'u', a', b', c', d']

/-- The character that is meant. -/
def char : Written → Char
  | plain c _ => c
  | short _ c _ => Char.ofNat c.toNat
  | unicode _ _ _ _ n _ _ => Char.ofNat n
  | pair _ _ _ _ _ _ _ _ m n .. => Char.ofNat (0x10000 + (m - 0xD800) * 0x400 + (n - 0xDC00))

/-- The bytes of the character that is meant. -/
def bytes (w : Written) : Bytes := String.utf8EncodeChar w.char

end Written

theorem hexDigit_lt {c : UInt8} {n : ℕ} (h : hexDigit c = some n) : n < 16 :=
  forall_byte (p := fun c => ∀ n ∈ hexDigit c, n < 16) (by decide +kernel) c n h

theorem hexQuad_eq_some {a b c d : UInt8} {n : ℕ} (h : hexQuad a b c d = some n) :
    ∃ i j k l, hexDigit a = some i ∧ hexDigit b = some j ∧ hexDigit c = some k ∧
      hexDigit d = some l ∧ n = ((i * 16 + j) * 16 + k) * 16 + l := by
  simp only [hexQuad, Option.pure_def, Option.bind_eq_bind, Option.bind_eq_some_iff,
    Option.some.injEq] at h
  obtain ⟨i, hi, j, hj, k, hk, l, hl, rfl⟩ := h
  exact ⟨i, j, k, l, hi, hj, hk, hl, rfl⟩

theorem hexQuad_lt {a b c d : UInt8} {n : ℕ} (h : hexQuad a b c d = some n) : n < 0x10000 := by
  obtain ⟨i, j, k, l, hi, hj, hk, hl, rfl⟩ := hexQuad_eq_some h
  have := hexDigit_lt hi
  have := hexDigit_lt hj
  have := hexDigit_lt hk
  have := hexDigit_lt hl
  omega

/-- A hexadecimal digit is no quotation mark and no backslash. -/
theorem isPlain_of_hexDigit {c : UInt8} {n : ℕ} (h : hexDigit c = some n) : IsPlain c :=
  forall_byte (p := fun c => (hexDigit c).isSome → IsPlain c) (by decide +kernel) c (by simp [h])

theorem shortEscape_lt {e c : UInt8} (h : shortEscape e = some c) : c.toNat < 128 := by
  have hall : ∀ e, (shortEscape e).all (fun c => decide (c.toNat < 128)) = true :=
    forall_byte (by decide +kernel)
  exact forall_mem_of_option_all (hall e) c h

theorem toNat_ofNat_char {n : ℕ} (h : n < 0xD800 ∨ (0xE000 ≤ n ∧ n < 0x110000)) :
    (Char.ofNat n).toNat = n := by
  have hvalid : n.isValidChar := by
    rcases h with h | h
    · exact .inl h
    · exact .inr ⟨by omega, h.2⟩
  rw [Char.ofNat, dif_pos hvalid]
  rfl

theorem utf8EncodeChar_ascii {c : Char} (h : c.toNat < 128) :
    String.utf8EncodeChar c = [UInt8.ofNat c.toNat] := by
  have hle : c.val.toNat ≤ 127 := Nat.lt_succ_iff.1 h
  simp only [String.utf8EncodeChar, hle, if_true]
  rfl

/-- A byte below 128 as a character. -/
theorem utf8EncodeChar_ofNat {b : UInt8} (h : b.toNat < 128) :
    String.utf8EncodeChar (Char.ofNat b.toNat) = [b] := by
  have hnat : (Char.ofNat b.toNat).toNat = b.toNat := toNat_ofNat_char (.inl (by omega))
  rw [utf8EncodeChar_ascii (by rw [hnat]; exact h), hnat, UInt8.ofNat_toNat]

theorem toNat_lt_of_utf8EncodeChar_eq {c : Char} {b : UInt8} (h : String.utf8EncodeChar c = [b]) :
    c.toNat < 128 := by
  have hsize : c.utf8Size = 1 := by
    rw [← String.length_utf8EncodeChar, h]
    rfl
  exact Nat.lt_succ_iff.2 (Char.utf8Size_eq_one_iff.1 hsize)

/-- Characters below 128 are told apart by their bytes. -/
theorem eq_of_ofNat_eq_byte {c q : Char} (hc : c.toNat < 128) (hq : q.toNat < 128)
    (h : UInt8.ofNat c.toNat = byte q) : c = q := by
  have hnat := congrArg UInt8.toNat h
  rw [byte, UInt8.toNat_ofNat_of_lt' (show c.toNat < 256 by omega),
    UInt8.toNat_ofNat_of_lt' (show q.toNat < 256 by omega)] at hnat
  exact Char.toNat_inj.1 hnat

/-- The bytes of a character that stands for itself do so too. -/
theorem isPlain_of_mem_utf8EncodeChar {c : Char} (hc : 0x20 ≤ c.toNat ∧ c ≠ '"' ∧ c ≠ '\\')
    {b : UInt8} (hb : b ∈ String.utf8EncodeChar c) : IsPlain b := by
  by_cases hascii : c.toNat < 128
  · rw [utf8EncodeChar_ascii hascii, List.mem_singleton] at hb
    subst hb
    refine ⟨?_, fun h => hc.2.1 (eq_of_ofNat_eq_byte hascii (by decide) h),
      fun h => hc.2.2 (eq_of_ofNat_eq_byte hascii (by decide) h)⟩
    rw [UInt8.le_iff_toNat_le, UInt8.toNat_ofNat_of_lt' (show c.toNat < 256 by omega)]
    exact hc.1
  · rcases utf8EncodeChar_cases c with ⟨b', hb', heq⟩ | hhigh
    · exact absurd (toNat_lt_of_utf8EncodeChar_eq heq) hascii
    · exact forall_byte (p := fun b => 128 ≤ b → IsPlain b) (by decide +kernel) b (hhigh b hb)

/-! ### The literals of the grammar -/

theorem Chars.plain_append {s raw t : Bytes} (hs : ∀ b ∈ s, IsPlain b) (h : Chars raw t) :
    Chars (s ++ raw) (s ++ t) := by
  induction s with
  | nil => exact h
  | cons b s ih =>
    exact .plain (hs b List.mem_cons_self) (ih fun c hc => hs c (List.mem_cons_of_mem b hc))

/-- Up to a backslash every byte stands for itself. -/
theorem Chars.of_append {s raw t : Bytes} (hs : byte '\\' ∉ s) (h : Chars (s ++ raw) t) :
    (∀ b ∈ s, IsPlain b) ∧ ∃ t', t = s ++ t' ∧ Chars raw t' := by
  induction s generalizing t with
  | nil => exact ⟨fun b hb => absurd hb List.not_mem_nil, t, rfl, h⟩
  | cons b s ih =>
    simp only [List.mem_cons, not_or] at hs
    rw [List.cons_append] at h
    generalize hraw : b :: (s ++ raw) = r at h
    cases h with
    | nil => cases hraw
    | plain hc h =>
      obtain ⟨rfl, rfl⟩ := List.cons.inj hraw
      obtain ⟨hplain, t', rfl, h'⟩ := ih hs.2 h
      exact ⟨List.forall_mem_cons.2 ⟨hc, hplain⟩, t', rfl, h'⟩
    | escape he h => exact absurd (List.cons.inj hraw).1.symm hs.1

theorem Written.chars (w : Written) {raw t : Bytes} (h : Chars raw t) :
    Chars (w.text ++ raw) (w.bytes ++ t) := by
  cases w with
  | plain c hc => exact h.plain_append fun b hb => isPlain_of_mem_utf8EncodeChar hc hb
  | short e c he =>
    rw [bytes, char, utf8EncodeChar_ofNat (shortEscape_lt he)]
    exact .escape (.short he) h
  | unicode a b c d n hn hvalid => exact .escape (.unicode hn hvalid) h
  | pair a b c d a' b' c' d' m n hm hhigh hn hlow => exact .escape (.surrogates hm hhigh hn hlow) h

/-- What follows a backslash is ASCII. -/
theorem Escape.ascii {e u : Bytes} (h : Escape e u) : ∀ c ∈ byte '\\' :: e, c < 128 := by
  have hhex : ∀ {c : UInt8} {n : ℕ}, hexDigit c = some n → c < 128 := fun {c n} hc =>
    forall_byte (p := fun c => (hexDigit c).isSome → c < 128) (by decide +kernel) c (by simp [hc])
  have hquad : ∀ {a b c d : UInt8} {n : ℕ}, hexQuad a b c d = some n →
      a < 128 ∧ b < 128 ∧ c < 128 ∧ d < 128 := by
    intro a b c d n hn
    obtain ⟨i, j, k, l, hi, hj, hk, hl, -⟩ := hexQuad_eq_some hn
    exact ⟨hhex hi, hhex hj, hhex hk, hhex hl⟩
  have hb : byte '\\' < 128 ∧ byte 'u' < 128 := by decide
  cases h with
  | @short e c he =>
    have he' : e < 128 :=
      forall_byte (p := fun e => (shortEscape e).isSome → e < 128) (by decide +kernel) e (by simp [he])
    simp [hb, he']
  | unicode hn hvalid => simp [hb, hquad hn]
  | surrogates hm hhigh hn hlow => simp [hb, hquad hm, hquad hn]

theorem Escape.exists_written {e u : Bytes} (h : Escape e u) :
    ∃ w : Written, byte '\\' :: e = w.text ∧ u = w.bytes := by
  cases h with
  | short he =>
    refine ⟨.short _ _ he, rfl, ?_⟩
    rw [Written.bytes, Written.char, utf8EncodeChar_ofNat (shortEscape_lt he)]
  | unicode hn hvalid => exact ⟨.unicode _ _ _ _ _ hn hvalid, rfl, rfl⟩
  | surrogates hm hhigh hn hlow => exact ⟨.pair _ _ _ _ _ _ _ _ _ _ hm hhigh hn hlow, rfl, rfl⟩

/-- A character whose bytes stand for themselves is one that does. -/
theorem plain_of_isPlain {d : Char} (h : ∀ b ∈ String.utf8EncodeChar d, IsPlain b) :
    0x20 ≤ d.toNat ∧ d ≠ '"' ∧ d ≠ '\\' := by
  by_cases hascii : d.toNat < 128
  · rw [utf8EncodeChar_ascii hascii] at h
    obtain ⟨hlow, hquote, hesc⟩ := h _ List.mem_cons_self
    rw [UInt8.le_iff_toNat_le, UInt8.toNat_ofNat_of_lt' (show d.toNat < 256 by omega)] at hlow
    exact ⟨hlow, by rintro rfl; exact hquote rfl, by rintro rfl; exact hesc rfl⟩
  · have hne : ∀ q : Char, q.toNat < 128 → d ≠ q := by
      rintro q hq rfl
      exact hascii hq
    exact ⟨by omega, hne '"' (by decide), hne '\\' (by decide)⟩

/-- A backslash is a character of its own. -/
theorem backslash_notMem_utf8EncodeChar {d : Char} (h : d ≠ '\\') :
    byte '\\' ∉ String.utf8EncodeChar d := by
  intro hmem
  rcases utf8EncodeChar_cases d with ⟨b, hb, heq⟩ | hhigh
  · have hascii := toNat_lt_of_utf8EncodeChar_eq heq
    rw [utf8EncodeChar_ascii hascii, List.mem_singleton] at hmem
    exact h (eq_of_ofNat_eq_byte hascii (by decide) hmem.symm)
  · exact absurd (hhigh _ hmem) (by decide)

/-- A backslash starts an escape of the grammar, which is one written character. -/
theorem Chars.exists_escape {raw t : Bytes} (hutf8 : IsUtf8 (byte '\\' :: raw))
    (h : Chars (byte '\\' :: raw) t) :
    ∃ (w : Written) (raw' t' : Bytes), byte '\\' :: raw = w.text ++ raw' ∧ t = w.bytes ++ t' ∧
      IsUtf8 raw' ∧ Chars raw' t' := by
  generalize hraw : byte '\\' :: raw = r at h
  cases h with
  | nil => cases hraw
  | plain hc h =>
    have : byte '\\' = _ := (List.cons.inj hraw).1
    exact absurd (this ▸ hc) not_isPlain_backslash
  | @escape e u raw' t' he h =>
    obtain ⟨-, rfl⟩ := List.cons.inj hraw
    obtain ⟨w, hw, rfl⟩ := he.exists_written
    refine ⟨w, raw', t', by rw [← hw, List.cons_append], rfl, ?_, h⟩
    exact IsUtf8.of_append he.ascii hutf8

/-- Any other character has no backslash among its bytes, and stands for itself. -/
theorem Chars.exists_plain {d : Char} (hd : d ≠ '\\') {raw t : Bytes}
    (h : Chars (String.utf8EncodeChar d ++ raw) t) :
    ∃ (w : Written) (t' : Bytes), String.utf8EncodeChar d = w.text ∧ t = w.bytes ++ t' ∧
      Chars raw t' := by
  obtain ⟨hplain, t', rfl, h'⟩ := h.of_append (backslash_notMem_utf8EncodeChar hd)
  exact ⟨.plain d (plain_of_isPlain hplain), t', rfl, rfl, h'⟩

/-- The first written character of a literal. -/
theorem Chars.exists_written {raw t : Bytes} (hne : raw ≠ []) (hutf8 : IsUtf8 raw)
    (h : Chars raw t) :
    ∃ (w : Written) (raw' t' : Bytes), raw = w.text ++ raw' ∧ t = w.bytes ++ t' ∧ IsUtf8 raw' ∧
      Chars raw' t' := by
  obtain ⟨cs, hcs⟩ := hutf8
  cases cs with
  | nil => exact absurd hcs hne
  | cons d cs =>
    rw [List.flatMap_cons] at hcs
    subst hcs
    by_cases hd : d = '\\'
    · subst hd
      exact h.exists_escape ⟨'\\' :: cs, rfl⟩
    · obtain ⟨w, t', hw, ht, h'⟩ := h.exists_plain hd
      exact ⟨w, _, t', by rw [hw], ht, ⟨cs, rfl⟩, h'⟩

theorem Written.text_ne_nil (w : Written) : w.text ≠ [] := by
  cases w with
  | plain c hc => exact List.ne_nil_of_length_pos (by
      rw [text, String.length_utf8EncodeChar]
      exact Char.utf8Size_pos c)
  | short | unicode | pair => exact List.cons_ne_nil _ _

theorem Written.isUtf8_text (w : Written) : IsUtf8 w.text := by
  cases w with
  | plain c hc => exact ⟨[c], by simp [Written.text]⟩
  | short e c he => exact isUtf8_of_ascii (Escape.short he).ascii
  | unicode a b c d n hn hvalid => exact isUtf8_of_ascii (Escape.unicode hn hvalid).ascii
  | pair a b c d a' b' c' d' m n hm hhigh hn hlow =>
    exact isUtf8_of_ascii (Escape.surrogates hm hhigh hn hlow).ascii

/-- **The literals of the grammar** that are UTF-8 are the lists of written characters. -/
theorem chars_iff {raw t : Bytes} :
    IsUtf8 raw ∧ Chars raw t ↔
      ∃ ws : List Written, raw = ws.flatMap Written.text ∧ t = ws.flatMap Written.bytes := by
  constructor
  · rintro ⟨hutf8, h⟩
    -- by induction on the length, one written character at a time
    induction hlen : raw.length using Nat.strongRecOn generalizing raw t with
    | ind n ih =>
      rcases eq_or_ne raw [] with rfl | hne
      · cases h
        exact ⟨[], rfl, rfl⟩
      · obtain ⟨w, raw', t', rfl, rfl, hutf8', h'⟩ := h.exists_written hne hutf8
        have hpos := List.length_pos_of_ne_nil w.text_ne_nil
        have hshort : raw'.length < n := by
          rw [← hlen, List.length_append]
          omega
        obtain ⟨ws, rfl, rfl⟩ := ih raw'.length hshort hutf8' h' rfl
        exact ⟨w :: ws, rfl, rfl⟩
  · rintro ⟨ws, rfl, rfl⟩
    induction ws with
    | nil => exact ⟨isUtf8_nil, .nil⟩
    | cons w ws ih => exact ⟨w.isUtf8_text.append ih.1, w.chars ih.2⟩

/-! ### The escapes of a literal -/

/-- What stands behind each backslash of a literal. -/
def escapes : Bytes → List Bytes
  | c :: e :: s => if c = byte '\\' then (e :: s) :: escapes s else escapes (e :: s)
  | _ => []

theorem escapes_backslash (e : UInt8) (s : Bytes) :
    escapes (byte '\\' :: e :: s) = (e :: s) :: escapes s := if_pos rfl

theorem escapes_append {s : Bytes} (hs : byte '\\' ∉ s) (r : Bytes) :
    escapes (s ++ r) = escapes r := by
  induction s with
  | nil => rfl
  | cons b s ih =>
    simp only [List.mem_cons, not_or] at hs
    rw [← ih hs.2, List.cons_append]
    cases hrest : s ++ r with
    | nil => rfl
    | cons e t => rw [escapes, if_neg (Ne.symm hs.1)]

/-- The escapes that a written character brings, with `s` behind it. -/
def Written.escapes (s : Bytes) : Written → List Bytes
  | plain .. => []
  | short e .. => [e :: s]
  | unicode a b c d .. => [byte 'u' :: a :: b :: c :: d :: s]
  | pair a b c d a' b' c' d' .. =>
    [byte 'u' :: a :: b :: c :: d :: byte '\\' :: byte 'u' :: a' :: b' :: c' :: d' :: s,
      byte 'u' :: a' :: b' :: c' :: d' :: s]

/-- The four digits of an escape are no backslashes. -/
theorem escapes_unicode {a b c d : UInt8} {n : ℕ} (h : hexQuad a b c d = some n) (s : Bytes) :
    escapes (byte '\\' :: byte 'u' :: a :: b :: c :: d :: s) =
      (byte 'u' :: a :: b :: c :: d :: s) :: escapes s := by
  obtain ⟨i, j, k, l, hi, hj, hk, hl, -⟩ := hexQuad_eq_some h
  have hdigits : byte '\\' ∉ [a, b, c, d] := by
    have hplain : ∀ x ∈ [a, b, c, d], IsPlain x := by
      simp [isPlain_of_hexDigit hi, isPlain_of_hexDigit hj, isPlain_of_hexDigit hk,
        isPlain_of_hexDigit hl]
    exact fun hmem => not_isPlain_backslash (hplain _ hmem)
  rw [escapes_backslash]
  exact congrArg (_ :: ·) (escapes_append hdigits s)

theorem escapes_written (w : Written) (s : Bytes) :
    escapes (w.text ++ s) = w.escapes s ++ escapes s := by
  cases w with
  | plain c hc => exact escapes_append (backslash_notMem_utf8EncodeChar hc.2.2) s
  | short e c he => exact escapes_backslash e s
  | unicode a b c d n hn hvalid => exact escapes_unicode hn s
  | pair a b c d a' b' c' d' m n hm hhigh hn hlow =>
    have hfirst := escapes_unicode hm (byte '\\' :: byte 'u' :: a' :: b' :: c' :: d' :: s)
    rw [escapes_unicode hn] at hfirst
    exact hfirst

/-- A condition on the escapes of a literal is one on its characters. -/
theorem forall_mem_escapes_iff {P : Bytes → Prop} {Q : Written → Prop}
    (h : ∀ w s, (∀ t ∈ Written.escapes s w, P t) ↔ Q w) (ws : List Written) :
    (∀ t ∈ escapes (ws.flatMap Written.text), P t) ↔ ∀ w ∈ ws, Q w := by
  induction ws with
  | nil => exact iff_of_true (fun t ht => absurd ht List.not_mem_nil) (List.forall_mem_nil _)
  | cons w ws ih =>
    rw [List.flatMap_cons, escapes_written, List.forall_mem_append, h, ih, List.forall_mem_cons]

/-! ### A literal as the value of a key -/

/-- A string as the value of a key, somewhere in a text. -/
structure Placement where
  /-- The text before the key. -/
  before : Bytes
  key : Bytes
  /-- The blanks before the colon. -/
  gap₁ : Bytes
  /-- The blanks after the colon. -/
  gap₂ : Bytes
  literal : List Written
  /-- The text after the string. -/
  after : Bytes
  clean : Clean key
  blank₁ : ∀ c ∈ gap₁, isBlank c = true
  blank₂ : ∀ c ∈ gap₂, isBlank c = true

/-- The key as it is written. -/
def quotedName (key : Bytes) : Bytes := byte '"' :: (key ++ [byte '"'])

namespace Placement

variable (p : Placement)

/-- The text from the opening quotation mark of the string on. -/
def fromString : Bytes :=
  byte '"' :: (p.literal.flatMap Written.text ++ byte '"' :: p.after)

/-- The text from the colon on. -/
def fromColon : Bytes := byte ':' :: (p.gap₂ ++ p.fromString)

/-- The text from the key on. -/
def fromKey : Bytes := quotedName p.key ++ (p.gap₁ ++ p.fromColon)

def text : Bytes := p.before ++ p.fromKey

/-- The string. -/
def value : Bytes := p.literal.flatMap Written.bytes

end Placement

/-- The quoted key occurs first as that key. -/
structure Member extends Placement where
  first : find (quotedName key) toPlacement.text = some toPlacement.fromKey

/-! ### Texts put together from pieces -/

theorem length_flatMap_le {α β : Type*} {f g : α → List β} {l : List α}
    (hle : ∀ a ∈ l, (f a).length ≤ (g a).length) : (l.flatMap f).length ≤ (l.flatMap g).length := by
  induction l with
  | nil => rfl
  | cons a l ih =>
    rw [List.forall_mem_cons] at hle
    rw [List.flatMap_cons, List.flatMap_cons, List.length_append, List.length_append]
    exact Nat.add_le_add hle.1 (ih hle.2)

/-- If each piece of one text is at most as long as the corresponding piece of the other, the texts
are equal only if all the pieces are. -/
theorem flatMap_eq_flatMap_iff {α β : Type*} {f g : α → List β} {l : List α}
    (hle : ∀ a ∈ l, (f a).length ≤ (g a).length) :
    l.flatMap f = l.flatMap g ↔ ∀ a ∈ l, f a = g a := by
  induction l with
  | nil => simp
  | cons a l ih =>
    rw [List.forall_mem_cons] at hle
    rw [List.flatMap_cons, List.flatMap_cons, List.forall_mem_cons]
    constructor
    · intro heq
      have hlen := congrArg List.length heq
      rw [List.length_append, List.length_append] at hlen
      have htail := length_flatMap_le hle.2
      have hhead := hle.1
      obtain ⟨hpiece, hrest⟩ := List.append_inj heq (by omega)
      exact ⟨hpiece, (ih hle.2).1 hrest⟩
    · rintro ⟨hhead, hrest⟩
      rw [hhead, (ih hle.2).2 hrest]

end Json

end HaPanel
