import HaPanel.Text.FlatObject
import HaPanel.Text.JsonText

/-!
# Flat objects as JSON texts

A `Layout` describes how a flat object is written.  If its punctuation is that of JSON, with blanks
wherever they may stand, and every field is a string literal, a truth value or a numeral, then what
is written is a JSON text, and it denotes the object of these members (`denotes_text`).
-/

namespace HaPanel

namespace Json

open Text

/-! ### Fields -/

/-- A value as it is written stands for a JSON value: it is the contents of a string literal, a
truth value or a numeral. -/
inductive Stands : Text.Value UInt8 → Value → Prop
  | string {raw t : Bytes} (hraw : Chars raw t) (hutf8 : IsUtf8 raw) :
    Stands (.text raw) (.string t)
  | bool (b : Bool) : Stands (.bare (boolLit b)) (.bool b)
  | number (n : Numeral) : Stands (.bare n.1) (.number n)

/-- The fields stand for the members, one by one, and the keys are written as they are. -/
def StandFor : List (Entry UInt8) → List (Bytes × Value) → Prop :=
  List.Forall₂ fun f m => f.1 = m.1 ∧ Verbatim m.1 ∧ Stands f.2 m.2

/-! ### Numerals -/

/-- A decimal numeral has no leading zero. -/
theorem head_toDigits {n : ℕ} (hn : 0 < n) : (Nat.toDigits 10 n).head? ≠ some '0' := by
  induction n using Nat.strongRecOn with
  | ind n ih =>
    by_cases hlt : n < 10
    · rw [Nat.toDigits_of_lt_base hlt, List.head?_cons, Ne, Option.some.injEq,
        Nat.digitChar_eq_zero]
      omega
    · have hrest := ih (n / 10) (by omega) (by omega)
      rw [Nat.toDigits_of_base_le (by decide) (by omega),
        List.head?_append_of_ne_nil _ Nat.toDigits_ne_nil]
      exact hrest

theorem isNumeral_of_sign {sign : Bytes} (hsign : sign = [] ∨ sign = [Text.byte '-']) (n : ℕ) :
    IsNumeral (sign ++ decimal n) := by
  have hdigits : IsDigits (decimal n) := ⟨decimal_ne_nil n, fun _ => isDigit_of_mem_decimal⟩
  have hzero : (decimal n).head? = some (Text.byte '0') → decimal n = [Text.byte '0'] := by
    intro hhead
    obtain rfl | hn := n.eq_zero_or_pos
    · rfl
    · rw [decimal, List.head?_map, Option.map_eq_some_iff] at hhead
      obtain ⟨c, hc, hbyte⟩ := hhead
      have hdigit := Nat.isDigit_of_mem_toDigits (by decide) (by decide) (List.mem_of_head? hc)
      have hzero : c = '0' := by
        have := byte_toNat_of_isDigit hdigit
        rw [hbyte] at this
        exact Char.toNat_inj.mp this.symm
      exact absurd (hzero ▸ hc) (head_toDigits hn)
  have hnumeral := IsNumeral.mk hsign hdigits hzero (.inl rfl) (.inl rfl)
  simpa using hnumeral

/-- A natural number, as it is printed. -/
def natNumeral (n : ℕ) : Numeral := ⟨decimal n, isNumeral_of_sign (.inl rfl) n⟩

theorem isNumeral_decimalInt (i : ℤ) : IsNumeral (decimalInt i) := by
  unfold decimalInt
  split_ifs
  · exact isNumeral_of_sign (.inr rfl) _
  · exact isNumeral_of_sign (.inl rfl) _

/-- An integer, as it is printed. -/
def intNumeral (i : ℤ) : Numeral := ⟨decimalInt i, isNumeral_decimalInt i⟩

/-! ### Punctuation -/

def Blanks (s : Bytes) : Prop := ∀ c ∈ s, isBlank c = true

instance : DecidablePred Blanks := fun s => List.decidableBAll (fun c => isBlank c = true) s

/-- The punctuation of JSON. -/
structure Punctuated (L : Layout UInt8) : Prop where
  quote : L.quote = byte '"'
  colon : L.colon = Punct.colon.byte
  opening : ∃ b, L.opening = Punct.openBrace.byte :: b ∧ Blanks b
  gap : Blanks L.gap
  sep : ∃ b, L.sep = Punct.comma.byte :: b ∧ Blanks b
  closing : ∃ b b', L.closing = b ++ Punct.closeBrace.byte :: b' ∧ Blanks b ∧ Blanks b'

theorem isWordByte_of_isBlank {c : UInt8} (h : isBlank c = true) : isWordByte c = false :=
  forall_byte (p := fun c => isBlank c = true → isWordByte c = false) (by decide +kernel) c h

theorem isBlank_lt {c : UInt8} (h : isBlank c = true) : c < 128 :=
  forall_byte (p := fun c => isBlank c = true → c < 128) (by decide +kernel) c h

theorem Lexes.blanks {b s : Bytes} {ls : List Lexeme} (hb : Blanks b) (h : Lexes s ls) :
    Lexes (b ++ s) ls := by
  induction b with
  | nil => exact h
  | cons c b ih =>
    obtain ⟨hc, hb⟩ := List.forall_mem_cons.mp hb
    exact .blank hc (ih hb)

theorem Lexes.append_blanks {b s : Bytes} {ls : List Lexeme} (h : Lexes s ls) (hb : Blanks b) :
    Lexes (s ++ b) ls := by
  induction h with
  | nil =>
    have hblanks := Lexes.nil.blanks hb
    rwa [List.append_nil] at hblanks
  | blank hc _ ih => exact .blank hc ih
  | punct _ ih => exact .punct ih
  | @word w s ls hend _ ih =>
    rw [List.append_assoc]
    refine .word ?_ ih
    cases s with
    | nil => exact fun c hc => isWordByte_of_isBlank (hb c (List.mem_of_head? hc))
    | cons => exact hend
  | string hraw _ ih =>
    rw [List.cons_append, List.append_assoc, List.cons_append]
    exact .string hraw ih

variable {L : Layout UInt8}

/-- No word goes on where a value has ended. -/
theorem Punctuated.head_rest (hL : Punctuated L) (fs : List (Entry UInt8)) :
    ∀ c ∈ (L.rest fs).head?, isWordByte c = false := by
  cases fs with
  | nil =>
    obtain ⟨b, b', hclosing, hb, -⟩ := hL.closing
    rw [Layout.rest, hclosing]
    cases b with
    | nil => simpa using Punct.isWordByte_byte .closeBrace
    | cons c b => simpa using isWordByte_of_isBlank (hb c List.mem_cons_self)
  | cons f fs =>
    obtain ⟨b, hsep, -⟩ := hL.sep
    simpa [Layout.rest, hsep] using Punct.isWordByte_byte .comma

/-! ### Objects -/

theorem Stands.lexes (hL : Punctuated L) {v : Text.Value UInt8} {w : Value} (h : Stands v w)
    {s : Bytes} {ls : List Lexeme} (hend : ∀ c ∈ s.head?, isWordByte c = false)
    (hs : Lexes s ls) : Lexes (L.value v ++ s) (w.lexemes ++ ls) := by
  cases h with
  | string hraw hutf8 =>
    have hlexes := Lexes.string hraw hs
    simpa [Layout.value, hL.quote, Value.lexemes] using hlexes
  | bool b => exact .word (w := boolWord b) hend hs
  | number n => exact .word (w := n.word) hend hs

/-- A field, up to what follows it. -/
theorem lexes_field (hL : Punctuated L) {k : Bytes} {v : Text.Value UInt8} {w : Value}
    (hk : Verbatim k) (hv : Stands v w) {s : Bytes} {ls : List Lexeme}
    (hend : ∀ c ∈ s.head?, isWordByte c = false) (hs : Lexes s ls) :
    Lexes (L.quote :: (k ++ L.quote :: L.colon :: (L.gap ++ (L.value v ++ s))))
      (.string k :: .punct .colon :: (w.lexemes ++ ls)) := by
  have hvalue := (hv.lexes hL hend hs).blanks hL.gap
  rw [hL.quote, hL.colon]
  exact .string hk.1.chars (.punct hvalue)

theorem lexes_rest (hL : Punctuated L) {fs : List (Entry UInt8)} {ms : List (Bytes × Value)}
    (h : StandFor fs ms) : Lexes (L.rest fs) (memberLexemes false ms) := by
  induction h with
  | nil =>
    obtain ⟨b, b', hclosing, hb, hb'⟩ := hL.closing
    have hend : Lexes (b' ++ []) [] := Lexes.nil.blanks hb'
    rw [List.append_nil] at hend
    rw [Layout.rest, hclosing]
    exact (Lexes.punct hend).blanks hb
  | @cons f m fs ms hfm h ih =>
    obtain ⟨hkey, hclean, hvalue⟩ := hfm
    obtain ⟨b, hsep, hb⟩ := hL.sep
    rw [← hkey] at hclean
    have hfield := lexes_field hL hclean hvalue (hL.head_rest fs) ih
    rw [Layout.rest, hsep, List.cons_append, memberLexemes, ← hkey]
    exact .punct (hfield.blanks hb)

theorem lexes_text (hL : Punctuated L) {fs : List (Entry UInt8)} {ms : List (Bytes × Value)}
    (h : StandFor fs ms) : Lexes (L.text fs) (Value.object ms).lexemes := by
  obtain ⟨b, hopening, hb⟩ := hL.opening
  cases h with
  | nil =>
    have hrest := lexes_rest hL (.nil : StandFor [] [])
    rw [Layout.text, hopening]
    exact .punct (hrest.blanks hb)
  | @cons f m fs ms hfm h =>
    obtain ⟨hkey, hclean, hvalue⟩ := hfm
    rw [← hkey] at hclean
    have hfield := lexes_field hL hclean hvalue (hL.head_rest fs) (lexes_rest hL h)
    rw [Layout.text, hopening, Value.lexemes, memberLexemes, ← hkey]
    exact .punct (hfield.blanks hb)

/-! ### UTF-8 -/

theorem Blanks.isUtf8 {b : Bytes} (hb : Blanks b) : IsUtf8 b :=
  isUtf8_of_ascii fun c hc => isBlank_lt (hb c hc)

theorem Punct.isUtf8 (p : Punct) : IsUtf8 [p.byte] :=
  isUtf8_of_ascii (List.forall_mem_singleton.mpr p.byte_lt)

theorem Punctuated.isUtf8_quote (hL : Punctuated L) : IsUtf8 [L.quote] := by
  rw [hL.quote]
  exact isUtf8_of_ascii (List.forall_mem_singleton.mpr (by decide))

theorem Punctuated.isUtf8_value (hL : Punctuated L) {v : Text.Value UInt8} {w : Value}
    (h : Stands v w) : IsUtf8 (L.value v) := by
  have hword : ∀ u : Word, IsUtf8 u.1 := fun u =>
    isUtf8_of_ascii fun c hc => isWordByte_lt (u.2.2 c hc)
  cases h with
  | string hraw hutf8 => exact hL.isUtf8_quote.append (hutf8.append hL.isUtf8_quote)
  | bool b => exact hword (boolWord b)
  | number n => exact hword n.word

/-- A field, up to what follows it. -/
theorem Punctuated.isUtf8_field (hL : Punctuated L) {k : Bytes} {v : Text.Value UInt8} {w : Value}
    (hk : Verbatim k) (hv : Stands v w) {s : Bytes} (hs : IsUtf8 s) :
    IsUtf8 (L.quote :: (k ++ L.quote :: L.colon :: (L.gap ++ (L.value v ++ s)))) := by
  have hcolon : IsUtf8 [L.colon] := by
    rw [hL.colon]
    exact Punct.isUtf8 .colon
  have htail := hcolon.append (hL.gap.isUtf8.append ((hL.isUtf8_value hv).append hs))
  exact hL.isUtf8_quote.append (hk.2.append (hL.isUtf8_quote.append htail))

theorem Punctuated.isUtf8_rest (hL : Punctuated L) {fs : List (Entry UInt8)}
    {ms : List (Bytes × Value)} (h : StandFor fs ms) : IsUtf8 (L.rest fs) := by
  induction h with
  | nil =>
    obtain ⟨b, b', hclosing, hb, hb'⟩ := hL.closing
    rw [Layout.rest, hclosing]
    exact hb.isUtf8.append ((Punct.isUtf8 .closeBrace).append hb'.isUtf8)
  | @cons f m fs ms hfm h ih =>
    obtain ⟨hkey, hverbatim, hvalue⟩ := hfm
    obtain ⟨b, hsep, hb⟩ := hL.sep
    have hcomma := (Punct.isUtf8 .comma).append hb.isUtf8
    rw [Layout.rest, hsep]
    exact hcomma.append (hL.isUtf8_field (hkey ▸ hverbatim) hvalue ih)

theorem Punctuated.isUtf8_text (hL : Punctuated L) {fs : List (Entry UInt8)}
    {ms : List (Bytes × Value)} (h : StandFor fs ms) : IsUtf8 (L.text fs) := by
  obtain ⟨b, hopening, hb⟩ := hL.opening
  have hbrace := (Punct.isUtf8 .openBrace).append hb.isUtf8
  cases h with
  | nil =>
    rw [Layout.text, hopening]
    exact hbrace.append (hL.isUtf8_rest (.nil : StandFor [] []))
  | @cons f m fs ms hfm h =>
    obtain ⟨hkey, hverbatim, hvalue⟩ := hfm
    rw [Layout.text, hopening]
    exact hbrace.append (hL.isUtf8_field (hkey ▸ hverbatim) hvalue (hL.isUtf8_rest h))

/-- **A flat object is a JSON text** that denotes the object of its members. -/
theorem denotes_text (hL : Punctuated L) {fs : List (Entry UInt8)} {ms : List (Bytes × Value)}
    (h : StandFor fs ms) : Denotes (L.text fs) (.object ms) :=
  ⟨hL.isUtf8_text h, lexes_text hL h⟩

end Json

end HaPanel
