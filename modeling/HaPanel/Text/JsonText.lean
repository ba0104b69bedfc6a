import HaPanel.Text.Bytes
import Mathlib.Data.List.Chain

/-!
# JSON texts and what they denote

A JSON text is UTF-8 and falls into lexemes (`Lexes`); the lexemes of a value are
`Value.lexemes`.  A text denotes at most one value (`Denotes.unique`), so there is a partial function
`decode`.

`denotes_render_iff` is about texts put together without escaping: such a text denotes the value it
was made from exactly if every string in it is clean UTF-8.  No other text of that length will do,
since an escape is longer than what it stands for.
-/

namespace HaPanel

namespace Json

open Text

/-! ### UTF-8 -/

/-- The bytes are the encoding of some characters. -/
def IsUtf8 (s : Bytes) : Prop := ∃ cs : List Char, s = cs.flatMap String.utf8EncodeChar

/-- A character is one byte below 128, or bytes from 128 on. -/
theorem utf8EncodeChar_cases (c : Char) :
    (∃ b < 128, String.utf8EncodeChar c = [b]) ∨ ∀ b ∈ String.utf8EncodeChar c, 128 ≤ b := by
  have hbyte (n : ℕ) (h₁ : 128 ≤ n) (h₂ : n < 256) : (128 : UInt8) ≤ UInt8.ofNat n := by
    rw [UInt8.le_iff_toNat_le, UInt8.toNat_ofNat_of_lt' h₂]
    exact h₁
  unfold String.utf8EncodeChar
  dsimp only
  split_ifs with h₁ h₂ h₃
  · refine .inl ⟨_, ?_, rfl⟩
    rw [UInt8.lt_iff_toNat_lt, UInt8.toNat_ofNat_of_lt' (show c.val.toNat < 256 by omega)]
    exact Nat.lt_succ_of_le h₁
  all_goals
    refine .inr ?_
    simp only [List.mem_cons, List.not_mem_nil, or_false, forall_eq_or_imp, forall_eq]
  · exact ⟨hbyte _ (by omega) (by omega), hbyte _ (by omega) (by omega)⟩
  · exact ⟨hbyte _ (by omega) (by omega), hbyte _ (by omega) (by omega),
      hbyte _ (by omega) (by omega)⟩
  · exact ⟨hbyte _ (by omega) (by omega), hbyte _ (by omega) (by omega),
      hbyte _ (by omega) (by omega), hbyte _ (by omega) (by omega)⟩

theorem isUtf8_nil : IsUtf8 [] := ⟨[], rfl⟩

theorem isUtf8_str (s : String) : IsUtf8 (str s) := ⟨s.toList, rfl⟩

theorem IsUtf8.append {s t : Bytes} (hs : IsUtf8 s) (ht : IsUtf8 t) : IsUtf8 (s ++ t) := by
  obtain ⟨cs, rfl⟩ := hs
  obtain ⟨ds, rfl⟩ := ht
  exact ⟨cs ++ ds, List.flatMap_append.symm⟩

/-- Characters do not overlap a byte below 128. -/
theorem IsUtf8.split {s t : Bytes} {c : UInt8} (hc : c < 128) (h : IsUtf8 (s ++ c :: t)) :
    IsUtf8 s ∧ IsUtf8 t := by
  obtain ⟨cs, h⟩ := h
  induction cs generalizing s with
  | nil => simp at h
  | cons d cs ih =>
    rw [List.flatMap_cons] at h
    rcases List.append_eq_append_iff.1 h with ⟨u, hd, hrest⟩ | ⟨u, hs, hrest⟩
    · cases u with
      | nil =>
        -- the character ends where `s` does, and the byte is the next character
        rw [List.append_nil] at hd
        obtain ⟨-, ht⟩ := ih (s := []) hrest
        exact ⟨⟨[d], by simp [hd]⟩, ht⟩
      | cons x u =>
        obtain ⟨rfl, ht⟩ := List.cons.inj hrest
        rcases utf8EncodeChar_cases d with ⟨b, -, hb⟩ | hb
        · have hlen := congrArg List.length (hb.symm.trans hd)
          simp only [List.length_cons, List.length_nil, List.length_append] at hlen
          have hs : s = [] := List.length_eq_zero_iff.1 (by omega)
          have hu : u = [] := List.length_eq_zero_iff.1 (by omega)
          subst hs hu
          exact ⟨isUtf8_nil, cs, by simpa using ht⟩
        · exact absurd (hb c (by simp [hd])) (UInt8.not_le.2 hc)
    · obtain ⟨hu, ht⟩ := ih hrest.symm
      subst hs
      exact ⟨IsUtf8.append ⟨[d], by simp⟩ hu, ht⟩

theorem isUtf8_of_ascii {s : Bytes} (h : ∀ c ∈ s, c < 128) : IsUtf8 s := by
  induction s with
  | nil => exact isUtf8_nil
  | cons c s ih =>
    have hc : c.toNat < 128 := UInt8.lt_iff_toNat_lt.1 (h c List.mem_cons_self)
    have hbyte : String.utf8EncodeChar (Char.ofNat c.toNat) = [c] := by
      have hval : (Char.ofNat c.toNat).val.toNat = c.toNat := by
        rw [Char.ofNat, dif_pos (.inl (by omega))]
        rfl
      rw [String.utf8EncodeChar]
      simp [hval, show c.toNat ≤ 127 by omega]
    have hc' : IsUtf8 [c] := ⟨[Char.ofNat c.toNat], by simp [hbyte]⟩
    exact hc'.append (ih fun d hd => h d (List.mem_cons_of_mem c hd))

theorem IsUtf8.of_append {s t : Bytes} (hs : ∀ c ∈ s, c < 128) (h : IsUtf8 (s ++ t)) :
    IsUtf8 t := by
  induction s with
  | nil => exact h
  | cons c s ih =>
    refine ih (fun d hd => hs d (List.mem_cons_of_mem c hd)) ?_
    exact (IsUtf8.split (s := []) (hs c List.mem_cons_self) h).2

/-! ### Strings -/

/-- The characters behind a backslash that stand for one character. -/
def shortEscape (e : UInt8) : Option UInt8 :=
  if e = byte '"' ∨ e = byte '\\' ∨ e = byte '/' then some e
  else if e = byte 'b' then some 8
  else if e = byte 'f' then some 12
  else if e = byte 'n' then some 10
  else if e = byte 'r' then some 13
  else if e = byte 't' then some 9
  else none

/-- The number of four hexadecimal digits. -/
def hexQuad (a b c d : UInt8) : Option ℕ := do
  return (((← hexDigit a) * 16 + (← hexDigit b)) * 16 + (← hexDigit c)) * 16 + (← hexDigit d)

/-- A byte that stands for itself in a string. -/
def IsPlain (c : UInt8) : Prop := 0x20 ≤ c ∧ c ≠ byte '"' ∧ c ≠ byte '\\'

instance : DecidablePred IsPlain := fun _ => inferInstanceAs (Decidable (_ ∧ _))

theorem not_isPlain_backslash : ¬ IsPlain (byte '\\') := by decide

theorem not_isPlain_quote : ¬ IsPlain (byte '"') := by decide

/-- What may stand behind a backslash, and what it stands for. -/
inductive Escape : Bytes → Bytes → Prop
  | short {e c : UInt8} (he : shortEscape e = some c) : Escape [e] [c]
  | unicode {a b c d : UInt8} {n : ℕ} (hn : hexQuad a b c d = some n)
    (hvalid : n < 0xD800 ∨ 0xE000 ≤ n) :
    Escape [byte 'u', a, b, c, d] (String.utf8EncodeChar (Char.ofNat n))
  /-- A character beyond the first plane, as two halves. -/
  | surrogates {a b c d a' b' c' d' : UInt8} {m n : ℕ} (hm : hexQuad a b c d = some m)
    (hhigh : 0xD800 ≤ m ∧ m < 0xDC00) (hn : hexQuad a' b' c' d' = some n)
    (hlow : 0xDC00 ≤ n ∧ n < 0xE000) :
    Escape [byte 'u', a, b, c, d, byte '\\', byte 'u', a', b', c', d']
      (String.utf8EncodeChar (Char.ofNat (0x10000 + (m - 0xD800) * 0x400 + (n - 0xDC00))))

theorem shortEscape_u : shortEscape (byte 'u') = none := by decide

/-- Where an escape ends, and what it stands for, is determined. -/
theorem Escape.unique {e u e' u' s s' : Bytes} (h : Escape e u) (h' : Escape e' u')
    (heq : e ++ s = e' ++ s') : u = u' ∧ s = s' := by
  cases h with
  | short he =>
    cases h' with
    | short he' =>
      obtain ⟨rfl, rfl⟩ := List.cons.inj heq
      exact ⟨by rw [Option.some.inj (he.symm.trans he')], rfl⟩
    | unicode | surrogates => simp [(List.cons.inj heq).1, shortEscape_u] at he
  | unicode hn hvalid =>
    cases h' with
    | short he' => simp [← (List.cons.inj heq).1, shortEscape_u] at he'
    | unicode hn' _ =>
      simp only [List.cons_append, List.nil_append, List.cons.injEq, true_and] at heq
      obtain ⟨rfl, rfl, rfl, rfl, rfl⟩ := heq
      exact ⟨by rw [Option.some.inj (hn.symm.trans hn')], rfl⟩
    | surrogates hm' hhigh' _ _ =>
      simp only [List.cons_append, List.cons.injEq, true_and] at heq
      obtain ⟨rfl, rfl, rfl, rfl, -⟩ := heq
      have := Option.some.inj (hn.symm.trans hm')
      omega
  | surrogates hm hhigh hn hlow =>
    cases h' with
    | short he' => simp [← (List.cons.inj heq).1, shortEscape_u] at he'
    | unicode hn' hvalid' =>
      simp only [List.cons_append, List.cons.injEq, true_and] at heq
      obtain ⟨rfl, rfl, rfl, rfl, -⟩ := heq
      have := Option.some.inj (hm.symm.trans hn')
      omega
    | surrogates hm' _ hn' _ =>
      simp only [List.cons_append, List.nil_append, List.cons.injEq, true_and] at heq
      obtain ⟨rfl, rfl, rfl, rfl, rfl, rfl, rfl, rfl, rfl⟩ := heq
      exact ⟨by rw [Option.some.inj (hm.symm.trans hm'), Option.some.inj (hn.symm.trans hn')], rfl⟩

theorem Escape.length_le {e u : Bytes} (h : Escape e u) : u.length ≤ e.length := by
  cases h with
  | short => rfl
  | unicode | surrogates =>
    rw [String.length_utf8EncodeChar]
    exact (Char.utf8Size_le_four _).trans (by simp)

/-- What stands between the quotation marks of a string, and the string. -/
inductive Chars : Bytes → Bytes → Prop
  | nil : Chars [] []
  | plain {c : UInt8} {raw t : Bytes} (hc : IsPlain c) (h : Chars raw t) : Chars (c :: raw) (c :: t)
  | escape {e u raw t : Bytes} (he : Escape e u) (h : Chars raw t) :
    Chars (byte '\\' :: (e ++ raw)) (u ++ t)

/-- The quotation mark that ends a string is found, and the string is determined. -/
theorem Chars.unique {raw t : Bytes} (h : Chars raw t) :
    ∀ {raw' t' s s' : Bytes}, Chars raw' t' →
      raw ++ byte '"' :: s = raw' ++ byte '"' :: s' → t = t' ∧ s = s' := by
  induction h with
  | nil =>
    intro raw' t' s s' h' heq
    cases h' with
    | nil => simpa using heq
    | plain hc _ => exact absurd ((List.cons.inj heq).1 ▸ hc) not_isPlain_quote
    | escape => simp [byte] at heq
  | plain hc _ ih =>
    intro raw' t' s s' h' heq
    cases h' with
    | nil => exact absurd ((List.cons.inj heq).1 ▸ hc) not_isPlain_quote
    | plain _ h' =>
      obtain ⟨rfl, htail⟩ := List.cons.inj heq
      obtain ⟨rfl, hs⟩ := ih h' htail
      exact ⟨rfl, hs⟩
    | escape => exact absurd ((List.cons.inj heq).1 ▸ hc) not_isPlain_backslash
  | escape he _ ih =>
    intro raw' t' s s' h' heq
    cases h' with
    | nil => simp [byte] at heq
    | plain hc _ => exact absurd ((List.cons.inj heq).1 ▸ hc) not_isPlain_backslash
    | escape he' h' =>
      simp only [List.cons_append, List.append_assoc, List.cons.injEq, true_and] at heq
      obtain ⟨rfl, htail⟩ := he.unique he' heq
      obtain ⟨rfl, hs⟩ := ih h' htail
      exact ⟨rfl, hs⟩

/-- All bytes stand for themselves. -/
def Clean (t : Bytes) : Prop := ∀ c ∈ t, IsPlain c

instance : DecidablePred Clean := fun t => List.decidableBAll IsPlain t

theorem Clean.chars {t : Bytes} (h : Clean t) : Chars t t := by
  induction t with
  | nil => exact .nil
  | cons c t ih =>
    exact .plain (h c List.mem_cons_self) (ih fun d hd => h d (List.mem_cons_of_mem c hd))

/-- Escaping makes a string longer. -/
theorem Chars.length_le {raw t : Bytes} (h : Chars raw t) :
    t.length ≤ raw.length ∧ (t.length = raw.length → Clean t) := by
  induction h with
  | nil => exact ⟨le_rfl, fun _ c hc => absurd hc List.not_mem_nil⟩
  | plain hc _ ih =>
    refine ⟨Nat.succ_le_succ ih.1, fun heq => ?_⟩
    exact List.forall_mem_cons.2 ⟨hc, ih.2 (Nat.succ.inj heq)⟩
  | escape he _ ih =>
    have hlen := he.length_le
    simp only [List.length_cons, List.length_append]
    exact ⟨by omega, fun heq => by omega⟩

/-! ### Lexemes -/

inductive Punct where
  | openBrace
  | closeBrace
  | openBracket
  | closeBracket
  | colon
  | comma
  deriving DecidableEq

def Punct.byte : Punct → UInt8
  | openBrace => Text.byte '\x7b'
  | closeBrace => Text.byte '\x7d'
  | openBracket => Text.byte '['
  | closeBracket => Text.byte ']'
  | colon => Text.byte ':'
  | comma => Text.byte ','

def isBlank (c : UInt8) : Bool := c == 0x20 || c == 9 || c == 10 || c == 13

/-- The bytes of literals and numerals. -/
def isWordByte (c : UInt8) : Bool :=
  isAlnum c || c == byte '-' || c == byte '+' || c == byte '.'

/-- A literal or a numeral. -/
abbrev Word := {w : Bytes // w ≠ [] ∧ ∀ c ∈ w, isWordByte c = true}

inductive Lexeme where
  | punct (p : Punct)
  | word (w : Word)
  | string (t : Bytes)
  deriving DecidableEq

/-- A text and its lexemes.  A word extends as far as it can. -/
inductive Lexes : Bytes → List Lexeme → Prop
  | nil : Lexes [] []
  | blank {c : UInt8} {s : Bytes} {ls : List Lexeme} (hc : isBlank c = true) (h : Lexes s ls) :
    Lexes (c :: s) ls
  | punct {p : Punct} {s : Bytes} {ls : List Lexeme} (h : Lexes s ls) :
    Lexes (p.byte :: s) (.punct p :: ls)
  | word {w : Word} {s : Bytes} {ls : List Lexeme} (hend : ∀ c ∈ s.head?, isWordByte c = false)
    (h : Lexes s ls) : Lexes (w.1 ++ s) (.word w :: ls)
  | string {raw t s : Bytes} {ls : List Lexeme} (hraw : Chars raw t) (h : Lexes s ls) :
    Lexes (byte '"' :: (raw ++ byte '"' :: s)) (.string t :: ls)

/-- What a lexeme or a blank starts with. -/
inductive Kind where
  | blank
  | punct (p : Punct)
  | word
  | quote
  | other
  deriving DecidableEq

def kind (c : UInt8) : Kind :=
  if isBlank c then .blank
  else if isWordByte c then .word
  else if c = byte '"' then .quote
  else if c = byte '\x7b' then .punct .openBrace
  else if c = byte '\x7d' then .punct .closeBrace
  else if c = byte '[' then .punct .openBracket
  else if c = byte ']' then .punct .closeBracket
  else if c = byte ':' then .punct .colon
  else if c = byte ',' then .punct .comma
  else .other

theorem kind_blank {c : UInt8} (h : isBlank c = true) : kind c = .blank := by simp [kind, h]

theorem kind_word {c : UInt8} (h : isWordByte c = true) : kind c = .word := by
  exact forall_byte (p := fun c => isWordByte c = true → kind c = .word) (by decide +kernel) c h

theorem kind_punct (p : Punct) : kind p.byte = .punct p := by cases p <;> decide

theorem kind_quote : kind (byte '"') = .quote := by decide

theorem Word.eq_cons (w : Word) : ∃ c r, w.1 = c :: r ∧ kind c = .word := by
  obtain ⟨w, hne, hw⟩ := w
  cases w with
  | nil => exact absurd rfl hne
  | cons c r => exact ⟨c, r, rfl, kind_word (hw c List.mem_cons_self)⟩

theorem takeWhile_word (w : Word) {s : Bytes} (hend : ∀ c ∈ s.head?, isWordByte c = false) :
    (w.1 ++ s).takeWhile isWordByte = w.1 := by
  rw [List.takeWhile_append_of_pos w.2.2]
  cases s with
  | nil => simp
  | cons c s => simp [hend c rfl]

/-- The first byte says which lexeme comes first. -/
theorem Lexes.of_cons {c : UInt8} {s : Bytes} {ls : List Lexeme} (h : Lexes (c :: s) ls) :
    match kind c with
    | .blank => Lexes s ls
    | .punct p => ∃ ls', ls = .punct p :: ls' ∧ Lexes s ls'
    | .word => ∃ w : Word, ∃ s' ls', c :: s = w.1 ++ s' ∧
        (∀ c ∈ s'.head?, isWordByte c = false) ∧ ls = .word w :: ls' ∧ Lexes s' ls'
    | .quote => ∃ raw t s' ls', s = raw ++ byte '"' :: s' ∧ Chars raw t ∧ ls = .string t :: ls' ∧
        Lexes s' ls'
    | .other => False := by
  generalize hx : c :: s = x at h
  cases h with
  | nil => cases hx
  | blank hc h =>
    cases hx
    rw [kind_blank hc]
    exact h
  | punct h =>
    cases hx
    rw [kind_punct]
    exact ⟨_, rfl, h⟩
  | @word w s' ls' hend h =>
    obtain ⟨d, r, hw, hk⟩ := w.eq_cons
    have hc : c = d := by
      rw [hw] at hx
      exact (List.cons.inj hx).1
    rw [hc, hk]
    exact ⟨w, s', ls', rfl, hend, rfl, h⟩
  | string hraw h =>
    cases hx
    rw [kind_quote]
    exact ⟨_, _, _, _, rfl, hraw, rfl, h⟩

/-- **A text has one list of lexemes.** -/
theorem Lexes.unique {s : Bytes} {ls ls' : List Lexeme} (h : Lexes s ls) (h' : Lexes s ls') :
    ls = ls' := by
  induction h generalizing ls' with
  | nil =>
    generalize hx : ([] : Bytes) = x at h'
    cases h' with
    | nil => rfl
    | word =>
      obtain ⟨c, r, hw, -⟩ := Word.eq_cons ‹Word›
      simp [hw] at hx
    | blank | punct | string => cases hx
  | blank hc _ ih =>
    have hcons := h'.of_cons
    rw [kind_blank hc] at hcons
    exact ih hcons
  | punct _ ih =>
    have hcons := h'.of_cons
    rw [kind_punct] at hcons
    obtain ⟨ls'', rfl, hs⟩ := hcons
    rw [ih hs]
  | @word w s ls hend _ ih =>
    obtain ⟨c, r, hw, hk⟩ := w.eq_cons
    rw [hw, List.cons_append] at h'
    have hcons := h'.of_cons
    rw [hk] at hcons
    obtain ⟨w', s', ls'', heq, hend', rfl, hs⟩ := hcons
    rw [← List.cons_append, ← hw] at heq
    have hword : w.1 = w'.1 := by
      rw [← takeWhile_word w hend, heq, takeWhile_word w' hend']
    rw [hword] at heq
    rw [Subtype.ext hword, ih (List.append_cancel_left heq ▸ hs)]
  | string hraw _ ih =>
    have hcons := h'.of_cons
    rw [kind_quote] at hcons
    obtain ⟨raw', t', s', ls'', heq, hraw', rfl, hs⟩ := hcons
    obtain ⟨rfl, rfl⟩ := hraw.unique hraw' heq
    rw [ih hs]

/-! ### Values -/

def IsDigits (s : Bytes) : Prop := s ≠ [] ∧ ∀ d ∈ s, isDigit d = true

/-- The optional sign, the integer, the fraction and the exponent of a number. -/
inductive IsNumeral : Bytes → Prop
  | mk {sign int frac exp : Bytes} (hsign : sign = [] ∨ sign = [byte '-'])
    (hint : IsDigits int) (hzero : int.head? = some (byte '0') → int = [byte '0'])
    (hfrac : frac = [] ∨ ∃ ds, IsDigits ds ∧ frac = byte '.' :: ds)
    (hexp : exp = [] ∨ ∃ e sign ds, (e = byte 'e' ∨ e = byte 'E') ∧
      (sign = [] ∨ sign = [byte '-'] ∨ sign = [byte '+']) ∧ IsDigits ds ∧
      exp = e :: (sign ++ ds)) :
    IsNumeral (sign ++ (int ++ (frac ++ exp)))

theorem isWordByte_of_isDigit {c : UInt8} (h : isDigit c = true) : isWordByte c = true := by
  simp [isWordByte, isAlnum, h]

theorem IsDigits.isWordByte {ds : Bytes} (h : IsDigits ds) : ∀ c ∈ ds, isWordByte c = true :=
  fun c hc => isWordByte_of_isDigit (h.2 c hc)

theorem IsNumeral.isWordByte {s : Bytes} (h : IsNumeral s) : ∀ c ∈ s, isWordByte c = true := by
  obtain ⟨hsign, hint, -, hfrac, hexp⟩ := h
  simp only [List.forall_mem_append]
  refine ⟨?_, hint.isWordByte, ?_, ?_⟩
  · rcases hsign with rfl | rfl <;> exact forall_mem_of_all (by decide)
  · rcases hfrac with rfl | ⟨ds, hds, rfl⟩
    · simp
    · exact List.forall_mem_cons.2 ⟨by decide, hds.isWordByte⟩
  · rcases hexp with rfl | ⟨e, sign, ds, he, hs, hds, rfl⟩
    · simp
    · refine List.forall_mem_cons.2 ⟨?_, List.forall_mem_append.2 ⟨?_, hds.isWordByte⟩⟩
      · rcases he with rfl | rfl <;> decide
      · rcases hs with rfl | rfl | rfl <;> exact forall_mem_of_all (by decide)

/-- A numeral starts with no letter. -/
theorem IsNumeral.head {s : Bytes} (h : IsNumeral s) :
    ∃ c r, s = c :: r ∧ isAlpha c = false := by
  obtain ⟨hsign, ⟨hne, hdigits⟩, -, -, -⟩ := h
  rcases hsign with rfl | rfl
  · obtain ⟨d, ds, rfl⟩ := List.exists_cons_of_ne_nil hne
    refine ⟨d, _, rfl, ?_⟩
    exact forall_byte (p := fun d => isDigit d = true → isAlpha d = false) (by decide +kernel) d
      (hdigits d List.mem_cons_self)
  · exact ⟨byte '-', _, rfl, by decide⟩

abbrev Numeral := {s : Bytes // IsNumeral s}

/-- A JSON value.  Numbers are kept as they are written, and members in their order. -/
inductive Value where
  | null
  | bool (b : Bool)
  | number (n : Numeral)
  | string (t : Bytes)
  | array (vs : List Value)
  | object (ms : List (Bytes × Value))

def Numeral.word (n : Numeral) : Word :=
  ⟨n.1, by obtain ⟨c, r, h, -⟩ := n.2.head; simp [h], n.2.isWordByte⟩

def nullWord : Word := ⟨str "null", by decide, forall_mem_of_all (by decide)⟩

def boolWord (b : Bool) : Word :=
  ⟨boolLit b, by cases b <;> decide, by cases b <;> exact forall_mem_of_all (by decide)⟩

/-- A comma, but not in front of the first element or member. -/
def separator (first : Bool) : List Lexeme := if first then [] else [.punct .comma]

mutual
def Value.lexemes : Value → List Lexeme
  | .null => [.word nullWord]
  | .bool b => [.word (boolWord b)]
  | .number n => [.word n.word]
  | .string t => [.string t]
  | .array vs => .punct .openBracket :: elementLexemes true vs
  | .object ms => .punct .openBrace :: memberLexemes true ms
/-- Elements and the end of the array. -/
def elementLexemes (first : Bool) : List Value → List Lexeme
  | [] => [.punct .closeBracket]
  | v :: vs => separator first ++ (v.lexemes ++ elementLexemes false vs)
/-- Members and the end of the object. -/
def memberLexemes (first : Bool) : List (Bytes × Value) → List Lexeme
  | [] => [.punct .closeBrace]
  | (k, v) :: ms =>
    separator first ++ (.string k :: .punct .colon :: (v.lexemes ++ memberLexemes false ms))
end

/-! ### Decoding -/

/-- The text denotes the value. -/
structure Denotes (s : Bytes) (v : Value) : Prop where
  utf8 : IsUtf8 s
  lexes : Lexes s v.lexemes

/-- A numeral is no literal. -/
theorem Numeral.word_ne (n : Numeral) {c : UInt8} {r : Bytes} {w : Word} (hw : w.1 = c :: r)
    (hc : isAlpha c = true) : w ≠ n.word := by
  intro h
  obtain ⟨d, t, hn, hd⟩ := n.2.head
  have hcd : c :: r = d :: t := hw.symm.trans ((congrArg Subtype.val h).trans hn)
  rw [← (List.cons.inj hcd).1, hc] at hd
  cases hd

theorem nullWord_ne_word (n : Numeral) : nullWord ≠ n.word :=
  n.word_ne (c := byte 'n') (r := str "ull") (by decide) (by decide)

theorem boolWord_ne_word (b : Bool) (n : Numeral) : boolWord b ≠ n.word := by
  cases b
  · exact n.word_ne (c := byte 'f') (r := str "alse") (by decide) (by decide)
  · exact n.word_ne (c := byte 't') (r := str "rue") (by decide) (by decide)

theorem nullWord_ne_boolWord (b : Bool) : nullWord ≠ boolWord b := by cases b <;> decide

theorem boolWord_injective : Function.Injective boolWord := by
  intro a b
  cases a <;> cases b <;> decide

theorem Numeral.word_injective : Function.Injective Numeral.word := fun _ _ h =>
  Subtype.ext (congrArg (fun w : Word => w.1) h)

/-- An array does not end where an element starts. -/
theorem Value.lexemes_ne_close (v : Value) (ls ls' : List Lexeme) :
    v.lexemes ++ ls ≠ .punct .closeBracket :: ls' := by
  cases v <;> simp [Value.lexemes]

-- induction over the value, with its elements and its members; the rest of the list is free, so that
-- the lexemes behind an element can be compared too
mutual
theorem Value.lexemes_append_inj (v w : Value) {r r' : List Lexeme}
    (h : v.lexemes ++ r = w.lexemes ++ r') : v = w ∧ r = r' := by
  cases v with
  | null =>
    cases w with
    | null => simpa [Value.lexemes] using h
    | _ => simp [Value.lexemes, nullWord_ne_boolWord, nullWord_ne_word] at h
  | bool b =>
    cases w with
    | bool => simpa [Value.lexemes, boolWord_injective.eq_iff] using h
    | _ => simp [Value.lexemes, (nullWord_ne_boolWord b).symm, boolWord_ne_word] at h
  | number n =>
    cases w with
    | number => simpa [Value.lexemes, Numeral.word_injective.eq_iff] using h
    | _ => simp [Value.lexemes, (nullWord_ne_word n).symm, (boolWord_ne_word _ n).symm] at h
  | string t =>
    cases w with
    | string => simpa [Value.lexemes] using h
    | _ => simp [Value.lexemes] at h
  | array vs =>
    cases w with
    | array ws =>
      simp only [Value.lexemes, List.cons_append, List.cons.injEq, true_and] at h
      obtain ⟨rfl, hr⟩ := elementLexemes_append_inj true vs ws h
      exact ⟨rfl, hr⟩
    | _ => simp [Value.lexemes] at h
  | object ms =>
    cases w with
    | object ns =>
      simp only [Value.lexemes, List.cons_append, List.cons.injEq, true_and] at h
      obtain ⟨rfl, hr⟩ := memberLexemes_append_inj true ms ns h
      exact ⟨rfl, hr⟩
    | _ => simp [Value.lexemes] at h
theorem elementLexemes_append_inj (first : Bool) (vs ws : List Value) {r r' : List Lexeme}
    (h : elementLexemes first vs ++ r = elementLexemes first ws ++ r') : vs = ws ∧ r = r' := by
  have hclose (v : Value) (ls ls' : List Lexeme) :
      separator first ++ (v.lexemes ++ ls) ≠ .punct .closeBracket :: ls' := by
    cases first
    · simp [separator]
    · exact v.lexemes_ne_close ls ls'
  cases vs with
  | nil =>
    cases ws with
    | nil => simpa [elementLexemes] using h
    | cons w ws =>
      simp only [elementLexemes, List.append_assoc] at h
      exact absurd h.symm (hclose w _ _)
  | cons v vs =>
    cases ws with
    | nil =>
      simp only [elementLexemes, List.append_assoc] at h
      exact absurd h (hclose v _ _)
    | cons w ws =>
      simp only [elementLexemes, List.append_assoc, List.append_cancel_left_eq] at h
      obtain ⟨hv, hrest⟩ := v.lexemes_append_inj w h
      obtain ⟨hvs, hr⟩ := elementLexemes_append_inj false vs ws hrest
      exact ⟨by rw [hv, hvs], hr⟩
theorem memberLexemes_append_inj (first : Bool) (ms ns : List (Bytes × Value))
    {r r' : List Lexeme} (h : memberLexemes first ms ++ r = memberLexemes first ns ++ r') :
    ms = ns ∧ r = r' := by
  have hclose (k : Bytes) (ls ls' : List Lexeme) :
      separator first ++ .string k :: ls ≠ .punct .closeBrace :: ls' := by
    cases first <;> simp [separator]
  cases ms with
  | nil =>
    cases ns with
    | nil => simpa [memberLexemes] using h
    | cons n ns =>
      simp only [memberLexemes, List.append_assoc, List.cons_append] at h
      exact absurd h.symm (hclose n.1 _ _)
  | cons m ms =>
    cases ns with
    | nil =>
      simp only [memberLexemes, List.append_assoc, List.cons_append] at h
      exact absurd h (hclose m.1 _ _)
    | cons n ns =>
      obtain ⟨k, v⟩ := m
      obtain ⟨l, w⟩ := n
      simp only [memberLexemes, List.append_assoc, List.append_cancel_left_eq, List.cons_append,
        List.cons.injEq, Lexeme.string.injEq, true_and] at h
      obtain ⟨hk, h⟩ := h
      obtain ⟨hv, hrest⟩ := v.lexemes_append_inj w h
      obtain ⟨hms, hr⟩ := memberLexemes_append_inj false ms ns hrest
      exact ⟨by rw [hk, hv, hms], hr⟩
end

theorem Value.lexemes_injective : Function.Injective Value.lexemes := by
  intro v w h
  exact (@Value.lexemes_append_inj v w [] [] (by rw [h])).1

/-- **A text denotes at most one value.** -/
theorem Denotes.unique {s : Bytes} {v w : Value} (hv : Denotes s v) (hw : Denotes s w) : v = w :=
  Value.lexemes_injective (hv.lexes.unique hw.lexes)

open Classical in
/-- The value that a text denotes, if it is a JSON text. -/
noncomputable def decode (s : Bytes) : Option Value :=
  if h : ∃ v, Denotes s v then some h.choose else none

theorem decode_eq_some_iff {s : Bytes} {v : Value} : decode s = some v ↔ Denotes s v := by
  unfold decode
  split_ifs with h
  · rw [Option.some.injEq]
    constructor
    · rintro rfl
      exact h.choose_spec
    · exact fun hv => h.choose_spec.unique hv
  · simp only [false_iff]
    exact fun hv => h ⟨v, hv⟩

/-! ### Texts without escapes -/

/-- The lexeme as it stands in a text, with a string as it is. -/
def Lexeme.render : Lexeme → Bytes
  | .punct p => [p.byte]
  | .word w => w.1
  | .string t => byte '"' :: (t ++ [byte '"'])

/-- The text of a value without blanks, with its strings as they are. -/
def Value.render (v : Value) : Bytes := v.lexemes.flatMap Lexeme.render

theorem Lexeme.render_punct (p : Punct) : (Lexeme.punct p).render = match p with
    | .openBrace => str "\x7b"
    | .closeBrace => str "\x7d"
    | .openBracket => str "["
    | .closeBracket => str "]"
    | .colon => str ":"
    | .comma => str "," := by
  cases p <;> rfl

theorem Lexeme.render_string (t : Bytes) :
    (Lexeme.string t).render = str "\"" ++ (t ++ str "\"") := rfl

theorem Value.render_string (t : Bytes) :
    (Value.string t).render = str "\"" ++ (t ++ str "\"") := by
  simp only [Value.render, Value.lexemes, List.flatMap_singleton, Lexeme.render_string]

theorem Value.render_number (n : Numeral) : (Value.number n).render = n.1 := by
  simp only [Value.render, Value.lexemes, List.flatMap_singleton]
  rfl

/-- Pieces, with a comma behind each but the last. -/
def withCommas : List Bytes → List Bytes
  | [] => []
  | [p] => [p]
  | p :: q :: ps => (p ++ str ",") :: withCommas (q :: ps)

theorem render_elementLexemes (vs : List Value) :
    (elementLexemes true vs).flatMap Lexeme.render =
      (withCommas (vs.map Value.render)).flatten ++ str "]" := by
  induction vs with
  | nil => rfl
  | cons v vs ih =>
    have hcons : (elementLexemes true (v :: vs)).flatMap Lexeme.render =
        v.render ++ (elementLexemes false vs).flatMap Lexeme.render := by
      rw [elementLexemes, separator, if_pos rfl, List.nil_append, List.flatMap_append, Value.render]
    cases vs with
    | nil =>
      rw [hcons]
      simp [withCommas, elementLexemes, Lexeme.render_punct]
    | cons w vs =>
      have hcomma : elementLexemes false (w :: vs) =
          .punct .comma :: elementLexemes true (w :: vs) := by
        simp [elementLexemes, separator]
      rw [hcons, hcomma, List.flatMap_cons, ih]
      simp [withCommas, Lexeme.render_punct]

/-- The text of an array, element by element. -/
theorem Value.render_array (vs : List Value) :
    (Value.array vs).render = str "[" ++ ((withCommas (vs.map Value.render)).flatten ++ str "]") := by
  rw [← render_elementLexemes, Value.render, Value.lexemes, List.flatMap_cons, Lexeme.render_punct]

/-- A member of an object, without escapes. -/
def renderMember (m : Bytes × Value) : Bytes :=
  (Value.string m.1).render ++ (str ":" ++ m.2.render)

theorem render_memberLexemes (ms : List (Bytes × Value)) :
    (memberLexemes true ms).flatMap Lexeme.render =
      (withCommas (ms.map renderMember)).flatten ++ str "\x7d" := by
  induction ms with
  | nil => rfl
  | cons m ms ih =>
    have hcons : (memberLexemes true (m :: ms)).flatMap Lexeme.render =
        renderMember m ++ (memberLexemes false ms).flatMap Lexeme.render := by
      rw [memberLexemes, separator, if_pos rfl, List.nil_append]
      simp [renderMember, Value.render, Value.lexemes, Lexeme.render_punct]
    cases ms with
    | nil =>
      rw [hcons]
      simp [withCommas, memberLexemes, Lexeme.render_punct]
    | cons n ms =>
      have hcomma : memberLexemes false (n :: ms) =
          .punct .comma :: memberLexemes true (n :: ms) := by
        simp [memberLexemes, separator]
      rw [hcons, hcomma, List.flatMap_cons, ih]
      simp [withCommas, Lexeme.render_punct]

/-- The text of an object, member by member. -/
theorem Value.render_object (ms : List (Bytes × Value)) :
    (Value.object ms).render =
      str "\x7b" ++ ((withCommas (ms.map renderMember)).flatten ++ str "\x7d") := by
  rw [← render_memberLexemes, Value.render, Value.lexemes, List.flatMap_cons, Lexeme.render_punct]

/-- A text is at least as long as its lexemes, and longer if a string is not clean. -/
theorem Lexes.length_le {s : Bytes} {ls : List Lexeme} (h : Lexes s ls) :
    (ls.flatMap Lexeme.render).length ≤ s.length ∧
      ((ls.flatMap Lexeme.render).length = s.length → ∀ t, .string t ∈ ls → Clean t) := by
  induction h with
  | nil => simp
  | blank hc _ ih =>
    rw [List.length_cons]
    exact ⟨by omega, fun heq => by omega⟩
  | punct _ ih =>
    simp only [List.flatMap_cons, Lexeme.render, List.length_append, List.length_cons,
      List.length_nil, List.mem_cons, reduceCtorEq, false_or]
    exact ⟨by omega, fun heq => ih.2 (by omega)⟩
  | word _ _ ih =>
    simp only [List.flatMap_cons, Lexeme.render, List.length_append, List.mem_cons, reduceCtorEq,
      false_or]
    exact ⟨by omega, fun heq => ih.2 (by omega)⟩
  | string hraw _ ih =>
    have hlen := hraw.length_le
    simp only [List.flatMap_cons, Lexeme.render, List.length_append, List.length_cons,
      List.length_nil, List.mem_cons, Lexeme.string.injEq]
    refine ⟨by omega, fun heq t ht => ?_⟩
    rcases ht with rfl | ht
    · exact hlen.2 (by omega)
    · exact ih.2 (by omega) t ht

def Lexeme.isWord : Lexeme → Bool
  | .word _ => true
  | .punct _ | .string _ => false

/-- No two words touch. -/
def Apart : List Lexeme → Prop := List.IsChain fun l l' => l.isWord = true → l'.isWord = false

theorem apart_cons {l : Lexeme} {ls : List Lexeme} (hl : l.isWord = false) (h : Apart ls) :
    Apart (l :: ls) :=
  List.isChain_cons.2 ⟨fun _ _ hw => absurd hw (by simp [hl]), h⟩

theorem separator_append (first : Bool) {ls : List Lexeme} (h : Apart ls) :
    Apart (separator first ++ ls) := by
  cases first
  · exact apart_cons rfl h
  · exact h

mutual
theorem Value.apart_append (v : Value) {ls : List Lexeme} (h : Apart ls)
    (hhead : ∀ l ∈ ls.head?, l.isWord = false) : Apart (v.lexemes ++ ls) := by
  cases v with
  | null | bool | number => exact List.isChain_cons.2 ⟨fun l hl _ => hhead l hl, h⟩
  | string => exact apart_cons rfl h
  | array vs => exact apart_cons rfl (elementLexemes_apart true vs h)
  | object ms => exact apart_cons rfl (memberLexemes_apart true ms h)
theorem elementLexemes_apart (first : Bool) (vs : List Value) {ls : List Lexeme} (h : Apart ls) :
    Apart (elementLexemes first vs ++ ls) := by
  cases vs with
  | nil => exact apart_cons rfl h
  | cons v vs =>
    simp only [elementLexemes, List.append_assoc]
    refine separator_append first (v.apart_append (elementLexemes_apart false vs h) ?_)
    cases vs <;> simp [elementLexemes, separator, Lexeme.isWord]
theorem memberLexemes_apart (first : Bool) (ms : List (Bytes × Value)) {ls : List Lexeme}
    (h : Apart ls) : Apart (memberLexemes first ms ++ ls) := by
  cases ms with
  | nil => exact apart_cons rfl h
  | cons m ms =>
    simp only [memberLexemes, List.append_assoc, List.cons_append]
    refine separator_append first (apart_cons rfl (apart_cons rfl ?_))
    refine m.2.apart_append (memberLexemes_apart false ms h) ?_
    cases ms <;> simp [memberLexemes, separator, Lexeme.isWord]
end

theorem Value.apart_lexemes (v : Value) : Apart v.lexemes := by
  have h : Apart (v.lexemes ++ []) := v.apart_append .nil (by simp)
  rwa [List.append_nil] at h

theorem Punct.isWordByte_byte (p : Punct) : isWordByte p.byte = false := by cases p <;> decide

theorem lexes_render {ls : List Lexeme} (h : Apart ls) (hclean : ∀ t, .string t ∈ ls → Clean t) :
    Lexes (ls.flatMap Lexeme.render) ls := by
  induction ls with
  | nil => exact .nil
  | cons l ls ih =>
    have hls := ih (List.isChain_cons.1 h).2 fun t ht => hclean t (List.mem_cons_of_mem l ht)
    rw [List.flatMap_cons]
    cases l with
    | punct p => exact .punct hls
    | string t =>
      have ht := (hclean t List.mem_cons_self).chars
      simpa [Lexeme.render] using Lexes.string ht hls
    | word w =>
      refine .word ?_ hls
      -- the next lexeme is no word and its first byte no byte of a word
      cases ls with
      | nil => simp
      | cons l' ls =>
        have hl' := (List.isChain_cons.1 h).1 l' rfl rfl
        cases l' with
        | word => cases hl'
        | punct p => simp [Lexeme.render, p.isWordByte_byte]
        | string => simp [Lexeme.render, show isWordByte (byte '"') = false by decide]

theorem isWordByte_lt {c : UInt8} (h : isWordByte c = true) : c < 128 :=
  forall_byte (p := fun c => isWordByte c = true → c < 128) (by decide +kernel) c h

theorem Punct.byte_lt (p : Punct) : p.byte < 128 := by cases p <;> decide

theorem isUtf8_render_iff (ls : List Lexeme) :
    IsUtf8 (ls.flatMap Lexeme.render) ↔ ∀ t, .string t ∈ ls → IsUtf8 t := by
  induction ls with
  | nil => simp [isUtf8_nil]
  | cons l ls ih =>
    rw [List.flatMap_cons]
    cases l with
    | punct p =>
      have hp : ∀ c ∈ [p.byte], c < 128 := by simp [p.byte_lt]
      simp only [Lexeme.render, List.mem_cons, reduceCtorEq, false_or]
      rw [← ih]
      exact ⟨fun h => h.of_append hp, fun h => (isUtf8_of_ascii hp).append h⟩
    | word w =>
      have hw : ∀ c ∈ w.1, c < 128 := fun c hc => isWordByte_lt (w.2.2 c hc)
      simp only [Lexeme.render, List.mem_cons, reduceCtorEq, false_or]
      rw [← ih]
      exact ⟨fun h => h.of_append hw, fun h => (isUtf8_of_ascii hw).append h⟩
    | string t =>
      have hq : byte '"' < 128 := by decide
      have hq' : IsUtf8 [byte '"'] := isUtf8_str "\""
      simp only [List.mem_cons, Lexeme.string.injEq, forall_eq_or_imp, ← ih]
      constructor
      · intro h
        have hbehind : IsUtf8 (t ++ byte '"' :: ls.flatMap Lexeme.render) := by
          have := (IsUtf8.split (s := []) hq h).2
          simpa using this
        exact IsUtf8.split hq hbehind
      · rintro ⟨ht, hls⟩
        exact (hq'.append (ht.append hq')).append hls

/-- The string can stand in a text as it is. -/
def Verbatim (t : Bytes) : Prop := Clean t ∧ IsUtf8 t

theorem verbatim_str {s : String} (h : Clean (str s)) : Verbatim (str s) := ⟨h, isUtf8_str s⟩

/-- A string and its beginning, up to a byte below 128. -/
theorem verbatim_append_iff {s t : Bytes} {c : UInt8} (ht : Verbatim t) (hhead : t.head? = some c)
    (hc : c < 128) : Verbatim (s ++ t) ↔ Verbatim s := by
  constructor
  · rintro ⟨hclean, hutf8⟩
    obtain ⟨t', rfl⟩ := List.head?_eq_some_iff.1 hhead
    exact ⟨(List.forall_mem_append.1 hclean).1, (hutf8.split hc).1⟩
  · exact fun hs => ⟨List.forall_mem_append.2 ⟨hs.1, ht.1⟩, hs.2.append ht.2⟩

/-- **A text without escapes denotes the value it is made from** exactly if every string in it can
stand there as it is. -/
theorem denotes_render_iff (v : Value) :
    Denotes v.render v ↔ ∀ t, .string t ∈ v.lexemes → Verbatim t := by
  constructor
  · rintro ⟨hutf8, hlexes⟩ t ht
    exact ⟨hlexes.length_le.2 rfl t ht, (isUtf8_render_iff v.lexemes).1 hutf8 t ht⟩
  · intro h
    refine ⟨(isUtf8_render_iff v.lexemes).2 fun t ht => (h t ht).2, ?_⟩
    exact lexes_render v.apart_lexemes fun t ht => (h t ht).1

end Json

end HaPanel
