import HaPanel.Assist.Record
import HaPanel.Panel.Json
import HaPanel.Text.JsonString

/-!
# The two readers of JSON strings

`parse_json_value` of the panel and `json_string_after` of the Assist bridge read a string value of
a JSON text, each with an escape table of its own.

* `parseJsonValue_eq_value_iff` : the panel reads a string as it is meant, unless it has a character
  written as a surrogate pair, of which the panel makes two characters.
* `readers_agree_iff` : the two agree on strings whose only escapes are those of the quotation mark,
  the backslash, the slash, the newline and the carriage return.
* `literal_readers_iff` : when each of them reads a literal of the grammar as it is meant, by what
  stands behind its backslashes.

The first two conditions have a clause for keys with a colon, which `parse_json_value` takes for the
colon after the key.
-/

namespace HaPanel

namespace Panel

open Text Json

/-! ### What each reader makes of a character -/

/-- The bytes `parse_json_value` appends for a character. -/
def parsed : Written → Bytes
  | .plain c _ => String.utf8EncodeChar c
  | .short _ c _ => [c]
  | .unicode _ _ _ _ n _ _ => appendUtf8 n
  | .pair _ _ _ _ _ _ _ _ m n .. => appendUtf8 m ++ appendUtf8 n

/-- The bytes `json_string_after` appends for a character. -/
def scanned : Written → Bytes
  | .plain c _ => String.utf8EncodeChar c
  | .short e _ _ => [if e = byte 'n' then 10 else if e = byte 'r' then 13 else e]
  | .unicode a b c d _ _ _ => [byte 'u', a, b, c, d]
  | .pair a b c d a' b' c' d' .. => [byte 'u', a, b, c, d, byte 'u', a', b', c', d']

theorem shortEscape_eq : ∀ e, shortEscape e = Json.shortEscape e := forall_byte (by decide +kernel)

theorem hex4_eq_hexQuad {a b c d : UInt8} {n : ℕ} (h : hexQuad a b c d = some n) :
    hex4 a b c d = some n := by
  obtain ⟨i, j, k, l, hi, hj, hk, hl, rfl⟩ := hexQuad_eq_some h
  have hor (x : ℕ) {y : ℕ} (hy : y < 16) : x <<< 4 ||| y = x * 16 + y := by
    rw [← Nat.shiftLeft_add_eq_or_of_lt (show y < 2 ^ 4 from hy), Nat.shiftLeft_eq]
  simp only [hex4, hi, hj, hk, hl, hor _ (hexDigit_lt hj), hor _ (hexDigit_lt hk),
    hor _ (hexDigit_lt hl)]

theorem parseString_append {s : Bytes} (hquote : byte '"' ∉ s) (hesc : byte '\\' ∉ s) (r : Bytes) :
    parseString (s ++ r) = (parseString r).map (s ++ ·) := by
  induction s with
  | nil => cases h : parseString r <;> simp [h]
  | cons b s ih =>
    simp only [List.mem_cons, not_or] at hquote hesc
    rw [List.cons_append, parseString_plain (Ne.symm hquote.1) (Ne.symm hesc.1),
      ih hquote.2 hesc.2, Option.map_map]
    rfl

theorem parseString_written (w : Written) (s : Bytes) :
    parseString (w.text ++ s) = (parseString s).map (parsed w ++ ·) := by
  cases w with
  | plain c hc =>
    have hplain : ∀ b ∈ String.utf8EncodeChar c, IsPlain b :=
      fun b => isPlain_of_mem_utf8EncodeChar hc
    exact parseString_append (fun h => not_isPlain_quote (hplain _ h))
      (fun h => not_isPlain_backslash (hplain _ h)) s
  | short e c he => exact parseString_short ((shortEscape_eq e).trans he) s
  | unicode a b c d n hn hvalid => exact parseString_unicode (hex4_eq_hexQuad hn) s
  | pair a b c d a' b' c' d' m n hm hhigh hn hlow =>
    -- each half is read as a character of its own
    have hfirst := parseString_unicode (hex4_eq_hexQuad hm)
      (byte '\\' :: byte 'u' :: a' :: b' :: c' :: d' :: s)
    rw [parseString_unicode (hex4_eq_hexQuad hn), Option.map_map] at hfirst
    refine hfirst.trans (congrArg (Option.map · _) ?_)
    funext r
    simp [parsed]

/-- **What the panel reads**, up to the closing quotation mark. -/
theorem parseString_literal (ws : List Written) (s : Bytes) :
    parseString (ws.flatMap Written.text ++ byte '"' :: s) = some (ws.flatMap parsed) := by
  induction ws with
  | nil => exact parseString_quote s
  | cons w ws ih =>
    rw [List.flatMap_cons, List.append_assoc, parseString_written, ih]
    rfl

theorem scanString_plain_append {s : Bytes} (hs : ∀ b ∈ s, IsPlain b) (r : Bytes) :
    Assist.scanString false (s ++ r) = s ++ Assist.scanString false r := by
  induction s with
  | nil => rfl
  | cons b s ih =>
    obtain ⟨⟨-, hquote, hesc⟩, hs⟩ := List.forall_mem_cons.1 hs
    simp [Assist.scanString, hquote, hesc, ih hs]

theorem scanString_escape (e : UInt8) (s : Bytes) :
    Assist.scanString false (byte '\\' :: e :: s) =
      (if e = byte 'n' then 10 else if e = byte 'r' then 13 else e) :: Assist.scanString false s := by
  simp [Assist.scanString]

theorem scanString_unicode {a b c d : UInt8} {n : ℕ} (h : hexQuad a b c d = some n) (s : Bytes) :
    Assist.scanString false (byte '\\' :: byte 'u' :: a :: b :: c :: d :: s) =
      byte 'u' :: a :: b :: c :: d :: Assist.scanString false s := by
  obtain ⟨i, j, k, l, hi, hj, hk, hl, -⟩ := hexQuad_eq_some h
  have hplain : ∀ x ∈ [a, b, c, d], IsPlain x := by
    simp [isPlain_of_hexDigit hi, isPlain_of_hexDigit hj, isPlain_of_hexDigit hk,
      isPlain_of_hexDigit hl]
  have hu : byte 'u' ≠ byte 'n' ∧ byte 'u' ≠ byte 'r' := by decide
  rw [scanString_escape, if_neg hu.1, if_neg hu.2]
  exact congrArg (byte 'u' :: ·) (scanString_plain_append hplain s)

theorem scanString_written (w : Written) (s : Bytes) :
    Assist.scanString false (w.text ++ s) = scanned w ++ Assist.scanString false s := by
  cases w with
  | plain c hc => exact scanString_plain_append (fun b => isPlain_of_mem_utf8EncodeChar hc) s
  | short e c he => exact scanString_escape e s
  | unicode a b c d n hn hvalid => exact scanString_unicode hn s
  | pair a b c d a' b' c' d' m n hm hhigh hn hlow =>
    have hfirst := scanString_unicode hm (byte '\\' :: byte 'u' :: a' :: b' :: c' :: d' :: s)
    rw [scanString_unicode hn] at hfirst
    exact hfirst

/-- **What the bridge reads.** -/
theorem scanString_literal (ws : List Written) (s : Bytes) :
    Assist.scanString false (ws.flatMap Written.text ++ byte '"' :: s) = ws.flatMap scanned := by
  induction ws with
  | nil => simp [Assist.scanString, byte]
  | cons w ws ih =>
    rw [List.flatMap_cons, List.append_assoc, scanString_written, ih]
    rfl

/-! ### What each reader makes of a member -/

/-- Every string of the grammar that is the value of a key, at the first place where the quoted key
occurs, is a member. -/
theorem exists_member {before key gap₁ gap₂ raw value after s : Bytes} (hclean : Clean key)
    (hgap₁ : ∀ c ∈ gap₁, isBlank c = true) (hgap₂ : ∀ c ∈ gap₂, isBlank c = true)
    (hutf8 : IsUtf8 raw) (hchars : Chars raw value)
    (hs : s = quotedName key ++
      (gap₁ ++ byte ':' :: (gap₂ ++ byte '"' :: (raw ++ byte '"' :: after))))
    (hfirst : find (quotedName key) (before ++ s) = some s) :
    ∃ m : Member, m.text = before ++ s ∧ m.key = key ∧ m.value = value ∧
      m.literal.flatMap Written.text = raw := by
  subst hs
  obtain ⟨ws, rfl, rfl⟩ := chars_iff.1 ⟨hutf8, hchars⟩
  exact ⟨⟨⟨before, key, gap₁, gap₂, ws, after, hclean, hgap₁, hgap₂⟩, hfirst⟩, rfl, rfl, rfl, rfl⟩

theorem notMem_blanks {s : Bytes} (hs : ∀ c ∈ s, isBlank c = true) :
    byte ':' ∉ s ∧ byte '"' ∉ s ∧ byte '\\' ∉ s :=
  ⟨fun h => absurd (hs _ h) (by decide), fun h => absurd (hs _ h) (by decide),
    fun h => absurd (hs _ h) (by decide)⟩

/-- From the colon after the key on, both readers find the string. -/
theorem find_quote_fromColon (p : Placement) :
    find [byte '"'] p.fromColon = some p.fromString := by
  have hnot : byte '"' ∉ byte ':' :: p.gap₂ := by
    rw [List.mem_cons, not_or]
    exact ⟨quote_ne_colon, (notMem_blanks p.blank₂).2.1⟩
  exact find_singleton_append (c := byte ':' :: p.gap₂) hnot

/-- The blanks and the colon between a key and its value. -/
def between (p : Placement) : Bytes := p.gap₁ ++ byte ':' :: p.gap₂

/-- **What the panel reads for a member**: a colon in the key leads it astray. -/
theorem parseJsonValue_member (m : Member) :
    parseJsonValue m.text m.key =
      if byte ':' ∈ m.key then between m.toPlacement else m.literal.flatMap parsed := by
  have hquote : byte '"' ∉ m.key := fun h => not_isPlain_quote (m.clean _ h)
  have hkey : find (quotedKey m.key) m.text = some m.fromKey := m.first
  rw [parseJsonValue, findColon, hkey, Option.bind_some]
  split_ifs with hcolon
  · -- the colon is found in the key, and the closing quotation mark of the key opens the value
    obtain ⟨k₁, k₂, hsplit, hk₁⟩ := List.eq_append_cons_of_mem hcolon
    have hk₂ : byte '"' ∉ byte ':' :: k₂ := by
      intro h
      exact hquote (by rw [hsplit]; exact List.mem_append_right k₁ h)
    have htext : m.fromKey =
        (byte '"' :: k₁) ++ byte ':' :: (k₂ ++ byte '"' :: (m.gap₁ ++ m.fromColon)) := by
      simp [Placement.fromKey, quotedName, hsplit]
    have hnot : byte ':' ∉ byte '"' :: k₁ := by
      rw [List.mem_cons, not_or]
      exact ⟨quote_ne_colon.symm, hk₁⟩
    have hplain : byte '"' ∉ between m.toPlacement ∧ byte '\\' ∉ between m.toPlacement := by
      have hne : byte '"' ≠ byte ':' ∧ byte '\\' ≠ byte ':' := by decide
      simp [between, notMem_blanks m.blank₁, notMem_blanks m.blank₂, hne]
    have hvalue : m.gap₁ ++ m.fromColon = between m.toPlacement ++
        byte '"' :: (m.literal.flatMap Written.text ++ byte '"' :: m.after) := by
      simp [between, Placement.fromColon, Placement.fromString]
    rw [htext, find_singleton_append hnot]
    simp only [parseValueAt]
    rw [← List.cons_append, find_singleton_append hk₂, Option.bind_some, List.tail_cons, hvalue,
      parseString_append hplain.1 hplain.2, parseString_quote]
    simp
  · have hnot : byte ':' ∉ quotedName m.key ++ m.gap₁ := by
      simp only [quotedName, List.mem_append, List.mem_cons, List.not_mem_nil, or_false, not_or]
      exact ⟨⟨quote_ne_colon.symm, hcolon, quote_ne_colon.symm⟩, (notMem_blanks m.blank₁).1⟩
    have htext : m.fromKey = (quotedName m.key ++ m.gap₁) ++ m.fromColon := by
      rw [Placement.fromKey, List.append_assoc]
    have hfind : find [byte ':'] m.fromKey = some m.fromColon := by
      rw [htext]
      exact find_singleton_append hnot
    rw [hfind]
    simp only [parseValueAt, find_quote_fromColon, Option.bind_some]
    rw [Placement.fromString, List.tail_cons, parseString_literal]
    rfl

/-- **What the bridge reads for a member.** -/
theorem jsonStringAfter_member (m : Member) :
    Assist.jsonStringAfter m.text m.key = m.literal.flatMap scanned := by
  have hkey : find (Assist.marker m.key) m.text = some m.fromKey := m.first
  have hdrop : m.fromKey.drop (Assist.marker m.key).length = m.gap₁ ++ m.fromColon := by
    rw [Placement.fromKey]
    exact List.drop_left
  have hcolon : find [byte ':'] (m.gap₁ ++ m.fromColon) = some m.fromColon :=
    find_singleton_append (notMem_blanks m.blank₁).1
  have hafter : Assist.afterColon m.text m.key = some (m.gap₂ ++ m.fromString) := by
    rw [Assist.afterColon, hkey, Option.bind_some, hdrop, hcolon]
    rfl
  have hquote : find [byte '"'] (m.gap₂ ++ m.fromString) = some m.fromString :=
    find_singleton_append (notMem_blanks m.blank₂).2.1
  simp only [Assist.jsonStringAfter, hafter, Assist.stringAt, hquote]
  exact scanString_literal _ _

/-! ### When the panel reads what is meant -/

/-- The character is written as a surrogate pair. -/
def IsPair : Written → Prop
  | .pair .. => True
  | _ => False

theorem or_eq_add_of_lt : (∀ x < 64, 0x80 ||| x = x + 0x80) ∧ (∀ x < 32, 0xc0 ||| x = x + 0xc0) ∧
    ∀ x < 16, 0xe0 ||| x = x + 0xe0 := by
  decide

/-- `append_utf8` writes the characters below `0x10000`. -/
theorem appendUtf8_eq {n : ℕ} (hn : n < 0x10000) (hvalid : n < 0xD800 ∨ 0xE000 ≤ n) :
    appendUtf8 n = String.utf8EncodeChar (Char.ofNat n) := by
  have hval : (Char.ofNat n).val.toNat = n :=
    toNat_ofNat_char (hvalid.imp_right fun h => ⟨h, by omega⟩)
  obtain ⟨h80, hc0, he0⟩ := or_eq_add_of_lt
  have hlow : n &&& 0x3f = n % 64 := Nat.and_two_pow_sub_one_eq_mod n 6
  have hmid : n >>> 6 &&& 0x3f = n / 64 % 64 := by
    rw [Nat.shiftRight_eq_div_pow]
    exact Nat.and_two_pow_sub_one_eq_mod _ 6
  unfold appendUtf8 String.utf8EncodeChar
  simp only [hval]
  split_ifs with h₁ h₂ h₃
  · rfl
  · have hhigh : n >>> 6 = n / 64 % 32 := by
      rw [Nat.shiftRight_eq_div_pow]
      omega
    rw [hhigh, hlow, hc0 _ (by omega), h80 _ (by omega)]
  · have hhigh : n >>> 12 = n / 4096 % 16 := by
      rw [Nat.shiftRight_eq_div_pow]
      omega
    rw [hhigh, hlow, hmid, he0 _ (by omega), h80 _ (by omega), h80 _ (by omega)]
  · omega

theorem length_appendUtf8_surrogate {n : ℕ} (h : 0xD800 ≤ n) : (appendUtf8 n).length = 3 := by
  rw [appendUtf8, if_neg (by omega), if_neg (by omega)]
  rfl

/-- A character above `0xFFFF` has four bytes. -/
theorem length_utf8EncodeChar_pair {n : ℕ} (hlow : 0x10000 ≤ n) (hhigh : n < 0x110000) :
    (String.utf8EncodeChar (Char.ofNat n)).length = 4 := by
  have hval : (Char.ofNat n).val.toNat = n := toNat_ofNat_char (.inr ⟨by omega, hhigh⟩)
  unfold String.utf8EncodeChar
  simp only [hval]
  rw [if_neg (by omega), if_neg (by omega), if_neg (by omega)]
  rfl

/-- For a pair the panel writes six bytes in place of four. -/
theorem bytes_eq_parsed_iff (w : Written) :
    w.bytes.length ≤ (parsed w).length ∧ (w.bytes = parsed w ↔ ¬ IsPair w) := by
  cases w with
  | plain c hc => exact ⟨le_rfl, iff_of_true rfl id⟩
  | short e c he =>
    have h : Written.bytes (.short e c he) = [c] := utf8EncodeChar_ofNat (shortEscape_lt he)
    rw [h]
    exact ⟨le_rfl, iff_of_true rfl id⟩
  | unicode a b c d n hn hvalid =>
    have h := appendUtf8_eq (hexQuad_lt hn) hvalid
    exact ⟨(congrArg List.length h).ge, iff_of_true h.symm id⟩
  | pair a b c d a' b' c' d' m n hm hhigh hn hlow =>
    have hbytes : (Written.bytes (.pair a b c d a' b' c' d' m n hm hhigh hn hlow)).length = 4 :=
      length_utf8EncodeChar_pair (by omega) (by omega)
    have hparsed : (parsed (.pair a b c d a' b' c' d' m n hm hhigh hn hlow)).length = 6 := by
      rw [parsed, List.length_append, length_appendUtf8_surrogate hhigh.1,
        length_appendUtf8_surrogate (by omega)]
    refine ⟨by omega, iff_of_false (fun h => ?_) (fun h => h trivial)⟩
    have := congrArg List.length h
    omega

/-- **When the panel reads a string as it is meant**: no character is written as a surrogate pair.
If the key has a colon, the panel reads what stands between key and value. -/
theorem parseJsonValue_eq_value_iff (m : Member) :
    parseJsonValue m.text m.key = m.value ↔
      if byte ':' ∈ m.key then m.value = between m.toPlacement else ∀ w ∈ m.literal, ¬ IsPair w := by
  rw [parseJsonValue_member]
  split_ifs with hcolon
  · exact eq_comm
  · rw [eq_comm, Placement.value, flatMap_eq_flatMap_iff fun w _ => (bytes_eq_parsed_iff w).1]
    exact forall₂_congr fun w _ => (bytes_eq_parsed_iff w).2

theorem isBlank_nil : ∀ c ∈ ([] : Bytes), isBlank c = true :=
  fun _ h => absurd h List.not_mem_nil

/-- A smiley, in ASCII. -/
def smiley : Written :=
  .pair (byte 'd') (byte '8') (byte '3') (byte 'd') (byte 'd') (byte 'e') (byte '0') (byte '0')
    0xD83D 0xDE00 (by decide) (by decide) (by decide) (by decide)

/-- An object with one member. -/
def smileyMember : Member where
  before := str "\x7b"
  key := str "state"
  gap₁ := []
  gap₂ := str " "
  literal := [smiley]
  after := str "\x7d"
  clean := by decide
  blank₁ := isBlank_nil
  blank₂ := forall_mem_of_all (by decide)
  first := by decide

/-- **A smiley is not read as it is meant**: the panel makes two characters of its halves. -/
theorem smiley_is_misread :
    smileyMember.text = str "\x7b\"state\": \"\\ud83d\\ude00\"\x7d" ∧
      smileyMember.value = str "😀" ∧
      parseJsonValue smileyMember.text smileyMember.key = [0xED, 0xA0, 0xBD, 0xED, 0xB8, 0x80] ∧
      parseJsonValue smileyMember.text smileyMember.key ≠ smileyMember.value := by
  decide +kernel

/-! ### When the readers agree -/

/-- The character is written as itself or with an escape that both readers know. -/
def IsCommon : Written → Prop
  | .plain .. => True
  | .short e .. => e ∈ [byte '"', byte '\\', byte '/', byte 'n', byte 'r']
  | _ => False

theorem length_appendUtf8_le (n : ℕ) : (appendUtf8 n).length ≤ 3 := by
  unfold appendUtf8
  split_ifs <;> simp

/-- The bridge drops the backslash of the other escapes. -/
theorem short_eq_iff {e c : UInt8} (he : Json.shortEscape e = some c) :
    (c = if e = byte 'n' then 10 else if e = byte 'r' then 13 else e) ↔
      e ∈ [byte '"', byte '\\', byte '/', byte 'n', byte 'r'] := by
  have hall : ∀ e, (Json.shortEscape e).all (fun c =>
      decide ((c = if e = byte 'n' then 10 else if e = byte 'r' then 13 else e) ↔
        e ∈ [byte '"', byte '\\', byte '/', byte 'n', byte 'r'])) = true :=
    forall_byte (by decide +kernel)
  exact forall_mem_of_option_all (hall e) c he

theorem parsed_eq_scanned_iff (w : Written) :
    (parsed w).length ≤ (scanned w).length ∧ (parsed w = scanned w ↔ IsCommon w) := by
  cases w with
  | plain c hc => exact ⟨le_rfl, iff_of_true rfl trivial⟩
  | short e c he =>
    refine ⟨le_rfl, Iff.trans ?_ (short_eq_iff he)⟩
    simp [parsed, scanned]
  | unicode a b c d n hn hvalid =>
    have hlen : (parsed (.unicode a b c d n hn hvalid)).length ≤ 3 := length_appendUtf8_le n
    have hlen' : (scanned (.unicode a b c d n hn hvalid)).length = 5 := rfl
    refine ⟨by omega, iff_of_false (fun h => ?_) id⟩
    have := congrArg List.length h
    omega
  | pair a b c d a' b' c' d' m n hm hhigh hn hlow =>
    have hlen : (parsed (.pair a b c d a' b' c' d' m n hm hhigh hn hlow)).length ≤ 6 := by
      rw [parsed, List.length_append]
      exact Nat.add_le_add (length_appendUtf8_le m) (length_appendUtf8_le n)
    have hlen' : (scanned (.pair a b c d a' b' c' d' m n hm hhigh hn hlow)).length = 10 := rfl
    refine ⟨by omega, iff_of_false (fun h => ?_) id⟩
    have := congrArg List.length h
    omega

theorem IsCommon.not_isPair {w : Written} (h : IsCommon w) : ¬ IsPair w := by
  cases w with
  | plain | short | unicode => exact id
  | pair => exact fun _ => h

theorem IsCommon.scanned_eq {w : Written} (h : IsCommon w) : scanned w = w.bytes := by
  rw [← (parsed_eq_scanned_iff w).2.2 h]
  exact ((bytes_eq_parsed_iff w).2.2 h.not_isPair).symm

/-- An escape the bridge does not know leaves a letter. -/
theorem exists_letter_of_not_common {w : Written} (h : ¬ IsCommon w) :
    ∃ b ∈ scanned w, isAlpha b = true := by
  have hu : isAlpha (byte 'u') = true := by decide
  cases w with
  | plain => exact absurd trivial h
  | short e c he =>
    have hletter : ∀ e, (Json.shortEscape e).isSome →
        e ∉ [byte '"', byte '\\', byte '/', byte 'n', byte 'r'] →
        isAlpha (if e = byte 'n' then 10 else if e = byte 'r' then 13 else e) = true :=
      forall_byte (by decide +kernel)
    exact ⟨_, List.mem_singleton_self _, hletter e (by simp [he]) h⟩
  | unicode => exact ⟨byte 'u', List.mem_cons_self, hu⟩
  | pair => exact ⟨byte 'u', List.mem_cons_self, hu⟩

theorem not_isAlpha_between (p : Placement) : ∀ b ∈ between p, isAlpha b = false := by
  have hblank : ∀ b, isBlank b = true → isAlpha b = false := forall_byte (by decide +kernel)
  have hcolon : isAlpha (byte ':') = false := by decide
  simp only [between, List.forall_mem_append, List.forall_mem_cons]
  exact ⟨fun b hb => hblank b (p.blank₁ b hb), hcolon, fun b hb => hblank b (p.blank₂ b hb)⟩

/-- **When the two readers agree**: every character is written as itself or with one of the escapes
`\"`, `\\`, `\/`, `\n`, `\r`, and if the key has a colon, the value is what stands between them. -/
theorem readers_agree_iff (m : Member) :
    Assist.jsonStringAfter m.text m.key = parseJsonValue m.text m.key ↔
      (∀ w ∈ m.literal, IsCommon w) ∧ (byte ':' ∈ m.key → m.value = between m.toPlacement) := by
  rw [jsonStringAfter_member, parseJsonValue_member]
  have hvalue : (∀ w ∈ m.literal, IsCommon w) → m.literal.flatMap scanned = m.value :=
    fun h => List.flatMap_congr fun w hw => (h w hw).scanned_eq
  split_ifs with hcolon
  · constructor
    · intro h
      -- there are no letters between key and value, so the bridge has left none
      have hcommon : ∀ w ∈ m.literal, IsCommon w := by
        intro w hw
        by_contra hnot
        obtain ⟨b, hb, halpha⟩ := exists_letter_of_not_common hnot
        have hmem : b ∈ m.literal.flatMap scanned := List.mem_flatMap.2 ⟨w, hw, hb⟩
        rw [h] at hmem
        rw [not_isAlpha_between _ b hmem] at halpha
        cases halpha
      exact ⟨hcommon, fun _ => (hvalue hcommon).symm.trans h⟩
    · -- strings of common characters are read by the bridge as they are meant
      rintro ⟨hcommon, h⟩
      exact (hvalue hcommon).trans (h hcolon)
  · rw [eq_comm, flatMap_eq_flatMap_iff fun w _ => (parsed_eq_scanned_iff w).1]
    constructor
    · intro h
      exact ⟨fun w hw => (parsed_eq_scanned_iff w).2.1 (h w hw), fun h => absurd h hcolon⟩
    · rintro ⟨h, -⟩ w hw
      exact (parsed_eq_scanned_iff w).2.2 (h w hw)

/-- An object whose only value is a tabulator. -/
def tabMember : Member where
  before := str "\x7b"
  key := str "text"
  gap₁ := []
  gap₂ := []
  literal := [.short (byte 't') 9 (by decide)]
  after := str "\x7d"
  clean := by decide
  blank₁ := isBlank_nil
  blank₂ := isBlank_nil
  first := by decide

/-- **A tabulator is a letter for the bridge.** -/
theorem tab_is_read_differently :
    tabMember.text = str "\x7b\"text\":\"\\t\"\x7d" ∧
      parseJsonValue tabMember.text tabMember.key = [9] ∧
      Assist.jsonStringAfter tabMember.text tabMember.key = [byte 't'] ∧
      Assist.jsonStringAfter tabMember.text tabMember.key ≠
        parseJsonValue tabMember.text tabMember.key := by
  decide +kernel

/-! ### By the bytes of the literal -/

/-- A `\u` escape of half a character. -/
def IsSurrogate (t : Bytes) : Prop :=
  ∃ a b c d n rest, t = byte 'u' :: a :: b :: c :: d :: rest ∧ hexQuad a b c d = some n ∧
    0xD800 ≤ n ∧ n < 0xE000

/-- An escape that both readers know. -/
def IsCommonEscape (t : Bytes) : Prop :=
  ∃ e ∈ [byte '"', byte '\\', byte '/', byte 'n', byte 'r'], ∃ rest, t = e :: rest

theorem forall_not_isSurrogate_iff (w : Written) (s : Bytes) :
    (∀ t ∈ w.escapes s, ¬ IsSurrogate t) ↔ ¬ IsPair w := by
  cases w with
  | plain => exact iff_of_true (fun t ht => absurd ht List.not_mem_nil) id
  | short e c he =>
    -- `u` is no letter of a short escape
    refine iff_of_true (fun t ht hsurrogate => ?_) id
    obtain ⟨a, b, c', d, n, rest, ht', -⟩ := hsurrogate
    obtain ⟨rfl, -⟩ := List.cons.inj ((List.mem_singleton.mp ht).symm.trans ht')
    cases he
  | unicode a b c d n hn hvalid =>
    refine iff_of_true (fun t ht hsurrogate => ?_) id
    obtain ⟨a', b', c', d', n', rest, ht', hn', hlow, hhigh⟩ := hsurrogate
    obtain ⟨rfl, rfl, rfl, rfl, -⟩ : a = a' ∧ b = b' ∧ c = c' ∧ d = d' ∧ s = rest := by
      simpa using (List.mem_singleton.mp ht).symm.trans ht'
    obtain rfl := Option.some.inj (hn.symm.trans hn')
    omega
  | pair a b c d a' b' c' d' m n hm hhigh hn hlow =>
    -- the first escape of a pair is that of its first half
    refine iff_of_false (fun h => ?_) fun h => h trivial
    exact h _ (List.mem_cons_self ..) ⟨a, b, c, d, m, _, rfl, hm, by omega, by omega⟩

theorem forall_isCommonEscape_iff (w : Written) (s : Bytes) :
    (∀ t ∈ w.escapes s, IsCommonEscape t) ↔ IsCommon w := by
  have hu : byte 'u' ∉ [byte '"', byte '\\', byte '/', byte 'n', byte 'r'] := by decide
  have hunicode : ∀ rest, ¬ IsCommonEscape (byte 'u' :: rest) := by
    rintro rest ⟨e, he, rest', heq⟩
    rw [← (List.cons.inj heq).1] at he
    exact hu he
  cases w with
  | plain => exact iff_of_true (fun t ht => absurd ht List.not_mem_nil) trivial
  | short e c he =>
    constructor
    · intro h
      obtain ⟨e', he', rest, heq⟩ := h _ (List.mem_singleton_self _)
      obtain ⟨rfl, -⟩ := List.cons.inj heq
      exact he'
    · intro h t ht
      exact ⟨e, h, s, List.mem_singleton.mp ht⟩
  | unicode => exact iff_of_false (fun h => hunicode _ (h _ (List.mem_singleton_self _))) id
  | pair => exact iff_of_false (fun h => hunicode _ (h _ (List.mem_cons_self ..))) id

/-- An escape the bridge does not know is read as something longer, or as another byte. -/
theorem bytes_eq_scanned_iff (w : Written) :
    w.bytes.length ≤ (scanned w).length ∧ (w.bytes = scanned w ↔ IsCommon w) := by
  by_cases hpair : IsPair w
  · cases w with
    | plain | short | unicode => exact hpair.elim
    | pair a b c d a' b' c' d' m n hm hhigh hn hlow =>
      have hbytes : (Written.bytes (.pair a b c d a' b' c' d' m n hm hhigh hn hlow)).length = 4 :=
        length_utf8EncodeChar_pair (by omega) (by omega)
      have hlen : (scanned (.pair a b c d a' b' c' d' m n hm hhigh hn hlow)).length = 10 := rfl
      refine ⟨by omega, iff_of_false (fun h => ?_) id⟩
      have := congrArg List.length h
      omega
  · rw [(bytes_eq_parsed_iff w).2.mpr hpair]
    exact parsed_eq_scanned_iff w

/-- **A literal of the grammar** is read as it is meant by the panel if and only if none of its
escapes is that of half a character, and by the bridge if and only if each of them is one of `\"`,
`\\`, `\/`, `\n` and `\r`. -/
theorem literal_readers_iff {before key gap₁ gap₂ raw value after s : Bytes} (hclean : Clean key)
    (hcolon : byte ':' ∉ key) (hgap₁ : ∀ c ∈ gap₁, isBlank c = true)
    (hgap₂ : ∀ c ∈ gap₂, isBlank c = true) (hutf8 : IsUtf8 raw) (hchars : Chars raw value)
    (hs : s = quotedName key ++
      (gap₁ ++ byte ':' :: (gap₂ ++ byte '"' :: (raw ++ byte '"' :: after))))
    (hfirst : find (quotedName key) (before ++ s) = some s) :
    (parseJsonValue (before ++ s) key = value ↔ ∀ t ∈ escapes raw, ¬ IsSurrogate t) ∧
      (Assist.jsonStringAfter (before ++ s) key = value ↔ ∀ t ∈ escapes raw, IsCommonEscape t) := by
  obtain ⟨m, htext, rfl, rfl, rfl⟩ := exists_member hclean hgap₁ hgap₂ hutf8 hchars hs hfirst
  rw [← htext, parseJsonValue_member, if_neg hcolon, jsonStringAfter_member, Placement.value,
    forall_mem_escapes_iff forall_not_isSurrogate_iff,
    forall_mem_escapes_iff forall_isCommonEscape_iff]
  constructor
  · rw [eq_comm, flatMap_eq_flatMap_iff fun w _ => (bytes_eq_parsed_iff w).1]
    exact forall₂_congr fun w _ => (bytes_eq_parsed_iff w).2
  · rw [eq_comm, flatMap_eq_flatMap_iff fun w _ => (bytes_eq_scanned_iff w).1]
    exact forall₂_congr fun w _ => (bytes_eq_scanned_iff w).2

/-- The literal `a\tb\n` is read as it is meant by the panel, but not by the bridge. -/
theorem tab_literal_is_read :
    parseJsonValue (str "\x7b \"text\" : \"a\\tb\\n\" \x7d") (str "text") = str "a\tb\n" ∧
      Assist.jsonStringAfter (str "\x7b \"text\" : \"a\\tb\\n\" \x7d") (str "text") ≠
        str "a\tb\n" := by
  have hchars : Chars (str "a\\tb\\n") (str "a\tb\n") := by
    have htab : Escape [byte 't'] [9] := .short (by decide)
    have hnewline : Escape [byte 'n'] [10] := .short (by decide)
    have hb : IsPlain (byte 'b') := by decide
    have htail := Chars.escape htab (.plain hb (.escape hnewline .nil))
    exact .plain (show IsPlain (byte 'a') by decide) htail
  have hread := @literal_readers_iff (str "\x7b ") (str "text") (str " ") (str " ")
    (str "a\\tb\\n") (str "a\tb\n") (str " \x7d") _ (by decide) (by decide)
    (forall_mem_of_all (by decide)) (forall_mem_of_all (by decide)) (isUtf8_str _) hchars rfl
    (by decide +kernel)
  have hescapes : escapes (str "a\\tb\\n") = [str "tb\\n", str "n"] := by decide
  rw [hescapes, List.forall_mem_cons, List.forall_mem_singleton, List.forall_mem_cons] at hread
  obtain ⟨hpanel, hbridge⟩ := hread
  refine ⟨hpanel.mpr ⟨?_, ?_⟩, fun h => ?_⟩
  · rintro ⟨a, b, c, d, n, rest, heq, -⟩
    exact absurd (List.cons.inj heq).1 (by decide)
  · rintro ⟨a, b, c, d, n, rest, heq, -⟩
    exact absurd (List.cons.inj heq).1 (by decide)
  · obtain ⟨e, he, rest, heq⟩ := (hbridge.mp h).1
    rw [← (List.cons.inj heq).1] at he
    exact absurd he (by decide)

end Panel

end HaPanel
