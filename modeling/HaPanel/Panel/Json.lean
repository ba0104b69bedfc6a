import HaPanel.Text.Bytes
import HaPanel.Text.Escape

/-!
# The panel's JSON helpers

`parse_json_value`, `parse_json_int_value`, `parse_json_bool_value` and `json_escape` of
`main.cpp`.  The readers search for the first occurrence of the quoted key, then for the next
colon, and read from there; a missing piece gives the default.

* `parseString_jsonEscape`: the string reader inverts the escaper on every byte string.
* `parseValueAt_text`, `parseIntAt_bare`, `parseBoolAt_bare`: what the readers return once the lookup
  has landed on a value, whatever follows it.
-/

namespace HaPanel

namespace Panel

open Text

/-! ### Reading -/

/-- The bytes `append_utf8` appends. -/
def appendUtf8 (codepoint : ℕ) : Bytes :=
  if codepoint ≤ 0x7f then [UInt8.ofNat codepoint]
  else if codepoint ≤ 0x7ff then
    [UInt8.ofNat (0xc0 ||| codepoint >>> 6), UInt8.ofNat (0x80 ||| codepoint &&& 0x3f)]
  else
    [UInt8.ofNat (0xe0 ||| codepoint >>> 12), UInt8.ofNat (0x80 ||| codepoint >>> 6 &&& 0x3f),
      UInt8.ofNat (0x80 ||| codepoint &&& 0x3f)]

/-- The code unit written with four hexadecimal digits. -/
def hex4 (a b c d : UInt8) : Option ℕ :=
  match hexDigit a, hexDigit b, hexDigit c, hexDigit d with
  | some a, some b, some c, some d => some (((a <<< 4 ||| b) <<< 4 ||| c) <<< 4 ||| d)
  | _, _, _, _ => none

/-- The byte a one-character escape stands for. -/
def shortEscape (e : UInt8) : Option UInt8 :=
  if e = byte '"' then some (byte '"')
  else if e = byte '\\' then some (byte '\\')
  else if e = byte '/' then some (byte '/')
  else if e = byte 'b' then some 8
  else if e = byte 'f' then some 12
  else if e = byte 'n' then some 10
  else if e = byte 'r' then some 13
  else if e = byte 't' then some 9
  else none

/-- The loop of `parse_json_value`, from the byte after the opening quotation mark on; `none`
where the source returns the empty string. -/
def parseString : Bytes → Option Bytes
  | [] => none
  | c :: s =>
    if c = byte '"' then some []
    else if c ≠ byte '\\' then (parseString s).map (c :: ·)
    else match s with
      | [] => none
      | e :: s =>
        if e = byte 'u' then match s with
          | a :: b :: c :: d :: s =>
            match hex4 a b c d with
            | some codepoint => (parseString s).map (appendUtf8 codepoint ++ ·)
            | none => none
          | _ => none
        else match shortEscape e with
          | some c => (parseString s).map (c :: ·)
          | none => none

/-- `"key"`, as the readers search for it. -/
def quotedKey (key : Bytes) : Bytes := byte '"' :: (key ++ [byte '"'])

/-- The colon after the first occurrence of the quoted key. -/
def findColon (json key : Bytes) : Option Bytes :=
  (find (quotedKey key) json).bind (find [byte ':'])

/-- What `parse_json_value` reads from the colon on. -/
def parseValueAt (s : Bytes) : Bytes :=
  ((find [byte '"'] s).bind fun t => parseString t.tail).getD []

def parseJsonValue (json key : Bytes) : Bytes :=
  match findColon json key with
  | none => []
  | some s => parseValueAt s

/-- What `parse_json_int_value` reads from the colon on. -/
def parseIntAt (s : Bytes) : ℕ :=
  match findFirst isDigit s with
  | none => 0
  | some t => (atoll t).toNat

def parseJsonIntValue (json key : Bytes) : ℕ :=
  match findColon json key with
  | none => 0
  | some s => parseIntAt s

/-- One of `,}\n\r`, which end a literal. -/
def isDelimiter (c : UInt8) : Bool := c == byte ',' || c == byte '}' || c == 10 || c == 13

/-- The position `a` exists and is before `b`, or `b` does not exist; both are suffixes of one
text, so the earlier one is the longer one. -/
def isBefore : Option Bytes → Option Bytes → Bool
  | none, _ => false
  | some _, none => true
  | some a, some b => b.length < a.length

/-- What `parse_json_bool_value` reads from the colon on. -/
def parseBoolAt (s : Bytes) (fallback : Bool) : Bool :=
  let comma := findFirst isDelimiter s
  if isBefore (find (str "true") s) comma then true
  else if isBefore (find (str "false") s) comma then false
  else fallback

def parseJsonBoolValue (json key : Bytes) (fallback : Bool) : Bool :=
  match findColon json key with
  | none => fallback
  | some s => parseBoolAt s fallback

/-! ### Writing -/

/-- `"0123456789abcdef"[n]`. -/
def hexChar (n : UInt8) : UInt8 := if n < 10 then byte '0' + n else byte 'a' + (n - 10)

/-- What `json_escape` writes for one byte. -/
def escapeByte (c : UInt8) : Bytes :=
  if c = byte '"' then [byte '\\', byte '"']
  else if c = byte '\\' then [byte '\\', byte '\\']
  else if c = 8 then [byte '\\', byte 'b']
  else if c = 12 then [byte '\\', byte 'f']
  else if c = 10 then [byte '\\', byte 'n']
  else if c = 13 then [byte '\\', byte 'r']
  else if c = 9 then [byte '\\', byte 't']
  else if c < 0x20 then str "\\u00" ++ [hexChar (c >>> 4), hexChar (c &&& 0x0f)]
  else [c]

def jsonEscape (value : Bytes) : Bytes := value.flatMap escapeByte

/-! ### The string reader inverts the escaper -/

theorem parseString_quote (s : Bytes) : parseString (byte '"' :: s) = some [] := by
  rw [parseString.eq_def]
  simp

theorem parseString_plain {c : UInt8} (hq : c ≠ byte '"') (hb : c ≠ byte '\\') (s : Bytes) :
    parseString (c :: s) = (parseString s).map (c :: ·) := by
  rw [parseString.eq_def]
  simp [hq, hb]

theorem parseString_short {e c : UInt8} (h : shortEscape e = some c) (s : Bytes) :
    parseString (byte '\\' :: e :: s) = (parseString s).map (c :: ·) := by
  have hq : byte '\\' ≠ byte '"' := by decide
  have hu : e ≠ byte 'u' := by rintro rfl; simp [shortEscape, byte] at h
  rw [parseString.eq_def]
  simp [hq, hu, h]

theorem parseString_unicode {a b c d : UInt8} {n : ℕ} (h : hex4 a b c d = some n) (s : Bytes) :
    parseString (byte '\\' :: byte 'u' :: a :: b :: c :: d :: s) =
      (parseString s).map (appendUtf8 n ++ ·) := by
  have hq : byte '\\' ≠ byte '"' := by decide
  rw [parseString.eq_def]
  simp [hq, h]

/-- The control bytes without a short escape. -/
theorem hex4_control : ∀ n < 32, hex4 (byte '0') (byte '0') (hexChar (UInt8.ofNat n >>> 4))
    (hexChar (UInt8.ofNat n &&& 0x0f)) = some n := by
  decide

theorem parseString_escapeByte (c : UInt8) (s : Bytes) :
    parseString (escapeByte c ++ s) = (parseString s).map (c :: ·) := by
  unfold escapeByte
  split_ifs with h1 h2 h3 h4 h5 h6 h7 h8
  · subst h1; exact parseString_short (by decide) s
  · subst h2; exact parseString_short (by decide) s
  · subst h3; exact parseString_short (by decide) s
  · subst h4; exact parseString_short (by decide) s
  · subst h5; exact parseString_short (by decide) s
  · subst h6; exact parseString_short (by decide) s
  · subst h7; exact parseString_short (by decide) s
  · have hlt : c.toNat < 32 := by simpa [UInt8.lt_iff_toNat_lt] using h8
    have hx := hex4_control c.toNat hlt
    rw [UInt8.ofNat_toNat] at hx
    have ha : appendUtf8 c.toNat = [c] := by
      rw [appendUtf8, if_pos (by omega), UInt8.ofNat_toNat]
    have hu := parseString_unicode hx s
    rwa [ha] at hu
  · exact parseString_plain h1 h2 s

/-- **The string reader returns what was escaped**, and stops at the closing quotation mark. -/
theorem parseString_jsonEscape (v s : Bytes) :
    parseString (jsonEscape v ++ byte '"' :: s) = some v := by
  induction v with
  | nil => exact parseString_quote s
  | cons c v ih =>
    rw [jsonEscape, List.flatMap_cons, List.append_assoc, parseString_escapeByte]
    rw [jsonEscape] at ih
    rw [ih]
    rfl

theorem jsonEscape_eq_self {v : Bytes} (h : ∀ c ∈ v, escapeByte c = [c]) : jsonEscape v = v := by
  rw [jsonEscape]
  conv_rhs => rw [← List.flatMap_singleton' v]
  exact List.flatMap_congr h

/-! ### The layout of the configuration file -/

theorem escapeByte_plain_or_esc : ∀ c, escapeByte c = [c] ∨ byte '\\' ∈ escapeByte c :=
  forall_byte (by decide +kernel)

/-- The escaper of the panel. -/
def jsonEscaper : Escaper UInt8 where
  quote := byte '"'
  esc := byte '\\'
  char := escapeByte
  char_quote := by decide
  quote_notMem_char := forall_byte (by decide +kernel)
  quote_ne_esc := Text.quote_ne_backslash

/-- The punctuation `save_configuration` writes. -/
def configLayout : Layout UInt8 where
  quote := byte '"'
  colon := byte ':'
  opening := str "\x7b\n  "
  gap := str " "
  sep := str ",\n  "
  closing := str "\n\x7d\n"
  quote_ne_colon := Text.quote_ne_colon
  quote_notMem_opening := by decide
  quote_notMem_gap := by decide
  quote_notMem_sep := by decide
  quote_notMem_closing := by decide
  colon_notMem_sep := by decide
  colon_notMem_closing := by decide

/-- What follows a value in the file ends a literal. -/
theorem rest_eq_cons (fs : List (Entry UInt8)) :
    ∃ c s, configLayout.rest fs = c :: s ∧ isDelimiter c = true ∧ isDigit c = false ∧ c ≠ 0 := by
  cases fs with
  | nil => exact ⟨10, str "\x7d\n", by decide⟩
  | cons f fs =>
    obtain ⟨key, v⟩ := f
    exact ⟨byte ',', _, rfl, by decide, by decide, by decide⟩

/-- The colon, the blank and the value. -/
theorem fromColon_eq (v : Value UInt8) (fs : List (Entry UInt8)) :
    configLayout.fromColon v fs =
      byte ':' :: byte ' ' :: (configLayout.value v ++ configLayout.rest fs) :=
  rfl

/-- **Reading a text value.** -/
theorem parseValueAt_text (v : Bytes) (fs : List (Entry UInt8)) :
    parseValueAt (configLayout.fromColon (.text (jsonEscape v)) fs) = v := by
  have hc : byte '"' ∉ [byte ':', byte ' '] := by decide
  have hfind := find_singleton_append
    (s := jsonEscape v ++ byte '"' :: configLayout.rest fs) hc
  have htext : configLayout.fromColon (.text (jsonEscape v)) fs =
      [byte ':', byte ' '] ++ byte '"' :: (jsonEscape v ++ byte '"' :: configLayout.rest fs) := by
    rw [fromColon_eq]
    simp [Layout.value, configLayout]
  rw [parseValueAt, htext, hfind]
  simp [parseString_jsonEscape]

/-- A number is read up to what follows it. -/
theorem parseIntAt_decimal {b : Bytes} {n : ℕ} {c : UInt8} (hb : ∀ x ∈ b, isDigit x = false)
    (hn : n < 2 ^ 63) (hdig : isDigit c = false) (hc : c ≠ 0) (s : Bytes) :
    parseIntAt (b ++ (decimal n ++ c :: s)) = n := by
  have hfind : findFirst isDigit (b ++ (decimal n ++ c :: s)) = some (decimal n ++ c :: s) := by
    cases hd : decimal n with
    | nil => exact absurd hd (decimal_ne_nil n)
    | cons d ds => exact findFirst_append hb (isDigit_of_mem_decimal (n := n) (by simp [hd]))
  have hzero : ∀ d ∈ decimal n, d ≠ 0 := by
    rintro d hd rfl
    exact absurd (isDigit_of_mem_decimal hd) (by decide)
  have hnum : decimal n = decimalInt n := (decimalInt_natCast n).symm
  have hread : strtol (decimalInt n ++ c :: cStr s) = ((n : ℤ), c :: cStr s) :=
    strtol_decimalInt (by omega) (by exact_mod_cast hn) (by simp [hdig])
  have hcstr : cStr (decimal n ++ c :: s) = decimal n ++ c :: cStr s := by
    rw [cStr_append hzero]
    simp [cStr, hc]
  rw [parseIntAt, hfind]
  simp only [atoll]
  rw [hcstr, hnum, hread]
  simp

/-- **Reading a number.** -/
theorem parseIntAt_bare {n : ℕ} (hn : n < 2 ^ 63) (fs : List (Entry UInt8)) :
    parseIntAt (configLayout.fromColon (.bare (decimal n)) fs) = n := by
  obtain ⟨c, s, hrest, -, hdig, hc⟩ := rest_eq_cons fs
  have hgap : ∀ x ∈ [byte ':', byte ' '], isDigit x = false := by decide +kernel
  rw [fromColon_eq, hrest]
  exact parseIntAt_decimal hgap hn hdig hc s

/-- A word found from a delimiter on is not before the delimiter. -/
theorem not_isBefore_find (pat s : Bytes) : isBefore (find pat s) (some s) = false := by
  cases h : find pat s with
  | none => rfl
  | some t => simpa [isBefore] using (find_suffix h).length_le

theorem isBefore_append (lit : Bytes) (hlit : lit ≠ []) (s : Bytes) :
    isBefore (some (lit ++ s)) (some s) = true := by
  have := List.length_pos_of_ne_nil hlit
  simpa [isBefore] using this

/-- **Reading a boolean**: its literal is found before the delimiter, the other one is not. -/
theorem parseBoolAt_bare (b fallback : Bool) (fs : List (Entry UInt8)) :
    parseBoolAt (configLayout.fromColon (.bare (boolLit b)) fs) fallback = b := by
  obtain ⟨c, s, hrest, hdel, -, -⟩ := rest_eq_cons fs
  have htext : configLayout.fromColon (.bare (boolLit b)) fs =
      [byte ':', byte ' '] ++ (boolLit b ++ c :: s) := by
    rw [fromColon_eq, hrest]
    rfl
  have hcomma : findFirst isDelimiter ([byte ':', byte ' '] ++ (boolLit b ++ c :: s)) =
      some (c :: s) := by
    rw [← List.append_assoc]
    exact findFirst_append (by cases b <;> decide +kernel) hdel
  rw [htext]
  cases b with
  | true =>
    have hlead : byte 't' ∉ [byte ':', byte ' '] := by decide
    have hfind : find (str "true") ([byte ':', byte ' '] ++ (boolLit true ++ c :: s)) =
        some (boolLit true ++ c :: s) := by
      rw [show str "true" = byte 't' :: str "rue" by decide, find_append_of_notMem hlead]
      exact find_cons_pos (List.prefix_append (boolLit true) _)
    simp only [parseBoolAt, hcomma, hfind, isBefore_append (boolLit true) (by decide), ↓reduceIte]
  | false =>
    have hlead : byte 'f' ∉ [byte ':', byte ' '] := by decide
    have hfind : find (str "false") ([byte ':', byte ' '] ++ (boolLit false ++ c :: s)) =
        some (boolLit false ++ c :: s) := by
      rw [show str "false" = byte 'f' :: str "alse" by decide, find_append_of_notMem hlead]
      exact find_cons_pos (List.prefix_append (boolLit false) _)
    -- `true` cannot start inside `: false`
    have hskip : byte 't' ∉ [byte ':', byte ' '] ++ boolLit false := by decide
    have htrue : find (str "true") ([byte ':', byte ' '] ++ (boolLit false ++ c :: s)) =
        find (str "true") (c :: s) := by
      rw [← List.append_assoc, show str "true" = byte 't' :: str "rue" by decide,
        find_append_of_notMem hskip]
    simp only [parseBoolAt, hcomma, htrue, hfind, not_isBefore_find,
      isBefore_append (boolLit false) (by decide), ↓reduceIte, Bool.false_eq_true]

/-! ### How far the readers look -/

/-- A string reader that lands on a literal reads the next key. -/
theorem parseValueAt_bare {lit k : Bytes} (hlit : byte '"' ∉ lit) (hk : ∀ c ∈ k, escapeByte c = [c])
    (w : Value UInt8) (fs : List (Entry UInt8)) :
    parseValueAt (configLayout.fromColon (.bare lit) ((k, w) :: fs)) = k := by
  have hc : byte '"' ∉ [byte ':', byte ' '] ++ (lit ++ str ",\n  ") := by
    have h₁ : byte '"' ∉ [byte ':', byte ' '] := by decide
    have h₂ : byte '"' ∉ str ",\n  " := by decide
    simp only [List.mem_append, not_or]
    exact ⟨h₁, hlit, h₂⟩
  have hkey := jsonEscape_eq_self hk
  have hfind := find_singleton_append
    (s := jsonEscape k ++ byte '"' :: configLayout.fromColon w fs) hc
  have htext : configLayout.fromColon (.bare lit) ((k, w) :: fs) =
      [byte ':', byte ' '] ++ (lit ++ str ",\n  ") ++
        byte '"' :: (jsonEscape k ++ byte '"' :: configLayout.fromColon w fs) := by
    rw [fromColon_eq, hkey]
    simp [Layout.value, Layout.rest, configLayout, Layout.fromColon]
  rw [parseValueAt, htext, hfind]
  simp [parseString_jsonEscape]

theorem isBefore_find_delimiter {pat b s : Bytes} {d : UInt8} (hne : pat ≠ []) (hd : d ∉ pat) :
    isBefore (find pat (b ++ d :: s)) (some (d :: s)) = contains pat b := by
  rw [Bool.eq_iff_iff, ← find_append_cons (s := s) hne hd]
  cases h : find pat (b ++ d :: s) with
  | none => simp [isBefore]
  | some r => simp [isBefore]

/-- The boolean reader looks no further than the next delimiter. -/
theorem parseBoolAt_local (z y y' : Bytes) (fallback : Bool) {d : UInt8} (hd : isDelimiter d = true) :
    parseBoolAt (z ++ d :: y) fallback = parseBoolAt (z ++ d :: y') fallback := by
  obtain ⟨b, e, r, hb, he, hcut⟩ := exists_cut isDelimiter z hd
  have hword : ∀ w ∈ [str "true", str "false"], w ≠ [] ∧ e ∉ w := by
    have hplain : ∀ w ∈ [str "true", str "false"], w ≠ [] ∧ ∀ c ∈ w, isDelimiter c = false := by
      decide +kernel
    intro w hw
    refine ⟨(hplain w hw).1, fun hmem => ?_⟩
    rw [(hplain w hw).2 e hmem] at he
    cases he
  obtain ⟨⟨hne₁, hd₁⟩, hne₂, hd₂⟩ := hword (str "true") (by simp), hword (str "false") (by simp)
  have hread : ∀ s, parseBoolAt (b ++ e :: s) fallback =
      if contains (str "true") b then true
      else if contains (str "false") b then false else fallback := by
    intro s
    simp only [parseBoolAt, findFirst_append hb he, isBefore_find_delimiter hne₁ hd₁,
      isBefore_find_delimiter hne₂ hd₂]
  rw [hcut, hcut, hread, hread]

/-- The value of digits in front of something else. -/
theorem atoll_digits {ds : Bytes} {d e : UInt8} (hd : isDigit d = true)
    (hds : ∀ c ∈ ds, isDigit c = true) (he : isDigit e = false) (s : Bytes) :
    atoll (d :: (ds ++ e :: s)) = clamp 64 (digitsValue (d :: ds)) := by
  have hall : ∀ c ∈ d :: ds, isDigit c = true := by simpa using ⟨hd, hds⟩
  have hzero : ∀ c ∈ d :: ds, c ≠ 0 := by
    rintro c hc rfl
    exact absurd (hall 0 hc) (by decide)
  have hspace : ∀ c, isDigit c = true → isSpace c = false := forall_byte (by decide +kernel)
  have hsign : ∀ c, isDigit c = true → c ≠ byte '-' ∧ c ≠ byte '+' :=
    forall_byte (by decide +kernel)
  obtain ⟨hm, hp⟩ := hsign d hd
  have hcstr : cStr (d :: (ds ++ e :: s)) = (d :: ds) ++ cStr (e :: s) := cStr_append hzero
  have htail : (cStr (e :: s)).takeWhile isDigit = [] := by
    by_cases h0 : e = 0
    · simp [cStr, h0]
    · simp [cStr, h0, he]
  have htake : ((d :: ds) ++ cStr (e :: s)).takeWhile isDigit = d :: ds := by
    rw [List.takeWhile_append_of_pos hall, htail, List.append_nil]
  have hdrop : ((d :: ds) ++ cStr (e :: s)).dropWhile isSpace = (d :: ds) ++ cStr (e :: s) := by
    simp [hspace d hd]
  have hsigned : takeSign ((d :: ds) ++ cStr (e :: s)) = (false, (d :: ds) ++ cStr (e :: s)) := by
    simp [takeSign, hm, hp]
  rw [atoll, hcstr]
  simp only [strtol, hdrop, hsigned, htake, reduceCtorEq, if_false, Bool.false_eq_true]

/-- The number reader looks no further than the end of the first number. -/
theorem parseIntAt_local {z : Bytes} (y y' : Bytes) {e : UInt8} (hz : ∃ c ∈ z, isDigit c = true)
    (he : isDigit e = false) : parseIntAt (z ++ e :: y) = parseIntAt (z ++ e :: y') := by
  -- the first digit is in `z`, and the first byte after it that is no digit is `e` at the latest
  obtain ⟨a, d, r, hsplit, ha, hd⟩ : ∃ a d r, z = a ++ d :: r ∧ (∀ x ∈ a, isDigit x = false) ∧
      isDigit d = true := by
    obtain ⟨c, hc, hdig⟩ := hz
    obtain ⟨l, l', rfl⟩ := List.append_of_mem hc
    obtain ⟨a, d, r, ha, hd, hcut⟩ := exists_cut isDigit l hdig
    exact ⟨a, d, r ++ l', hcut l', ha, hd⟩
  obtain ⟨ds, e', r', hds, he', hcut⟩ := exists_cut (fun c => !isDigit c) r (d := e) (by simp [he])
  have hread : ∀ s, parseIntAt (z ++ e :: s) = (clamp 64 (digitsValue (d :: ds))).toNat := by
    intro s
    have htext : z ++ e :: s = a ++ d :: (ds ++ e' :: (r' ++ s)) := by
      rw [hsplit, List.append_assoc, List.cons_append, hcut]
    rw [parseIntAt, htext, findFirst_append ha hd]
    simp only
    rw [atoll_digits hd (by simpa using hds) (by simpa using he')]
  rw [hread, hread]

end Panel

end HaPanel
