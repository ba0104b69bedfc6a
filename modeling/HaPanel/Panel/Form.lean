import HaPanel.Panel.Cgi

/-!
# Form data

The portal sends its forms as `application/x-www-form-urlencoded`, which the browser writes with
`URLSearchParams.toString()`; here this is `formEncode`.  `form_value` looks for a name segment by
segment and decodes what it finds.

`formValue_formEncode` : whatever the names and values are, `form_value` finds the first pair with
the given name.
-/

namespace HaPanel

namespace Panel

open Text

/-! ### Writing -/

/-- The bytes that stand for themselves. -/
def isUnreserved (c : UInt8) : Bool :=
  isAlnum c || c == byte '*' || c == byte '-' || c == byte '.' || c == byte '_'

/-- `"0123456789ABCDEF"[n]`. -/
def upperHexChar (n : UInt8) : UInt8 := if n < 10 then byte '0' + n else byte 'A' + (n - 10)

def urlEncodeByte (c : UInt8) : Bytes :=
  if isUnreserved c then [c]
  else if c = byte ' ' then [byte '+']
  else [byte '%', upperHexChar (c >>> 4), upperHexChar (c &&& 0x0f)]

def urlEncode (s : Bytes) : Bytes := s.flatMap urlEncodeByte

/-- One pair of a form. -/
def formSegment (p : Bytes × Bytes) : Bytes := urlEncode p.1 ++ byte '=' :: urlEncode p.2

def formEncode (ps : List (Bytes × Bytes)) : Bytes :=
  [byte '&'].intercalate (ps.map formSegment)

/-! ### Reading one string -/

theorem urlDecode_plain {c : UInt8} (hplus : c ≠ byte '+') (hpercent : c ≠ byte '%') (s : Bytes) :
    urlDecode (c :: s) = c :: urlDecode s := by
  rw [urlDecode.eq_def]
  simp [hplus, hpercent]

theorem urlDecode_plus (s : Bytes) : urlDecode (byte '+' :: s) = byte ' ' :: urlDecode s := by
  rw [urlDecode.eq_def]
  simp

theorem urlDecode_percent {h l : UInt8} {high low : ℕ} (hh : hexValue h = some high)
    (hl : hexValue l = some low) (s : Bytes) :
    urlDecode (byte '%' :: h :: l :: s) = UInt8.ofNat (high <<< 4 ||| low) :: urlDecode s := by
  have hplus : byte '%' ≠ byte '+' := by decide
  rw [urlDecode.eq_def]
  simp [hplus, hh, hl]

theorem isUnreserved_ne : ∀ c, isUnreserved c = true →
    c ≠ byte '+' ∧ c ≠ byte '%' ∧ c ≠ byte '&' ∧ c ≠ byte '=' :=
  forall_byte (by decide +kernel)

/-- The two digits of a byte are read as its halves, which make up the byte. -/
theorem hexValue_upperHexChar : ∀ c : UInt8,
    hexValue (upperHexChar (c >>> 4)) = some (c >>> 4).toNat ∧
      hexValue (upperHexChar (c &&& 0x0f)) = some (c &&& 0x0f).toNat ∧
      UInt8.ofNat ((c >>> 4).toNat <<< 4 ||| (c &&& 0x0f).toNat) = c :=
  forall_byte (by decide +kernel)

theorem urlDecode_urlEncodeByte (c : UInt8) (s : Bytes) :
    urlDecode (urlEncodeByte c ++ s) = c :: urlDecode s := by
  unfold urlEncodeByte
  split_ifs with hkept hblank
  · obtain ⟨hplus, hpercent, -, -⟩ := isUnreserved_ne c hkept
    exact urlDecode_plain hplus hpercent s
  · rw [hblank]
    exact urlDecode_plus s
  · obtain ⟨hhigh, hlow, hbyte⟩ := hexValue_upperHexChar c
    have h := urlDecode_percent hhigh hlow s
    rwa [hbyte] at h

/-- **Decoding inverts encoding.** -/
theorem urlDecode_urlEncode (s : Bytes) : urlDecode (urlEncode s) = s := by
  induction s with
  | nil => rfl
  | cons c s ih =>
    rw [urlEncode, List.flatMap_cons, urlDecode_urlEncodeByte]
    exact congrArg (c :: ·) ih

/-! ### Finding a pair -/

theorem separators_notMem_urlEncodeByte : ∀ c,
    byte '&' ∉ urlEncodeByte c ∧ byte '=' ∉ urlEncodeByte c :=
  forall_byte (by decide +kernel)

theorem separators_notMem_urlEncode (s : Bytes) :
    byte '&' ∉ urlEncode s ∧ byte '=' ∉ urlEncode s := by
  constructor
  · intro h
    obtain ⟨c, -, hc⟩ := List.mem_flatMap.1 h
    exact (separators_notMem_urlEncodeByte c).1 hc
  · intro h
    obtain ⟨c, -, hc⟩ := List.mem_flatMap.1 h
    exact (separators_notMem_urlEncodeByte c).2 hc

theorem ampersand_notMem_formSegment (p : Bytes × Bytes) : byte '&' ∉ formSegment p := by
  have hne : byte '&' ≠ byte '=' := by decide
  simp only [formSegment, List.mem_append, List.mem_cons, not_or]
  exact ⟨(separators_notMem_urlEncode p.1).1, hne, (separators_notMem_urlEncode p.2).1⟩

/-- The segment of a pair gives its value for its name, and nothing for any other name. -/
theorem segmentValue_formSegment (key : Bytes) (p : Bytes × Bytes) :
    segmentValue key (formSegment p) = if p.1 = key then some p.2 else none := by
  have hfind : find [byte '='] (formSegment p) = some (byte '=' :: urlEncode p.2) :=
    find_singleton_append (separators_notMem_urlEncode p.1).2
  have hname : (formSegment p).take
      ((formSegment p).length - (byte '=' :: urlEncode p.2).length) = urlEncode p.1 := by
    rw [formSegment, List.length_append, Nat.add_sub_cancel, List.take_left]
  simp only [segmentValue, hfind, hname, List.tail_cons, urlDecode_urlEncode]

theorem findSome?_formSegment (key : Bytes) (ps : List (Bytes × Bytes)) :
    (ps.map formSegment).findSome? (segmentValue key) =
      (ps.find? fun p => p.1 = key).map Prod.snd := by
  induction ps with
  | nil => rfl
  | cons p ps ih =>
    rw [List.map_cons, List.findSome?_cons, segmentValue_formSegment]
    by_cases h : p.1 = key
    · simp [h]
    · simp [h, ih]

/-- The segments of a form; an empty form has one empty segment, which has no name. -/
theorem splitOn_formEncode (ps : List (Bytes × Bytes)) :
    (formEncode ps).splitOn (byte '&') = if ps = [] then [[]] else ps.map formSegment := by
  split_ifs with h
  · subst h
    rfl
  · refine List.splitOn_intercalate (byte '&') ?_ (by simpa using h)
    intro s hs
    obtain ⟨p, -, rfl⟩ := List.mem_map.1 hs
    exact ampersand_notMem_formSegment p

/-- **Form decoding inverts the portal's encoding**: the value of the first pair with the given
name, or nothing. -/
theorem formValue_formEncode (ps : List (Bytes × Bytes)) (key : Bytes) :
    formValue (formEncode ps) key = ((ps.find? fun p => p.1 = key).map Prod.snd).getD [] := by
  rw [formValue, splitOn_formEncode]
  split_ifs with h
  · subst h
    rfl
  · rw [findSome?_formSegment]

end Panel

end HaPanel
