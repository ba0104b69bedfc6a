import HaPanel.Assist.Child
import HaPanel.Text.JsonText

/-!
# Looking inside an object

`json_string_in_object` finds the end of an object by counting braces outside of strings.  The text
of the object is described by its lexemes (`HaPanel.Text.JsonText`), and `closesAt` counts the
braces among them: a value inside the object leaves the count as it is (`closesAt_lexemes`), so the
scan ends at the brace that closes the object, whatever comes behind it.

`object_scoped_lookup` : the text that is searched for the value is the object, whole and alone.
-/

namespace HaPanel

namespace Assist

open Text Json

/-! ### Scanning bytes -/

/-- The scan passes over `u` and changes the three variables. -/
def Passes (u : Bytes) (depth : ℕ) (inString escaped : Bool) (depth' : ℕ)
    (inString' escaped' : Bool) : Prop :=
  ∀ rest, objectLength depth inString escaped (u ++ rest) =
    (objectLength depth' inString' escaped' rest).map (· + u.length)

theorem Passes.append {u v : Bytes} {d d' d'' : ℕ} {i i' i'' e e' e'' : Bool}
    (h : Passes u d i e d' i' e') (h' : Passes v d' i' e' d'' i'' e'') :
    Passes (u ++ v) d i e d'' i'' e'' := by
  intro rest
  rw [List.append_assoc, h, h', Option.map_map, List.length_append]
  refine congrArg (Option.map · _) ?_
  funext n
  simp only [Function.comp_apply]
  omega

theorem Passes.nil (d : ℕ) (i e : Bool) : Passes [] d i e d i e := by
  intro rest
  cases h : objectLength d i e rest <;> simp [h]

/-- A step of the scan inside a string. -/
theorem objectLength_inside (depth : ℕ) (escaped : Bool) (c : UInt8) (s : Bytes) :
    objectLength depth true escaped (c :: s) =
      (if escaped then objectLength depth true false s
      else if c = byte '\\' then objectLength depth true true s
      else if c = byte '"' then objectLength depth false false s
      else objectLength depth true false s).map (· + 1) := rfl

/-- A step of the scan outside of strings. -/
theorem objectLength_outside (depth : ℕ) (escaped : Bool) (c : UInt8) (s : Bytes) :
    objectLength depth false escaped (c :: s) =
      if c = byte '"' then (objectLength depth true escaped s).map (· + 1)
      else if c = byte '\x7b' then (objectLength (depth + 1) false escaped s).map (· + 1)
      else if c = byte '\x7d' then
        if depth - 1 = 0 then some 1 else (objectLength (depth - 1) false escaped s).map (· + 1)
      else (objectLength depth false escaped s).map (· + 1) := rfl

/-- A byte of a string other than a quotation mark and a backslash. -/
theorem passes_plain {c : UInt8} (hquote : c ≠ byte '"') (hslash : c ≠ byte '\\') (d : ℕ) :
    Passes [c] d true false d true false := by
  intro rest
  simp [objectLength_inside, hquote, hslash]

/-- A byte behind a backslash. -/
theorem passes_escaped (c : UInt8) (d : ℕ) : Passes [c] d true true d true false := by
  intro rest
  simp [objectLength_inside]

theorem passes_backslash (d : ℕ) : Passes [byte '\\'] d true false d true true := by
  intro rest
  simp [objectLength_inside]

theorem passes_close_quote (d : ℕ) : Passes [byte '"'] d true false d false false := by
  intro rest
  simp [objectLength_inside, show byte '"' ≠ byte '\\' by decide]

theorem passes_open_quote (d : ℕ) : Passes [byte '"'] d false false d true false := by
  intro rest
  simp [objectLength_outside]

/-- A byte between lexemes, or of a literal or a numeral. -/
theorem passes_other {c : UInt8} (hquote : c ≠ byte '"') (hopen : c ≠ byte '\x7b')
    (hclose : c ≠ byte '\x7d') (d : ℕ) : Passes [c] d false false d false false := by
  intro rest
  simp [objectLength_outside, hquote, hopen, hclose]

theorem passes_open (d : ℕ) : Passes [byte '\x7b'] d false false (d + 1) false false := by
  intro rest
  simp [objectLength_outside, show byte '\x7b' ≠ byte '"' by decide]

theorem passes_close {d : ℕ} (hd : d - 1 ≠ 0) :
    Passes [byte '\x7d'] d false false (d - 1) false false := by
  intro rest
  simp [objectLength_outside, show byte '\x7d' ≠ byte '"' by decide,
    show byte '\x7d' ≠ byte '\x7b' by decide, hd]

theorem objectLength_close {d : ℕ} (hd : d - 1 = 0) (rest : Bytes) :
    objectLength d false false (byte '\x7d' :: rest) = some 1 := by
  simp [objectLength_outside, show byte '\x7d' ≠ byte '"' by decide,
    show byte '\x7d' ≠ byte '\x7b' by decide, hd]

/-! ### Strings -/

theorem hexDigit_ne {c : UInt8} (h : (hexDigit c).isSome = true) :
    c ≠ byte '"' ∧ c ≠ byte '\\' :=
  forall_byte (p := fun c => (hexDigit c).isSome = true → c ≠ byte '"' ∧ c ≠ byte '\\')
    (by decide +kernel) c h

theorem passes_hexDigit {c : UInt8} (h : (hexDigit c).isSome = true) (d : ℕ) :
    Passes [c] d true false d true false :=
  passes_plain (hexDigit_ne h).1 (hexDigit_ne h).2 d

theorem isSome_of_hexQuad {a b c d : UInt8} {n : ℕ} (h : hexQuad a b c d = some n) :
    (hexDigit a).isSome = true ∧ (hexDigit b).isSome = true ∧ (hexDigit c).isSome = true ∧
      (hexDigit d).isSome = true := by
  unfold hexQuad at h
  cases ha : hexDigit a <;> cases hb : hexDigit b <;> cases hc : hexDigit c <;>
    cases hd : hexDigit d <;> simp [ha, hb, hc, hd] at h ⊢

/-- The letter `u` behind a backslash and the four digits. -/
theorem passes_hexQuad {a b c d : UInt8} {n : ℕ} (h : hexQuad a b c d = some n) (depth : ℕ) :
    Passes [byte 'u', a, b, c, d] depth true true depth true false := by
  obtain ⟨ha, hb, hc, hd⟩ := isSome_of_hexQuad h
  exact (passes_escaped (byte 'u') depth).append ((passes_hexDigit ha depth).append
    ((passes_hexDigit hb depth).append ((passes_hexDigit hc depth).append
      (passes_hexDigit hd depth))))

/-- Only the first byte behind the backslash could be taken for something else. -/
theorem passes_escape {e u : Bytes} (h : Escape e u) (depth : ℕ) :
    Passes e depth true true depth true false := by
  cases h with
  | short => exact passes_escaped _ depth
  | unicode hn => exact passes_hexQuad hn depth
  | surrogates hm _ hn =>
    exact (passes_hexQuad hm depth).append ((passes_backslash depth).append
      (passes_hexQuad hn depth))

theorem passes_chars {raw t : Bytes} (h : Chars raw t) (depth : ℕ) :
    Passes raw depth true false depth true false := by
  induction h with
  | nil => exact .nil depth true false
  | plain hc _ ih => exact (passes_plain hc.2.1 hc.2.2 depth).append ih
  | escape he _ ih =>
    exact (passes_backslash depth).append ((passes_escape he depth).append ih)

/-- **A string is passed over**, whatever is in it. -/
theorem passes_string {raw t : Bytes} (h : Chars raw t) (depth : ℕ) :
    Passes (byte '"' :: (raw ++ [byte '"'])) depth false false depth false false :=
  (passes_open_quote depth).append ((passes_chars h depth).append (passes_close_quote depth))

/-! ### Lexemes -/

theorem passes_blank {c : UInt8} (h : Json.isBlank c = true) (depth : ℕ) :
    Passes [c] depth false false depth false false := by
  have hne : c ≠ byte '"' ∧ c ≠ byte '\x7b' ∧ c ≠ byte '\x7d' :=
    forall_byte
      (p := fun c => Json.isBlank c = true →
        c ≠ byte '"' ∧ c ≠ byte '\x7b' ∧ c ≠ byte '\x7d')
      (by decide +kernel) c h
  exact passes_other hne.1 hne.2.1 hne.2.2 depth

theorem passes_wordByte {c : UInt8} (h : isWordByte c = true) (depth : ℕ) :
    Passes [c] depth false false depth false false := by
  have hne : c ≠ byte '"' ∧ c ≠ byte '\x7b' ∧ c ≠ byte '\x7d' :=
    forall_byte
      (p := fun c => isWordByte c = true → c ≠ byte '"' ∧ c ≠ byte '\x7b' ∧ c ≠ byte '\x7d')
      (by decide +kernel) c h
  exact passes_other hne.1 hne.2.1 hne.2.2 depth

theorem passes_word {w : Bytes} (h : ∀ c ∈ w, isWordByte c = true) (depth : ℕ) :
    Passes w depth false false depth false false := by
  induction w with
  | nil => exact .nil depth false false
  | cons c w ih =>
    obtain ⟨hc, hw⟩ := List.forall_mem_cons.1 h
    exact (passes_wordByte hc depth).append (ih hw)

/-- What is left of the lexemes behind the brace that brings the count to zero. -/
def closesAt : ℕ → List Lexeme → Option (List Lexeme)
  | _, [] => none
  | depth, .punct .openBrace :: ls => closesAt (depth + 1) ls
  | depth, .punct .closeBrace :: ls => if depth - 1 = 0 then some ls else closesAt (depth - 1) ls
  | depth, _ :: ls => closesAt depth ls

/-- The scan is at the end of `u`. -/
def EndsAt (u : Bytes) (depth : ℕ) (s : Bytes) : Prop :=
  ∀ rest, objectLength depth false false (s ++ rest) = some u.length

theorem Passes.endsAt {u v s : Bytes} {depth depth' : ℕ}
    (h : Passes u depth false false depth' false false) (h' : EndsAt v depth' s) :
    EndsAt (u ++ v) depth (u ++ s) := by
  intro rest
  rw [List.append_assoc, h, h', Option.map_some, List.length_append, Nat.add_comm]

/-- **The scan ends where the lexemes say.** -/
theorem endsAt_of_lexes {s : Bytes} {ls ls' : List Lexeme} (h : Lexes s ls) {depth : ℕ}
    (hclose : closesAt depth ls = some ls') :
    ∃ u v, s = u ++ v ∧ Lexes v ls' ∧ EndsAt u depth s := by
  induction h generalizing depth with
  | nil => cases hclose
  | @blank c s ls hc h ih =>
    obtain ⟨u, v, rfl, hv, hend⟩ := ih hclose
    exact ⟨c :: u, v, rfl, hv, (passes_blank hc depth).endsAt hend⟩
  | @punct p s ls h ih =>
    cases p with
    | openBrace =>
      obtain ⟨u, v, rfl, hv, hend⟩ := ih hclose
      exact ⟨_ :: u, v, rfl, hv, (passes_open depth).endsAt hend⟩
    | closeBrace =>
      rw [closesAt] at hclose
      split_ifs at hclose with hdepth
      · -- the brace that closes the object
        obtain rfl := Option.some.inj hclose
        exact ⟨[byte '\x7d'], s, rfl, h, fun rest => objectLength_close hdepth (s ++ rest)⟩
      · obtain ⟨u, v, rfl, hv, hend⟩ := ih hclose
        exact ⟨_ :: u, v, rfl, hv, (passes_close hdepth).endsAt hend⟩
    | openBracket | closeBracket | colon | comma =>
      obtain ⟨u, v, rfl, hv, hend⟩ := ih hclose
      exact ⟨_ :: u, v, rfl, hv,
        (passes_other (by decide) (by decide) (by decide) depth).endsAt hend⟩
  | @word w s ls _ h ih =>
    obtain ⟨u, v, rfl, hv, hend⟩ := ih hclose
    exact ⟨w.1 ++ u, v, by rw [List.append_assoc], hv, (passes_word w.2.2 depth).endsAt hend⟩
  | @string raw t s ls hraw h ih =>
    obtain ⟨u, v, rfl, hv, hend⟩ := ih hclose
    refine ⟨byte '"' :: (raw ++ [byte '"']) ++ u, v, by simp, hv, ?_⟩
    have hstring := (passes_string hraw depth).endsAt hend
    simpa using hstring

/-! ### Values -/

theorem closesAt_separator (first : Bool) (depth : ℕ) (ls : List Lexeme) :
    closesAt depth (separator first ++ ls) = closesAt depth ls := by
  cases first <;> rfl

-- induction over the value, with its elements and its members
mutual
/-- **A value leaves the count of the braces as it is.** -/
theorem closesAt_lexemes (v : Value) (depth : ℕ) (ls : List Lexeme) :
    closesAt (depth + 1) (v.lexemes ++ ls) = closesAt (depth + 1) ls := by
  cases v with
  | null | bool b | number n | string t => rfl
  | array vs =>
    rw [Value.lexemes, List.cons_append, closesAt]
    · exact closesAt_elementLexemes true vs depth ls
    · simp
    · simp
  | object ms =>
    rw [Value.lexemes, List.cons_append, closesAt, closesAt_memberLexemes true ms (depth + 1) ls,
      if_neg (Nat.succ_ne_zero depth)]
theorem closesAt_elementLexemes (first : Bool) (vs : List Value) (depth : ℕ) (ls : List Lexeme) :
    closesAt (depth + 1) (elementLexemes first vs ++ ls) = closesAt (depth + 1) ls := by
  cases vs with
  | nil => rfl
  | cons v vs =>
    rw [elementLexemes, List.append_assoc, closesAt_separator, List.append_assoc,
      closesAt_lexemes v depth, closesAt_elementLexemes false vs depth]
theorem closesAt_memberLexemes (first : Bool) (ms : List (Bytes × Value)) (depth : ℕ)
    (ls : List Lexeme) :
    closesAt (depth + 1) (memberLexemes first ms ++ ls) =
      if depth = 0 then some ls else closesAt depth ls := by
  cases ms with
  | nil => rfl
  | cons m ms =>
    obtain ⟨k, v⟩ := m
    rw [memberLexemes, List.append_assoc, closesAt_separator]
    show closesAt (depth + 1) (v.lexemes ++ memberLexemes false ms ++ ls) = _
    rw [List.append_assoc, closesAt_lexemes v depth, closesAt_memberLexemes false ms depth]
end

/-! ### The lookup -/

/-- The text of an object, from its opening to its closing brace. -/
structure ObjectText (o : Bytes) (ms : List (Bytes × Value)) : Prop where
  lexes : Lexes o (Value.object ms).lexemes
  opens : o.head? = some (byte '\x7b')
  closes : o.getLast? = some (byte '\x7d')

theorem blank_of_lexes_nil {s : Bytes} (h : Lexes s []) : ∀ c ∈ s, Json.isBlank c = true := by
  generalize hls : ([] : List Lexeme) = ls at h
  induction h with
  | nil => simp
  | blank hc _ ih => exact List.forall_mem_cons.2 ⟨hc, ih hls⟩
  | punct | word | string => cases hls

theorem ObjectText.objectLength_eq {o : Bytes} {ms : List (Bytes × Value)} (h : ObjectText o ms)
    (rest : Bytes) : objectLength 0 false false (o ++ rest) = some o.length := by
  have hclose : closesAt 0 (Value.object ms).lexemes = some [] := by
    have hmembers := closesAt_memberLexemes true ms 0 []
    rw [List.append_nil] at hmembers
    exact hmembers
  obtain ⟨u, v, rfl, hv, hend⟩ := endsAt_of_lexes h.lexes hclose
  -- behind the closing brace there could only be blanks
  have hempty : v = [] := by
    rcases List.eq_nil_or_concat v with hv' | ⟨init, c, hv'⟩
    · exact hv'
    · have hlast := h.closes
      rw [hv', List.concat_eq_append, ← List.append_assoc, List.getLast?_concat] at hlast
      have hblank := blank_of_lexes_nil hv c (by rw [hv']; simp)
      rw [Option.some.inj hlast] at hblank
      cases hblank
  rw [hend rest, hempty, List.append_nil]

/-- The text that `json_string_in_object` hands to `json_string_after`. -/
def objectIn (json objectKey : Bytes) : Option Bytes :=
  ((find (marker objectKey) json).bind fun t =>
    find [byte '\x7b'] (t.drop (marker objectKey).length)).bind fun object =>
      (objectLength 0 false false object).map object.take

theorem jsonStringInObject_eq (json objectKey valueKey : Bytes) :
    jsonStringInObject json objectKey valueKey =
      match objectIn json objectKey with
      | none => []
      | some o => jsonStringAfter o valueKey := by
  unfold jsonStringInObject objectIn
  cases (find (marker objectKey) json).bind fun t =>
      find [byte '\x7b'] (t.drop (marker objectKey).length) with
  | none => rfl
  | some object =>
    simp only [Option.bind_some]
    cases objectLength 0 false false object <;> rfl

theorem brace_notMem_of_blank {s : Bytes} (h : ∀ c ∈ s, Json.isBlank c = true) :
    byte '\x7b' ∉ s := by
  intro hmem
  exact absurd (h _ hmem) (by decide)

/-- **The lookup stays in the object.**  If the first occurrence of the quoted key is followed by
blanks, a colon, blanks and an object, then the text that is searched is that object, whatever
comes behind it, and the result is the one for the object alone. -/
theorem object_scoped_lookup {json objectKey : Bytes} {before behind o rest : Bytes}
    {ms : List (Bytes × Value)} (hbefore : ∀ c ∈ before, Json.isBlank c = true)
    (hbehind : ∀ c ∈ behind, Json.isBlank c = true) (ho : ObjectText o ms)
    (hfirst : find (marker objectKey) json =
      some (marker objectKey ++ (before ++ byte ':' :: (behind ++ (o ++ rest))))) :
    objectIn json objectKey = some o ∧
      ∀ valueKey, jsonStringInObject json objectKey valueKey = jsonStringAfter o valueKey := by
  obtain ⟨inner, hinner⟩ := List.head?_eq_some_iff.1 ho.opens
  have hnone : byte '\x7b' ∉ before ++ byte ':' :: behind := by
    rw [List.mem_append, List.mem_cons, not_or, not_or]
    exact ⟨brace_notMem_of_blank hbefore, by decide, brace_notMem_of_blank hbehind⟩
  have hobject : find [byte '\x7b'] (before ++ byte ':' :: (behind ++ (o ++ rest))) =
      some (o ++ rest) := by
    have hfind := find_singleton_append (s := inner ++ rest) hnone
    rw [hinner]
    simpa using hfind
  have hin : objectIn json objectKey = some o := by
    rw [objectIn, hfirst, Option.bind_some, List.drop_left, hobject, Option.bind_some,
      ho.objectLength_eq, Option.map_some, List.take_left]
  refine ⟨hin, ?_⟩
  intro valueKey
  rw [jsonStringInObject_eq, hin]

/-- An object with a brace and a quotation mark in a string. -/
def nestedObject : Bytes :=
  str "\x7b\"a\":\"\x7d\\\"\",\"speech\":\"ok\"\x7d"

/-- An answer with a second `speech` behind the object. -/
def nestedAnswer : Bytes :=
  str "\x7b\"plain\" : " ++ (nestedObject ++ str ",\"speech\":\"no\"\x7d")

theorem objectText_nestedObject :
    ObjectText nestedObject
      [(str "a", .string [byte '\x7d', byte '"']), (str "speech", .string (str "ok"))] := by
  have hclean : Clean (str "a") ∧ Clean (str "speech") ∧ Clean (str "ok") := by decide +kernel
  have htext : nestedObject = Punct.openBrace.byte ::
      byte '"' :: (str "a" ++ byte '"' :: Punct.colon.byte ::
      byte '"' :: (byte '\x7d' :: byte '\\' :: ([byte '"'] ++ []) ++ byte '"' ::
      Punct.comma.byte ::
      byte '"' :: (str "speech" ++ byte '"' :: Punct.colon.byte ::
      byte '"' :: (str "ok" ++ byte '"' :: [Punct.closeBrace.byte])))) := by
    decide +kernel
  have hvalue : Chars (byte '\x7d' :: byte '\\' :: ([byte '"'] ++ []))
      [byte '\x7d', byte '"'] :=
    .plain (by decide) (.escape (.short (c := byte '"') (by decide)) .nil)
  refine ⟨?_, by decide +kernel, by decide +kernel⟩
  rw [htext]
  exact .punct (.string hclean.1.chars (.punct (.string hvalue (.punct (.string
    hclean.2.1.chars (.punct (.string hclean.2.2.chars (.punct .nil))))))))

theorem nested_answer_lookup :
    jsonStringInObject nestedAnswer (str "plain") (str "speech") =
      jsonStringAfter nestedObject (str "speech") := by
  have hfirst : find (marker (str "plain")) nestedAnswer =
      some (marker (str "plain") ++ (str " " ++ byte ':' :: (str " " ++ (nestedObject ++
        str ",\"speech\":\"no\"\x7d")))) := by
    decide +kernel
  have hblank : ∀ c ∈ str " ", Json.isBlank c = true := forall_mem_of_all (by decide +kernel)
  exact (object_scoped_lookup hblank hblank objectText_nestedObject hfirst).2 (str "speech")

end Assist

end HaPanel
