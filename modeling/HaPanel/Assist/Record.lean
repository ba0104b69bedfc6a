import HaPanel.Text.Bytes
import HaPanel.Text.Escape

/-!
# Pipeline records

The pipeline process reports to the panel with one record a line, which `serialize_result` writes
and `consume_output` reads.  Writer and reader are written by hand.  The reader finds the fields by
first-occurrence search, so what it returns is governed by `Layout.lookup_text`: a text value that
looks like the key of a later field gets in the way of that field (`impostor`).
`firstLine_roundTrip_iff` says exactly which records are read back as they were written.
-/

namespace HaPanel

namespace Assist

open Text

/-- A value of type `int`. -/
abbrev CInt := {i : ℤ // -2 ^ 31 ≤ i ∧ i < 2 ^ 31}

theorem zero_mem_cInt : (-2 ^ 31 : ℤ) ≤ 0 ∧ (0 : ℤ) < 2 ^ 31 := by decide

/-- `static_cast<int>` of a `long`. -/
def toCInt (v : ℤ) : CInt :=
  ⟨toInt32 v, by
    have h₁ := Int.le_bmod (x := v) (m := 2 ^ 32) (by decide)
    have h₂ := Int.bmod_lt (x := v) (m := 2 ^ 32) (by decide)
    unfold toInt32
    omega⟩

theorem toCInt_coe (i : CInt) : toCInt i.1 = i :=
  Subtype.ext (toInt32_of_mem i.2.1 i.2.2)

@[ext]
structure AssistPipelineResult where
  success : Bool := false
  stage : Bytes := []
  transcript : Bytes := []
  response : Bytes := []
  error : Bytes := []
  conversationId : Bytes := []
  responseType : Bytes := []
  continueConversation : Bool := false
  audioLevel : CInt := ⟨0, zero_mem_cInt⟩
  deriving DecidableEq

/-! ### Writing -/

/-- What `json_escape` writes for one byte: control characters are dropped. -/
def escapeByte (c : UInt8) : Bytes :=
  if c = byte '"' ∨ c = byte '\\' then [byte '\\', c]
  else if c = 10 then [byte '\\', byte 'n']
  else if c = 13 then [byte '\\', byte 'r']
  else if 0x20 ≤ c then [c]
  else []

def jsonEscape (value : Bytes) : Bytes := value.flatMap escapeByte

/-- The value of a field. -/
inductive Datum where
  | text (v : Bytes)
  | flag (b : Bool)
  | level (n : CInt)
  deriving DecidableEq

/-- The value as it is written. -/
def Datum.value : Datum → Value UInt8
  | text v => .text (jsonEscape v)
  | flag b => .bare (boolLit b)
  | level n => .bare (decimalInt n)

/-- The fields of a record, in the order `serialize_result` writes them. -/
def AssistPipelineResult.data (r : AssistPipelineResult) (final : Bool) : List (Bytes × Datum) :=
  [(str "final", .flag final),
    (str "success", .flag r.success),
    (str "stage", .text r.stage),
    (str "transcript", .text r.transcript),
    (str "response", .text r.response),
    (str "error", .text r.error),
    (str "conversation_id", .text r.conversationId),
    (str "response_type", .text r.responseType),
    (str "continue_conversation", .flag r.continueConversation),
    (str "audio_level", .level r.audioLevel)]

/-- The fields as they are written. -/
def render (ds : List (Bytes × Datum)) : List (Entry UInt8) := ds.map fun f => (f.1, f.2.value)

/-- The punctuation `serialize_result` writes. -/
def recordLayout : Layout UInt8 where
  quote := byte '"'
  colon := byte ':'
  opening := str "\x7b"
  gap := []
  sep := str ","
  closing := str "\x7d"
  quote_ne_colon := Text.quote_ne_colon
  quote_notMem_opening := Text.quote_notMem_leftBrace
  quote_notMem_gap := Text.quote_notMem_nil
  quote_notMem_sep := Text.quote_notMem_comma
  quote_notMem_closing := Text.quote_notMem_rightBrace
  colon_notMem_sep := Text.colon_notMem_comma
  colon_notMem_closing := Text.colon_notMem_rightBrace

def serializeResult (r : AssistPipelineResult) (final : Bool) : Bytes :=
  recordLayout.text (render (r.data final)) ++ [10]

example : serializeResult { success := true, stage := str "stt" } false =
    str "\x7b\"final\":false,\"success\":true,\"stage\":\"stt\"," ++
    str "\"transcript\":\"\",\"response\":\"\",\"error\":\"\"," ++
    str "\"conversation_id\":\"\",\"response_type\":\"\"," ++
    str "\"continue_conversation\":false,\"audio_level\":0\x7d\n" := by
  decide +kernel

/-! ### Reading -/

/-- The quoted key. -/
def marker (key : Bytes) : Bytes := byte '"' :: (key ++ [byte '"'])

/-- What follows the first colon after the first quoted key. -/
def afterColon (json key : Bytes) : Option Bytes :=
  ((find (marker key) json).bind fun t => find [byte ':'] (t.drop (marker key).length)).map
    List.tail

/-- The loop of `json_string_after`, with its flag `escaped`. -/
def scanString : Bool → Bytes → Bytes
  | _, [] => []
  | true, c :: s =>
    (if c = byte 'n' then 10 else if c = byte 'r' then 13 else c) :: scanString false s
  | false, c :: s =>
    if c = byte '\\' then scanString true s
    else if c = byte '"' then []
    else c :: scanString false s

/-- `json_string_after`, from the character after the colon on. -/
def stringAt (s : Bytes) : Bytes :=
  match find [byte '"'] s with
  | none => []
  | some t => scanString false t.tail

/-- `json_string_after`, which is called with `start = 0` only. -/
def jsonStringAfter (json key : Bytes) : Bytes :=
  match afterColon json key with
  | none => []
  | some s => stringAt s

/-- A blank that `json_int_after` and `json_bool_after` skip. -/
def isBlank (c : UInt8) : Bool := c == byte ' ' || c == 9

/-- `json_int_after`, from the character after the colon on. -/
def intAt (s : Bytes) (fallback : CInt) : CInt :=
  let t := cStr (s.dropWhile isBlank)
  let r := strtol t
  if r.2 = t then fallback else toCInt r.1

def jsonIntAfter (json key : Bytes) (fallback : CInt) : CInt :=
  match afterColon json key with
  | none => fallback
  | some s => intAt s fallback

/-- `json_bool_after`, from the character after the colon on. -/
def boolAt (s : Bytes) (fallback : Bool) : Bool :=
  let t := s.dropWhile isBlank
  if (str "true").isPrefixOf t then true
  else if (str "false").isPrefixOf t then false
  else fallback

def jsonBoolAfter (json key : Bytes) (fallback : Bool) : Bool :=
  match afterColon json key with
  | none => fallback
  | some s => boolAt s fallback

/-- The record `consume_output` makes of a line. -/
def parseLine (line : Bytes) : AssistPipelineResult where
  success := contains (str "\"success\":true") line
  stage := jsonStringAfter line (str "stage")
  transcript := jsonStringAfter line (str "transcript")
  response := jsonStringAfter line (str "response")
  error := jsonStringAfter line (str "error")
  conversationId := jsonStringAfter line (str "conversation_id")
  responseType := jsonStringAfter line (str "response_type")
  continueConversation := jsonBoolAfter line (str "continue_conversation") false
  audioLevel := jsonIntAfter line (str "audio_level") ⟨0, by decide⟩

/-- `output.substr(0, output.find('\n'))`. -/
def firstLine (output : Bytes) : Bytes := output.takeWhile (· ≠ 10)

/-! ### Reading one value -/

/-- The bytes that survive `json_escape`. -/
def CleanByte (c : UInt8) : Prop := 0x20 ≤ c ∨ c = 10 ∨ c = 13

instance : DecidablePred CleanByte := fun _ => inferInstanceAs (Decidable (_ ∨ _))

theorem scanString_escapeByte {c : UInt8} (hc : CleanByte c) (s : Bytes) :
    scanString false (escapeByte c ++ s) = c :: scanString false s := by
  unfold escapeByte
  split_ifs with h₁ h₂ h₃ h₄
  · rcases h₁ with rfl | rfl <;> simp [scanString, byte]
  · simp [scanString, byte, h₂]
  · simp [scanString, byte, h₃]
  · simp only [not_or] at h₁
    simp [scanString, h₁]
  · rcases hc with h | h | h
    · exact absurd h h₄
    · exact absurd h h₂
    · exact absurd h h₃

theorem scanString_jsonEscape {v : Bytes} (hv : ∀ c ∈ v, CleanByte c) (s : Bytes) :
    scanString false (jsonEscape v ++ byte '"' :: s) = v := by
  induction v with
  | nil => simp [jsonEscape, scanString, byte]
  | cons c v ih =>
    have ih := ih fun d hd => hv d (by simp [hd])
    rw [jsonEscape, List.flatMap_cons, List.append_assoc, scanString_escapeByte (hv c (by simp))]
    rw [jsonEscape] at ih
    rw [ih]

/-- The value can be read back. -/
def Datum.Clean : Datum → Prop
  | text v => ∀ c ∈ v, CleanByte c
  | _ => True

/-- The flag that is read where the value is written. -/
def Datum.readFlag : Datum → Bool
  | flag b => b
  | _ => false

/-- The number that is read where the value is written. -/
def Datum.readLevel : Datum → CInt
  | level n => n
  | _ => ⟨0, by decide⟩

/-- The text from a value on, when the fields `fs` follow. -/
def written (d : Datum) (fs : List (Entry UInt8)) : Bytes :=
  recordLayout.value d.value ++ recordLayout.rest fs

theorem written_text (v : Bytes) (fs : List (Entry UInt8)) :
    written (.text v) fs = byte '"' :: (jsonEscape v ++ byte '"' :: recordLayout.rest fs) := by
  simp [written, Datum.value, Layout.value, recordLayout]

/-- What follows a value starts with a comma or a brace. -/
theorem rest_eq_cons (fs : List (Entry UInt8)) :
    ∃ c s, recordLayout.rest fs = c :: s ∧ isDigit c = false ∧ c ≠ 0 := by
  cases fs with
  | nil => exact ⟨byte '\x7d', [], by decide⟩
  | cons f fs => exact ⟨byte ',', _, rfl, by decide, by decide⟩

theorem stringAt_written {v : Bytes} (hv : ∀ c ∈ v, CleanByte c) (fs : List (Entry UInt8)) :
    stringAt (written (.text v) fs) = v := by
  rw [written_text, stringAt]
  have hfind := find_singleton_append
    (s := jsonEscape v ++ byte '"' :: recordLayout.rest fs) (List.not_mem_nil (a := byte '"'))
  rw [List.nil_append] at hfind
  rw [hfind]
  exact scanString_jsonEscape hv _

/-- The first byte of a value says what kind of value it is. -/
theorem boolAt_of_head {c : UInt8} (hblank : isBlank c = false) (ht : c ≠ byte 't')
    (hf : c ≠ byte 'f') (s : Bytes) (fallback : Bool) : boolAt (c :: s) fallback = fallback := by
  have htrue : str "true" = byte 't' :: str "rue" := by decide
  have hfalse : str "false" = byte 'f' :: str "alse" := by decide
  simp [boolAt, hblank, htrue, hfalse, Ne.symm ht, Ne.symm hf]

theorem boolAt_written (d : Datum) (fs : List (Entry UInt8)) :
    boolAt (written d fs) false = d.readFlag := by
  cases d with
  | text v =>
    rw [written_text]
    exact boolAt_of_head (by decide) (by decide) (by decide) _ _
  | flag b =>
    change boolAt (boolLit b ++ recordLayout.rest fs) false = b
    cases b with
    | true =>
      have hlit : boolLit true = byte 't' :: str "rue" := by decide
      have hb : isBlank (byte 't') = false := by decide
      have htrue : str "true" = byte 't' :: str "rue" := by decide
      simp [boolAt, hlit, hb, htrue]
    | false =>
      have hlit : boolLit false = byte 'f' :: str "alse" := by decide
      have hb : isBlank (byte 'f') = false := by decide
      have htrue : str "true" = byte 't' :: str "rue" := by decide
      have hfalse : str "false" = byte 'f' :: str "alse" := by decide
      have hne : byte 't' ≠ byte 'f' := by decide
      simp [boolAt, hlit, hb, htrue, hne]
  | level n =>
    obtain ⟨c, s, hn, hc⟩ := decimalInt_eq_cons n
    have hhead : isBlank c = false ∧ c ≠ byte 't' ∧ c ≠ byte 'f' := by
      have h : ∀ c, isDigit c = true ∨ c = byte '-' →
          isBlank c = false ∧ c ≠ byte 't' ∧ c ≠ byte 'f' := forall_byte (by decide +kernel)
      exact h c hc
    change boolAt (decimalInt n ++ recordLayout.rest fs) false = false
    rw [hn]
    exact boolAt_of_head hhead.1 hhead.2.1 hhead.2.2 _ _

theorem intAt_of_head {c : UInt8} (hblank : isBlank c = false) (hzero : c ≠ 0)
    (hspace : isSpace c = false) (hsign : c ≠ byte '-' ∧ c ≠ byte '+') (hdigit : isDigit c = false)
    (s : Bytes) (fallback : CInt) : intAt (c :: s) fallback = fallback := by
  have hcstr : cStr (c :: s) = c :: cStr s := by simp [cStr, hzero]
  simp only [intAt, List.dropWhile_cons, hblank, Bool.false_eq_true, if_false, hcstr,
    strtol_of_head hspace hsign hdigit, if_true]

theorem intAt_written (d : Datum) (fs : List (Entry UInt8)) :
    intAt (written d fs) ⟨0, by decide⟩ = d.readLevel := by
  cases d with
  | text v =>
    rw [written_text]
    exact intAt_of_head (by decide) (by decide) (by decide) (by decide) (by decide) _ _
  | flag b =>
    change intAt (boolLit b ++ recordLayout.rest fs) _ = _
    cases b with
    | true =>
      exact intAt_of_head (c := byte 't') (by decide) (by decide) (by decide) (by decide)
        (by decide) _ _
    | false =>
      exact intAt_of_head (c := byte 'f') (by decide) (by decide) (by decide) (by decide)
        (by decide) _ _
  | level n =>
    obtain ⟨c, s, hrest, hdigit, hzero⟩ := rest_eq_cons fs
    obtain ⟨d, t, hn, hd⟩ := decimalInt_eq_cons n
    have hblank : isBlank d = false := by
      have h : ∀ c, isDigit c = true ∨ c = byte '-' → isBlank c = false :=
        forall_byte (by decide +kernel)
      exact h d hd
    have hdrop : (decimalInt n ++ c :: s).dropWhile isBlank = decimalInt n ++ c :: s := by
      simp [hn, hblank]
    have hcstr : cStr (decimalInt n ++ c :: s) = decimalInt n ++ c :: cStr s := by
      have hnum : ∀ e ∈ decimalInt n, e ≠ 0 := by
        rintro e he rfl
        exact notMem_decimalInt (by decide) (by decide) n he
      rw [cStr_append hnum]
      simp [cStr, hzero]
    have hread : strtol (decimalInt n ++ c :: cStr s) = ((n : ℤ), c :: cStr s) := by
      refine strtol_decimalInt ?_ ?_ ?_
      · have := n.2.1; omega
      · have := n.2.2; omega
      · rintro e ⟨⟩
        exact hdigit
    have hne : ¬ c :: cStr s = decimalInt n ++ c :: cStr s := by
      intro h
      have hlen := congrArg List.length h
      simp only [hn, List.length_cons, List.length_append] at hlen
      omega
    change intAt (decimalInt n ++ recordLayout.rest fs) _ = n
    simp only [hrest, intAt, hdrop, hcstr, hread, hne, if_false, toCInt_coe]

/-! ### Finding the fields -/

theorem escapeByte_plain_or_esc :
    ∀ c, CleanByte c → escapeByte c = [c] ∨ byte '\\' ∈ escapeByte c :=
  forall_byte (by decide +kernel)

/-- The escaper of the pipeline process. -/
def jsonEscaper : Escaper UInt8 where
  quote := byte '"'
  esc := byte '\\'
  char := escapeByte
  char_quote := by decide
  quote_notMem_char := forall_byte (by decide +kernel)
  quote_ne_esc := Text.quote_ne_backslash

/-- The keys of a record. -/
def recordKeys : List Bytes := (({} : AssistPipelineResult).data true).map Prod.fst

theorem data_keys (r : AssistPipelineResult) (final : Bool) :
    (r.data final).map Prod.fst = recordKeys := rfl

/-- The keys are plain words. -/
theorem recordKeys_plain : ∀ key ∈ recordKeys,
    byte '"' ∉ key ∧ byte ':' ∉ key ∧ byte '\\' ∉ key ∧ recordLayout.sep ≠ key ∧
      ∀ c ∈ key, escapeByte c = [c] :=
  plainKeys_of_all (by decide +kernel)

/-- Whatever the values are, every lookup can read every field. -/
theorem render_readable {key : Bytes} (hkey : key ∈ recordKeys) (r : AssistPipelineResult)
    (final : Bool) : ∀ f ∈ render (r.data final), recordLayout.Readable key f := by
  intro f hf
  obtain ⟨⟨k, d⟩, hd, rfl⟩ := List.mem_map.mp hf
  have hk : k ∈ recordKeys := by
    rw [← data_keys r final]
    exact List.mem_map_of_mem hd
  obtain ⟨hq, hc, -⟩ := recordKeys_plain k hk
  refine ⟨hq, hc, ?_⟩
  cases d with
  | text v => exact Escaper.readable (E := jsonEscaper) (recordKeys_plain key hkey).2.2.1 v
  | flag b => exact quote_notMem_boolLit b
  | level n => exact notMem_decimalInt (by decide) (by decide) n

theorem afterColon_eq_lookup {json key : Bytes} (hkey : byte ':' ∉ key) :
    afterColon json key = (recordLayout.lookup key json).map List.tail := by
  have hcolon : byte ':' ∉ marker key := by simp [marker, hkey]; decide
  have hlookup : recordLayout.lookup key json =
      (find (marker key) json).bind (find [byte ':']) := rfl
  rw [afterColon, hlookup]
  cases h : find (marker key) json with
  | none => rfl
  | some t =>
    obtain ⟨s, rfl⟩ := find_eq_some_append h
    simp only [Option.bind_some, List.drop_left]
    rw [find_append_of_notMem hcolon]

/-- The value is a text that looks like the key. -/
def Datum.LooksLike (key : Bytes) : Datum → Prop
  | text v => Text.LooksLike v key
  | _ => False

instance (key : Bytes) : DecidablePred (Datum.LooksLike key)
  | .text v => inferInstanceAs (Decidable (Text.LooksLike v key))
  | .flag _ => instDecidableFalse
  | .level _ => instDecidableFalse

/-- The value a lookup of `key` runs into in place of its own: the one after the first value that
looks like `key`, if that is not the value of `key` itself. -/
def impostor (key : Bytes) : List (Bytes × Datum) → Option Datum
  | [] => none
  | (k, d) :: ds =>
    if k = key then none
    else if d.LooksLike key then
      match ds with
      | [] => none
      | (k', d') :: _ => if k' = key then none else some d'
    else impostor key ds

theorem endsLike_value {key : Bytes} (hkey : key ∈ recordKeys) {d : Datum} (hd : d.Clean) :
    d.value.EndsLike recordLayout.quote key ↔ d.LooksLike key := by
  obtain ⟨hq, -, hesc, -, hplain⟩ := recordKeys_plain key hkey
  cases d with
  | text v =>
    exact Escaper.endsLike_iff (E := jsonEscaper) hesc hq hplain fun c hc =>
      escapeByte_plain_or_esc c (hd c hc)
  | flag b => exact Iff.rfl
  | level n => exact Iff.rfl

/-- **Where a lookup lands**: at the impostor if there is one, and else at the field's own
value. -/
theorem landing_render {key : Bytes} (hkey : key ∈ recordKeys) {ds : List (Bytes × Datum)}
    (hclean : ∀ f ∈ ds, f.2.Clean) (hnodup : (ds.map Prod.fst).Nodup) {own : Datum}
    (hown : (key, own) ∈ ds) :
    ∃ fs, recordLayout.landing key (render ds) =
      some (((impostor key ds).getD own).value, fs) := by
  induction ds with
  | nil => cases hown
  | cons f ds ih =>
    obtain ⟨k, d⟩ := f
    obtain ⟨hk, hnodup⟩ := List.nodup_cons.mp hnodup
    have hlike := endsLike_value hkey (hclean (k, d) (by simp))
    by_cases hkk : k = key
    · subst hkk
      have hd : own = d := by
        rcases List.mem_cons.mp hown with h | h
        · exact (Prod.mk.inj h).2
        · exact absurd (List.mem_map_of_mem (f := Prod.fst) h) hk
      exact ⟨render ds, by simp [render, Layout.landing, impostor, hd]⟩
    · have hmem : (key, own) ∈ ds := by
        rcases List.mem_cons.mp hown with h | h
        · exact absurd (Prod.mk.inj h).1.symm hkk
        · exact h
      by_cases hl : d.LooksLike key
      · cases ds with
        | nil => cases hmem
        | cons g ds =>
          obtain ⟨k', d'⟩ := g
          refine ⟨render ds, ?_⟩
          by_cases hkk' : k' = key
          · subst hkk'
            have hd' : own = d' := by
              rcases List.mem_cons.mp hmem with h | h
              · exact (Prod.mk.inj h).2
              · exact absurd (List.mem_map_of_mem (f := Prod.fst) h) (List.nodup_cons.mp hnodup).1
            simp [render, Layout.landing, impostor, hkk, hl, hlike, hd']
          · simp [render, Layout.landing, impostor, hkk, hkk', hl, hlike]
      · obtain ⟨fs, hfs⟩ := ih (fun g hg => hclean g (by simp [hg])) hnodup hmem
        refine ⟨fs, ?_⟩
        simp only [render] at hfs
        simp [render, Layout.landing, impostor, hkk, hl, hlike, hfs]

/-! ### Reading a record -/

/-- No text of the record has a control character other than newline and carriage return. -/
def AssistPipelineResult.Clean (r : AssistPipelineResult) : Prop :=
  ∀ v ∈ [r.stage, r.transcript, r.response, r.error, r.conversationId, r.responseType],
    ∀ c ∈ v, CleanByte c

instance (r : AssistPipelineResult) : Decidable r.Clean :=
  @List.decidableBAll _ _ (fun _ => List.decidableBAll _ _) _

/-- The line of a record. -/
def recordLine (r : AssistPipelineResult) (final : Bool) : Bytes :=
  recordLayout.text (render (r.data final))

theorem clean_data {r : AssistPipelineResult} (h : r.Clean) (final : Bool) :
    ∀ f ∈ r.data final, f.2.Clean := by
  intro f hf
  simp only [AssistPipelineResult.data, List.mem_cons, List.not_mem_nil, or_false] at hf
  rcases hf with rfl | rfl | rfl | rfl | rfl | rfl | rfl | rfl | rfl | rfl <;>
    first
    | trivial
    | exact h _ (by simp)

theorem afterColon_recordLine {r : AssistPipelineResult} (h : r.Clean) {final : Bool} {key : Bytes}
    {own : Datum} (hown : (key, own) ∈ r.data final) :
    ∃ fs, afterColon (recordLine r final) key =
      some (written ((impostor key (r.data final)).getD own) fs) := by
  have hkey : key ∈ recordKeys := by
    rw [← data_keys r final]
    exact List.mem_map_of_mem (f := Prod.fst) hown
  obtain ⟨hq, hc, -, hsep, -⟩ := recordKeys_plain key hkey
  have hnodup : ((r.data final).map Prod.fst).Nodup := by
    rw [data_keys]
    decide
  obtain ⟨fs, hfs⟩ := landing_render hkey (clean_data h final) hnodup hown
  refine ⟨fs, ?_⟩
  rw [afterColon_eq_lookup hc, recordLine,
    Layout.lookup_text hq hc hsep (render_readable hkey r final), hfs]
  rfl

/-- Reading the value `d` where `own` is expected gives `own`. -/
def Datum.Agrees (d : Datum) : Datum → Prop
  | text v => d = text v
  | flag b => d.readFlag = b
  | level n => d.readLevel = n

instance (d : Datum) : DecidablePred d.Agrees
  | .text v => inferInstanceAs (Decidable (d = .text v))
  | .flag b => inferInstanceAs (Decidable (d.readFlag = b))
  | .level n => inferInstanceAs (Decidable (d.readLevel = n))

/-- The keys of the text fields. -/
def textKeys : List Bytes :=
  [str "stage", str "transcript", str "response", str "error", str "conversation_id",
    str "response_type"]

/-- The impostor of a text field is a text. -/
theorem impostor_of_textKey (r : AssistPipelineResult) (final : Bool) {key : Bytes}
    (hkey : key ∈ textKeys) : ∀ d ∈ impostor key (r.data final), ∃ v, d = .text v := by
  simp only [textKeys, List.mem_cons, List.not_mem_nil, or_false] at hkey
  rcases hkey with rfl | rfl | rfl | rfl | rfl | rfl <;>
    simp +decide only [impostor, AssistPipelineResult.data, Datum.LooksLike, if_false, if_true]
  all_goals
    intro d hd
    repeat' split at hd
    all_goals
      cases hd
      try exact ⟨_, rfl⟩

theorem mem_of_impostor {key : Bytes} {d : Datum} {ds : List (Bytes × Datum)}
    (h : impostor key ds = some d) : ∃ k, (k, d) ∈ ds := by
  induction ds with
  | nil => cases h
  | cons f ds ih =>
    obtain ⟨k, e⟩ := f
    unfold impostor at h
    split_ifs at h
    · split at h
      · cases h
      · rename_i k' d' ds'
        split_ifs at h
        cases h
        exact ⟨k', by simp⟩
    · obtain ⟨k', hk'⟩ := ih h
      exact ⟨k', by simp [hk']⟩

/-- A text field is read back unless its impostor is a different text. -/
theorem jsonStringAfter_eq_iff {r : AssistPipelineResult} (h : r.Clean) {final : Bool}
    {key v : Bytes} (hkey : key ∈ textKeys) (hown : (key, .text v) ∈ r.data final) :
    jsonStringAfter (recordLine r final) key = v ↔
      ∀ d ∈ impostor key (r.data final), d.Agrees (.text v) := by
  obtain ⟨fs, hfs⟩ := afterColon_recordLine h hown
  rw [jsonStringAfter, hfs]
  cases himp : impostor key (r.data final) with
  | none =>
    have hv : ∀ c ∈ v, CleanByte c := clean_data h final _ hown
    simpa using stringAt_written hv fs
  | some d =>
    obtain ⟨w, rfl⟩ := impostor_of_textKey r final hkey d himp
    obtain ⟨k, hk⟩ := mem_of_impostor himp
    have hw : ∀ c ∈ w, CleanByte c := clean_data h final _ hk
    simp [stringAt_written hw, Datum.Agrees]

theorem jsonBoolAfter_eq_iff {r : AssistPipelineResult} (h : r.Clean) {final b : Bool}
    {key : Bytes} (hown : (key, .flag b) ∈ r.data final) :
    jsonBoolAfter (recordLine r final) key false = b ↔
      ∀ d ∈ impostor key (r.data final), d.Agrees (.flag b) := by
  obtain ⟨fs, hfs⟩ := afterColon_recordLine h hown
  simp only [jsonBoolAfter, hfs, boolAt_written]
  cases impostor key (r.data final) <;> simp [Datum.Agrees, Datum.readFlag]

theorem jsonIntAfter_eq_iff {r : AssistPipelineResult} (h : r.Clean) {final : Bool} {n : CInt}
    {key : Bytes} (hown : (key, .level n) ∈ r.data final) :
    jsonIntAfter (recordLine r final) key ⟨0, by decide⟩ = n ↔
      ∀ d ∈ impostor key (r.data final), d.Agrees (.level n) := by
  obtain ⟨fs, hfs⟩ := afterColon_recordLine h hown
  simp only [jsonIntAfter, hfs, intAt_written]
  cases impostor key (r.data final) <;> simp [Datum.Agrees, Datum.readLevel]

/-- A flag is found by its key, colon and literal, whatever the other values are. -/
theorem contains_flag {key : Bytes} (hkey : key ∈ recordKeys) (r : AssistPipelineResult)
    (final : Bool) :
    contains (marker key ++ byte ':' :: str "true") (recordLine r final) =
      recordLayout.states key (str "true") (render (r.data final)) := by
  obtain ⟨hq, hc, -, hsep, -⟩ := recordKeys_plain key hkey
  have hlit : recordLayout.quote ∉ str "true" := by decide
  have h := Layout.contains_text hq hc hsep hlit (render_readable hkey r final)
  rw [← h, marker]
  simp [recordLayout, recordLine]

theorem isPrefixOf_literal (b : Bool) (fs : List (Entry UInt8)) :
    (str "true").isPrefixOf (recordLayout.literal fs (Datum.flag b).value) = b := by
  cases fs <;> cases b <;> rfl

theorem render_keys (ds : List (Bytes × Datum)) :
    (render ds).map Prod.fst = ds.map Prod.fst := by
  simp [render]

/-- The test for `"success":true` tells the flag. -/
theorem contains_success (r : AssistPipelineResult) (final : Bool) :
    contains (str "\"success\":true") (recordLine r final) = r.success := by
  have hpat : str "\"success\":true" = marker (str "success") ++ byte ':' :: str "true" := by decide
  have hdata : render (r.data final) = (str "final", (Datum.flag final).value) ::
      (str "success", (Datum.flag r.success).value) :: render ((r.data final).drop 2) := rfl
  have hlater : str "success" ∉ (render ((r.data final).drop 2)).map Prod.fst := by
    rw [render_keys, List.map_drop, data_keys]
    decide
  rw [hpat, contains_flag (by decide), hdata, Layout.states_cons_of_ne (by decide),
    Layout.states_cons_self hlater, isPrefixOf_literal]

/-- The test for `"final":true` tells the flag. -/
theorem contains_final (r : AssistPipelineResult) (final : Bool) :
    contains (str "\"final\":true") (recordLine r final) = final := by
  have hpat : str "\"final\":true" = marker (str "final") ++ byte ':' :: str "true" := by decide
  have hdata : render (r.data final) =
      (str "final", (Datum.flag final).value) :: render ((r.data final).drop 1) := rfl
  have hlater : str "final" ∉ (render ((r.data final).drop 1)).map Prod.fst := by
    rw [render_keys, List.map_drop, data_keys]
    decide
  rw [hpat, contains_flag (by decide), hdata, Layout.states_cons_self hlater, isPrefixOf_literal]

/-! ### Round trip -/

theorem newline_notMem_escapeByte : ∀ c, 10 ∉ escapeByte c := forall_byte (by decide +kernel)

theorem newline_notMem_value (d : Datum) : 10 ∉ recordLayout.value d.value := by
  cases d with
  | text v =>
    have hesc : 10 ∉ jsonEscape v := by
      intro h
      obtain ⟨c, -, hc⟩ := List.mem_flatMap.mp h
      exact newline_notMem_escapeByte c hc
    have hq : 10 ≠ byte '"' := by decide
    simp [Datum.value, Layout.value, recordLayout, hesc, hq]
  | flag b => cases b <;> decide
  | level n => exact notMem_decimalInt (by decide) (by decide) n

/-- A record takes one line, whatever its values are. -/
theorem newline_notMem_recordLine (r : AssistPipelineResult) (final : Bool) :
    10 ∉ recordLine r final := by
  have hkeys : ∀ key ∈ recordKeys, 10 ∉ key := by decide
  refine Layout.notMem_text (by decide) (by decide) (by decide) (by decide) (by decide)
    (by decide) ?_
  intro f hf
  obtain ⟨⟨k, d⟩, hd, rfl⟩ := List.mem_map.mp hf
  refine ⟨hkeys k ?_, newline_notMem_value d⟩
  rw [← data_keys r final]
  exact List.mem_map_of_mem (f := Prod.fst) hd

theorem firstLine_serializeResult (r : AssistPipelineResult) (final : Bool) :
    firstLine (serializeResult r final) = recordLine r final := by
  have hline : ∀ c ∈ recordLine r final, decide (c ≠ 10) = true := by
    intro c hc
    rw [decide_eq_true_eq]
    rintro rfl
    exact newline_notMem_recordLine r final hc
  rw [firstLine, serializeResult, ← recordLine, List.takeWhile_append_of_pos hline]
  simp

/-- **Which records are read back**: those in which every impostor reads like the value it stands
in for. -/
theorem firstLine_roundTrip_iff (r : AssistPipelineResult) (h : r.Clean) (final : Bool) :
    parseLine (firstLine (serializeResult r final)) = r ↔
      ∀ f ∈ r.data final, ∀ d ∈ impostor f.1 (r.data final), d.Agrees f.2 := by
  rw [firstLine_serializeResult]
  have htext (key v : Bytes) (hkey : key ∈ textKeys) (hown : (key, .text v) ∈ r.data final) :
      jsonStringAfter (recordLine r final) key = v ↔
        ∀ d ∈ impostor key (r.data final), d.Agrees (.text v) :=
    jsonStringAfter_eq_iff h hkey hown
  have hfields (P : Bytes × Datum → Prop) : (∀ f ∈ r.data final, P f) ↔
      P (str "final", .flag final) ∧ P (str "success", .flag r.success) ∧
      P (str "stage", .text r.stage) ∧ P (str "transcript", .text r.transcript) ∧
      P (str "response", .text r.response) ∧ P (str "error", .text r.error) ∧
      P (str "conversation_id", .text r.conversationId) ∧
      P (str "response_type", .text r.responseType) ∧
      P (str "continue_conversation", .flag r.continueConversation) ∧
      P (str "audio_level", .level r.audioLevel) := by
    simp [AssistPipelineResult.data]
  have hfinal : impostor (str "final") (r.data final) = none := by
    simp [impostor, AssistPipelineResult.data]
  have hsuccess : impostor (str "success") (r.data final) = none := by
    simp +decide [impostor, AssistPipelineResult.data, Datum.LooksLike]
  have hcont : (str "continue_conversation", .flag r.continueConversation) ∈ r.data final := by
    simp [AssistPipelineResult.data]
  have hlevel : (str "audio_level", .level r.audioLevel) ∈ r.data final := by
    simp [AssistPipelineResult.data]
  have hstage := htext (str "stage") r.stage (by decide) (by simp [AssistPipelineResult.data])
  have htranscript := htext (str "transcript") r.transcript (by decide)
    (by simp [AssistPipelineResult.data])
  have hresponse := htext (str "response") r.response (by decide)
    (by simp [AssistPipelineResult.data])
  have herror := htext (str "error") r.error (by decide) (by simp [AssistPipelineResult.data])
  have hconv := htext (str "conversation_id") r.conversationId (by decide)
    (by simp [AssistPipelineResult.data])
  have htype := htext (str "response_type") r.responseType (by decide)
    (by simp [AssistPipelineResult.data])
  rw [hfields, AssistPipelineResult.ext_iff, hfinal, hsuccess, ← hstage, ← htranscript, ← hresponse,
    ← herror, ← hconv, ← htype, ← jsonBoolAfter_eq_iff h hcont, ← jsonIntAfter_eq_iff h hlevel]
  simp [parseLine, contains_success]

/-- An answer with quotation marks and a line break. -/
def quotedAnswer : AssistPipelineResult :=
  { success := true, stage := str "final", transcript := str "say \"hi\"", response := str "hi\nho",
    responseType := str "action_done", audioLevel := ⟨-3, by decide⟩ }

theorem quotedAnswer_roundTrip : quotedAnswer.Clean ∧
    parseLine (firstLine (serializeResult quotedAnswer true)) = quotedAnswer := by
  have hclean : quotedAnswer.Clean := by decide +kernel
  refine ⟨hclean, (firstLine_roundTrip_iff quotedAnswer hclean true).mpr ?_⟩
  decide +kernel

/-- The answer to the spoken word "error". -/
def spokenError : AssistPipelineResult :=
  { success := true, stage := str "final", transcript := str "error", response := str "Done" }

/-- **A transcript is taken for a key**: the answer is read as the error message. -/
theorem spokenError_is_misread :
    spokenError.Clean ∧
      (parseLine (firstLine (serializeResult spokenError true))).error = str "Done" ∧
      parseLine (firstLine (serializeResult spokenError true)) ≠ spokenError := by
  have herror : (parseLine (firstLine (serializeResult spokenError true))).error = str "Done" := by
    rw [firstLine_serializeResult]
    decide +kernel
  refine ⟨by decide +kernel, herror, fun h => ?_⟩
  rw [h] at herror
  exact absurd herror (by decide)

end Assist

end HaPanel
