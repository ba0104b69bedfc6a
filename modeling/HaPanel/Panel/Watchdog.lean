import HaPanel.Panel.Config
import Mathlib.Data.List.Chain

/-!
# What the watchdog reads

`tools/ha_watchdog.sh` reads two settings from the configuration file with `parse_json_bool`, a
pipeline of `grep`, `head`, `cut` and `tr`.  It goes line by line and wants a colon right after the
quoted key, so unlike the reader of the panel itself it takes no value for a key: whatever the texts
in a configuration are, it reads the settings that `save_configuration` has written
(`watchdog_reads_settings`).
-/

namespace HaPanel

namespace Panel

open Text

namespace Watchdog

/-! ### The tools -/

section

variable {α β : Type*}

/-- The leftmost match in a line. -/
def firstMatch (m : List α → Option β) : List α → Option β
  | [] => m []
  | a :: s => (m (a :: s)).or (firstMatch m s)

end

def isLower (c : UInt8) : Bool := byte 'a' ≤ c && c ≤ byte 'z'

/-- A match of `"KEY"[[:space:]]*:[[:space:]]*[a-z]*` at the beginning. -/
def keyedWord (key s : Bytes) : Option Bytes :=
  if quotedKey key <+: s then
    let r := s.drop (quotedKey key).length
    match r.dropWhile isSpace with
    | c :: t =>
      if c = byte ':' then
        some (quotedKey key ++ (r.takeWhile isSpace ++ byte ':' ::
          (t.takeWhile isSpace ++ (t.dropWhile isSpace).takeWhile isLower)))
      else none
    | [] => none
  else none

/-- `grep -o PATTERN | head -n 1`, in the lines of a text -/
def grepFirst (m : Bytes → Option Bytes) (text : Bytes) : Bytes :=
  ((text.splitOn 10).findSome? (firstMatch m)).getD []

/-- `cut -d: -f2` -/
def cutField (s : Bytes) : Bytes := ((s.splitOn (byte ':'))[1]?).getD s

/-- `tr -d ' "'` -/
def trDelete (s : Bytes) : Bytes := s.filter fun c => !(c == byte ' ' || c == byte '"')

/-- `parse_json_bool`; without a file, there is `none`. -/
def parseJsonBool (file : Option Bytes) (key : Bytes) (default : Bool) : Bool :=
  match file with
  | none => default
  | some text =>
    let val := trDelete (cutField (grepFirst (keyedWord key) text))
    if val = str "true" then true
    else if val = str "false" then false
    else default

/-! ### Searching a line -/

section

variable {α β : Type*} {m : List α → Option β}

theorem firstMatch_append {c : List α} (hc : ∀ a ∈ c, ∀ s, m (a :: s) = none) (s : List α) :
    firstMatch m (c ++ s) = firstMatch m s := by
  induction c with
  | nil => rfl
  | cons a c ih =>
    obtain ⟨ha, hrest⟩ := List.forall_mem_cons.mp hc
    rw [List.cons_append, firstMatch, ha, Option.none_or, ih hrest]

end

variable {key : Bytes}

theorem keyedWord_of_ne {a : UInt8} (ha : a ≠ byte '"') (s : Bytes) :
    keyedWord key (a :: s) = none := by
  rw [keyedWord, if_neg]
  rw [quotedKey, List.cons_prefix_cons]
  exact fun h => ha h.1.symm

theorem keyedWord_nil : keyedWord key [] = none := by
  rw [keyedWord, if_neg]
  simp [quotedKey]

/-- A stretch without quotation marks is passed over. -/
theorem firstMatch_skip {c : Bytes} (hc : byte '"' ∉ c) (s : Bytes) :
    firstMatch (keyedWord key) (c ++ s) = firstMatch (keyedWord key) s :=
  firstMatch_append (fun a ha s => keyedWord_of_ne (by rintro rfl; exact hc ha) s) s

/-- After blanks, the stretch has a colon. -/
def ColonFirst (d : Bytes) : Prop := (d.dropWhile isSpace).head? = some (byte ':')

theorem dropWhile_isSpace_quote (d s : Bytes) :
    ((d ++ byte '"' :: s).dropWhile isSpace).head? = some (byte ':') ↔ ColonFirst d := by
  have hquote : isSpace (byte '"') = false := by decide
  unfold ColonFirst
  rw [List.dropWhile_append]
  split_ifs with hempty
  · have hd : d.dropWhile isSpace = [] := by simpa using hempty
    rw [List.dropWhile_cons, hquote, hd, if_neg Bool.false_ne_true, List.head?_cons]
    simp [byte]
  · cases hd : d.dropWhile isSpace with
    | nil => simp [hd] at hempty
    | cons a t => rfl

/-- A chunk between two quotation marks matches if it is the key and the next one has a colon. -/
theorem keyedWord_eq_none {d e s : Bytes} (hkey : byte '"' ∉ key) (hd : byte '"' ∉ d)
    (h : d = key → ¬ ColonFirst e) (hs : s = [] ∨ ∃ t, s = byte '"' :: t) :
    keyedWord key (byte '"' :: (d ++ byte '"' :: (e ++ s))) = none := by
  unfold keyedWord
  have hiff : quotedKey key <+: byte '"' :: (d ++ byte '"' :: (e ++ s)) ↔ key = d := by
    rw [quotedKey, List.cons_prefix_cons, append_quote_prefix_iff hkey hd]
    simp
  split_ifs with hp
  · obtain rfl := hiff.mp hp
    have hdrop : (byte '"' :: (key ++ byte '"' :: (e ++ s))).drop (quotedKey key).length =
        e ++ s := by
      have hname : byte '"' :: (key ++ byte '"' :: (e ++ s)) = quotedKey key ++ (e ++ s) := by
        simp [quotedKey]
      rw [hname, List.drop_left]
    have hcolon : ((e ++ s).dropWhile isSpace).head? ≠ some (byte ':') := by
      obtain rfl | ⟨t, rfl⟩ := hs
      · rw [List.append_nil]
        exact h rfl
      · rw [Ne, dropWhile_isSpace_quote]
        exact h rfl
    simp only [hdrop]
    cases hrest : (e ++ s).dropWhile isSpace with
    | nil => rfl
    | cons c t =>
      rw [hrest, List.head?_cons, Ne, Option.some.injEq] at hcolon
      simp only [hcolon, if_false]
  · rfl

theorem quoted_cases (cs : List Bytes) :
    quoted (byte '"') cs = [] ∨ ∃ t, quoted (byte '"') cs = byte '"' :: t := by
  cases cs with
  | nil => exact .inl rfl
  | cons c cs => exact .inr ⟨_, rfl⟩

/-- **No match** in a line, if no chunk between quotation marks is the key before a colon. -/
theorem firstMatch_eq_none {c : Bytes} {cs : List Bytes} (hkey : byte '"' ∉ key)
    (hc : byte '"' ∉ c) (hcs : ∀ d ∈ cs, byte '"' ∉ d)
    (h : cs.IsChain fun d e => d = key → ¬ ColonFirst e) :
    firstMatch (keyedWord key) (c ++ quoted (byte '"') cs) = none := by
  induction cs generalizing c with
  | nil =>
    rw [firstMatch_skip hc]
    exact keyedWord_nil
  | cons d cs ih =>
    obtain ⟨hd, hcs⟩ := List.forall_mem_cons.mp hcs
    rw [firstMatch_skip hc, quoted_cons, firstMatch]
    have hrest := ih hd hcs h.tail
    rw [hrest, Option.or_none]
    cases cs with
    | nil =>
      -- after the last chunk there is no quotation mark
      rw [keyedWord, if_neg]
      rw [quotedKey, List.cons_prefix_cons, quoted_nil, List.append_nil]
      exact fun h => not_prefix_of_notMem hd h.2
    | cons e cs =>
      rw [quoted_cons]
      exact keyedWord_eq_none hkey hd (List.isChain_cons_cons.mp h).1 (quoted_cases cs)

/-! ### The lines of the configuration -/

/-- A field, as it stands in its line. -/
def fieldLine (f : Entry UInt8) : Bytes :=
  str "  " ++ (quotedKey f.1 ++ (str ": " ++ configLayout.value f.2))

/-- The lines from `s` on, when the fields `fs` follow. -/
def linesFrom (s : Bytes) : List (Entry UInt8) → List Bytes
  | [] => [s, str "\x7d", []]
  | f :: fs => (s ++ str ",") :: linesFrom (fieldLine f) fs

/-- The field stays in its line. -/
def InLine (f : Entry UInt8) : Prop := 10 ∉ f.1 ∧ 10 ∉ configLayout.value f.2

theorem InLine.fieldLine {f : Entry UInt8} (h : InLine f) : 10 ∉ fieldLine f := by
  obtain ⟨hkey, hvalue⟩ := h
  have hopen : (10 : UInt8) ∉ str "  " := by decide
  have hgap : (10 : UInt8) ∉ str ": " := by decide
  have hquote : (10 : UInt8) ≠ byte '"' := by decide
  simp [Watchdog.fieldLine, quotedKey, hkey, hvalue, hopen, hgap, hquote]

theorem splitOn_newline {s t : Bytes} (hs : 10 ∉ s) :
    (s ++ 10 :: t).splitOn 10 = s :: t.splitOn 10 := by
  rw [Escaper.splitOn_append hs, List.splitOn_cons_eq_if_modifyHead]
  simp

theorem splitOn_rest {s : Bytes} {fs : List (Entry UInt8)} (hs : 10 ∉ s)
    (hfs : ∀ f ∈ fs, InLine f) : (s ++ configLayout.rest fs).splitOn 10 = linesFrom s fs := by
  induction fs generalizing s with
  | nil =>
    have hrest : configLayout.rest [] = 10 :: (str "\x7d" ++ 10 :: []) := by decide
    have hbrace : (10 : UInt8) ∉ str "\x7d" := by decide
    rw [hrest, splitOn_newline hs, splitOn_newline hbrace]
    rfl
  | cons f fs ih =>
    obtain ⟨hf, hfs⟩ := List.forall_mem_cons.mp hfs
    have hsep : configLayout.sep = str "," ++ 10 :: str "  " := by decide
    have hgap : str ": " = configLayout.colon :: configLayout.gap := by decide
    have hquote : configLayout.quote = byte '"' := rfl
    have hrest : s ++ configLayout.rest (f :: fs) =
        (s ++ str ",") ++ 10 :: (fieldLine f ++ configLayout.rest fs) := by
      simp [Layout.rest, fieldLine, quotedKey, hsep, hgap, hquote]
    have hcomma : 10 ∉ s ++ str "," := by
      have : (10 : UInt8) ∉ str "," := by decide
      simp [hs, this]
    rw [hrest, splitOn_newline hcomma, ih hf.fieldLine hfs]
    rfl

/-- The line of a field, with or without a comma, has no match. -/
def Silent (key s : Bytes) : Prop :=
  ∀ tail ∈ [str "", str ","], firstMatch (keyedWord key) (s ++ tail) = none

theorem quote_notMem_tail {tail : Bytes} (h : tail ∈ [str "", str ","]) : byte '"' ∉ tail := by
  simp only [List.mem_cons, List.not_mem_nil, or_false] at h
  obtain rfl | rfl := h <;> decide

theorem silent_bare {k lit : Bytes} (hne : k ≠ key) (hkey : byte '"' ∉ key) (hk : byte '"' ∉ k)
    (hlit : byte '"' ∉ lit) : Silent key (fieldLine (k, .bare lit)) := by
  intro tail htail
  have hline : fieldLine (k, .bare lit) ++ tail =
      str "  " ++ quoted (byte '"') [k, str ": " ++ (lit ++ tail)] := by
    simp [fieldLine, quotedKey, Layout.value]
  have hopen : byte '"' ∉ str "  " := by decide
  have hgap : byte '"' ∉ str ": " := by decide
  rw [hline]
  refine firstMatch_eq_none hkey hopen ?_ ?_
  · simp [hk, hgap, hlit, quote_notMem_tail htail]
  · simp [hne]

theorem isChain_of_dropLast {α : Type*} {R : α → α → Prop} {l : List α} {b : α}
    (h : ∀ d ∈ l.dropLast, ∀ e, R d e) (hb : ∀ d, R d b) : (l ++ [b]).IsChain R := by
  induction l with
  | nil => simp
  | cons a l ih =>
    cases l with
    | nil => simp [hb]
    | cons a' l =>
      rw [List.dropLast_cons_cons, List.forall_mem_cons] at h
      exact (ih h.2).cons fun e _ => h.1 e

theorem silent_text {k : Bytes} (hne : k ≠ key) (hkey : byte '"' ∉ key) (hcolon : byte ':' ∉ key)
    (hesc : byte '\\' ∉ key) (hk : byte '"' ∉ k) (v : Bytes) :
    Silent key (fieldLine (k, .text (jsonEscape v))) := by
  intro tail htail
  have hline : fieldLine (k, .text (jsonEscape v)) ++ tail = str "  " ++
      quoted (byte '"') (k :: str ": " :: ((jsonEscape v).splitOn (byte '"') ++ [tail])) := by
    simp [fieldLine, quotedKey, Layout.value, quoted_splitOn, configLayout]
  have hopen : byte '"' ∉ str "  " := by decide
  have hgap : byte '"' ∉ str ": " := by decide
  rw [hline]
  refine firstMatch_eq_none hkey hopen ?_ ?_
  · simp only [List.mem_cons, List.mem_append, List.not_mem_nil, or_false]
    rintro d (rfl | rfl | hd | rfl)
    · exact hk
    · exact hgap
    · exact notMem_of_mem_splitOn hd
    · exact quote_notMem_tail htail
  · have hgap_ne : str ": " ≠ key := by
      rintro rfl
      exact hcolon (by decide)
    have hpiece : ∀ d ∈ ((jsonEscape v).splitOn (byte '"')).dropLast, d ≠ key := by
      rintro d hd rfl
      exact hesc (Escaper.escape_pieces (E := jsonEscaper) hd)
    have htail_colon : ¬ ColonFirst tail := by
      simp only [List.mem_cons, List.not_mem_nil, or_false] at htail
      obtain rfl | rfl := htail <;> unfold ColonFirst <;> decide
    have hpieces : ((jsonEscape v).splitOn (byte '"') ++ [tail]).IsChain
        fun d e => d = key → ¬ ColonFirst e :=
      isChain_of_dropLast (fun d hd _ h => absurd h (hpiece d hd)) fun _ _ => htail_colon
    exact (hpieces.cons fun _ _ h => absurd h hgap_ne).cons fun _ _ h => absurd h hne

theorem isSpace_of_isLower {c : UInt8} (h : isLower c = true) : isSpace c = false := by
  revert h
  exact forall_byte (p := fun c => isLower c = true → isSpace c = false) (by decide +kernel) c

theorem dropWhile_isSpace_word {lit tail : Bytes} (hlit : ∀ c ∈ lit, isLower c = true)
    (htail : tail ∈ [str "", str ","]) : (lit ++ tail).dropWhile isSpace = lit ++ tail := by
  cases lit with
  | nil =>
    simp only [List.mem_cons, List.not_mem_nil, or_false] at htail
    obtain rfl | rfl := htail <;> decide
  | cons c lit =>
    have hc : isSpace c = false := isSpace_of_isLower (hlit c (by simp))
    rw [List.cons_append, List.dropWhile_cons_of_neg (by simp [hc])]

theorem takeWhile_isLower_word {lit tail : Bytes} (hlit : ∀ c ∈ lit, isLower c = true)
    (htail : tail ∈ [str "", str ","]) : (lit ++ tail).takeWhile isLower = lit := by
  rw [List.takeWhile_append_of_pos hlit]
  simp only [List.mem_cons, List.not_mem_nil, or_false] at htail
  obtain rfl | rfl := htail
  · exact List.append_nil _
  · have hcomma : (str ",").takeWhile isLower = [] := by decide
    rw [hcomma, List.append_nil]

/-- At its own key, the search returns the whole field. -/
theorem keyedWord_field {lit tail : Bytes} (hlit : ∀ c ∈ lit, isLower c = true)
    (htail : tail ∈ [str "", str ","]) :
    keyedWord key (quotedKey key ++ (str ": " ++ (lit ++ tail))) =
      some (quotedKey key ++ (str ": " ++ lit)) := by
  have hcolon : str ": " = [byte ':', byte ' '] := by decide
  have hc : isSpace (byte ':') = false := by decide
  have hblank : isSpace (byte ' ') = true := by decide
  have hdrop := dropWhile_isSpace_word hlit htail
  have htake : (lit ++ tail).takeWhile isSpace = [] := by
    have := List.takeWhile_append_dropWhile (p := isSpace) (l := lit ++ tail)
    rw [hdrop] at this
    simpa using this
  rw [keyedWord, if_pos (List.prefix_append _ _)]
  simp only [List.drop_left, hcolon, List.cons_append, List.nil_append, hc, hblank,
    List.dropWhile_cons, List.takeWhile_cons, Bool.false_eq_true, if_true, if_false, hdrop, htake,
    takeWhile_isLower_word hlit htail]

/-- At its own line, the search returns the whole field. -/
theorem firstMatch_fieldLine {lit tail : Bytes} (hlit : ∀ c ∈ lit, isLower c = true)
    (htail : tail ∈ [str "", str ","]) :
    firstMatch (keyedWord key) (fieldLine (key, .bare lit) ++ tail) =
      some (quotedKey key ++ (str ": " ++ lit)) := by
  have hopen : byte '"' ∉ str "  " := by decide
  have hline : fieldLine (key, .bare lit) ++ tail =
      str "  " ++ (quotedKey key ++ (str ": " ++ (lit ++ tail))) := by
    simp [fieldLine, Layout.value]
  have hmatch : keyedWord key (quotedKey key ++ (str ": " ++ (lit ++ tail))) =
      some (quotedKey key ++ (str ": " ++ lit)) := keyedWord_field hlit htail
  rw [hline, firstMatch_skip hopen]
  rw [quotedKey, List.cons_append] at hmatch ⊢
  rw [firstMatch, hmatch, Option.some_or]

/-- **The lines up to the field are passed over**, and the field is found. -/
theorem findSome_linesFrom {s lit : Bytes} {fs₁ fs₂ : List (Entry UInt8)} (hs : Silent key s)
    (hfs : ∀ f ∈ fs₁, Silent key (fieldLine f)) (hlit : ∀ c ∈ lit, isLower c = true) :
    (linesFrom s (fs₁ ++ (key, .bare lit) :: fs₂)).findSome? (firstMatch (keyedWord key)) =
      some (quotedKey key ++ (str ": " ++ lit)) := by
  have hfield : ∀ tail ∈ [str "", str ","], firstMatch (keyedWord key)
      (fieldLine (key, .bare lit) ++ tail) = some (quotedKey key ++ (str ": " ++ lit)) :=
    fun _ => firstMatch_fieldLine hlit
  induction fs₁ generalizing s with
  | nil =>
    rw [List.nil_append, linesFrom, List.findSome?_cons, hs _ (by simp)]
    cases fs₂ with
    | nil =>
      have hlast := hfield [] (by decide)
      rw [List.append_nil] at hlast
      simp only [linesFrom, List.findSome?_cons, hlast]
    | cons f fs₂ =>
      have hcomma := hfield (str ",") (by decide)
      simp only [linesFrom, List.findSome?_cons, hcomma]
  | cons f fs₁ ih =>
    obtain ⟨hf, hfs⟩ := List.forall_mem_cons.mp hfs
    rw [List.cons_append, linesFrom, List.findSome?_cons, hs _ (by simp)]
    exact ih hf hfs

/-! ### The configuration -/

variable (c : Config)

theorem newline_notMem_jsonEscape (v : Bytes) : 10 ∉ jsonEscape v := by
  have hbyte : ∀ x, 10 ∉ escapeByte x := forall_byte (by decide +kernel)
  intro h
  obtain ⟨x, -, hx⟩ := List.mem_flatMap.mp h
  exact hbyte x hx

theorem inLine_fields : ∀ f ∈ c.fields, InLine f := by
  have hkeys : ∀ key ∈ configKeys, 10 ∉ key := by decide +kernel
  have htext : ∀ v, 10 ∉ configLayout.value (.text (jsonEscape v)) := by
    intro v
    have hquote : (10 : UInt8) ≠ configLayout.quote := by decide
    simp [Layout.value, hquote, newline_notMem_jsonEscape]
  have hbool : ∀ b, 10 ∉ configLayout.value (.bare (boolLit b)) := by decide
  have hnum : ∀ n, 10 ∉ configLayout.value (.bare (decimal n)) := notMem_decimal (by decide)
  intro f hf
  refine ⟨hkeys f.1 (fields_keys c ▸ List.mem_map_of_mem hf), ?_⟩
  simp only [Config.fields, List.mem_cons, List.not_mem_nil, or_false] at hf
  rcases hf with rfl | rfl | rfl | rfl | rfl | rfl | rfl | rfl | rfl | rfl | rfl | rfl | rfl |
    rfl | rfl <;> first | exact htext _ | exact hbool _ | exact hnum _

theorem silent_fields (hkey : key ∈ configKeys) :
    ∀ f ∈ c.fields, f.1 ≠ key → Silent key (fieldLine f) := by
  obtain ⟨hq, hcolon, hesc, -, -⟩ := configKeys_plain key hkey
  intro f hf hne
  have hfq := (configKeys_plain f.1 (fields_keys c ▸ List.mem_map_of_mem hf)).1
  have htext : ∀ v, f = (f.1, .text (jsonEscape v)) → Silent key (fieldLine f) := by
    intro v h
    rw [h]
    exact silent_text hne hq hcolon hesc hfq v
  have hbool : ∀ b, f = (f.1, .bare (boolLit b)) → Silent key (fieldLine f) := by
    intro b h
    rw [h]
    exact silent_bare hne hq hfq (quote_notMem_boolLit b)
  have hnum : ∀ n, f = (f.1, .bare (decimal n)) → Silent key (fieldLine f) := by
    intro n h
    rw [h]
    exact silent_bare hne hq hfq (notMem_decimal (by decide) n)
  simp only [Config.fields, List.mem_cons, List.not_mem_nil, or_false] at hf
  rcases hf with rfl | rfl | rfl | rfl | rfl | rfl | rfl | rfl | rfl | rfl | rfl | rfl | rfl |
    rfl | rfl <;> first | exact htext _ rfl | exact hbool _ rfl | exact hnum _ rfl

theorem splitOn_configText {f : Entry UInt8} {fs : List (Entry UInt8)} (h : c.fields = f :: fs) :
    (configText c).splitOn 10 = str "\x7b" :: linesFrom (fieldLine f) fs := by
  have hopening : configLayout.opening = str "\x7b" ++ 10 :: str "  " := by decide
  have hgap : str ": " = configLayout.colon :: configLayout.gap := by decide
  have hquote : configLayout.quote = byte '"' := rfl
  have hbrace : (10 : UInt8) ∉ str "\x7b" := by decide
  have hfields := inLine_fields c
  rw [h, List.forall_mem_cons] at hfields
  obtain ⟨hf, hfs⟩ := hfields
  have htext : configText c = str "\x7b" ++ 10 :: (fieldLine f ++ configLayout.rest fs) := by
    rw [configText, h]
    simp [Layout.text, Layout.fromColon, fieldLine, quotedKey, hopening, hgap, hquote]
  rw [htext, splitOn_newline hbrace, splitOn_rest hf.fieldLine hfs]

theorem grepFirst_configText {lit : Bytes} (hmem : (key, .bare lit) ∈ c.fields)
    (hlit : ∀ x ∈ lit, isLower x = true) :
    grepFirst (keyedWord key) (configText c) = quotedKey key ++ (str ": " ++ lit) := by
  have hkey : key ∈ configKeys := List.mem_map_of_mem (f := Prod.fst) hmem
  have hkeys : (c.fields.map Prod.fst).Nodup := by
    rw [fields_keys]
    decide
  have hsilent := silent_fields c hkey
  obtain ⟨fs₁, fs₂, hsplit⟩ := List.append_of_mem hmem
  cases fs₁ with
  | nil => simp [Config.fields] at hsplit
  | cons f fs₁ =>
    rw [List.cons_append] at hsplit
    have hne : ∀ g ∈ f :: fs₁, g.1 ≠ key := by
      rintro g hg rfl
      rw [hsplit, ← List.cons_append, List.map_append, List.nodup_append] at hkeys
      exact hkeys.2.2 g.1 (List.mem_map_of_mem hg) g.1 (by simp) rfl
    have hbefore : ∀ g ∈ f :: fs₁, Silent key (fieldLine g) := fun g hg =>
      hsilent g (by rw [hsplit, ← List.cons_append]; exact List.mem_append_left _ hg) (hne g hg)
    obtain ⟨hf, hfs₁⟩ := List.forall_mem_cons.mp hbefore
    have hbrace : firstMatch (keyedWord key) (str "\x7b") = none := by
      have hskip : firstMatch (keyedWord key) (str "\x7b" ++ []) =
          firstMatch (keyedWord key) [] := firstMatch_skip quote_notMem_leftBrace []
      rw [List.append_nil] at hskip
      rw [hskip]
      exact keyedWord_nil
    rw [grepFirst, splitOn_configText c hsplit, List.findSome?_cons, hbrace]
    simp only [findSome_linesFrom hf hfs₁ hlit, Option.getD_some]

/-- **A setting is read as it was written**, whatever the texts of the configuration are. -/
theorem parseJsonBool_configText {b : Bool} (hmem : (key, .bare (boolLit b)) ∈ c.fields)
    (default : Bool) : parseJsonBool (some (configText c)) key default = b := by
  have hkey : key ∈ configKeys := List.mem_map_of_mem (f := Prod.fst) hmem
  have hcolon : byte ':' ∉ quotedKey key := by
    have : byte ':' ≠ byte '"' := by decide
    simp [quotedKey, this, (configKeys_plain key hkey).2.1]
  have hall : ∀ b, (boolLit b).all isLower = true := by decide
  have hlower : ∀ b, ∀ x ∈ boolLit b, isLower x = true := fun b => List.all_eq_true.mp (hall b)
  have hgap : str ": " ++ boolLit b = byte ':' :: (byte ' ' :: boolLit b) := by cases b <;> decide
  have hcut : cutField (quotedKey key ++ (str ": " ++ boolLit b)) = byte ' ' :: boolLit b := by
    have hword : (byte ' ' :: boolLit b).splitOn (byte ':') = [byte ' ' :: boolLit b] := by
      cases b <;> decide
    rw [hgap, cutField, Escaper.splitOn_append hcolon, List.splitOn_cons_eq_if_modifyHead, hword]
    simp
  have hdelete : trDelete (byte ' ' :: boolLit b) = boolLit b := by cases b <;> decide
  rw [parseJsonBool, grepFirst_configText c hmem (hlower b), hcut, hdelete]
  cases b <;> rfl

/-- **The watchdog reads the two settings** that were saved, whatever the configuration is. -/
theorem watchdog_reads_settings (default : Bool) :
    parseJsonBool (some (configText c)) (str "web_autostart") default = c.webAutostart ∧
      parseJsonBool (some (configText c)) (str "ha_autostart") default = c.haAutostart :=
  ⟨parseJsonBool_configText c (by simp [Config.fields]) default,
    parseJsonBool_configText c (by simp [Config.fields]) default⟩

end Watchdog

end Panel

end HaPanel
