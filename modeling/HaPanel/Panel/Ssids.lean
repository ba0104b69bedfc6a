import HaPanel.Panel.Networks

/-!
# Names of networks and their encoding

`wpa_supplicant` prints names with escapes: two characters for a few bytes, and four for the other
bytes that cannot be printed.  The panel decodes the second kind only (`unescapeWpaSsid`), and only
in the scan: the name of the network that it is connected to stays as `wpa_cli status` prints it,
up to an equals sign.

`name_kept_and_hidden_iff` : a name is shown as it is, and hidden while the panel is connected to
the network, exactly if all its bytes are printable and none is a backslash, a quotation mark or an
equals sign.
-/

namespace HaPanel

namespace Panel

open Text Ranking

/-! ### The encoding -/

/-- The second character of a two-character escape. -/
def escapeLetter (c : UInt8) : Option UInt8 :=
  if c = byte '"' then some (byte '"')
  else if c = byte '\\' then some (byte '\\')
  else if c = 27 then some (byte 'e')
  else if c = 10 then some (byte 'n')
  else if c = 13 then some (byte 'r')
  else if c = 9 then some (byte 't')
  else none

def isPrintable (c : UInt8) : Bool := 32 ≤ c && c ≤ 126

def encodeByte (c : UInt8) : Bytes :=
  match escapeLetter c with
  | some d => [byte '\\', d]
  | none => if isPrintable c then [c] else hexEscape c

/-- How `wpa_supplicant` prints a name. -/
def encodeSsid (s : Bytes) : Bytes := s.flatMap encodeByte

/-- A name that does not end with a blank or a line break. -/
abbrev NetworkName :=
  {s : Bytes // 1 ≤ s.length ∧ s.length ≤ 32 ∧ ∀ c ∈ s.getLast?, isBlankEnd c = false}

/-! ### The network that the panel is connected to -/

/-- `cut -d= -f2`, which prints a line without delimiter as it is. -/
def cutSecond (line : Bytes) : Bytes := (line.splitOn (byte '=')).getD 1 line

/-- What `exec_cmd_line` makes of the output of a command, with `char buf[256]`. -/
def execCmdLine (output : Bytes) : Bytes := trimEnd (cStr (fgets 10 255 output).1)

def isSsidLine (line : Bytes) : Bool := (str "ssid=").isPrefixOf line

/-- `wpa_cli status | grep '^ssid=' | cut -d= -f2`, read by `exec_cmd_line`. -/
def currentSsid (status : List Bytes) : Bytes :=
  execCmdLine (((status.filter isSsidLine).map cutSecond).flatMap (· ++ [10]))

/-- The lines are those that `wpa_cli status` prints while the panel is connected to the network. -/
def IsStatus (s : Bytes) (status : List Bytes) : Prop :=
  status.filter isSsidLine = [str "ssid=" ++ encodeSsid s]

/-- The scan finds the network, and the list does not have it. -/
def NeverListed (s : Bytes) : Prop :=
  ∀ (heading : Heading) (lines : List ScanLine) (status : List Bytes)
    (networks : List WifiNetworkInfo), IsStatus s status →
    Rendered (scanResults heading lines) (currentSsid status) networks →
    ∀ line ∈ lines, line.ssid = encodeSsid s → line.name ∉ networks.map (·.ssid)

/-! ### Bytes -/

/-- The three forms of a byte. -/
theorem encodeByte_cases (c : UInt8) :
    (escapeLetter c = none ∧ isPrintable c = true ∧ encodeByte c = [c]) ∨
      (escapeLetter c = none ∧ isPrintable c = false ∧ encodeByte c = hexEscape c) ∨
      ∃ d, escapeLetter c = some d ∧ encodeByte c = [byte '\\', d] := by
  unfold encodeByte
  cases escapeLetter c with
  | some d => exact .inr (.inr ⟨d, rfl, rfl⟩)
  | none =>
    cases isPrintable c with
    | true => exact .inl ⟨rfl, rfl, rfl⟩
    | false => exact .inr (.inl ⟨rfl, rfl, rfl⟩)

theorem escapeLetter_backslash : escapeLetter (byte '\\') = some (byte '\\') := by decide

theorem escapeLetter_ne_x {c d : UInt8} (h : escapeLetter c = some d) : d ≠ byte 'x' := by
  have hall : ∀ c, escapeLetter c ≠ some (byte 'x') := forall_byte (by decide +kernel)
  rintro rfl
  exact hall c h

/-- A byte of the encoding is the byte itself, or what the encoding adds. -/
theorem mem_encodeByte {c x : UInt8} (h : x ∈ encodeByte c) : isPrintable x = true := by
  have hall : ∀ c, (encodeByte c).all isPrintable = true := forall_byte (by decide +kernel)
  exact List.all_eq_true.1 (hall c) x h

theorem isPrintable_of_mem_encodeSsid {s : Bytes} {x : UInt8} (h : x ∈ encodeSsid s) :
    isPrintable x = true := by
  obtain ⟨c, -, hx⟩ := List.mem_flatMap.1 h
  exact mem_encodeByte hx

theorem length_encodeSsid (s : Bytes) :
    s.length ≤ (encodeSsid s).length ∧ (encodeSsid s).length ≤ 4 * s.length := by
  have hall : ∀ c, 1 ≤ (encodeByte c).length ∧ (encodeByte c).length ≤ 4 :=
    forall_byte (by decide +kernel)
  induction s with
  | nil => simp [encodeSsid]
  | cons c s ih =>
    have := hall c
    rw [encodeSsid] at ih
    rw [encodeSsid, List.flatMap_cons, List.length_append, List.length_cons]
    omega

/-! ### Decoding the encoding -/

section

variable {s t w : Bytes} {c d : UInt8}

theorem unescapeWpaSsid_cons (hc : c ≠ byte '\\') (s : Bytes) :
    unescapeWpaSsid (c :: s) = c :: unescapeWpaSsid s := by
  match s with
  | [] => rfl
  | [_] => rfl
  | [_, _] => rfl
  | d :: a :: b :: s =>
    have hnot : ¬(c = byte '\\' ∧ d = byte 'x') := fun h => hc h.1
    rw [unescapeWpaSsid, if_neg hnot]

/-- A backslash starts an escape, or is kept. -/
theorem unescapeWpaSsid_backslash (s : Bytes) :
    (∃ a b r v, s = byte 'x' :: a :: b :: r ∧ hexPair a b = some v ∧
        unescapeWpaSsid (byte '\\' :: s) = v :: unescapeWpaSsid r) ∨
      unescapeWpaSsid (byte '\\' :: s) = byte '\\' :: unescapeWpaSsid s := by
  match s with
  | [] => exact .inr rfl
  | [_] => exact .inr rfl
  | [_, _] => exact .inr rfl
  | d :: a :: b :: r =>
    rw [unescapeWpaSsid]
    by_cases hd : d = byte 'x'
    · subst hd
      rw [if_pos ⟨rfl, rfl⟩]
      cases hpair : hexPair a b with
      | none => exact .inr rfl
      | some v => exact .inl ⟨a, b, r, v, rfl, hpair, rfl⟩
    · rw [if_neg fun h => hd h.2]
      exact .inr rfl

theorem hexPair_ne_backslash {a b v : UInt8} (h : hexPair a b = some v) :
    a ≠ byte '\\' ∧ b ≠ byte '\\' := by
  have hdigit : hexDigit (byte '\\') = none := by decide
  constructor
  · rintro rfl
    have hother : (isSpace (byte '\\') || byte '\\' == byte '+') = false ∧
        (byte '\\' == byte '-') = false := by decide
    rw [hexPair, hdigit] at h
    cases hb : hexDigit b <;> simp [hb, hother] at h
  · rintro rfl
    rw [hexPair, hdigit] at h
    cases ha : hexDigit a <;> simp [ha] at h

/-- A byte without two-character escape is decoded. -/
theorem unescapeWpaSsid_encodeByte (h : escapeLetter c = none) (s : Bytes) :
    unescapeWpaSsid (encodeByte c ++ s) = c :: unescapeWpaSsid s := by
  have hc : c ≠ byte '\\' := by
    rintro rfl
    rw [escapeLetter_backslash] at h
    cases h
  rcases encodeByte_cases c with ⟨-, -, hplain⟩ | ⟨-, -, hhex⟩ | ⟨d, hd, -⟩
  · rw [hplain, List.singleton_append, unescapeWpaSsid_cons hc]
  · rw [hhex, unescapeWpaSsid_hexEscape]
  · rw [hd] at h
    cases h

/-- The backslash of a two-character escape is kept. -/
theorem unescapeWpaSsid_encodeByte_some (h : escapeLetter c = some d) (s : Bytes) :
    unescapeWpaSsid (encodeByte c ++ s) = byte '\\' :: unescapeWpaSsid (d :: s) := by
  have hcode : encodeByte c = [byte '\\', d] := by rw [encodeByte, h]
  rw [hcode]
  rcases unescapeWpaSsid_backslash (d :: s) with ⟨a, b, r, v, heq, -, -⟩ | hkeep
  · exact absurd (List.cons.inj heq).1 (escapeLetter_ne_x h)
  · exact hkeep

/-- A first character that is no backslash stands for itself. -/
theorem encodeSsid_eq_cons (h : encodeSsid s = c :: t) (hc : c ≠ byte '\\') :
    ∃ s', s = c :: s' ∧ t = encodeSsid s' := by
  cases s with
  | nil => cases h
  | cons x s =>
    rw [encodeSsid, List.flatMap_cons] at h
    rcases encodeByte_cases x with ⟨-, -, hplain⟩ | ⟨-, -, hhex⟩ | ⟨d, -, hcode⟩
    · rw [hplain] at h
      obtain ⟨rfl, rfl⟩ := List.cons.inj h
      exact ⟨s, rfl, rfl⟩
    · rw [hhex] at h
      exact absurd (List.cons.inj h).1.symm hc
    · rw [hcode] at h
      exact absurd (List.cons.inj h).1.symm hc

theorem encodeSsid_cons (c : UInt8) (s : Bytes) :
    encodeSsid (c :: s) = encodeByte c ++ encodeSsid s := List.flatMap_cons

/-- Decoding does not put bytes in front, unless a backslash. -/
theorem unescapeWpaSsid_encodeSsid_ne_append (hw : byte '\\' ∉ w) (hne : w ≠ []) (s : Bytes) :
    unescapeWpaSsid (encodeSsid s) ≠ w ++ s := by
  -- the first byte with a two-character escape would be a backslash of `w`
  induction s generalizing w with
  | nil =>
    rw [List.append_nil]
    exact hne.symm
  | cons c s ih =>
    intro heq
    obtain ⟨x, w, rfl⟩ := List.exists_cons_of_ne_nil hne
    rw [List.mem_cons, not_or] at hw
    rw [encodeSsid_cons] at heq
    cases hc : escapeLetter c with
    | some d =>
      rw [unescapeWpaSsid_encodeByte_some hc] at heq
      exact hw.1 (List.cons.inj heq).1
    | none =>
      rw [unescapeWpaSsid_encodeByte hc, List.cons_append] at heq
      obtain ⟨rfl, heq⟩ := List.cons.inj heq
      refine ih (w := w ++ [c]) ?_ (by simp) (by simpa using heq)
      rw [List.mem_append, List.mem_singleton, not_or]
      exact ⟨hw.2, hw.1⟩

/-- A backslash in front of the encoding is not lost. -/
theorem replicate_append_unescapeWpaSsid_ne (k : ℕ) (s : Bytes) :
    List.replicate k (byte '\\') ++ unescapeWpaSsid (byte '\\' :: encodeSsid s) ≠ s := by
  induction s generalizing k with
  | nil => simp [encodeSsid, unescapeWpaSsid]
  | cons c s ih =>
    intro heq
    rcases unescapeWpaSsid_backslash (encodeSsid (c :: s)) with ⟨a, b, r, v, hx, hpair, hv⟩ | hkeep
    · -- the escape has taken three bytes of the name
      obtain ⟨ha, hb⟩ := hexPair_ne_backslash hpair
      obtain ⟨s₁, hs₁, hr₁⟩ := encodeSsid_eq_cons hx (by decide)
      obtain ⟨s₂, rfl, hr₂⟩ := encodeSsid_eq_cons hr₁.symm ha
      obtain ⟨s₃, rfl, rfl⟩ := encodeSsid_eq_cons hr₂.symm hb
      obtain ⟨rfl, rfl⟩ := List.cons.inj hs₁
      rw [hv] at heq
      cases k with
      | zero =>
        rw [List.replicate_zero, List.nil_append] at heq
        refine unescapeWpaSsid_encodeSsid_ne_append (w := [a, b]) ?_ (by simp) s₃
          (List.cons.inj heq).2
        simp [ha.symm, hb.symm]
      | succ k =>
        rw [List.replicate_succ, List.cons_append] at heq
        exact absurd (List.cons.inj heq).1 (by decide)
    · have hfront : ∀ l, List.replicate k (byte '\\') ++ byte '\\' :: l =
          byte '\\' :: (List.replicate k (byte '\\') ++ l) := by
        intro l
        rw [← List.singleton_append, ← List.append_assoc, ← List.replicate_succ',
          List.replicate_succ, List.cons_append]
      rw [hkeep, hfront] at heq
      obtain ⟨rfl, heq⟩ := List.cons.inj heq
      rw [encodeSsid_cons, unescapeWpaSsid_encodeByte_some escapeLetter_backslash, hfront] at heq
      refine ih (k + 1) ?_
      rw [List.replicate_succ, List.cons_append]
      exact heq

/-- **The decoder inverts the encoder** on names without two-character escapes, and on no others. -/
theorem unescapeWpaSsid_encodeSsid_iff (s : Bytes) :
    unescapeWpaSsid (encodeSsid s) = s ↔ ∀ c ∈ s, escapeLetter c = none := by
  induction s with
  | nil => simp [encodeSsid, unescapeWpaSsid]
  | cons c s ih =>
    rw [encodeSsid_cons, List.forall_mem_cons, ← ih]
    cases hc : escapeLetter c with
    | none => rw [unescapeWpaSsid_encodeByte hc, List.cons.injEq, eq_self, eq_self]
    | some d =>
      -- the backslash stays, so the byte would be one, and its own escape is not undone
      rw [unescapeWpaSsid_encodeByte_some hc]
      refine iff_of_false ?_ (by simp)
      intro heq
      obtain ⟨rfl, htail⟩ := List.cons.inj heq
      rw [escapeLetter_backslash] at hc
      cases hc
      exact replicate_append_unescapeWpaSsid_ne 0 s htail

/-! ### Hiding the current network -/

theorem encodeSsid_eq_self (h : ∀ c ∈ s, escapeLetter c = none ∧ isPrintable c = true) :
    encodeSsid s = s := by
  induction s with
  | nil => rfl
  | cons c s ih =>
    rw [List.forall_mem_cons] at h
    obtain ⟨⟨hletter, hprint⟩, h⟩ := h
    have hc : encodeByte c = [c] := by rw [encodeByte, hletter, hprint]; rfl
    rw [encodeSsid_cons, ih h, hc, List.singleton_append]

/-- A name that its encoding starts with is its own encoding. -/
theorem isPrintable_of_prefix_encodeSsid (hletter : ∀ c ∈ s, escapeLetter c = none)
    (h : s <+: encodeSsid s) : ∀ c ∈ s, isPrintable c = true := by
  induction s with
  | nil => simp
  | cons c s ih =>
    rw [List.forall_mem_cons] at hletter ⊢
    rw [encodeSsid_cons] at h
    rcases encodeByte_cases c with ⟨-, hprint, hplain⟩ | ⟨-, -, hhex⟩ | ⟨d, hd, -⟩
    · rw [hplain, List.singleton_append, List.cons_prefix_cons] at h
      exact ⟨hprint, ih hletter.2 h.2⟩
    · rw [hhex] at h
      have hc := (List.cons_prefix_cons.1 h).1
      rw [hc, escapeLetter_backslash] at hletter
      cases hletter.1
    · rw [hd] at hletter
      cases hletter.1

theorem takeWhile_eq_head_splitOn (q : UInt8) (s : Bytes) (default : Bytes) :
    (s.splitOn q).getD 0 default = s.takeWhile (· ≠ q) := by
  by_cases hq : q ∈ s
  · obtain ⟨a, b, rfl, ha⟩ := List.eq_append_cons_of_mem hq
    have hkeep : ∀ c ∈ a, decide (c ≠ q) = true :=
      fun c hc => decide_eq_true fun h => ha (h ▸ hc)
    rw [List.splitOn_append_cons_self_of_not_mem ha, List.takeWhile_append_of_pos hkeep]
    simp
  · rw [List.splitOn_eq_singleton hq, List.takeWhile_eq_self_iff.2]
    · rfl
    · exact fun c hc => decide_eq_true fun h => hq (h ▸ hc)

/-- The current name ends at an equals sign, and keeps its escapes. -/
theorem currentSsid_eq {status : List Bytes} (hs : s.length ≤ 32) (h : IsStatus s status) :
    currentSsid status = trimEnd ((encodeSsid s).takeWhile (· ≠ byte '=')) := by
  have hcut : cutSecond (str "ssid=" ++ encodeSsid s) =
      (encodeSsid s).takeWhile (· ≠ byte '=') := by
    have hkey : str "ssid=" = str "ssid" ++ [byte '='] := by decide
    have hplain : byte '=' ∉ str "ssid" := by decide
    rw [cutSecond, hkey, List.append_assoc, List.singleton_append,
      List.splitOn_append_cons_self_of_not_mem hplain, List.getD_cons_succ,
      takeWhile_eq_head_splitOn]
  have hsub := List.takeWhile_sublist (l := encodeSsid s) (· ≠ byte '=')
  have hprint : ∀ c ∈ (encodeSsid s).takeWhile (· ≠ byte '='), isPrintable c = true :=
    fun c hc => isPrintable_of_mem_encodeSsid (hsub.subset hc)
  have hnewline : 10 ∉ (encodeSsid s).takeWhile (· ≠ byte '=') :=
    fun hc => absurd (hprint 10 hc) (by decide)
  have hzero : 0 ∉ (encodeSsid s).takeWhile (· ≠ byte '=') ++ [10] := by
    rw [List.mem_append, not_or]
    exact ⟨fun hc => absurd (hprint 0 hc) (by decide), by decide⟩
  have hlength := hsub.length_le
  have hencoded := (length_encodeSsid s).2
  rw [currentSsid, h, List.map_singleton, List.flatMap_singleton, hcut, execCmdLine,
    fgets_line hnewline (by omega), cStr_eq_self hzero]
  exact List.rdropWhile_concat_pos _ _ _ rfl

end

theorem notMem_encodeSsid {c : UInt8} (hc : isPrintable c = false) (s : Bytes) :
    c ∉ encodeSsid s := by
  intro hmem
  rw [isPrintable_of_mem_encodeSsid hmem] at hc
  cases hc

section

variable (s : NetworkName)

theorem encodeSsid_ne_nil : encodeSsid s.1 ≠ [] := by
  have hlow := s.2.1
  have hlength := (length_encodeSsid s.1).1
  exact List.ne_nil_of_length_pos (by omega)

theorem fields_station : ∀ field ∈ [str "02:00:00:00:00:01", str "2412", str "-48", str "[ESS]",
    encodeSsid s.1], field ≠ [] ∧ 9 ∉ field ∧ 10 ∉ field ∧ 0 ∉ field := by
  have hclosed : ∀ field ∈ [str "02:00:00:00:00:01", str "2412", str "-48", str "[ESS]"],
      field ≠ [] ∧ 9 ∉ field ∧ 10 ∉ field ∧ 0 ∉ field := by decide +kernel
  simp only [List.forall_mem_cons] at hclosed ⊢
  obtain ⟨h₁, h₂, h₃, h₄, -⟩ := hclosed
  exact ⟨h₁, h₂, h₃, h₄, ⟨encodeSsid_ne_nil s, notMem_encodeSsid rfl _, notMem_encodeSsid rfl _,
    notMem_encodeSsid rfl _⟩, by simp⟩

theorem short_station : (str "02:00:00:00:00:01" ++ 9 :: (str "2412" ++ 9 :: (str "-48" ++
    9 :: (str "[ESS]" ++ 9 :: encodeSsid s.1)))).length < 512 := by
  have hclosed : (str "02:00:00:00:00:01").length = 17 ∧ (str "2412").length = 4 ∧
      (str "-48").length = 3 ∧ (str "[ESS]").length = 5 := by decide +kernel
  have hlength := (length_encodeSsid s.1).2
  have hhigh := s.2.2.1
  simp only [List.length_append, List.length_cons, hclosed]
  omega

/-- A line of the scan for the network. -/
def stationLine : ScanLine where
  bssid := str "02:00:00:00:00:01"
  frequency := str "2412"
  rssi := str "-48"
  flags := str "[ESS]"
  ssid := encodeSsid s.1
  fields := fields_station s
  encoded := notMem_encodeSsid rfl _
  short := short_station s

theorem isStatus_ssid_line : IsStatus s.1 [str "ssid=" ++ encodeSsid s.1] := by
  have hline : isSsidLine (str "ssid=" ++ encodeSsid s.1) = true := by
    rw [isSsidLine, List.isPrefixOf_iff_prefix]
    exact List.prefix_append _ _
  rw [IsStatus, List.filter_cons_of_pos hline, List.filter_nil]

/-- What is compared: the decoded name, and the encoded one up to an equals sign. -/
theorem neverListed_iff : NeverListed s.1 ↔
    trimEnd (unescapeWpaSsid (encodeSsid s.1)) = [] ∨
      trimEnd (unescapeWpaSsid (encodeSsid s.1)) =
        trimEnd ((encodeSsid s.1).takeWhile (· ≠ byte '=')) := by
  constructor
  · intro h
    by_contra hnot
    rw [not_or] at hnot
    have hcurrent := currentSsid_eq s.2.2.1 (isStatus_ssid_line s)
    obtain ⟨networks, hnetworks⟩ := exists_isRanked WifiNetworkInfo.rssi
      (available (scanResults scanHeading [stationLine s])
        (currentSsid [str "ssid=" ++ encodeSsid s.1]))
    have hrendered : Rendered _ _ networks := hnetworks
    refine h _ _ _ _ (isStatus_ssid_line s) hrendered _ (List.mem_singleton_self _) rfl ?_
    refine (hrendered.mem_ssid_iff _).2 ⟨hnot.1, ?_, _, List.mem_singleton_self _, rfl⟩
    rw [hcurrent]
    exact hnot.2
  · intro h heading lines status networks hstatus hrendered line _ hssid hmem
    obtain ⟨hname, hother, -⟩ := (hrendered.mem_ssid_iff _).1 hmem
    rw [currentSsid_eq s.2.2.1 hstatus] at hother
    rw [ScanLine.name, hssid] at hname hother
    exact h.elim hname hother

theorem trimEnd_name : trimEnd s.1 = s.1 := by
  rw [trimEnd, List.rdropWhile_eq_self_iff]
  intro hne
  rw [s.2.2.2 _ (List.getLast_mem_getLast? hne)]
  decide

/-- For a name that is decoded rightly, the status must print it as it is. -/
theorem neverListed_iff_of_decoded (h : ∀ c ∈ s.1, escapeLetter c = none) :
    NeverListed s.1 ↔ ∀ c ∈ s.1, isPrintable c = true ∧ c ≠ byte '=' := by
  have hne : s.1 ≠ [] := List.ne_nil_of_length_pos s.2.1
  rw [neverListed_iff, (unescapeWpaSsid_encodeSsid_iff s.1).2 h, trimEnd_name, or_iff_right hne]
  constructor
  · intro heq
    have hstart : trimEnd ((encodeSsid s.1).takeWhile (· ≠ byte '=')) <+:
        (encodeSsid s.1).takeWhile (· ≠ byte '=') := List.rdropWhile_prefix _ _
    rw [← heq] at hstart
    have hprint := isPrintable_of_prefix_encodeSsid h (hstart.trans (List.takeWhile_prefix _))
    intro c hc
    have hequals := List.mem_takeWhile_imp (hstart.subset hc)
    exact ⟨hprint c hc, of_decide_eq_true hequals⟩
  · intro hplain
    rw [encodeSsid_eq_self fun c hc => ⟨h c hc, (hplain c hc).1⟩,
      List.takeWhile_eq_self_iff.2 fun c hc => decide_eq_true (hplain c hc).2, trimEnd_name]

/-- **Names that are shown and compared as they are**: those of printable bytes without backslash,
quotation mark and equals sign. -/
theorem name_kept_and_hidden_iff :
    (unescapeWpaSsid (encodeSsid s.1) = s.1 ∧ NeverListed s.1) ↔
      ∀ c ∈ s.1, isPrintable c = true ∧ c ≠ byte '\\' ∧ c ≠ byte '"' ∧ c ≠ byte '=' := by
  have hletter : ∀ c, isPrintable c = true → c ≠ byte '\\' → c ≠ byte '"' →
      escapeLetter c = none := forall_byte (by decide +kernel)
  have hspecial : ∀ c, escapeLetter c = none → c ≠ byte '\\' ∧ c ≠ byte '"' :=
    forall_byte (by decide +kernel)
  constructor
  · rintro ⟨hkept, hhidden⟩ c hc
    have hnone := (unescapeWpaSsid_encodeSsid_iff s.1).1 hkept
    obtain ⟨hprint, hequals⟩ := (neverListed_iff_of_decoded s hnone).1 hhidden c hc
    obtain ⟨hbackslash, hquote⟩ := hspecial c (hnone c hc)
    exact ⟨hprint, hbackslash, hquote, hequals⟩
  · intro h
    have hnone : ∀ c ∈ s.1, escapeLetter c = none := by
      intro c hc
      obtain ⟨hprint, hbackslash, hquote, -⟩ := h c hc
      exact hletter c hprint hbackslash hquote
    refine ⟨(unescapeWpaSsid_encodeSsid_iff s.1).2 hnone, ?_⟩
    exact (neverListed_iff_of_decoded s hnone).2 fun c hc => ⟨(h c hc).1, (h c hc).2.2.2⟩

end

/-- A name with a letter outside ASCII and with quotation marks. -/
def cafeName : NetworkName := ⟨str "Café \"1\"", by decide +kernel⟩

theorem cafe_changed_and_listed :
    unescapeWpaSsid (encodeSsid cafeName.1) ≠ cafeName.1 ∧ ¬NeverListed cafeName.1 := by
  constructor
  · decide +kernel
  · rw [neverListed_iff]
    decide +kernel

end Panel

end HaPanel
