import HaPanel.Panel.Wifi
import HaPanel.Text.Fields
import HaPanel.Data.Ranking

/-!
# The list of networks

`render_wifi_scan_results_timer_cb` reads what `wpa_cli scan_results` prints: a heading, and a line
for each station.  Several stations can have the same name, and the list has each name once, with
the strongest of them, but not the name of the network that the panel is connected to.
-/

namespace HaPanel

namespace Panel

open Text Ranking

/-! ### Reading the scan -/

structure WifiNetworkInfo where
  ssid : Bytes
  bssid : Bytes
  rssi : ℤ
  flags : Bytes
deriving DecidableEq, Repr

/-- What `while (!s.empty() && (s.back() == ...)) s.pop_back();` removes. -/
def isBlankEnd (c : UInt8) : Bool := c == 13 || c == 10 || c == byte ' '

def trimEnd (s : Bytes) : Bytes := s.rdropWhile isBlankEnd

def isTab (c : UInt8) : Bool := c == 9

def isLineEnd (c : UInt8) : Bool := c == 13 || c == 10

/-- What the body of the loop makes of a line. -/
def scanEntry (line : Bytes) : Option WifiNetworkInfo := do
  let (bssid, s) ← strtok isTab (cStr line)
  let (_freq, s) ← strtok isTab s
  let (rssi, s) ← strtok isTab s
  let (flags, s) ← strtok isTab s
  let (raw, _) ← strtok isLineEnd s
  let ssid := trimEnd (unescapeWpaSsid raw)
  if ssid = [] then none else some { ssid, bssid, rssi := atoi rssi, flags }

/-- The entries of the map after the loop, with `char line[512]`.  The first line is the heading. -/
def uniqueSsids (output : Bytes) : List WifiNetworkInfo :=
  ((fgetsLines 10 511 output).tail.filterMap scanEntry).foldl
    (enter WifiNetworkInfo.ssid WifiNetworkInfo.rssi) []

/-- The entries of the map that go into the vector. -/
def available (output current : Bytes) : List WifiNetworkInfo :=
  (uniqueSsids output).filter (·.ssid != current)

/-- The vector can end up as `networks`: `std::sort` puts entries with the same strength into any
order. -/
def Rendered (output current : Bytes) (networks : List WifiNetworkInfo) : Prop :=
  IsRanked WifiNetworkInfo.rssi (available output current) networks

/-! ### What is printed -/

/-- A line of the scan, without its end. -/
structure ScanLine where
  bssid : Bytes
  frequency : Bytes
  rssi : Bytes
  flags : Bytes
  ssid : Bytes
  fields : ∀ field ∈ [bssid, frequency, rssi, flags, ssid],
    field ≠ [] ∧ 9 ∉ field ∧ 10 ∉ field ∧ 0 ∉ field
  encoded : 13 ∉ ssid
  short : (bssid ++ 9 :: (frequency ++ 9 :: (rssi ++ 9 :: (flags ++ 9 :: ssid)))).length < 512

namespace ScanLine

def text (line : ScanLine) : Bytes :=
  line.bssid ++ 9 :: (line.frequency ++ 9 :: (line.rssi ++ 9 :: (line.flags ++ 9 :: line.ssid)))

/-- The name of the network, decoded and without blanks at the end. -/
def name (line : ScanLine) : Bytes := trimEnd (unescapeWpaSsid line.ssid)

/-- The strength of the signal. -/
def level (line : ScanLine) : ℤ := atoi line.rssi

def network (line : ScanLine) : WifiNetworkInfo where
  ssid := line.name
  bssid := line.bssid
  rssi := line.level
  flags := line.flags

end ScanLine

/-- A heading that fits into the buffer. -/
abbrev Heading := {s : Bytes // 10 ∉ s ∧ s.length < 512}

/-- What `wpa_cli scan_results` prints. -/
def scanResults (heading : Heading) (lines : List ScanLine) : Bytes :=
  heading.1 ++ 10 :: lines.flatMap fun line => line.text ++ [10]

/-! ### A line -/

section

variable (line : ScanLine)

theorem ScanLine.newline_notMem_text : 10 ∉ line.text := by
  have h := line.fields
  simp only [List.forall_mem_cons] at h
  simp [ScanLine.text, h]

theorem ScanLine.zero_notMem_text : 0 ∉ line.text := by
  have h := line.fields
  simp only [List.forall_mem_cons] at h
  simp [ScanLine.text, h]

/-- A line, with whatever follows the name, gives its network. -/
theorem scanEntry_text {s : Bytes} (hs : s = [] ∨ s = [10]) :
    scanEntry (line.text ++ s) = if line.name = [] then none else some line.network := by
  have htab : ∀ field ∈ [line.bssid, line.frequency, line.rssi, line.flags],
      field ≠ [] ∧ ∀ c ∈ field, isTab c = false := by
    intro field hfield
    obtain ⟨hne, htab, -⟩ := line.fields field (List.mem_append_left [line.ssid] hfield)
    refine ⟨hne, ?_⟩
    intro c hc
    exact beq_false_of_ne fun h => htab (h ▸ hc)
  simp only [List.forall_mem_cons] at htab
  obtain ⟨⟨hne₁, h₁⟩, ⟨hne₂, h₂⟩, ⟨hne₃, h₃⟩, ⟨hne₄, h₄⟩, -⟩ := htab
  obtain ⟨hne, -, hnewline, -⟩ := line.fields line.ssid (by simp)
  have hend : ∀ c ∈ line.ssid, isLineEnd c = false := by
    intro c hc
    have hcr : c ≠ 13 := fun h => line.encoded (h ▸ hc)
    have hlf : c ≠ 10 := fun h => hnewline (h ▸ hc)
    rw [isLineEnd, beq_false_of_ne hcr, beq_false_of_ne hlf, Bool.or_false]
  have hlast : strtok isLineEnd (line.ssid ++ s) = some (line.ssid, []) := by
    rcases hs with rfl | rfl
    · rw [List.append_nil, strtok_last hne hend]
    · rw [strtok_field hne hend (by decide)]
  have hzero : 0 ∉ line.text ++ s := by
    rw [List.mem_append, not_or]
    refine ⟨line.zero_notMem_text, ?_⟩
    rcases hs with rfl | rfl <;> decide
  rw [scanEntry, cStr_eq_self hzero, ScanLine.text]
  simp only [List.append_assoc, List.cons_append]
  rw [strtok_field hne₁ h₁ (by decide), Option.bind_eq_bind, Option.bind_some,
    strtok_field hne₂ h₂ (by decide), Option.bind_some, strtok_field hne₃ h₃ (by decide),
    Option.bind_some, strtok_field hne₄ h₄ (by decide), Option.bind_some, hlast, Option.bind_some]
  rfl

end

/-! ### The whole scan -/

/-- A line that just fits leaves a newline for the next turn of the loop, which ignores it. -/
theorem scanEntry_newline : scanEntry [10] = none := by decide

/-- The networks that have a name. -/
def named (lines : List ScanLine) : List WifiNetworkInfo :=
  lines.filterMap fun line => if line.name = [] then none else some line.network

theorem filterMap_fgetsLines_lines (lines : List ScanLine) :
    (fgetsLines 10 511 (lines.flatMap fun line => line.text ++ [10])).filterMap scanEntry =
      named lines := by
  induction lines with
  | nil => simp [named]
  | cons line lines ih =>
    have htext := line.newline_notMem_text
    have hshort : line.text.length < 512 := line.short
    have hnamed : named (line :: lines) =
        (if line.name = [] then none else some line.network).toList ++ named lines := by
      rw [named, List.filterMap_cons]
      split_ifs <;> rfl
    rw [List.flatMap_cons, List.append_assoc, List.singleton_append, hnamed, ← ih]
    -- a line of 511 bytes fills the buffer, and its newline is read on its own
    rcases Nat.lt_or_eq_of_le (Nat.le_of_lt_succ hshort) with hlt | heq
    · rw [fgetsLines_line htext hlt, List.filterMap_cons, scanEntry_text line (.inr rfl)]
      split_ifs <;> rfl
    · have hline := scanEntry_text line (.inl rfl)
      rw [List.append_nil] at hline
      rw [fgetsLines_full htext heq (by decide), List.filterMap_cons, hline,
        List.filterMap_cons_none scanEntry_newline]
      split_ifs <;> rfl

theorem uniqueSsids_scanResults (heading : Heading) (lines : List ScanLine) :
    uniqueSsids (scanResults heading lines) =
      (named lines).foldl (enter WifiNetworkInfo.ssid WifiNetworkInfo.rssi) [] := by
  obtain ⟨heading, hheading, hshort⟩ := heading
  rw [uniqueSsids, scanResults, ← filterMap_fgetsLines_lines]
  rcases Nat.lt_or_eq_of_le (Nat.le_of_lt_succ hshort) with hlt | heq
  · rw [fgetsLines_line hheading hlt, List.tail_cons]
  · rw [fgetsLines_full hheading heq (by decide), List.tail_cons,
      List.filterMap_cons_none scanEntry_newline]

/-- **The list has the best networks**: those whose name is not the current one. -/
theorem Rendered.isBest {heading : Heading} {lines : List ScanLine} {current : Bytes}
    {networks : List WifiNetworkInfo} (h : Rendered (scanResults heading lines) current networks) :
    IsBest WifiNetworkInfo.ssid WifiNetworkInfo.rssi
      ((named lines).filter (·.ssid != current)) networks := by
  have hbest : IsBest WifiNetworkInfo.ssid WifiNetworkInfo.rssi (named lines) _ :=
    isBest_foldl_enter (named lines)
  rw [← uniqueSsids_scanResults heading lines] at hbest
  exact (hbest.filter (· != current)).perm (.refl _) h.perm

theorem mem_named_filter {lines : List ScanLine} {current : Bytes} {net : WifiNetworkInfo} :
    net ∈ (named lines).filter (·.ssid != current) ↔
      net.ssid ≠ [] ∧ net.ssid ≠ current ∧ ∃ line ∈ lines, line.network = net := by
  rw [List.mem_filter, named, List.mem_filterMap]
  constructor
  · rintro ⟨⟨line, hline, hnet⟩, hne⟩
    split_ifs at hnet with hname
    cases hnet
    exact ⟨hname, by simpa using hne, line, hline, rfl⟩
  · rintro ⟨hname, hne, line, hline, rfl⟩
    exact ⟨⟨line, hline, if_neg hname⟩, by simpa using hne⟩

section

variable {heading : Heading} {lines lines' : List ScanLine} {current : Bytes}
  {networks networks' : List WifiNetworkInfo}

theorem Rendered.mem_ssid_iff (h : Rendered (scanResults heading lines) current networks)
    (s : Bytes) :
    s ∈ networks.map (·.ssid) ↔ s ≠ [] ∧ s ≠ current ∧ ∃ line ∈ lines, line.name = s := by
  constructor
  · intro hs
    obtain ⟨net, hnet, rfl⟩ := List.mem_map.1 hs
    obtain ⟨hname, hne, line, hline, rfl⟩ := mem_named_filter.1 (h.isBest.mem net hnet)
    exact ⟨hname, hne, line, hline, rfl⟩
  · rintro ⟨hname, hne, line, hline, rfl⟩
    exact h.isBest.keys line.network (mem_named_filter.2 ⟨hname, hne, line, hline, rfl⟩)

/-- Each network is the one of a line with the strongest signal. -/
theorem Rendered.strongest (h : Rendered (scanResults heading lines) current networks)
    {net : WifiNetworkInfo} (hnet : net ∈ networks) :
    (∀ line ∈ lines, line.name = net.ssid → line.level ≤ net.rssi) ∧
      ∃ line ∈ lines, line.name = net.ssid ∧ line.level = net.rssi ∧ line.bssid = net.bssid ∧
        line.flags = net.flags := by
  obtain ⟨hname, hne, line, hline, heq⟩ := mem_named_filter.1 (h.isBest.mem net hnet)
  constructor
  · intro other hother hsame
    have hmem : other.network ∈ (named lines).filter (·.ssid != current) :=
      mem_named_filter.2 ⟨hsame.trans_ne hname, hsame.trans_ne hne, other, hother, rfl⟩
    exact h.isBest.highest net hnet other.network hmem hsame
  · subst heq
    exact ⟨line, hline, rfl, rfl, rfl, rfl⟩

/-- The order of the lines decides only between signals of the same strength. -/
theorem Rendered.reordered (h : Rendered (scanResults heading lines) current networks)
    (hperm : lines'.Perm lines)
    (h' : Rendered (scanResults heading lines') current networks') :
    (networks.map fun net => (net.ssid, net.rssi)).Perm
        (networks'.map fun net => (net.ssid, net.rssi)) ∧
      networks.map (·.rssi) = networks'.map (·.rssi) ∧
      ((∀ a ∈ lines, ∀ b ∈ lines, a.level = b.level → a.network = b.network) →
        networks = networks') := by
  have hbest := h.isBest
  have hbest' := h'.isBest.perm ((hperm.symm.filterMap _).filter _) (.refl networks')
  have hpairs := hbest.perm_key_rank hbest'
  refine ⟨hpairs, ?_, ?_⟩
  · have hranks := hpairs.map Prod.snd
    rw [List.map_map, List.map_map] at hranks
    exact map_rank_eq hranks h.sorted h'.sorted
  · intro hties
    have hrank : ∀ a ∈ (named lines).filter (·.ssid != current),
        ∀ b ∈ (named lines).filter (·.ssid != current), a.rssi = b.rssi → a = b := by
      intro a ha b hb heq
      obtain ⟨-, -, line, hline, rfl⟩ := mem_named_filter.1 ha
      obtain ⟨-, -, other, hother, rfl⟩ := mem_named_filter.1 hb
      exact hties line hline other hother heq
    refine eq_of_perm_of_injective (hbest.perm_of_injective hbest' hrank) ?_ h.sorted h'.sorted
    exact fun a ha b hb => hrank a (hbest.mem a ha) b (hbest'.mem b hb)

end

/-- **The list is the deduplicated, ranked scan**, and the order of the lines matters only among
signals of the same strength. -/
theorem networks_deduplicated_and_ranked (heading : Heading) (lines : List ScanLine)
    (current : Bytes) :
    (∃ networks, Rendered (scanResults heading lines) current networks) ∧
    ∀ networks, Rendered (scanResults heading lines) current networks →
      (networks.map (·.ssid)).Nodup ∧
      (∀ s, s ∈ networks.map (·.ssid) ↔ s ≠ [] ∧ s ≠ current ∧ ∃ line ∈ lines, line.name = s) ∧
      (∀ net ∈ networks, (∀ line ∈ lines, line.name = net.ssid → line.level ≤ net.rssi) ∧
        ∃ line ∈ lines, line.name = net.ssid ∧ line.level = net.rssi ∧ line.bssid = net.bssid ∧
          line.flags = net.flags) ∧
      (networks.Pairwise fun a b => b.rssi ≤ a.rssi) ∧
      ∀ lines' : List ScanLine, lines'.Perm lines →
        ∀ networks', Rendered (scanResults heading lines') current networks' →
          (networks.map fun net => (net.ssid, net.rssi)).Perm
            (networks'.map fun net => (net.ssid, net.rssi)) ∧
          networks.map (·.rssi) = networks'.map (·.rssi) ∧
          ((∀ a ∈ lines, ∀ b ∈ lines, a.level = b.level → a.network = b.network) →
            networks = networks') := by
  refine ⟨exists_isRanked _ _, ?_⟩
  intro networks h
  refine ⟨h.isBest.nodup, h.mem_ssid_iff, ?_, h.sorted, ?_⟩
  · exact fun net hnet => h.strongest hnet
  · exact fun lines' hperm networks' h' => h.reordered hperm h'

/-- A scan with two stations of one name: the nearer one is listed. -/
def homeNear : ScanLine where
  bssid := str "02:00:00:00:00:01"
  frequency := str "2412"
  rssi := str "-48"
  flags := str "[WPA2-PSK-CCMP][ESS]"
  ssid := str "Home"
  fields := by decide +kernel
  encoded := by decide +kernel
  short := by decide +kernel

def homeFar : ScanLine where
  bssid := str "02:00:00:00:00:02"
  frequency := str "2437"
  rssi := str "-71"
  flags := str "[ESS]"
  ssid := str "Home"
  fields := by decide +kernel
  encoded := by decide +kernel
  short := by decide +kernel

def scanHeading : Heading :=
  ⟨str "bssid / frequency / signal level / flags / ssid", by decide +kernel⟩

theorem rendered_home :
    Rendered (scanResults scanHeading [homeFar, homeNear]) [] [homeNear.network] := by
  have havailable : available (scanResults scanHeading [homeFar, homeNear]) [] =
      [homeNear.network] := by
    rw [available, uniqueSsids_scanResults]
    decide +kernel
  rw [Rendered, havailable]
  exact ⟨.refl _, List.pairwise_singleton _ _⟩

theorem home_listed_once :
    Rendered (scanResults scanHeading [homeFar, homeNear]) [] [homeNear.network] ∧
      ([homeNear.network].map (·.ssid)).Nodup :=
  ⟨rendered_home,
    ((networks_deduplicated_and_ranked scanHeading [homeFar, homeNear] []).2 _ rendered_home).1⟩

end Panel

end HaPanel
