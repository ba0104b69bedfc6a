import HaPanel.Text.Shell
import Mathlib.Data.List.DropRight

/-!
# Joining a wireless network

`wifi_connect_action_cb` has `sh` run `wpa_cli` with the name of the network and the password.  Both
stand between double quotation marks, which `wpa_cli` expects, and these between single ones, which
the shell removes.

`join_commands_iff` : the shell splits the command lines in the intended way exactly if neither the
name nor the password has an apostrophe.  The name comes from whoever runs the network
(`foundSsid_escaped`), so anybody in range can have a command run (`ssid_runs_command`).
-/

namespace HaPanel

namespace Panel

open Text Shell

/-! ### Names of networks -/

/-- What `strtol` makes of two characters, if it uses both: blanks and signs count. -/
def hexPair (a b : UInt8) : Option UInt8 :=
  match hexDigit a, hexDigit b with
  | some m, some n => some (UInt8.ofNat (16 * m + n))
  | none, some n =>
    if isSpace a || a == byte '+' then some (UInt8.ofNat n)
    else if a == byte '-' then some (-UInt8.ofNat n)
    else none
  | _, none => none

def unescapeWpaSsid : Bytes → Bytes
  | c :: d :: a :: b :: s =>
    if c = byte '\\' ∧ d = byte 'x' then
      match hexPair a b with
      | some v => v :: unescapeWpaSsid s
      | none => c :: unescapeWpaSsid (d :: a :: b :: s)
    else c :: unescapeWpaSsid (d :: a :: b :: s)
  | c :: s => c :: unescapeWpaSsid s
  | [] => []

/-- The name that `render_wifi_scan_results_timer_cb` takes from a line of `scan_results`, and passes
on as a C string. -/
def foundSsid (raw : Bytes) : Bytes :=
  cStr ((unescapeWpaSsid raw).rdropWhile fun c => c == 13 || c == 10 || c == byte ' ')

/-- The name of a network. -/
abbrev Ssid := {s : Bytes // 0 ∉ s ∧ 1 ≤ s.length ∧ s.length ≤ 32}

/-- The text of a text area. -/
abbrev PasswordText := {s : Bytes // 0 ∉ s}

/-- How a scan can report a byte. -/
def hexEscape (c : UInt8) : Bytes :=
  let digit := fun n : ℕ => byte (if n < 10 then Char.ofNat (48 + n) else Char.ofNat (87 + n))
  [byte '\\', byte 'x', digit (c.toNat / 16), digit (c.toNat % 16)]

theorem unescapeWpaSsid_hexEscape (c : UInt8) (s : Bytes) :
    unescapeWpaSsid (hexEscape c ++ s) = c :: unescapeWpaSsid s := by
  have hpair : ∀ c, hexPair ((hexEscape c).getD 2 0) ((hexEscape c).getD 3 0) = some c :=
    forall_byte (by decide +kernel)
  obtain ⟨a, b, hc, hpair⟩ : ∃ a b, hexEscape c = [byte '\\', byte 'x', a, b] ∧
      hexPair a b = some c := ⟨_, _, rfl, hpair c⟩
  rw [hc]
  simp only [List.cons_append, List.nil_append]
  rw [unescapeWpaSsid, if_pos ⟨rfl, rfl⟩, hpair]

theorem unescapeWpaSsid_escaped (s : Bytes) : unescapeWpaSsid (s.flatMap hexEscape) = s := by
  induction s with
  | nil => rfl
  | cons c s ih => rw [List.flatMap_cons, unescapeWpaSsid_hexEscape, ih]

/-- **A scan can find every name** that does not end with a blank or a line break. -/
theorem foundSsid_escaped (ssid : Ssid)
    (h : ∀ c ∈ ssid.1.getLast?, (c == 13 || c == 10 || c == byte ' ') = false) :
    foundSsid (ssid.1.flatMap hexEscape) = ssid.1 := by
  have hkeep : ssid.1.rdropWhile (fun c => c == 13 || c == 10 || c == byte ' ') = ssid.1 := by
    rw [List.rdropWhile_eq_self_iff]
    intro hne
    rw [h _ (List.getLast_mem_getLast? hne)]
    decide
  rw [foundSsid, unescapeWpaSsid_escaped, hkeep, cStr_eq_self ssid.2.1]

/-! ### Command lines -/

def wpaCli : Bytes := str "wpa_cli -p /var/run/wpa_supplicant -i wlan0 "

/-- The network number, as `%d` prints it. -/
def netText (netId : Int32) : Bytes := decimalInt netId.toInt

/-- A command line, and the words that the program means. -/
structure WpaCommand where
  text : Bytes
  intended : List Token

def wpaWords (arguments : List Bytes) : List Token :=
  ([str "wpa_cli", str "-p", str "/var/run/wpa_supplicant", str "-i", str "wlan0"] ++ arguments).map
    .word

/-- `set_network %d ssid '"%s"'` and `set_network %d psk '"%s"'`. -/
def setQuoted (netId : Int32) (name value : Bytes) : WpaCommand where
  text := wpaCli ++ str "set_network " ++ netText netId ++ str " " ++ name ++ str " '\"" ++ value ++
    str "\"'"
  intended := wpaWords [str "set_network", netText netId, name, str "\"" ++ value ++ str "\""]

def setKeyMgmt (netId : Int32) (value : Bytes) : WpaCommand where
  text := wpaCli ++ str "set_network " ++ netText netId ++ str " key_mgmt " ++ value
  intended := wpaWords [str "set_network", netText netId, str "key_mgmt", value]

/-- `enable_network %d` and `select_network %d`. -/
def onNetwork (command : Bytes) (netId : Int32) : WpaCommand where
  text := wpaCli ++ command ++ str " " ++ netText netId
  intended := wpaWords [command, netText netId]

def setSsid (netId : Int32) (ssid : Ssid) : WpaCommand := setQuoted netId (str "ssid") ssid.1

def setPsk (netId : Int32) (pass : PasswordText) : WpaCommand := setQuoted netId (str "psk") pass.1

/-- The command lines that `wifi_connect_action_cb` prints into its buffer. -/
def joinCommands (netId : Int32) (ssid : Ssid) (pass : PasswordText) : List WpaCommand :=
  [setSsid netId ssid] ++
    (if pass.1 ≠ [] then [setPsk netId pass, setKeyMgmt netId (str "WPA-PSK")]
      else [setKeyMgmt netId (str "NONE")]) ++
    [onNetwork (str "enable_network") netId, onNetwork (str "select_network") netId]

/-- The command line fits into `char cmd[512]`. -/
def WpaCommand.Fits (c : WpaCommand) : Prop := c.text.length < 512

instance (c : WpaCommand) : Decidable c.Fits := inferInstanceAs (Decidable (_ < _))

/-- The shell splits the command line in the intended way. -/
def WpaCommand.Split (c : WpaCommand) : Prop := tokens c.text = some c.intended

/-! ### How the lines are split -/

theorem run_wpaCli : ({} : Lexer).run wpaCli = some { tokens := wpaWords [] } := by decide +kernel

theorem isBare_netText (netId : Int32) : ∀ c ∈ netText netId, Lexer.isBare c = true := by
  have hdigit : ∀ c, isDigit c = true → Lexer.isBare c = true := forall_byte (by decide +kernel)
  intro c hc
  unfold netText decimalInt at hc
  split_ifs at hc
  · rcases List.mem_cons.mp hc with rfl | hc
    · decide
    · exact hdigit c (isDigit_of_mem_decimal hc)
  · exact hdigit c (isDigit_of_mem_decimal hc)

theorem netText_ne_nil (netId : Int32) : netText netId ≠ [] := by
  unfold netText decimalInt
  split_ifs
  · simp
  · exact decimal_ne_nil _

theorem length_netText (netId : Int32) : (netText netId).length ≤ 11 := by
  have hlow := netId.le_toInt
  have hhigh := netId.toInt_lt
  have hdigits : (decimal netId.toInt.natAbs).length ≤ 10 := by
    rw [decimal, List.length_map]
    exact (Nat.length_toDigits_le_iff (by decide) (by decide)).mpr (by omega)
  unfold netText decimalInt
  split_ifs
  · simp only [List.length_cons]
    omega
  · omega

theorem run_setNetwork (netId : Int32) (s : Bytes) :
    ({} : Lexer).run (wpaCli ++ str "set_network " ++ netText netId ++ byte ' ' :: s) =
      ({ tokens := wpaWords [str "set_network", netText netId] } : Lexer).run s := by
  have hcommand : ({} : Lexer).run (str "set_network ") =
      some { tokens := [.word (str "set_network")] } := by decide +kernel
  rw [List.append_assoc, List.append_assoc, Lexer.run_append, run_wpaCli, Option.bind_some,
    Lexer.run_piece hcommand, Lexer.run_bare_word (netText_ne_nil netId) (isBare_netText netId)]
  simp [wpaWords]

section

variable (netId : Int32)

theorem split_setKeyMgmt {value : Bytes} (hne : value ≠ [])
    (hbare : ∀ c ∈ value, Lexer.isBare c = true) : (setKeyMgmt netId value).Split := by
  have hkey : str " key_mgmt " = byte ' ' :: (str "key_mgmt" ++ [byte ' ']) := by decide
  have htext : (setKeyMgmt netId value).text =
      wpaCli ++ str "set_network " ++ netText netId ++ byte ' ' :: (str "key_mgmt" ++
        byte ' ' :: value) := by
    rw [setKeyMgmt, hkey]
    simp
  rw [WpaCommand.Split, htext, tokens, run_setNetwork,
    Lexer.run_bare_word (by decide) (forall_mem_of_all (by decide)), tokens_rest,
    tokens_bare hne hbare]
  simp [setKeyMgmt, wpaWords]

theorem split_onNetwork {command : Bytes} (hne : command ≠ [])
    (hbare : ∀ c ∈ command, Lexer.isBare c = true) : (onNetwork command netId).Split := by
  have hblank : str " " = [byte ' '] := by decide
  have htext : (onNetwork command netId).text = wpaCli ++ (command ++ byte ' ' :: netText netId) := by
    rw [onNetwork, hblank]
    simp
  rw [WpaCommand.Split, htext, tokens, Lexer.run_append, run_wpaCli, Option.bind_some,
    Lexer.run_bare_word hne hbare, tokens_rest,
    tokens_bare (netText_ne_nil netId) (isBare_netText netId)]
  simp [onNetwork, wpaWords]

theorem setQuoted_text (name value : Bytes) :
    (setQuoted netId name value).text =
      wpaCli ++ str "set_network " ++ netText netId ++ byte ' ' :: (name ++
        byte ' ' :: byte '\'' :: ((str "\"" ++ value ++ str "\"") ++ [byte '\''])) := by
  have h₁ : str " " = [byte ' '] := by decide
  have h₂ : str " '\"" = byte ' ' :: byte '\'' :: str "\"" := by decide
  have h₃ : str "\"'" = str "\"" ++ [byte '\''] := by decide
  rw [setQuoted, h₁, h₂, h₃]
  simp

/-- Every apostrophe of the value would be one that the shell removes, and nothing else quotes. -/
theorem split_setQuoted_iff {name : Bytes} (hne : name ≠ [])
    (hbare : ∀ c ∈ name, Lexer.isBare c = true) (value : Bytes) :
    (setQuoted netId name value).Split ↔ byte '\'' ∉ value := by
  have hmark : byte '\'' ∉ str "\"" := by decide
  constructor
  · intro h hmem
    have hkeeps : ∀ q ∈ [byte '"', byte '\\', byte '#'],
        Keeps q 0 (setQuoted netId name value).text (setQuoted netId name value).intended := by
      intro q hq
      have hclosed : ∀ q ∈ [byte '"', byte '\\', byte '#'], wpaCli.count q = 0 ∧
          (str "set_network ").count q = 0 ∧ byte ' ' ≠ q ∧ byte '\'' ≠ q := by
        decide +kernel
      obtain ⟨h₁, h₂, h₃, h₄⟩ := hclosed q hq
      rw [Keeps, setQuoted_text]
      simp only [setQuoted, wpaWords, texts, List.map_append, List.map_cons, List.map_nil,
        List.flatMap_append, List.flatMap_cons, List.flatMap_nil, Token.text, List.count_append,
        List.count_cons, List.count_nil, beq_iff_eq, h₁, h₂, h₃, h₄, if_false]
      omega
    refine apostrophe_notMem h (hkeeps _ (by decide)) (hkeeps _ (by decide)) (hkeeps _ (by decide)) ?_
    simp [setQuoted, wpaWords, texts, Token.text, hmem]
  · intro h
    have hvalue : byte '\'' ∉ str "\"" ++ value ++ str "\"" := by simp [hmark, h]
    rw [WpaCommand.Split, setQuoted_text, tokens, run_setNetwork, Lexer.run_bare_word hne hbare,
      Lexer.run_single_word hvalue, Lexer.run_nil]
    simp [Lexer.finish, Lexer.flush, setQuoted, wpaWords]

theorem fits_setSsid (ssid : Ssid) : (setSsid netId ssid).Fits := by
  have hclosed : wpaCli.length = 44 ∧ (str "set_network ").length = 12 ∧ (str " ").length = 1 ∧
      (str "ssid").length = 4 ∧ (str " '\"").length = 3 ∧ (str "\"'").length = 2 := by
    decide +kernel
  obtain ⟨h₁, h₂, h₃, h₄, h₅, h₆⟩ := hclosed
  have hnet := length_netText netId
  have hssid := ssid.2.2.2
  rw [WpaCommand.Fits, setSsid, setQuoted]
  simp only [List.length_append, h₁, h₂, h₃, h₄, h₅, h₆]
  omega

/-- **The shell runs `wpa_cli` as intended** exactly if there is no apostrophe in the name of the
network or in the password. -/
theorem join_commands_iff (ssid : Ssid) (pass : PasswordText) :
    (∀ c ∈ joinCommands netId ssid pass, c.Fits → c.Split) ↔
      byte '\'' ∉ ssid.1 ∧ ((setPsk netId pass).Fits → byte '\'' ∉ pass.1) := by
  have hssid : (setSsid netId ssid).Split ↔ byte '\'' ∉ ssid.1 :=
    split_setQuoted_iff netId (by decide) (forall_mem_of_all (by decide)) ssid.1
  have hpsk : (setPsk netId pass).Split ↔ byte '\'' ∉ pass.1 :=
    split_setQuoted_iff netId (by decide) (forall_mem_of_all (by decide)) pass.1
  have hkey : (setKeyMgmt netId (str "WPA-PSK")).Split ∧ (setKeyMgmt netId (str "NONE")).Split :=
    ⟨split_setKeyMgmt netId (by decide) (forall_mem_of_all (by decide)),
      split_setKeyMgmt netId (by decide) (forall_mem_of_all (by decide))⟩
  have hon : (onNetwork (str "enable_network") netId).Split ∧
      (onNetwork (str "select_network") netId).Split :=
    ⟨split_onNetwork netId (by decide) (forall_mem_of_all (by decide)),
      split_onNetwork netId (by decide) (forall_mem_of_all (by decide))⟩
  have hfits := fits_setSsid netId ssid
  unfold joinCommands
  split_ifs with hpass
  · simp [hssid, hpsk, hkey, hon, hfits]
  · simp only [ne_eq, not_not] at hpass
    simp [hssid, hkey, hon, hfits, hpass]

end

/-- The name of a network that closes the quotation marks. -/
def commandSsid : Ssid := ⟨str "x';reboot;'", by decide⟩

/-- **The name of a network becomes a command**: a scan finds it, and the shell restarts the panel. -/
theorem ssid_runs_command :
    foundSsid (str "x';reboot;'") = commandSsid.1 ∧
      setSsid 0 commandSsid ∈ joinCommands 0 commandSsid ⟨[], by simp⟩ ∧
      (setSsid 0 commandSsid).Fits ∧ ¬ (setSsid 0 commandSsid).Split ∧
      tokens (setSsid 0 commandSsid).text =
        some (wpaWords [str "set_network", str "0", str "ssid", str "\"x"] ++
          [.operator (byte ';'), .word (str "reboot"), .operator (byte ';'), .word (str "\"")]) := by
  refine ⟨by decide +kernel, List.mem_append_left _ (List.mem_append_left _ List.mem_cons_self),
    by decide +kernel, ?_, by decide +kernel⟩
  rw [setSsid, split_setQuoted_iff 0 (by decide) (forall_mem_of_all (by decide))]
  decide

end Panel

end HaPanel
