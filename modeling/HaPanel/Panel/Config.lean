import HaPanel.Panel.Json
import Mathlib.Data.List.DropRight

/-!
# The configuration record and its file

`Config` gathers the global variables that `load_configuration` fills and `save_configuration`
writes.  The file is a flat object (`Config.fields`), so `Layout.lookup_text` says what every
reader of the file returns.  `readConfig_configText` is the codec theorem: if the fields are
unambiguous, the record read back is the one written, up to the defaults of
`load_configuration` (`Config.readBack`).  The URL and the token come first in the file and are
read back from every file (`readConfig_haUrl`, `readConfig_haToken`).
-/

namespace HaPanel

namespace Panel

open Text

/-! ### The record -/

/-- A port as the panel holds it: every assignment in the source makes it a positive `int`. -/
abbrev Port := {n : ℕ // 0 < n ∧ n < 2 ^ 31}

theorem mqttPort_mem : 0 < 1883 ∧ 1883 < 2 ^ 31 := by decide

/-- `port > 0 ? port : 1883`, for an integer converted to `int`. -/
def toPort (v : ℤ) : Port :=
  if h : 0 < toInt32 v then
    ⟨(toInt32 v).toNat, by
      have : toInt32 v < 2 ^ 31 := by
        have := Int.bmod_lt (x := v) (m := 2 ^ 32) (by decide)
        unfold toInt32
        omega
      omega⟩
  else ⟨1883, mqttPort_mem⟩

theorem toPort_coe (p : Port) : toPort p.1 = p := by
  obtain ⟨n, h0, hn⟩ := p
  have h : toInt32 (n : ℤ) = n := toInt32_of_mem (by omega) (by exact_mod_cast hn)
  have hpos : 0 < toInt32 (n : ℤ) := by rw [h]; exact_mod_cast h0
  rw [toPort, dif_pos hpos]
  exact Subtype.ext (by simp [h])

structure MqttConfig where
  enabled : Bool := false
  host : Bytes := []
  port : Port := ⟨1883, mqttPort_mem⟩
  username : Bytes := []
  password : Bytes := []
  clientId : Bytes := str "tpp01_panel"
  baseTopic : Bytes := str "panel/tpp01"
  discovery : Bool := true
  deriving DecidableEq

/-- The global configuration variables, with their initial values. -/
structure Config where
  haUrl : Bytes := []
  haToken : Bytes := []
  haEntity1 : Bytes := []
  haEntity2 : Bytes := []
  haEntity1Name : Bytes := str "ŚWIATŁO"
  haEntity2Name : Bytes := str "WENTYLATOR"
  mqtt : MqttConfig := {}
  webAutostart : Bool := true
  haAutostart : Bool := false
  deriving DecidableEq

/-- The configuration of a process that has not read a file. -/
def Config.builtin : Config := {}

/-! ### Writing -/

/-- The fields of the file, in the order `save_configuration` writes them. -/
def Config.fields (c : Config) : List (Entry UInt8) :=
  [(str "ha_url", .text (jsonEscape c.haUrl)),
    (str "ha_token", .text (jsonEscape c.haToken)),
    (str "entity_1", .text (jsonEscape c.haEntity1)),
    (str "entity_1_name", .text (jsonEscape c.haEntity1Name)),
    (str "entity_2", .text (jsonEscape c.haEntity2)),
    (str "entity_2_name", .text (jsonEscape c.haEntity2Name)),
    (str "mqtt_enabled", .bare (boolLit c.mqtt.enabled)),
    (str "mqtt_host", .text (jsonEscape c.mqtt.host)),
    (str "mqtt_port", .bare (decimal c.mqtt.port)),
    (str "mqtt_user", .text (jsonEscape c.mqtt.username)),
    (str "mqtt_pass", .text (jsonEscape c.mqtt.password)),
    (str "mqtt_topic", .text (jsonEscape c.mqtt.baseTopic)),
    (str "mqtt_discovery", .bare (boolLit c.mqtt.discovery)),
    (str "web_autostart", .bare (boolLit c.webAutostart)),
    (str "ha_autostart", .bare (boolLit c.haAutostart))]

/-- The text `save_configuration` writes. -/
def configText (c : Config) : Bytes := configLayout.text c.fields

example : configText Config.builtin =
    str "\x7b\n  \"ha_url\": \"\",\n  \"ha_token\": \"\",\n  \"entity_1\": \"\",\n" ++
    str "  \"entity_1_name\": \"ŚWIATŁO\",\n  \"entity_2\": \"\",\n" ++
    str "  \"entity_2_name\": \"WENTYLATOR\",\n  \"mqtt_enabled\": false,\n" ++
    str "  \"mqtt_host\": \"\",\n  \"mqtt_port\": 1883,\n  \"mqtt_user\": \"\",\n" ++
    str "  \"mqtt_pass\": \"\",\n  \"mqtt_topic\": \"panel/tpp01\",\n" ++
    str "  \"mqtt_discovery\": true,\n  \"web_autostart\": true,\n" ++
    str "  \"ha_autostart\": false\n\x7d\n" := by
  decide +kernel

/-- Which of the file operations of a process succeed. -/
structure FileOps where
  /-- Opening and locking `ha_config.lock`. -/
  lock : Bool
  /-- Opening the configuration file for reading. -/
  read : Bool
  /-- Writing the temporary file. -/
  write : Bool
  /-- Renaming it to the configuration file. -/
  rename : Bool
  deriving DecidableEq

/-- All file operations succeed. -/
def FileOps.ok : FileOps := ⟨true, true, true, true⟩

/-- Whether the record was saved, and the configuration file afterwards.  The temporary file is
removed on failure, so the configuration file is replaced as a whole or not at all. -/
def saveConfiguration (ops : FileOps) (c : Config) (file : Option Bytes) : Bool × Option Bytes :=
  if !ops.write then (false, file)
  else if !ops.rename then (false, file)
  else (true, some (configText c))

@[simp] theorem saveConfiguration_ok (c : Config) (file : Option Bytes) :
    saveConfiguration .ok c file = (true, some (configText c)) := rfl

/-! ### Reading -/

/-- One of the bytes that `load_configuration` strips from the end of URL and token. -/
def isTrailing (c : UInt8) : Bool := c == byte ' ' || c == 13 || c == 10 || c == 9

/-- The variables after `load_configuration` has read the text `json`, when they were `g`. -/
def readConfig (g : Config) (json : Bytes) : Config :=
  let entity1 := parseJsonValue json (str "entity_1")
  let entity2 := parseJsonValue json (str "entity_2")
  let name1 := parseJsonValue json (str "entity_1_name")
  let name2 := parseJsonValue json (str "entity_2_name")
  let topic := parseJsonValue json (str "mqtt_topic")
  { haUrl := (parseJsonValue json (str "ha_url")).rdropWhile isTrailing
    haToken := (parseJsonValue json (str "ha_token")).rdropWhile isTrailing
    haEntity1 := if entity1 = [] then str "light.living_room" else entity1
    haEntity2 := if entity2 = [] then str "switch.fan" else entity2
    haEntity1Name := if name1 = [] then g.haEntity1Name else name1
    haEntity2Name := if name2 = [] then g.haEntity2Name else name2
    mqtt :=
      { enabled := parseJsonBoolValue json (str "mqtt_enabled") false
        host := parseJsonValue json (str "mqtt_host")
        port := toPort (parseJsonIntValue json (str "mqtt_port"))
        username := parseJsonValue json (str "mqtt_user")
        password := parseJsonValue json (str "mqtt_pass")
        clientId := g.mqtt.clientId
        baseTopic := if topic = [] then str "panel/tpp01" else topic
        discovery := parseJsonBoolValue json (str "mqtt_discovery") true }
    webAutostart := parseJsonBoolValue json (str "web_autostart") true
    haAutostart := parseJsonBoolValue json (str "ha_autostart") false }

/-- URL and token are set, which is what `load_configuration` returns. -/
def Config.haConfigured (c : Config) : Bool := !c.haUrl.isEmpty && !c.haToken.isEmpty

/-- The result of `load_configuration` and the variables after it. -/
def loadConfiguration (ops : FileOps) (g : Config) : Option Bytes → Bool × Config
  | none => (false, g)
  | some json =>
    if !ops.read then (false, g)
    else let c := readConfig g json; (c.haConfigured, c)

/-! ### The codec -/

/-- What `load_configuration` makes of a record when it reads it back: trailing blanks of URL and
token are stripped, and the empty entity IDs, names and topic are replaced. -/
def Config.readBack (c g : Config) : Config :=
  { c with
    haUrl := c.haUrl.rdropWhile isTrailing
    haToken := c.haToken.rdropWhile isTrailing
    haEntity1 := if c.haEntity1 = [] then str "light.living_room" else c.haEntity1
    haEntity2 := if c.haEntity2 = [] then str "switch.fan" else c.haEntity2
    haEntity1Name := if c.haEntity1Name = [] then g.haEntity1Name else c.haEntity1Name
    haEntity2Name := if c.haEntity2Name = [] then g.haEntity2Name else c.haEntity2Name
    mqtt := { c.mqtt with
      clientId := g.mqtt.clientId
      baseTopic := if c.mqtt.baseTopic = [] then str "panel/tpp01" else c.mqtt.baseTopic } }

/-- The keys of the file. -/
def configKeys : List Bytes := Config.builtin.fields.map Prod.fst

theorem fields_keys (c : Config) : c.fields.map Prod.fst = configKeys := rfl

/-- The keys are plain words. -/
theorem configKeys_plain : ∀ key ∈ configKeys,
    byte '"' ∉ key ∧ byte ':' ∉ key ∧ byte '\\' ∉ key ∧ configLayout.sep ≠ key ∧
      ∀ c ∈ key, escapeByte c = [c] :=
  plainKeys_of_all (by decide +kernel)

/-- Every reader of the file can read every field. -/
theorem fields_readable (c : Config) {key : Bytes} (hkey : key ∈ configKeys) :
    ∀ f ∈ c.fields, configLayout.Readable key f := by
  intro f hf
  have hfkey : f.1 ∈ configKeys := by
    rw [← fields_keys c]
    exact List.mem_map_of_mem hf
  obtain ⟨hq, hc, -, -, -⟩ := configKeys_plain f.1 hfkey
  refine ⟨hq, hc, ?_⟩
  have htext : ∀ v, (Value.text (jsonEscape v)).Readable (byte '"') key := fun v =>
    Escaper.readable (E := jsonEscaper) (configKeys_plain key hkey).2.2.1 v
  have hbool : ∀ b, (Value.bare (boolLit b)).Readable (byte '"') key := quote_notMem_boolLit
  have hnum : ∀ n, (Value.bare (decimal n)).Readable (byte '"') key := notMem_decimal (by decide)
  simp only [Config.fields, List.mem_cons, List.not_mem_nil, or_false] at hf
  rcases hf with rfl | rfl | rfl | rfl | rfl | rfl | rfl | rfl | rfl | rfl | rfl | rfl | rfl |
    rfl | rfl <;> first | exact htext _ | exact hbool _ | exact hnum _

theorem findColon_configText (c : Config) {key : Bytes} (hkey : key ∈ configKeys) :
    findColon (configText c) key =
      (configLayout.landing key c.fields).map fun r => configLayout.fromColon r.1 r.2 := by
  obtain ⟨hq, hc, -, hsep, -⟩ := configKeys_plain key hkey
  exact Layout.lookup_text hq hc hsep (fields_readable c hkey)

/-- The fields of the record can be told apart by first-occurrence search. -/
def Config.Unambiguous (c : Config) : Prop := configLayout.Unambiguous c.fields

theorem findColon_of_mem {c : Config} (h : c.Unambiguous) {key : Bytes} {v : Value UInt8}
    (hf : (key, v) ∈ c.fields) :
    ∃ fs, findColon (configText c) key = some (configLayout.fromColon v fs) := by
  have hkey : key ∈ configKeys := List.mem_map_of_mem (f := Prod.fst) hf
  obtain ⟨fs₁, fs₂, hsplit⟩ := List.append_of_mem hf
  refine ⟨fs₂, ?_⟩
  have hland : configLayout.landing key c.fields = some (v, fs₂) := by
    rw [Config.Unambiguous] at h
    rw [hsplit] at h ⊢
    exact Layout.landing_of_unambiguous h
  rw [findColon_configText c hkey, hland]
  rfl

theorem parseJsonValue_of_mem {c : Config} (h : c.Unambiguous) {key v : Bytes}
    (hf : (key, .text (jsonEscape v)) ∈ c.fields) : parseJsonValue (configText c) key = v := by
  obtain ⟨fs, hcol⟩ := findColon_of_mem h hf
  rw [parseJsonValue, hcol]
  exact parseValueAt_text v fs

theorem parseJsonBoolValue_of_mem {c : Config} (h : c.Unambiguous) {key : Bytes} {b fallback : Bool}
    (hf : (key, .bare (boolLit b)) ∈ c.fields) :
    parseJsonBoolValue (configText c) key fallback = b := by
  obtain ⟨fs, hcol⟩ := findColon_of_mem h hf
  rw [parseJsonBoolValue, hcol]
  exact parseBoolAt_bare b fallback fs

theorem parseJsonIntValue_of_mem {c : Config} (h : c.Unambiguous) {key : Bytes} {n : ℕ}
    (hn : n < 2 ^ 63) (hf : (key, .bare (decimal n)) ∈ c.fields) :
    parseJsonIntValue (configText c) key = n := by
  obtain ⟨fs, hcol⟩ := findColon_of_mem h hf
  rw [parseJsonIntValue, hcol]
  exact parseIntAt_bare hn fs

/-- **The record read back is the record written**, up to the defaults of the reader. -/
theorem readConfig_configText {c : Config} (h : c.Unambiguous) (g : Config) :
    readConfig g (configText c) = c.readBack g := by
  have hport : (c.mqtt.port : ℕ) < 2 ^ 63 := by have := c.mqtt.port.2.2; omega
  have htext : ∀ key v, (key, .text (jsonEscape v)) ∈ c.fields →
      parseJsonValue (configText c) key = v := fun _ _ => parseJsonValue_of_mem h
  have hbool : ∀ key b fallback, (key, .bare (boolLit b)) ∈ c.fields →
      parseJsonBoolValue (configText c) key fallback = b :=
    fun _ _ _ => parseJsonBoolValue_of_mem h
  have hint : parseJsonIntValue (configText c) (str "mqtt_port") = c.mqtt.port :=
    parseJsonIntValue_of_mem h hport (by simp [Config.fields])
  simp only [readConfig, Config.readBack, hint, toPort_coe,
    htext (str "ha_url") c.haUrl (by simp [Config.fields]),
    htext (str "ha_token") c.haToken (by simp [Config.fields]),
    htext (str "entity_1") c.haEntity1 (by simp [Config.fields]),
    htext (str "entity_1_name") c.haEntity1Name (by simp [Config.fields]),
    htext (str "entity_2") c.haEntity2 (by simp [Config.fields]),
    htext (str "entity_2_name") c.haEntity2Name (by simp [Config.fields]),
    hbool (str "mqtt_enabled") c.mqtt.enabled _ (by simp [Config.fields]),
    htext (str "mqtt_host") c.mqtt.host (by simp [Config.fields]),
    htext (str "mqtt_user") c.mqtt.username (by simp [Config.fields]),
    htext (str "mqtt_pass") c.mqtt.password (by simp [Config.fields]),
    htext (str "mqtt_topic") c.mqtt.baseTopic (by simp [Config.fields]),
    hbool (str "mqtt_discovery") c.mqtt.discovery _ (by simp [Config.fields]),
    hbool (str "web_autostart") c.webAutostart _ (by simp [Config.fields]),
    hbool (str "ha_autostart") c.haAutostart _ (by simp [Config.fields])]

/-! ### Values that look like keys -/

theorem endsLike_jsonEscape {key : Bytes} (hkey : key ∈ configKeys) (v : Bytes) :
    (Value.text (jsonEscape v)).EndsLike configLayout.quote key ↔ LooksLike v key := by
  obtain ⟨hq, -, hesc, -, hplain⟩ := configKeys_plain key hkey
  exact Escaper.endsLike_iff (E := jsonEscaper) hesc hq hplain fun c _ => escapeByte_plain_or_esc c

/-- The keys written after `key`, without the one directly after it. -/
def distantKeys (key : Bytes) : List Bytes := Layout.distant key configKeys

/-- The value of `key` looks like no key for which a reader could take it.  A value that looks
like the directly following key is harmless: the search then goes on to that key. -/
def ClearFor (key v : Bytes) : Prop := ∀ k ∈ distantKeys key, ¬ LooksLike v k

instance (key v : Bytes) : Decidable (ClearFor key v) := List.decidableBAll _ _

theorem clearFor_nil (key : Bytes) : ClearFor key [] := by
  have hne : ∀ k ∈ configKeys, k ≠ [] := by decide
  rintro k hk (h | h)
  · exact hne k (Layout.mem_of_mem_distant hk) h.symm
  · simp at h

/-- No text value of the record looks like a distant key. -/
structure Config.Clear (c : Config) : Prop where
  haUrl : ClearFor (str "ha_url") c.haUrl
  haToken : ClearFor (str "ha_token") c.haToken
  haEntity1 : ClearFor (str "entity_1") c.haEntity1
  haEntity1Name : ClearFor (str "entity_1_name") c.haEntity1Name
  haEntity2 : ClearFor (str "entity_2") c.haEntity2
  haEntity2Name : ClearFor (str "entity_2_name") c.haEntity2Name
  mqttHost : ClearFor (str "mqtt_host") c.mqtt.host
  mqttUser : ClearFor (str "mqtt_user") c.mqtt.username
  mqttPass : ClearFor (str "mqtt_pass") c.mqtt.password
  mqttTopic : ClearFor (str "mqtt_topic") c.mqtt.baseTopic

theorem Config.Clear.unambiguous {c : Config} (h : c.Clear) : c.Unambiguous := by
  refine Layout.unambiguous_of_distant (by rw [fields_keys]; decide) ?_
  have htext : ∀ {key v : Bytes}, ClearFor key v → ∀ k ∈ distantKeys key,
      ¬ (Value.text (jsonEscape v)).EndsLike configLayout.quote k := by
    intro key v hv k hk
    rw [endsLike_jsonEscape (Layout.mem_of_mem_distant hk)]
    exact hv k hk
  have hbare : ∀ s k, ¬ (Value.bare s).EndsLike configLayout.quote k := fun _ _ => id
  intro f hf
  rw [fields_keys]
  simp only [Config.fields, List.mem_cons, List.not_mem_nil, or_false] at hf
  rcases hf with rfl | rfl | rfl | rfl | rfl | rfl | rfl | rfl | rfl | rfl | rfl | rfl | rfl |
    rfl | rfl
  · exact htext h.haUrl
  · exact htext h.haToken
  · exact htext h.haEntity1
  · exact htext h.haEntity1Name
  · exact htext h.haEntity2
  · exact htext h.haEntity2Name
  · exact fun k _ => hbare _ k
  · exact htext h.mqttHost
  · exact fun k _ => hbare _ k
  · exact htext h.mqttUser
  · exact htext h.mqttPass
  · exact htext h.mqttTopic
  all_goals exact fun k _ => hbare _ k

/-! ### Records that are read back as they are -/

/-- The text values of a record. -/
def Config.texts (c : Config) : List Bytes :=
  [c.haUrl, c.haToken, c.haEntity1, c.haEntity1Name, c.haEntity2, c.haEntity2Name, c.mqtt.host,
    c.mqtt.username, c.mqtt.password, c.mqtt.baseTopic]

/-- The record is as `load_configuration` leaves it: nothing to strip from URL and token, and no
entity ID, name or topic to fill in. -/
structure Config.Normal (c : Config) : Prop where
  haUrl : ∀ h : c.haUrl ≠ [], isTrailing (c.haUrl.getLast h) = false
  haToken : ∀ h : c.haToken ≠ [], isTrailing (c.haToken.getLast h) = false
  filled : ∀ v ∈ [c.haEntity1, c.haEntity1Name, c.haEntity2, c.haEntity2Name, c.mqtt.baseTopic],
    v ≠ []

theorem Config.Normal.readBack {c : Config} (h : c.Normal) (g : Config) :
    c.readBack g = { c with mqtt := { c.mqtt with clientId := g.mqtt.clientId } } := by
  have hurl : c.haUrl.rdropWhile isTrailing = c.haUrl :=
    List.rdropWhile_eq_self_iff.2 fun hne => by simp [h.haUrl hne]
  have htoken : c.haToken.rdropWhile isTrailing = c.haToken :=
    List.rdropWhile_eq_self_iff.2 fun hne => by simp [h.haToken hne]
  have hfilled := h.filled
  simp only [List.forall_mem_cons] at hfilled
  obtain ⟨h₁, hn₁, h₂, hn₂, htopic, -⟩ := hfilled
  simp only [Config.readBack, hurl, htoken, h₁, hn₁, h₂, hn₂, htopic, if_false]

/-- A record is clear if none of its values looks like any of the keys. -/
theorem Config.clear_of_texts {c : Config}
    (h : ∀ v ∈ c.texts, ∀ key ∈ configKeys, ¬ LooksLike v key) : c.Clear := by
  have hclear : ∀ v ∈ c.texts, ∀ key, ClearFor key v :=
    fun v hv key k hk => h v hv k (Layout.mem_of_mem_distant hk)
  simp only [Config.texts, List.forall_mem_cons] at hclear
  obtain ⟨h₁, h₂, h₃, h₄, h₅, h₆, h₇, h₈, h₉, h₁₀, -⟩ := hclear
  exact ⟨h₁ _, h₂ _, h₃ _, h₄ _, h₅ _, h₆ _, h₇ _, h₈ _, h₉ _, h₁₀ _⟩

/-- **The codec of the configuration file**: a record in normal form whose values do not look like
keys is read back as it was saved, whatever the variables were before. -/
theorem config_codec {c : Config} (hnormal : c.Normal)
    (hclear : ∀ v ∈ c.texts, ∀ key ∈ configKeys, ¬ LooksLike v key) {ops : FileOps}
    {file : Option Bytes} (hsaved : (saveConfiguration ops c file).1 = true) (g : Config) :
    loadConfiguration .ok g (saveConfiguration ops c file).2 =
      (c.haConfigured, { c with mqtt := { c.mqtt with clientId := g.mqtt.clientId } }) := by
  have hfile : (saveConfiguration ops c file).2 = some (configText c) := by
    unfold saveConfiguration at hsaved ⊢
    split_ifs at hsaved ⊢
    rfl
  have hread : readConfig g (configText c) =
      { c with mqtt := { c.mqtt with clientId := g.mqtt.clientId } } := by
    rw [readConfig_configText (Config.clear_of_texts hclear).unambiguous, hnormal.readBack]
  rw [hfile]
  simp only [loadConfiguration, FileOps.ok, Bool.not_true, Bool.false_eq_true, if_false, hread]
  rfl

/-- A record with a zero byte, a quotation mark, a backslash and a byte that is no ASCII in the
URL. -/
def oddConfig : Config :=
  { haUrl := [0, byte '"', byte '\\', 0xff]
    haToken := str "token"
    haEntity1 := str "light.a"
    haEntity2 := str "fan.b" }

theorem oddConfig_is_read_back :
    loadConfiguration .ok Config.builtin (saveConfiguration .ok oddConfig none).2 =
      (true, oddConfig) :=
  config_codec ⟨by decide, by decide, by decide⟩ (by decide) rfl Config.builtin

/-- The first two keys are found whatever the values are. -/
theorem findColon_url_token (c : Config) :
    (∃ fs, findColon (configText c) (str "ha_url") =
      some (configLayout.fromColon (.text (jsonEscape c.haUrl)) fs)) ∧
    ∃ fs, findColon (configText c) (str "ha_token") =
      some (configLayout.fromColon (.text (jsonEscape c.haToken)) fs) := by
  have hne : str "ha_url" ≠ str "ha_token" := by decide
  constructor
  · refine ⟨c.fields.tail, ?_⟩
    rw [findColon_configText c (by decide)]
    simp [Config.fields, Layout.landing]
  · refine ⟨c.fields.tail.tail, ?_⟩
    rw [findColon_configText c (by decide)]
    -- if the URL ends like the second key, the search still goes on to the second field
    by_cases he : (Value.text (jsonEscape c.haUrl)).EndsLike configLayout.quote (str "ha_token")
    · simp [Config.fields, Layout.landing, hne, he]
    · simp [Config.fields, Layout.landing, hne, he]

theorem readConfig_haUrl (g c : Config) :
    (readConfig g (configText c)).haUrl = c.haUrl.rdropWhile isTrailing := by
  obtain ⟨fs, h⟩ := (findColon_url_token c).1
  simp [readConfig, parseJsonValue, h, parseValueAt_text]

theorem readConfig_haToken (g c : Config) :
    (readConfig g (configText c)).haToken = c.haToken.rdropWhile isTrailing := by
  obtain ⟨fs, h⟩ := (findColon_url_token c).2
  simp [readConfig, parseJsonValue, h, parseValueAt_text]

end Panel

end HaPanel
