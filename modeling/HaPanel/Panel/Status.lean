import HaPanel.Panel.Store

/-!
# The status page

`cgi_status_main` prints what it reads from the configuration file and some facts about the machine.
The access token and the MQTT password are not printed, only whether they are set.  But the fields
are read by first occurrence, and a value that looks like a later key makes the page print the value
of the field after it: `username_prints_password`.

`status_hides_secrets` : as long as no search for another field gets into a secret, two
configurations that differ only in their secrets have the same status page.
-/

namespace HaPanel

namespace Panel

open Text

/-! ### The page -/

/-- What `cgi_status_main` finds on the machine, apart from the configuration file. -/
structure StatusEnv where
  /-- `/tmp/ha_panel.log`, empty if it cannot be read. -/
  logs : Bytes
  uptimeSeconds : ℤ
  brightness : ℤ
  maxBrightness : ℤ
  /-- What `pidof ha_panel` prints. -/
  pids : List ℤ
  ownPid : ℤ
  /-- The lines of `ps` that name `voice_control`. -/
  psLines : List Bytes
  wlan0Ip : Bytes

/-- `s.rfind(pat)`. -/
def rfind (pat s : Bytes) : Option ℕ :=
  ((List.range (s.length + 1)).filter fun i => pat.isPrefixOf (s.drop i)).getLast?

/-- The event `ok` is in the log, and not before the last `broken`. -/
def lastIs (logs ok broken : Bytes) : Bool :=
  match rfind ok logs, rfind broken logs with
  | none, _ => false
  | some _, none => true
  | some i, some j => j < i

namespace StatusEnv

variable (env : StatusEnv)

def haConnected : Bool :=
  lastIs env.logs (str "AUTH OK") (str "Connection closed") &&
    lastIs env.logs (str "AUTH OK") (str "auth_required")

def mqttConnected : Bool :=
  lastIs env.logs (str "Connected successfully to broker") (str "Socket connection failed")

def brightnessPercent : ℤ :=
  if env.maxBrightness > 0 then
    (env.brightness * 100 + env.maxBrightness.tdiv 2).tdiv env.maxBrightness
  else 0

def appRunning : Bool := env.pids.any (· ≠ env.ownPid)

/-- The loop over the lines of `ps`. -/
def activeAppOf : List Bytes → Bytes
  | [] => str "none"
  | psLine :: psLines =>
    if contains (str " Z ") psLine then activeAppOf psLines
    else if contains (str "voice_control_factory") psLine then str "tuya_factory"
    else if contains (str "voice_control") psLine then str "tuya_gui"
    else activeAppOf psLines

def activeApp : Bytes := if env.appRunning then str "ha_panel" else activeAppOf env.psLines

end StatusEnv

/-- `CURRENT_VERSION` -/
def currentVersion : Bytes := str "v1.9.11"

/-- The punctuation of the page. -/
def statusLayout : Layout UInt8 where
  quote := byte '"'
  colon := byte ':'
  opening := str "\x7b"
  gap := []
  sep := str ","
  closing := str "\x7d"
  quote_ne_colon := Text.quote_ne_colon
  quote_notMem_opening := Text.quote_notMem_leftBrace
  quote_notMem_gap := Text.quote_notMem_nil
  quote_notMem_sep := Text.quote_notMem_comma
  quote_notMem_closing := Text.quote_notMem_rightBrace
  colon_notMem_sep := Text.colon_notMem_comma
  colon_notMem_closing := Text.colon_notMem_rightBrace

/-- The fields of the page for the variables `c`. -/
def statusFields (env : StatusEnv) (c : Config) : List (Entry UInt8) :=
  [(str "ip", .text (jsonEscape env.wlan0Ip)),
    (str "version", .text (jsonEscape currentVersion)),
    (str "uptime_seconds", .bare (decimalInt env.uptimeSeconds)),
    (str "brightness", .bare (decimalInt env.brightnessPercent)),
    (str "app_running", .bare (boolLit env.appRunning)),
    (str "ha_configured", .bare (boolLit (!c.haUrl.isEmpty && !c.haToken.isEmpty))),
    (str "ha_connected", .bare (boolLit env.haConnected)),
    (str "ha_token_set", .bare (boolLit !c.haToken.isEmpty)),
    (str "ha_url", .text (jsonEscape c.haUrl)),
    (str "entity_1", .text (jsonEscape c.haEntity1)),
    (str "entity_1_name", .text (jsonEscape c.haEntity1Name)),
    (str "entity_2", .text (jsonEscape c.haEntity2)),
    (str "entity_2_name", .text (jsonEscape c.haEntity2Name)),
    (str "mqtt_enabled", .bare (boolLit c.mqtt.enabled)),
    (str "mqtt_connected", .bare (boolLit env.mqttConnected)),
    (str "mqtt_host", .text (jsonEscape c.mqtt.host)),
    (str "mqtt_port", .bare (decimal c.mqtt.port)),
    (str "mqtt_user", .text (jsonEscape c.mqtt.username)),
    (str "mqtt_pass_set", .bare (boolLit !c.mqtt.password.isEmpty)),
    (str "mqtt_topic", .text (jsonEscape c.mqtt.baseTopic)),
    (str "mqtt_discovery", .bare (boolLit c.mqtt.discovery)),
    (str "web_autostart", .bare (boolLit c.webAutostart)),
    (str "ha_autostart", .bare (boolLit c.haAutostart)),
    (str "active_app", .text (jsonEscape env.activeApp))]

/-- `cgi_status_main`: what the process prints when the configuration file is `file`. -/
def cgiStatusMain (env : StatusEnv) (file : Option Bytes) : Bytes :=
  cgiJsonResponse ⟨200, statusLayout.text (statusFields env (currentConfig .ok file))⟩

/-! ### Secrets -/

/-- The record is one that an accepted request writes. -/
def Config.Stored (c : Config) : Prop :=
  ∃ (file : Option Bytes) (req : CgiRequest) (u : Update),
    req.update (currentConfig .ok file) = some u ∧ c = u.apply (currentConfig .ok file)

/-- The record with other secrets. -/
def Config.withSecrets (c : Config) (token password : Bytes) : Config :=
  { c with haToken := token, mqtt := { c.mqtt with password := password } }

/-- No search for another field gets into a secret in which the two records differ: neither the
secret nor the value before it looks like a later key, the directly following one excepted. -/
structure Hidden (c₁ c₂ : Config) : Prop where
  token : c₁.haToken ≠ c₂.haToken → ClearFor (str "ha_url") c₁.haUrl ∧
    ClearFor (str "ha_token") c₁.haToken ∧ ClearFor (str "ha_token") c₂.haToken
  password : c₁.mqtt.password ≠ c₂.mqtt.password → ClearFor (str "mqtt_user") c₁.mqtt.username ∧
    ClearFor (str "mqtt_pass") c₁.mqtt.password ∧ ClearFor (str "mqtt_pass") c₂.mqtt.password

/-! ### Searching past a secret -/

/-- What a reader makes of a lookup. -/
def reading {β : Type*} (R : Bytes → β) (d : β) (json key : Bytes) : β :=
  match findColon json key with
  | none => d
  | some s => R s

/-- The files of `c` and `c'` differ in the value of the field `s` only, which is preceded by the
fields `fs₁` and followed by `fs₂`, and no search for a later field gets into it. -/
structure Replaced (c c' : Config) (s a a' : Bytes) (fs₁ fs₂ : List (Entry UInt8)) : Prop where
  left : c.fields = fs₁ ++ (s, .text (jsonEscape a)) :: fs₂
  right : c'.fields = fs₁ ++ (s, .text (jsonEscape a')) :: fs₂
  last : ∀ f ∈ fs₁.getLast?, ∀ k ∈ fs₂.map Prod.fst, ¬ f.2.EndsLike (byte '"') k
  secret : ∀ k ∈ fs₂.tail.map Prod.fst, ¬ (Value.text (jsonEscape a)).EndsLike (byte '"') k ∧
    ¬ (Value.text (jsonEscape a')).EndsLike (byte '"') k

/-- A value of the file is an escaped text or a literal without quotation marks. -/
theorem fields_value (c : Config) {f : Entry UInt8} (hf : f ∈ c.fields) :
    (∃ x, f.2 = .text (jsonEscape x)) ∨ ∃ lit, f.2 = .bare lit ∧ byte '"' ∉ lit := by
  have hbool : ∀ b, byte '"' ∉ boolLit b := quote_notMem_boolLit
  have hnum : ∀ n, byte '"' ∉ decimal n := notMem_decimal (by decide)
  simp only [Config.fields, List.mem_cons, List.not_mem_nil, or_false] at hf
  rcases hf with rfl | rfl | rfl | rfl | rfl | rfl | rfl | rfl | rfl | rfl | rfl | rfl | rfl |
    rfl | rfl
  all_goals first
    | exact .inl ⟨_, rfl⟩
    | exact .inr ⟨_, rfl, hbool _⟩
    | exact .inr ⟨_, rfl, hnum _⟩

/-- The text from a colon before the field `s` on: nothing of the secret stands before the comma. -/
theorem fromColon_append_cons (w : Value UInt8) (gs : List (Entry UInt8)) (s : Bytes)
    (v : Value UInt8) (fs : List (Entry UInt8)) :
    ∃ y, configLayout.fromColon w (gs ++ (s, v) :: fs) =
      (byte ':' :: byte ' ' :: (configLayout.value w ++ configLayout.between gs)) ++
        byte ',' :: y := by
  obtain ⟨y, hy⟩ : ∃ y, configLayout.rest ((s, v) :: fs) = byte ',' :: y := ⟨_, rfl⟩
  refine ⟨y, ?_⟩
  rw [fromColon_eq, Layout.rest_append, hy]
  simp only [List.cons_append, List.append_assoc]

section

variable {c c' : Config} {s a a' key : Bytes} {fs₁ fs₂ : List (Entry UInt8)}

theorem Replaced.landings (h : Replaced c c' s a a' fs₁ fs₂) (hkey : key ∈ configKeys) :
    Layout.Landings configLayout key s (.text (jsonEscape a)) (.text (jsonEscape a')) fs₁ fs₂
      (configLayout.landing key c.fields) (configLayout.landing key c'.fields) := by
  have hmem : key ∈ (fs₁ ++ (s, .text (jsonEscape a)) :: fs₂).map Prod.fst := by
    rwa [← h.left, fields_keys]
  rw [h.left, h.right]
  exact Layout.landings_replace hmem (fun hk f hf => h.last f hf key hk) (h.secret key)

/-- **Every reader of another field reads the same**, if it does not look beyond a comma after the
value it has landed on. -/
theorem Replaced.reading_eq (h : Replaced c c' s a a' fs₁ fs₂) (hkey : key ∈ configKeys)
    (hs : key ≠ s) {β : Type*} {R : Bytes → β} (d : β)
    (hlocal : ∀ k w gs, (k, w) :: gs <:+ fs₁ →
      (key ∈ fs₁.map Prod.fst → key ∈ ((k, w) :: gs).map Prod.fst) →
      (key ∉ fs₁.map Prod.fst → (k, w) :: gs <:+ fs₁.tail) →
      R (configLayout.fromColon w (gs ++ (s, .text (jsonEscape a)) :: fs₂)) =
        R (configLayout.fromColon w (gs ++ (s, .text (jsonEscape a')) :: fs₂))) :
    reading R d (configText c) key = reading R d (configText c') key := by
  have hland := h.landings hkey
  simp only [reading, findColon_configText _ hkey]
  generalize configLayout.landing key c.fields = r at hland
  generalize configLayout.landing key c'.fields = r' at hland
  cases hland with
  | behind => rfl
  | inside hin => exact absurd hin hs
  | before hsuffix hin hout => exact hlocal _ _ _ hsuffix hin hout

/-- The string reader on a field before the secret. -/
theorem Replaced.parseValueAt_eq (h : Replaced c c' s a a' fs₁ fs₂) {k : Bytes} {w : Value UInt8}
    {gs : List (Entry UInt8)} (hsuffix : (k, w) :: gs <:+ fs₁) :
    parseValueAt (configLayout.fromColon w (gs ++ (s, .text (jsonEscape a)) :: fs₂)) =
      parseValueAt (configLayout.fromColon w (gs ++ (s, .text (jsonEscape a')) :: fs₂)) := by
  have hmem : (k, w) :: gs ⊆ c.fields := by
    rw [h.left]
    exact List.Subset.trans hsuffix.subset (List.subset_append_left _ _)
  have hplain : ∀ f ∈ c.fields, ∀ x ∈ f.1, escapeByte x = [x] := by
    intro f hf
    refine (configKeys_plain f.1 ?_).2.2.2.2
    rw [← fields_keys c]
    exact List.mem_map_of_mem hf
  have hs : (s, .text (jsonEscape a)) ∈ c.fields := by
    rw [h.left]
    simp
  rcases fields_value c (hmem List.mem_cons_self) with ⟨x, hx⟩ | ⟨lit, hlit, hq⟩
  · obtain rfl : w = .text (jsonEscape x) := hx
    rw [parseValueAt_text, parseValueAt_text]
  · obtain rfl : w = .bare lit := hlit
    -- the next key is that of the secret at the latest
    cases gs with
    | nil =>
      rw [List.nil_append, List.nil_append, parseValueAt_bare hq (hplain _ hs),
        parseValueAt_bare hq (hplain _ hs)]
    | cons g gs =>
      have hg := hplain g (hmem (by simp))
      rw [List.cons_append, List.cons_append, parseValueAt_bare hq hg, parseValueAt_bare hq hg]

theorem Replaced.parseJsonValue_eq (h : Replaced c c' s a a' fs₁ fs₂) (hkey : key ∈ configKeys)
    (hs : key ≠ s) :
    parseJsonValue (configText c) key = parseJsonValue (configText c') key :=
  h.reading_eq hkey hs (R := parseValueAt) [] fun _ _ _ hsuffix _ _ => h.parseValueAt_eq hsuffix

theorem Replaced.parseJsonBoolValue_eq (h : Replaced c c' s a a' fs₁ fs₂) (hkey : key ∈ configKeys)
    (hs : key ≠ s) (fallback : Bool) :
    parseJsonBoolValue (configText c) key fallback =
      parseJsonBoolValue (configText c') key fallback := by
  refine h.reading_eq hkey hs (R := fun t => parseBoolAt t fallback) fallback ?_
  intro k w gs _ _ _
  obtain ⟨y, hy⟩ := fromColon_append_cons w gs s (.text (jsonEscape a)) fs₂
  obtain ⟨y', hy'⟩ := fromColon_append_cons w gs s (.text (jsonEscape a')) fs₂
  rw [hy, hy']
  exact parseBoolAt_local _ _ _ _ (by decide)

/-- The number reader is used for the port only, and the port stands before the password. -/
theorem Replaced.parsePort_eq (h : Replaced c c' s a a' fs₁ fs₂) (hs : str "mqtt_port" ≠ s)
    (hport : str "mqtt_port" ∈ fs₁.map Prod.fst ∨ fs₁.tail = []) :
    parseJsonIntValue (configText c) (str "mqtt_port") =
      parseJsonIntValue (configText c') (str "mqtt_port") := by
  refine h.reading_eq (by decide) hs (R := parseIntAt) 0 ?_
  intro k w gs hsuffix hin hout
  have hmem : str "mqtt_port" ∈ fs₁.map Prod.fst := by
    by_contra hne
    have hnil := hout hne
    rw [hport.resolve_left hne, List.suffix_nil] at hnil
    cases hnil
  -- the digits of the port stand before the secret
  obtain ⟨⟨-, u⟩, hf, rfl⟩ := List.mem_map.mp (hin hmem)
  have hfield : (str "mqtt_port", u) ∈ c.fields := by
    rw [h.left]
    exact List.mem_append_left _ (hsuffix.subset hf)
  have hu : u = .bare (decimal c.mqtt.port) := by
    have hnodup : (c.fields.map Prod.fst).Nodup := by
      rw [fields_keys]
      decide
    have hown : (str "mqtt_port", .bare (decimal c.mqtt.port)) ∈ c.fields := by simp [Config.fields]
    exact congrArg Prod.snd (List.inj_on_of_nodup_map hnodup hfield hown rfl)
  obtain ⟨d, hd⟩ := List.exists_mem_of_ne_nil _ (decimal_ne_nil c.mqtt.port)
  have hdigit : d ∈ configLayout.value u := by rwa [hu]
  obtain ⟨y, hy⟩ := fromColon_append_cons w gs s (.text (jsonEscape a)) fs₂
  obtain ⟨y', hy'⟩ := fromColon_append_cons w gs s (.text (jsonEscape a')) fs₂
  rw [hy, hy']
  refine parseIntAt_local _ _ ⟨d, ?_, isDigit_of_mem_decimal hd⟩ (by decide)
  rcases List.mem_cons.mp hf with hf | hf
  · obtain rfl : u = w := congrArg Prod.snd hf
    simp [hdigit]
  · simp [Layout.mem_between hf hdigit]

end

/-! ### Two configurations -/

/-- The page does not depend on the secrets as long as they stay set or stay empty. -/
theorem statusFields_withSecrets (env : StatusEnv) (r : Config) {t p : Bytes}
    (ht : t = [] ↔ r.haToken = []) (hp : p = [] ↔ r.mqtt.password = []) :
    statusFields env (r.withSecrets t p) = statusFields env r := by
  have htoken : t.isEmpty = r.haToken.isEmpty := by
    rw [Bool.eq_iff_iff, List.isEmpty_iff, List.isEmpty_iff, ht]
  have hpassword : p.isEmpty = r.mqtt.password.isEmpty := by
    rw [Bool.eq_iff_iff, List.isEmpty_iff, List.isEmpty_iff, hp]
  simp only [statusFields, Config.withSecrets, htoken, hpassword]

/-- What reading the files of `c` and `c'` gives differs in the secrets only. -/
def SameButSecrets (c c' : Config) : Prop :=
  ∃ t p, readConfig Config.builtin (configText c') =
      (readConfig Config.builtin (configText c)).withSecrets t p ∧
    (t = [] ↔ (readConfig Config.builtin (configText c)).haToken = []) ∧
    (p = [] ↔ (readConfig Config.builtin (configText c)).mqtt.password = [])

theorem SameButSecrets.refl (c : Config) : SameButSecrets c c := by
  unfold SameButSecrets
  generalize readConfig Config.builtin (configText c) = r
  exact ⟨r.haToken, r.mqtt.password, rfl, Iff.rfl, Iff.rfl⟩

theorem SameButSecrets.cgiStatusMain_eq {c c' : Config} (h : SameButSecrets c c')
    (env : StatusEnv) :
    cgiStatusMain env (some (configText c)) = cgiStatusMain env (some (configText c')) := by
  obtain ⟨t, p, hread, ht, hp⟩ := h
  rw [cgiStatusMain, cgiStatusMain, currentConfig_some, currentConfig_some, hread,
    statusFields_withSecrets env _ ht hp]

/-- The keys of the fields that are no secrets, the port apart. -/
def publicKeys : List Bytes :=
  [str "ha_url", str "entity_1", str "entity_1_name", str "entity_2", str "entity_2_name",
    str "mqtt_enabled", str "mqtt_host", str "mqtt_user", str "mqtt_topic", str "mqtt_discovery",
    str "web_autostart", str "ha_autostart"]

theorem publicKeys_public : ∀ key ∈ publicKeys,
    key ∈ configKeys ∧ key ≠ str "ha_token" ∧ key ≠ str "mqtt_pass" := by
  decide +kernel

theorem readConfig_withSecrets {g : Config} {j j' : Bytes}
    (htext : ∀ key ∈ configKeys, key ≠ str "ha_token" → key ≠ str "mqtt_pass" →
      parseJsonValue j' key = parseJsonValue j key)
    (hbool : ∀ key ∈ configKeys, key ≠ str "ha_token" → key ≠ str "mqtt_pass" → ∀ fallback,
      parseJsonBoolValue j' key fallback = parseJsonBoolValue j key fallback)
    (hport : parseJsonIntValue j' (str "mqtt_port") = parseJsonIntValue j (str "mqtt_port")) :
    readConfig g j' = (readConfig g j).withSecrets (readConfig g j').haToken
      (readConfig g j').mqtt.password := by
  have htext : ∀ key ∈ publicKeys, parseJsonValue j' key = parseJsonValue j key := by
    intro key hkey
    obtain ⟨hmem, htoken, hpass⟩ := publicKeys_public key hkey
    exact htext key hmem htoken hpass
  have hbool : ∀ key ∈ publicKeys, ∀ fallback,
      parseJsonBoolValue j' key fallback = parseJsonBoolValue j key fallback := by
    intro key hkey
    obtain ⟨hmem, htoken, hpass⟩ := publicKeys_public key hkey
    exact hbool key hmem htoken hpass
  simp only [publicKeys, List.forall_mem_cons] at htext hbool
  simp only [readConfig, Config.withSecrets, hport, htext, hbool]

/-- A value that is clear for its field, as `Replaced` needs it. -/
theorem ClearFor.not_endsLike {field v k : Bytes} (h : ClearFor field v)
    (hk : k ∈ distantKeys field) : ¬ (Value.text (jsonEscape v)).EndsLike (byte '"') k :=
  fun he => h k hk ((endsLike_jsonEscape (Layout.mem_of_mem_distant hk) v).mp he)

/-- Another token. -/
theorem sameButSecrets_token {c : Config} {t : Bytes}
    (hempty : t.rdropWhile isTrailing = [] ↔ c.haToken.rdropWhile isTrailing = [])
    (hurl : ClearFor (str "ha_url") c.haUrl) (htoken : ClearFor (str "ha_token") c.haToken)
    (ht : ClearFor (str "ha_token") t) : SameButSecrets c { c with haToken := t } := by
  have h : Replaced c { c with haToken := t } (str "ha_token") c.haToken t
      (c.fields.take 1) (c.fields.drop 2) := by
    refine ⟨rfl, rfl, ?_, fun k hk => ⟨htoken.not_endsLike hk, ht.not_endsLike hk⟩⟩
    rintro f hf k hk
    obtain rfl : (str "ha_url", .text (jsonEscape c.haUrl)) = f := Option.some.inj hf
    exact hurl.not_endsLike hk
  refine ⟨_, _, readConfig_withSecrets (fun key hkey hs _ => (h.parseJsonValue_eq hkey hs).symm)
    (fun key hkey hs _ fallback => (h.parseJsonBoolValue_eq hkey hs fallback).symm)
    (h.parsePort_eq (by decide) (.inr rfl)).symm, ?_, ?_⟩
  · rw [readConfig_haToken, readConfig_haToken]
    exact hempty
  · simp only [readConfig]
    rw [h.parseJsonValue_eq (by decide) (by decide)]

/-- Another password. -/
theorem sameButSecrets_password {c : Config} {p : Bytes} (hempty : p = [] ↔ c.mqtt.password = [])
    (huser : ClearFor (str "mqtt_user") c.mqtt.username)
    (hpass : ClearFor (str "mqtt_pass") c.mqtt.password) (hp : ClearFor (str "mqtt_pass") p) :
    SameButSecrets c { c with mqtt := { c.mqtt with password := p } } := by
  have h : Replaced c { c with mqtt := { c.mqtt with password := p } } (str "mqtt_pass")
      c.mqtt.password p (c.fields.take 10) (c.fields.drop 11) := by
    refine ⟨rfl, rfl, ?_, fun k hk => ⟨hpass.not_endsLike hk, hp.not_endsLike hk⟩⟩
    rintro f hf k hk
    obtain rfl : (str "mqtt_user", .text (jsonEscape c.mqtt.username)) = f := Option.some.inj hf
    exact huser.not_endsLike hk
  refine ⟨_, _, readConfig_withSecrets (fun key hkey _ hs => (h.parseJsonValue_eq hkey hs).symm)
    (fun key hkey _ hs fallback => (h.parseJsonBoolValue_eq hkey hs fallback).symm)
    (h.parsePort_eq (by decide) (.inl (by simp [Config.fields]))).symm, ?_, ?_⟩
  · rw [readConfig_haToken, readConfig_haToken]
  · -- the password itself: read from its own field, or twice from the same field before it
    have hkey : str "mqtt_pass" ∈ configKeys := by decide
    have hland := h.landings hkey
    simp only [readConfig, parseJsonValue]
    rw [findColon_configText _ (by decide), findColon_configText _ (by decide)]
    generalize configLayout.landing (str "mqtt_pass") c.fields = r at hland
    generalize configLayout.landing (str "mqtt_pass")
      { c with mqtt := { c.mqtt with password := p } }.fields = r' at hland
    cases hland with
    | behind => exact Iff.rfl
    | inside =>
      simp only [Option.map_some, parseValueAt_text]
      exact hempty
    | before hsuffix hin hout =>
      simp only [Option.map_some]
      rw [h.parseValueAt_eq hsuffix]

/-- A stored token does not end with a blank. -/
theorem Config.Stored.haToken {c : Config} (h : c.Stored) :
    c.haToken.rdropWhile isTrailing = c.haToken := by
  obtain ⟨file, req, u, hu, rfl⟩ := h
  have hcur : (currentConfig .ok file).haToken.rdropWhile isTrailing =
      (currentConfig .ok file).haToken := by
    cases file with
    | none => rfl
    | some json => exact List.rdropWhile_idempotent isTrailing _
  have htrim := (CgiRequest.update_eq_some hu).2
  cases u with
  | connect url token entity1 name1 entity2 name2 =>
    simp only [Update.apply]
    split_ifs
    · exact hcur
    · exact htrim.2
  | disconnect => rfl
  | mqtt enabled host port username password topic discovery => exact hcur
  | system webAutostart haAutostart => exact hcur

/-- **The status page does not reveal the secrets.**  Two stored configurations that differ only in
the token and the MQTT password, each set in both or in none, have the same status page, if no
search for another field gets into a secret in which they differ. -/
theorem status_hides_secrets (env : StatusEnv) {c₁ c₂ : Config} (h₁ : c₁.Stored) (h₂ : c₂.Stored)
    (hsame : c₂ = c₁.withSecrets c₂.haToken c₂.mqtt.password)
    (htoken : c₁.haToken = [] ↔ c₂.haToken = [])
    (hpassword : c₁.mqtt.password = [] ↔ c₂.mqtt.password = []) (hidden : Hidden c₁ c₂) :
    cgiStatusMain env (some (configText c₁)) = cgiStatusMain env (some (configText c₂)) := by
  -- first the token is replaced, then the password
  have hfirst : SameButSecrets c₁ { c₁ with haToken := c₂.haToken } := by
    by_cases ht : c₁.haToken = c₂.haToken
    · rw [← ht]
      exact .refl c₁
    · obtain ⟨hurl, ht₁, ht₂⟩ := hidden.token ht
      exact sameButSecrets_token (by rw [h₁.haToken, h₂.haToken, htoken]) hurl ht₁ ht₂
  have hsecond : SameButSecrets { c₁ with haToken := c₂.haToken } c₂ := by
    rw [hsame]
    by_cases hp : c₁.mqtt.password = c₂.mqtt.password
    · rw [Config.withSecrets, ← hp]
      exact .refl _
    · obtain ⟨huser, hp₁, hp₂⟩ := hidden.password hp
      exact sameButSecrets_password (c := { c₁ with haToken := c₂.haToken }) hpassword.symm huser
        hp₁ hp₂
  exact (hfirst.cgiStatusMain_eq env).trans (hsecond.cgiStatusMain_eq env)

/-- The MQTT form with a user name and a password. -/
def brokerBody (user pass : String) : Bytes :=
  str "section=mqtt&mqtt_enabled=on&mqtt_host=broker&mqtt_port=1883&mqtt_user=" ++ str user ++
    str "&mqtt_pass=" ++ str pass ++ str "&mqtt_topic=panel"

/-- The update it asks for. -/
def brokerUpdate (user pass : String) : Update :=
  .mqtt true (str "broker") ⟨1883, mqttPort_mem⟩ (str user) (str pass) (str "panel") false

/-- The record it stores when nothing was stored before. -/
def brokerConfig (user pass : String) : Config := (brokerUpdate user pass).apply Config.builtin

/-- A machine on which nothing runs. -/
def idleEnv : StatusEnv := ⟨[], 0, 0, 255, [], 1, [], str "127.0.0.1"⟩

/-- The requests that store the record for an ordinary user and for one named like a key. -/
theorem brokerBody_accepted : ∀ user ∈ ["panel", "mqtt_topic"], ∀ pass ∈ ["one", "two"],
    brokerBody user pass ≠ [] ∧ (brokerBody user pass).length ≤ 16384 ∧
      Update.ofBody (brokerBody user pass) = some (brokerUpdate user pass) ∧
      (brokerUpdate user pass).Valid Config.builtin := by
  decide +kernel

theorem brokerConfig_stored {user pass : String} (huser : user ∈ ["panel", "mqtt_topic"])
    (hpass : pass ∈ ["one", "two"]) : (brokerConfig user pass).Stored := by
  obtain ⟨hne, hlen, hbody, hvalid⟩ := brokerBody_accepted user huser pass hpass
  exact ⟨none, .post (brokerBody user pass), brokerUpdate user pass,
    CgiRequest.update_post hne hlen hbody hvalid, rfl⟩

/-- Two passwords of an ordinary user. -/
theorem status_hides_broker_password :
    cgiStatusMain idleEnv (some (configText (brokerConfig "panel" "one"))) =
      cgiStatusMain idleEnv (some (configText (brokerConfig "panel" "two"))) := by
  have hone : (brokerConfig "panel" "one").Stored := brokerConfig_stored (by simp) (by simp)
  have htwo : (brokerConfig "panel" "two").Stored := brokerConfig_stored (by simp) (by simp)
  refine status_hides_secrets idleEnv hone htwo ?_ ?_ ?_ ⟨fun h => absurd rfl h, fun _ => ?_⟩
  · decide +kernel
  · decide +kernel
  · decide +kernel
  · decide +kernel

/-- **A user name that looks like a key makes the page print the password**, as the topic: two
configurations that differ only in the password have different pages. -/
theorem username_prints_password :
    (brokerConfig "mqtt_topic" "one").Stored ∧ (brokerConfig "mqtt_topic" "two").Stored ∧
      brokerConfig "mqtt_topic" "two" =
        (brokerConfig "mqtt_topic" "one").withSecrets [] (str "two") ∧
      (currentConfig .ok (some (configText (brokerConfig "mqtt_topic" "one")))).mqtt.baseTopic =
        str "one" ∧
      cgiStatusMain idleEnv (some (configText (brokerConfig "mqtt_topic" "one"))) ≠
        cgiStatusMain idleEnv (some (configText (brokerConfig "mqtt_topic" "two"))) := by
  refine ⟨brokerConfig_stored (by simp) (by simp), brokerConfig_stored (by simp) (by simp), ?_⟩
  decide +kernel

end Panel

end HaPanel
