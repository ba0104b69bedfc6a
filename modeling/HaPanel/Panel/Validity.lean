import HaPanel.Panel.Writers
import HaPanel.Transition.Run

/-!
# What the writers store

`cgi_config_main` checks the MQTT settings before it stores them (`MqttConfig.Valid`).  The save
button of the MQTT screen stores what its fields contain: `invalid_form_is_saved`.

`sound_run_keeps_valid` : in every interleaving in which the screen is saved with fields that
`cgi_config_main` would accept (`MqttForm.Valid`), and no value looks like a distant key, what
`load_configuration` reads from the file is valid.
-/

namespace HaPanel

namespace Panel

open Text Transition

/-- What `cgi_config_main` enforces for the MQTT settings. -/
structure MqttConfig.Valid (m : MqttConfig) : Prop where
  port : 1 ≤ m.port.1 ∧ m.port.1 ≤ 65535
  baseTopic : 1 ≤ m.baseTopic.length ∧ m.baseTopic.length ≤ 255
  username : m.username.length ≤ 255
  password : m.password.length ≤ 512
  host : m.enabled = true → 1 ≤ m.host.length ∧ m.host.length ≤ 255

theorem MqttConfig.Valid.builtin : Config.builtin.mqtt.Valid := by
  refine ⟨?_, ?_, ?_, ?_, ?_⟩ <;> decide

/-- The fields of the MQTT screen are as `cgi_config_main` wants them.  It is enough for the port
that it is not too great, and for the topic that it is not too long: `save_mqtt_btn_cb` and
`load_configuration` replace a port that is not positive, and an empty topic. -/
structure MqttForm.Valid (form : MqttForm) : Prop where
  port : atoi form.port ≤ 65535
  topic : form.topic.length ≤ 255
  username : form.username.length ≤ 255
  password : form.password.length ≤ 512
  host : form.enabled = true → 1 ≤ form.host.length ∧ form.host.length ≤ 255

/-- No field of the MQTT screen looks like a distant key. -/
structure MqttForm.Clear (form : MqttForm) : Prop where
  host : ClearFor (str "mqtt_host") form.host
  username : ClearFor (str "mqtt_user") form.username
  password : ClearFor (str "mqtt_pass") form.password
  topic : ClearFor (str "mqtt_topic") form.topic

/-- The action stores a valid configuration if it finds one. -/
def System.Sound (s : System) : Action → Prop
  | .cgi req => ∀ u ∈ req.update (currentConfig .ok s.file), u.Clear
  | .saveMqtt form => form.Valid ∧ form.Clear
  | .saveAutostart _ => True
  | .restart => True
  | .poll => True

/-! ### Valid records -/

/-- A record that `load_configuration` reads back as it is, with valid MQTT settings. -/
structure Config.Sound (c : Config) : Prop where
  settled : c.Settled
  valid : c.withDefaults.mqtt.Valid

/-- `load_configuration` replaces an empty topic. -/
theorem topic_length {topic : Bytes} (h : topic.length ≤ 255) :
    1 ≤ (if topic = [] then str "panel/tpp01" else topic).length ∧
      (if topic = [] then str "panel/tpp01" else topic).length ≤ 255 := by
  split_ifs with htopic
  · decide
  · exact ⟨List.length_pos_iff.mpr htopic, h⟩

/-- The port that `save_mqtt_btn_cb` takes from its field. -/
theorem toPort_atoi_le {text : Bytes} (h : atoi text ≤ 65535) : (toPort (atoi text)).1 ≤ 65535 := by
  have hint : toInt32 (atoi text) = atoi text := by rw [atoi, toInt32, toInt32, Int.bmod_bmod]
  unfold toPort
  split
  · show (toInt32 (atoi text)).toNat ≤ 65535
    omega
  · decide

namespace Config.Sound

theorem builtin : Config.builtin.Sound := ⟨.builtin, .builtin⟩

theorem withDefaults {c : Config} (h : c.Sound) : c.withDefaults.Sound := by
  refine ⟨h.settled.withDefaults, ?_⟩
  rw [Config.withDefaults_withDefaults]
  exact h.valid

/-- A sound record in the file is read back as a sound record. -/
theorem readConfig {c g : Config} (h : c.Sound) (hg : g.Sound) :
    (readConfig g (configText c)).Sound := by
  rw [h.settled.readConfig hg.settled.clientId]
  exact h.withDefaults

theorem apply {c : Config} (h : c.Sound) {u : Update} (hclear : u.Clear) (hvalid : u.Valid c)
    (htrim : u.Trimmed) (hport : ∀ {enabled host port username password topic discovery},
      u = .mqtt enabled host port username password topic discovery → port.1 ≤ 65535) :
    (u.apply c).Sound := by
  refine ⟨Update.settled_apply h.settled hclear hvalid htrim, ?_⟩
  cases u with
  | connect url token entity1 name1 entity2 name2 => exact h.valid
  | disconnect => exact h.valid
  | system webAutostart haAutostart => exact h.valid
  | mqtt enabled host port username password topic discovery =>
    obtain ⟨hhost, huser, hpass, -, hlen⟩ := hvalid
    have hold : c.mqtt.password.length ≤ 512 := h.valid.password
    refine ⟨⟨port.2.1, hport rfl⟩, topic_length hlen, huser, ?_, fun he => ?_⟩
    · simp only [Config.withDefaults, Update.apply]
      split_ifs
      · exact hold
      · exact hpass
    · obtain ⟨hne, hle⟩ := hhost he
      exact ⟨List.length_pos_iff.mpr hne, hle⟩

theorem saveMqttBtn {c : Config} (h : c.Sound) {form : MqttForm} (hvalid : form.Valid)
    (hclear : form.Clear) : (saveMqttBtn form c).Sound := by
  obtain ⟨⟨hc, hurl, htoken, hn1, hn2, hid⟩, -⟩ := h
  refine ⟨⟨⟨hc.haUrl, hc.haToken, hc.haEntity1, hc.haEntity1Name, hc.haEntity2, hc.haEntity2Name,
    hclear.host, hclear.username, hclear.password, hclear.topic⟩, hurl, htoken, hn1, hn2, hid⟩, ?_⟩
  exact ⟨⟨(toPort (atoi form.port)).2.1, toPort_atoi_le hvalid.port⟩, topic_length hvalid.topic,
    hvalid.username, hvalid.password, hvalid.host⟩

theorem webPortalAutostartSw {c : Config} (h : c.Sound) (checked : Bool) :
    (webPortalAutostartSw checked c).Sound :=
  ⟨h.settled.webPortalAutostartSw checked, h.valid⟩

end Config.Sound

/-! ### Runs -/

/-- What is in the file, and what the panel has in its variables, is sound. -/
structure System.Valid (s : System) : Prop where
  file : ∀ json ∈ s.file, ∃ c : Config, json = configText c ∧ c.Sound
  config : s.process.config.Sound

namespace System.Valid

theorem initial : (System.boot none).Valid := ⟨nofun, .builtin⟩

/-- What a reader of the file gets is sound. -/
theorem loaded {s : System} (h : s.Valid) {g : Config} (hg : g.Sound) :
    (loadConfiguration .ok g s.file).2.Sound := by
  cases hf : s.file with
  | none => exact hg
  | some json =>
    obtain ⟨c, rfl, hc⟩ := h.file json hf
    exact hc.readConfig hg

theorem currentConfig {s : System} (h : s.Valid) : (currentConfig .ok s.file).Sound :=
  h.loaded .builtin

/-- What is stored is valid. -/
theorem stored {s : System} (h : s.Valid) : (Panel.currentConfig .ok s.file).mqtt.Valid := by
  cases hf : s.file with
  | none => exact .builtin
  | some json =>
    obtain ⟨c, rfl, hc⟩ := h.file json hf
    rw [currentConfig_some, hc.settled.readConfig rfl]
    exact hc.valid

theorem save {s : System} {c : Config} (hc : c.Sound) : (s.save c).Valid := by
  refine ⟨?_, hc⟩
  rintro _ ⟨⟩
  exact ⟨c, rfl, hc⟩

end System.Valid

/-- The port of an accepted request is the port of a machine. -/
theorem port_of_ofBody {body : Bytes} {enabled : Bool} {host : Bytes} {port : Port}
    {username password topic : Bytes} {discovery : Bool}
    (h : Update.ofBody body = some (.mqtt enabled host port username password topic discovery)) :
    port.1 ≤ 65535 := by
  unfold Update.ofBody at h
  simp only at h
  split_ifs at h
  · cases h
  · cases h
  · obtain ⟨p, hp, hu⟩ := Option.map_eq_some_iff.mp h
    cases hu
    unfold portOf at hp
    simp only at hp
    split_ifs at hp with _ hrange
    cases hp
    show (strtol _).1.toNat ≤ 65535
    omega
  · cases h

theorem System.Valid.cgi {s : System} (h : s.Valid) {req : CgiRequest}
    (hsound : s.Sound (.cgi req)) : (s.step (.cgi req)).Valid := by
  refine ⟨?_, h.config⟩
  rcases cgiConfigMain_ok req s.file with ⟨u, hu, -, hfile⟩ | ⟨-, -, hfile⟩
  · obtain ⟨hvalid, htrim⟩ := CgiRequest.update_eq_some hu
    rw [System.step, hfile]
    rintro _ ⟨⟩
    refine ⟨_, rfl, h.currentConfig.apply (hsound u hu) hvalid htrim ?_⟩
    rintro enabled host port username password topic discovery rfl
    unfold CgiRequest.update at hu
    split at hu
    · cases hu
    · exact port_of_ofBody (Option.filter_eq_some_iff.mp hu).1
  · rw [System.step, hfile]
    exact h.file

theorem System.Valid.restart {s : System} (h : s.Valid) : (s.step .restart).Valid := by
  cases hf : s.file with
  | none =>
    rw [System.step, hf]
    exact .initial
  | some json =>
    have hload := h.currentConfig
    rw [Panel.currentConfig, hf] at hload
    simp only [System.step, System.boot, startUp, hf]
    split
    · refine ⟨?_, hload⟩
      rintro _ ⟨⟩
      exact h.file json hf
    · refine ⟨?_, .builtin⟩
      intro _ hnone
      cases hnone

theorem System.Valid.step {s : System} (h : s.Valid) {a : Action} (hsound : s.Sound a) :
    (s.step a).Valid := by
  cases a with
  | cgi req => exact h.cgi hsound
  | saveMqtt form => exact .save (h.config.saveMqttBtn hsound.1 hsound.2)
  | saveAutostart checked => exact .save (h.config.webPortalAutostartSw checked)
  | restart => exact h.restart
  | poll =>
    rw [System.step, System.configPollTimer]
    split
    · exact ⟨h.file, h.loaded h.config⟩
    · exact h

/-- **The stored configuration is valid** after every run whose saves are sound. -/
theorem sound_run_keeps_valid (as : List Action)
    (hrun : Along System.step System.Sound (System.boot none) as) :
    (currentConfig .ok (run System.step (System.boot none) as).file).mqtt.Valid := by
  have hvalid : (run System.step (System.boot none) as).Valid :=
    hrun.invariant (fun _ _ h hsound => h.step hsound) .initial
  exact hvalid.stored

/-- After the connection the panel saves its MQTT screen. -/
theorem screen_run_keeps_valid :
    (currentConfig .ok (run System.step (System.boot none)
      [.cgi connectRequest, .restart, .saveMqtt freshForm]).file).mqtt.Valid := by
  refine sound_run_keeps_valid _ ⟨?_, trivial, ⟨?_, ?_⟩, trivial⟩
  · intro u hu
    rw [connectRequest_update] at hu
    cases hu
    decide +kernel
  · refine ⟨?_, ?_, ?_, ?_, ?_⟩ <;> decide +kernel
  · refine ⟨?_, ?_, ?_, ?_⟩ <;> decide +kernel

/-- MQTT switched on without a host, on a port that does not exist. -/
def invalidForm : MqttForm := ⟨true, [], str "70000", [], [], str "panel/tpp01", true⟩

/-- **The MQTT screen saves what `cgi_config_main` rejects.** -/
theorem invalid_form_is_saved :
    ¬ (currentConfig .ok (run System.step (System.boot none)
        [.cgi connectRequest, .restart, .saveMqtt invalidForm]).file).mqtt.Valid := by
  have hrun : Careful Ledger.initial [.cgi connectRequest, .restart, .saveMqtt invalidForm] :=
    careful_connect_restart ⟨⟨by decide +kernel, by simp⟩, trivial⟩
  have hrep := (Consistent.initial.run hrun).file.represents
  rw [List.foldl_cons, Ledger.next_cgi (connectRequest_update _)] at hrep
  unfold run
  generalize (List.foldl System.step (System.boot none) _).file = file at hrep ⊢
  cases hrep with
  | absent hrecord => exact absurd (congrArg (fun c => c.mqtt.enabled) hrecord) (by decide)
  | present hread =>
    rw [currentConfig_some, hread]
    intro hvalid
    exact absurd (hvalid.host rfl) (by decide)

end Panel

end HaPanel
