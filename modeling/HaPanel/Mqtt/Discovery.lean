import HaPanel.Assist.Child
import HaPanel.Text.JsonText
import HaPanel.WebSocket.Dispatch

/-!
# Outgoing JSON

The payloads of `publish_ha_discovery`, and the two messages that carry the access token.  All of
them are put together from pieces, with the base topic or the token between quotation marks as it
is.  What they are meant to say is `OutMessage.intended`.

`outgoing_correct_iff` : a message is right exactly if the setting in it is clean UTF-8 and it is not
the announcement of the signal strength, whose topic the panel never publishes.  `cgi_config_main`
does not look at the characters of either setting (`quoted_topic_breaks_discovery`).
-/

namespace HaPanel

namespace Mqtt

open Text Panel

/-! ### Discovery -/

/-- The base topic after `MqttClient::configure`. -/
def configuredTopic (config : MqttConfig) : Bytes :=
  if config.baseTopic.isEmpty then str "panel/tpp01" else config.baseTopic

/-- The components of `publish_ha_discovery`. -/
inductive Component where
  | screenLight
  | wifiRssi
  | ipAddress
  | rebootButton
  deriving DecidableEq

namespace Component

/-- `disc_topic` -/
def discTopic : Component → Bytes
  | screenLight => str "homeassistant/light/tpp01_screen/config"
  | wifiRssi => str "homeassistant/sensor/tpp01_wifi_rssi/config"
  | ipAddress => str "homeassistant/sensor/tpp01_ip/config"
  | rebootButton => str "homeassistant/button/tpp01_reboot/config"

/-- What is written to `ss`, piece by piece. -/
def pieces (baseTopic : Bytes) : Component → List Bytes
  | screenLight => [
    str "\x7b",
    str "\"name\":\"Screen\",",
    str "\"unique_id\":\"tpp01_screen_light\",",
    str "\"cmd_t\":\"", baseTopic, str "/cmd/screen\",",
    str "\"stat_t\":\"", baseTopic, str "/state/screen\",",
    str "\"bri_cmd_t\":\"", baseTopic, str "/cmd/brightness\",",
    str "\"bri_stat_t\":\"", baseTopic, str "/state/brightness\",",
    str "\"bri_scl\":255,",
    str "\"payload_on\":\"ON\",",
    str "\"payload_off\":\"OFF\",",
    str "\"availability_topic\":\"", baseTopic, str "/state/status\",",
    str "\"device\":\x7b",
    str "\"identifiers\":[\"tpp01_panel\"],",
    str "\"name\":\"TPP01 Touch Panel\",",
    str "\"model\":\"MOES TPP01-Z\",",
    str "\"manufacturer\":\"Tuya / MOES\"",
    str "\x7d",
    str "\x7d"]
  | wifiRssi => [
    str "\x7b",
    str "\"name\":\"Wi-Fi Signal\",",
    str "\"unique_id\":\"tpp01_wifi_rssi\",",
    str "\"stat_t\":\"", baseTopic, str "/state/wifi_rssi\",",
    str "\"unit_of_meas\":\"dBm\",",
    str "\"device_class\":\"signal_strength\",",
    str "\"availability_topic\":\"", baseTopic, str "/state/status\",",
    str "\"device\":\x7b\"identifiers\":[\"tpp01_panel\"]\x7d",
    str "\x7d"]
  | ipAddress => [
    str "\x7b",
    str "\"name\":\"IP Address\",",
    str "\"unique_id\":\"tpp01_ip\",",
    str "\"stat_t\":\"", baseTopic, str "/state/ip\",",
    str "\"icon\":\"mdi:ip-network\",",
    str "\"availability_topic\":\"", baseTopic, str "/state/status\",",
    str "\"device\":\x7b\"identifiers\":[\"tpp01_panel\"]\x7d",
    str "\x7d"]
  | rebootButton => [
    str "\x7b",
    str "\"name\":\"Reboot Panel\",",
    str "\"unique_id\":\"tpp01_reboot\",",
    str "\"cmd_t\":\"", baseTopic, str "/cmd/reboot\",",
    str "\"payload_press\":\"PRESS\",",
    str "\"device_class\":\"restart\",",
    str "\"availability_topic\":\"", baseTopic, str "/state/status\",",
    str "\"device\":\x7b\"identifiers\":[\"tpp01_panel\"]\x7d",
    str "\x7d"]

/-- `ss.str()` -/
def payload (baseTopic : Bytes) (c : Component) : Bytes := (c.pieces baseTopic).flatten

end Component

/-- The topics and payloads of `publish_ha_discovery`. -/
def publishHaDiscovery (config : MqttConfig) : List (Bytes × Bytes) :=
  if !config.discovery then []
  else [Component.screenLight, .wifiRssi, .ipAddress, .rebootButton].map fun c =>
    (c.discTopic, c.payload (configuredTopic config))

/-! ### Topics -/

/-- The subtopics of `publish_state`: `status` for a new connection, the others in
`mqtt_telemetry_timer_cb`. -/
def publishedStates : List Bytes :=
  [str "status", str "screen", str "brightness", str "ip", str "ha_connected"]

/-- The client publishes the topic with this ending, or subscribes to it with `/cmd/#`. -/
def InUse (suffix : Bytes) : Prop :=
  suffix ∈ publishedStates.map (str "/state/" ++ ·) ∨ str "/cmd/" <+: suffix

instance : DecidablePred InUse := fun _ => inferInstanceAs (Decidable (_ ∨ _))

/-- The members that name a topic. -/
def topicKeys : List Bytes :=
  [str "cmd_t", str "stat_t", str "bri_cmd_t", str "bri_stat_t", str "availability_topic"]

/-- If the member names a topic, this is the base topic with an ending that is in use. -/
def TopicInUse (baseTopic : Bytes) (p : Bytes × Json.Value) : Prop :=
  p.1 ∈ topicKeys → ∃ suffix, InUse suffix ∧ p.2 = .string (baseTopic ++ suffix)

/-! ### What is meant -/

/-- A member with a string. -/
def textMember (key : String) (value : Bytes) : Bytes × Json.Value := (str key, .string value)

theorem isNumeral_255 : Json.IsNumeral (str "255") :=
  @Json.IsNumeral.mk [] (str "255") [] [] (.inl rfl) ⟨by decide, forall_mem_of_all (by decide)⟩
    (by decide) (.inl rfl) (.inl rfl)

/-- The members of `device` that every payload has. -/
def identifiers : Bytes × Json.Value :=
  (str "identifiers", .array [.string (str "tpp01_panel")])

/-- The members that a payload is meant to have. -/
def Component.members (baseTopic : Bytes) : Component → List (Bytes × Json.Value)
  | screenLight => [
    textMember "name" (str "Screen"),
    textMember "unique_id" (str "tpp01_screen_light"),
    textMember "cmd_t" (baseTopic ++ str "/cmd/screen"),
    textMember "stat_t" (baseTopic ++ str "/state/screen"),
    textMember "bri_cmd_t" (baseTopic ++ str "/cmd/brightness"),
    textMember "bri_stat_t" (baseTopic ++ str "/state/brightness"),
    (str "bri_scl", .number ⟨str "255", isNumeral_255⟩),
    textMember "payload_on" (str "ON"),
    textMember "payload_off" (str "OFF"),
    textMember "availability_topic" (baseTopic ++ str "/state/status"),
    (str "device", .object [
      identifiers,
      textMember "name" (str "TPP01 Touch Panel"),
      textMember "model" (str "MOES TPP01-Z"),
      textMember "manufacturer" (str "Tuya / MOES")])]
  | wifiRssi => [
    textMember "name" (str "Wi-Fi Signal"),
    textMember "unique_id" (str "tpp01_wifi_rssi"),
    textMember "stat_t" (baseTopic ++ str "/state/wifi_rssi"),
    textMember "unit_of_meas" (str "dBm"),
    textMember "device_class" (str "signal_strength"),
    textMember "availability_topic" (baseTopic ++ str "/state/status"),
    (str "device", .object [identifiers])]
  | ipAddress => [
    textMember "name" (str "IP Address"),
    textMember "unique_id" (str "tpp01_ip"),
    textMember "stat_t" (baseTopic ++ str "/state/ip"),
    textMember "icon" (str "mdi:ip-network"),
    textMember "availability_topic" (baseTopic ++ str "/state/status"),
    (str "device", .object [identifiers])]
  | rebootButton => [
    textMember "name" (str "Reboot Panel"),
    textMember "unique_id" (str "tpp01_reboot"),
    textMember "cmd_t" (baseTopic ++ str "/cmd/reboot"),
    textMember "payload_press" (str "PRESS"),
    textMember "device_class" (str "restart"),
    textMember "availability_topic" (baseTopic ++ str "/state/status"),
    (str "device", .object [identifiers])]

/-- The messages with a setting in them. -/
inductive OutMessage where
  | discovery (c : Component)
  /-- The answer of `ws_thread_loop` to `auth_required`. -/
  | panelAuth
  /-- The answer of `assist_pipeline_child_main`. -/
  | assistAuth
  deriving DecidableEq

namespace OutMessage

variable (config : Config)

def text : OutMessage → Bytes
  | discovery c => c.payload (configuredTopic config.mqtt)
  | panelAuth => WebSocket.authMessage config.haToken
  | assistAuth => Assist.Child.authMessage config.haToken

/-- The setting in the message. -/
def setting : OutMessage → Bytes
  | discovery _ => configuredTopic config.mqtt
  | panelAuth | assistAuth => config.haToken

def members : OutMessage → List (Bytes × Json.Value)
  | discovery c => c.members (configuredTopic config.mqtt)
  | panelAuth | assistAuth =>
    [textMember "type" (str "auth"), textMember "access_token" config.haToken]

def intended (m : OutMessage) : Json.Value := .object (m.members config)

/-- The message is a JSON text, what it denotes is what is meant, and its topics are in use. -/
structure Correct (m : OutMessage) : Prop where
  decode : Json.decode (m.text config) = some (m.intended config)
  topics : ∀ p ∈ m.members config, TopicInUse (configuredTopic config.mqtt) p

/-- The payloads of `publish_ha_discovery` are the messages about components. -/
theorem mem_publishHaDiscovery_iff (topic payload : Bytes) :
    (topic, payload) ∈ publishHaDiscovery config.mqtt ↔ config.mqtt.discovery = true ∧
      ∃ c : Component, topic = c.discTopic ∧ payload = (discovery c).text config := by
  unfold publishHaDiscovery
  cases config.mqtt.discovery with
  | false => simp
  | true =>
    simp only [Bool.not_true, Bool.false_eq_true, ↓reduceIte, List.mem_map, Prod.mk.injEq,
      true_and]
    constructor
    · rintro ⟨c, -, rfl, rfl⟩
      exact ⟨c, rfl, rfl⟩
    · rintro ⟨c, rfl, rfl⟩
      exact ⟨c, by cases c <;> decide, rfl, rfl⟩

theorem str_append_str (a b : String) : str a ++ str b = str (a ++ b) := by
  simp [str]

/-- A line with a fixed string. -/
theorem line_str (key value : String) :
    Json.renderMember (textMember key (str value)) ++ str "," =
      str ("\"" ++ key ++ "\":\"" ++ value ++ "\",") := by
  have hcolon : str "\":\"" = str "\"" ++ (str ":" ++ str "\"") := by decide
  have hcomma : str "\"," = str "\"" ++ str "," := by decide
  simp [Json.renderMember, textMember, Json.Value.render_string, ← str_append_str, hcolon, hcomma]

/-- A line with a topic. -/
theorem line_topic (key suffix : String) (baseTopic : Bytes) :
    Json.renderMember (textMember key (baseTopic ++ str suffix)) ++ str "," =
      str ("\"" ++ key ++ "\":\"") ++ (baseTopic ++ str (suffix ++ "\",")) := by
  have hcolon : str "\":\"" = str "\"" ++ (str ":" ++ str "\"") := by decide
  have hcomma : str "\"," = str "\"" ++ str "," := by decide
  simp [Json.renderMember, textMember, Json.Value.render_string, ← str_append_str, hcolon, hcomma]

/-- The last line of the short payloads. -/
theorem line_device : Json.renderMember (str "device", .object [identifiers]) =
    str "\"device\":\x7b\"identifiers\":[\"tpp01_panel\"]\x7d" := by
  simp only [Json.renderMember, identifiers, Json.Value.render_object, Json.Value.render_string,
    Json.Value.render_array, List.map_cons, List.map_nil, Json.withCommas, List.flatten_singleton,
    str_append_str, String.reduceAppend]

/-- The last lines of the payload for the screen. -/
theorem lines_screenDevice :
    Json.renderMember (str "device", .object [identifiers,
      textMember "name" (str "TPP01 Touch Panel"), textMember "model" (str "MOES TPP01-Z"),
      textMember "manufacturer" (str "Tuya / MOES")]) =
    str "\"device\":\x7b" ++ (str "\"identifiers\":[\"tpp01_panel\"]," ++
      (str "\"name\":\"TPP01 Touch Panel\"," ++ (str "\"model\":\"MOES TPP01-Z\"," ++
        (str "\"manufacturer\":\"Tuya / MOES\"" ++ str "\x7d")))) := by
  have hfirst : Json.renderMember identifiers ++ str "," =
      str "\"identifiers\":[\"tpp01_panel\"]," := by
    simp only [Json.renderMember, identifiers, Json.Value.render_string, Json.Value.render_array,
      List.map_cons, List.map_nil, Json.withCommas, List.flatten_singleton, str_append_str,
      String.reduceAppend]
  have hlast : Json.renderMember (textMember "manufacturer" (str "Tuya / MOES")) =
      str "\"manufacturer\":\"Tuya / MOES\"" := by
    simp only [Json.renderMember, textMember, Json.Value.render_string, str_append_str,
      String.reduceAppend]
  have hopen : str "\"device\":\x7b" = str "\"" ++ (str "device" ++ str "\"") ++
      (str ":" ++ str "\x7b") := by
    simp only [str_append_str, String.reduceAppend]
  rw [Json.renderMember, Json.Value.render_object, Json.Value.render_string]
  simp only [List.map_cons, List.map_nil, Json.withCommas, line_str, hfirst, hlast, hopen,
    String.reduceAppend, List.flatten_cons, List.flatten_nil, List.append_nil, List.append_assoc]

/-- The message is the text of what is meant, without escapes. -/
theorem text_eq_render (m : OutMessage) : m.text config = (m.intended config).render := by
  rw [intended, Json.Value.render_object]
  -- line by line both sides become the same pieces
  cases m with
  | discovery c =>
    rw [text, Component.payload, members]
    cases c with
    | screenLight =>
      have hscale : Json.renderMember (str "bri_scl", .number ⟨str "255", isNumeral_255⟩) ++
          str "," = str "\"bri_scl\":255," := by
        simp only [Json.renderMember, Json.Value.render_string, Json.Value.render_number,
          str_append_str, String.reduceAppend]
      simp only [Component.members, List.map_cons, List.map_nil, Json.withCommas, line_str,
        line_topic, hscale, lines_screenDevice, String.reduceAppend]
      simp only [Component.pieces, List.flatten_cons, List.flatten_nil, List.append_nil,
        List.append_assoc]
    | wifiRssi | ipAddress | rebootButton =>
      simp only [Component.members, List.map_cons, List.map_nil, Json.withCommas, line_str,
        line_topic, line_device, String.reduceAppend]
      simp only [Component.pieces, List.flatten_cons, List.flatten_nil, List.append_nil,
        List.append_assoc]
  | panelAuth | assistAuth =>
    have htoken : Json.renderMember (textMember "access_token" config.haToken) =
        str "\"access_token\":\"" ++ (config.haToken ++ str "\"") := by
      have hkey : str "\"access_token\":\"" =
          str "\"" ++ (str "access_token" ++ str "\"") ++ (str ":" ++ str "\"") := by
        simp only [str_append_str, String.reduceAppend]
      simp only [Json.renderMember, textMember, Json.Value.render_string, hkey, List.append_assoc]
    have hopen : str "\x7b\"type\":\"auth\",\"access_token\":\"" =
        str "\x7b" ++ (str "\"type\":\"auth\"," ++ str "\"access_token\":\"") := by
      simp only [str_append_str, String.reduceAppend]
    have hclose : str "\"\x7d" = str "\"" ++ str "\x7d" := by decide
    simp only [text, WebSocket.authMessage, Assist.Child.authMessage, members, List.map_cons,
      List.map_nil, Json.withCommas, line_str, htoken, hopen, hclose, String.reduceAppend,
      List.flatten_cons, List.flatten_nil, List.append_nil, List.append_assoc]

theorem verbatim_topic {baseTopic : Bytes} {s : String} (hclean : Json.Clean (str s))
    (hslash : (str s).head? = some (byte '/')) :
    Json.Verbatim (baseTopic ++ str s) ↔ Json.Verbatim baseTopic :=
  Json.verbatim_append_iff (Json.verbatim_str hclean) hslash (by decide)

/-- The strings of the message can stand there as they are exactly if the setting can. -/
theorem strings_verbatim_iff (m : OutMessage) :
    (∀ t, .string t ∈ (m.intended config).lexemes → Json.Verbatim t) ↔
      Json.Verbatim (m.setting config) := by
  cases m with
  | discovery c =>
    cases c <;>
      simp (disch := (rw [str_ofList]; decide)) only [intended, members, Component.members, textMember, identifiers,
        setting, Json.Value.lexemes, Json.memberLexemes, Json.elementLexemes, Json.separator,
        ↓reduceIte, Bool.false_eq_true, List.cons_append, List.nil_append, List.mem_cons,
        List.not_mem_nil, reduceCtorEq, Json.Lexeme.string.injEq, false_or, or_false,
        forall_eq_or_imp, forall_eq, Json.verbatim_str, verbatim_topic, true_and, and_true, and_self]
  | panelAuth | assistAuth =>
    simp (disch := (rw [str_ofList]; decide)) only [intended, members, textMember, setting, Json.Value.lexemes,
      Json.memberLexemes, Json.separator, ↓reduceIte, Bool.false_eq_true, List.cons_append,
      List.nil_append, List.mem_cons, List.not_mem_nil, reduceCtorEq, Json.Lexeme.string.injEq,
      false_or, or_false, forall_eq_or_imp, forall_eq, Json.verbatim_str, true_and]

theorem decode_text_iff (m : OutMessage) :
    Json.decode (m.text config) = some (m.intended config) ↔ Json.Verbatim (m.setting config) := by
  rw [Json.decode_eq_some_iff, text_eq_render, Json.denotes_render_iff, strings_verbatim_iff]

theorem topicInUse_of_notMem {baseTopic : Bytes} {p : Bytes × Json.Value} (h : p.1 ∉ topicKeys) :
    TopicInUse baseTopic p :=
  fun hp => absurd hp h

theorem topicInUse_textMember {baseTopic : Bytes} {key suffix : String} (h : InUse (str suffix)) :
    TopicInUse baseTopic (textMember key (baseTopic ++ str suffix)) :=
  fun _ => ⟨str suffix, h, rfl⟩

/-- Only the topic of the signal strength is not in use. -/
theorem topicsInUse_iff (m : OutMessage) :
    (∀ p ∈ m.members config, TopicInUse (configuredTopic config.mqtt) p) ↔
      m ≠ .discovery .wifiRssi := by
  constructor
  · rintro h rfl
    obtain ⟨suffix, huse, heq⟩ := h
      (textMember "stat_t" (configuredTopic config.mqtt ++ str "/state/wifi_rssi"))
      (by simp [members, Component.members]) (show str "stat_t" ∈ topicKeys by decide)
    rw [← List.append_cancel_left (Json.Value.string.inj heq)] at huse
    exact absurd huse (by decide)
  · intro hm
    cases m with
    | discovery c =>
      cases c with
      | wifiRssi => exact absurd rfl hm
      | screenLight | ipAddress | rebootButton =>
        simp (disch := decide) only [members, Component.members, List.forall_mem_cons,
          topicInUse_textMember, topicInUse_of_notMem, List.not_mem_nil, false_imp_iff,
          implies_true, and_self]
    | panelAuth | assistAuth =>
      intro p hp
      refine topicInUse_of_notMem ?_
      rcases List.mem_pair.1 hp with rfl | rfl
      · exact show str "type" ∉ topicKeys by decide
      · exact show str "access_token" ∉ topicKeys by decide

/-- **A message is correct** exactly if the setting in it can stand there as it is, and it is not the
announcement of the signal strength. -/
theorem outgoing_correct_iff (m : OutMessage) :
    m.Correct config ↔ m ≠ .discovery .wifiRssi ∧ Json.Verbatim (m.setting config) := by
  constructor
  · rintro ⟨hdecode, htopics⟩
    exact ⟨(topicsInUse_iff config m).1 htopics, (decode_text_iff config m).1 hdecode⟩
  · rintro ⟨hm, hsetting⟩
    exact ⟨(decode_text_iff config m).2 hsetting, (topicsInUse_iff config m).2 hm⟩

/-- A form with a quotation mark in the base topic. -/
def quotedBody : Bytes :=
  str "section=mqtt&mqtt_enabled=1&mqtt_host=broker&mqtt_port=1883" ++
    str "&mqtt_topic=dom%22salon&mqtt_discovery=1"

/-- What `cgi_config_main` saves for the form. -/
def quotedConfig : Config :=
  { Config.builtin with
    mqtt := { enabled := true, host := str "broker", baseTopic := str "dom\"salon" } }

/-- **A quotation mark in the base topic** is accepted, and the announcement of the screen is broken.
The announcement of the signal strength is wrong also with the topic the panel starts with. -/
theorem quoted_topic_breaks_discovery :
    readBody (.post quotedBody) = .ok quotedBody ∧
      (applyBody quotedBody Config.builtin).toOption = some quotedConfig ∧
      ¬ (discovery .screenLight).Correct quotedConfig ∧
      ¬ (discovery .wifiRssi).Correct Config.builtin := by
  refine ⟨readBody_post (by decide) ?_, ?_, ?_, ?_⟩
  · rw [quotedBody, str_ofList, str_ofList]
    decide +kernel
  · rw [quotedBody, str_ofList, str_ofList]
    decide +kernel
  · intro h
    have hclean := ((decode_text_iff _ _).1 h.decode).1
    exact absurd hclean (by decide)
  · intro h
    exact (topicsInUse_iff _ _).1 h.topics rfl

end OutMessage

end Mqtt

end HaPanel
