import HaPanel.Mqtt.Format
import HaPanel.Mqtt.Packet
import HaPanel.Panel.Validity

/-!
# The CONNECT packet

`send_mqtt_connect` sets the flags for user name and password independently of each other, each if
the setting is not empty.  MQTT allows no password without a user name.

* `connect_correct_iff` : the packet is well formed and says what the settings say exactly if there
  is a user name or no password, and all strings have a length that fits.
* `password_alone_breaks_connect` : the web page accepts settings for which the packet is malformed.
-/

namespace HaPanel

namespace Mqtt

open Text Panel

/-! ### The packet -/

/-- A string with its length in front, as `send_mqtt_connect` writes it. -/
def lengthPrefixed (s : Bytes) : Bytes := twoBytes s.length ++ s

/-- The topic of the will. -/
def lwtTopic (config : MqttConfig) : Bytes := config.baseTopic ++ str "/state/status"

def lwtPayload : Bytes := str "offline"

/-- The connect flags. -/
def connectFlags (config : MqttConfig) : UInt8 :=
  let cleanSession : UInt8 := 0x02
  let willQos := (1 : UInt8) <<< (3 : UInt8)
  let flags := cleanSession ||| 0x04 ||| willQos ||| 0x20
  -- the password flag does not depend on the user name
  let flags := if config.username ≠ [] then flags ||| 0x80 else flags
  if config.password ≠ [] then flags ||| 0x40 else flags

def connectVarHeader (config : MqttConfig) : Bytes :=
  [0x00, 0x04] ++ str "MQTT" ++ [0x04, connectFlags config, 0x00, 0x3C]

def connectPayload (config : MqttConfig) : Bytes :=
  lengthPrefixed config.clientId ++ lengthPrefixed (lwtTopic config) ++ lengthPrefixed lwtPayload ++
    (if config.username ≠ [] then lengthPrefixed config.username else []) ++
    (if config.password ≠ [] then lengthPrefixed config.password else [])

/-- The packet `send_mqtt_connect` hands to `send_raw`. -/
def mqttConnectPacket (config : MqttConfig) : Bytes :=
  let remLen := (connectVarHeader config).length + (connectPayload config).length
  0x10 :: (encodeRemainingLength remLen ++ connectVarHeader config ++ connectPayload config)

/-! ### What it should say -/

/-- The bytes are a CONNECT packet with these fields. -/
def IsConnect (bytes : Bytes) (c : Connect) : Prop :=
  ∃ p : Packet, p.bytes = bytes ∧ p.header = 0x10 ∧ readConnect p.body = some c

/-- A setting, if it is not empty. -/
def setting (s : Bytes) : Option Bytes := if s ≠ [] then some s else none

/-- The fields the settings ask for. -/
def connectFields (config : MqttConfig) : Connect where
  cleanSession := true
  keepAlive := 60
  clientId := config.clientId
  will := some ⟨lwtTopic config, lwtPayload, 1, true⟩
  username := setting config.username
  password := setting config.password

/-- The packet is well formed and has the fields the settings ask for. -/
def ConnectCorrect (config : MqttConfig) : Prop :=
  IsConnect (mqttConnectPacket config) (connectFields config)

theorem setting_eq_none_iff {s : Bytes} : setting s = none ↔ s = [] := by
  unfold setting
  split_ifs with h
  · exact iff_of_false (by simp) h
  · exact iff_of_true rfl (not_not.1 h)

/-- The fields are lawful if there is a user name or no password and the lengths fit. -/
theorem lawful_connectFields_iff (config : MqttConfig) :
    (connectFields config).Lawful ↔
      (config.username = [] → config.password = []) ∧
        ∀ s ∈ [config.clientId, lwtTopic config, config.username, config.password],
          s.length ≤ 65535 := by
  have hsetting (s : Bytes) : (∀ x ∈ (setting s).toList, x.length ≤ 65535) ↔ s.length ≤ 65535 := by
    unfold setting
    split_ifs with h
    · simp
    · simp [not_not.1 h]
  have hstrings : (∀ s ∈ (connectFields config).strings, s.length ≤ 65535) ↔
      ∀ s ∈ [config.clientId, lwtTopic config, config.username, config.password],
        s.length ≤ 65535 := by
    have hpayload : lwtPayload.length ≤ 65535 := by decide
    simp only [Connect.strings, connectFields, List.forall_mem_append, hsetting, Option.map_some,
      Option.getD_some, List.forall_mem_cons, List.not_mem_nil, false_imp_iff, implies_true,
      and_true, hpayload, and_assoc]
  constructor
  · rintro ⟨hpass, hlen⟩
    refine ⟨fun h => ?_, hstrings.1 hlen⟩
    exact setting_eq_none_iff.1 (hpass (setting_eq_none_iff.2 h))
  · rintro ⟨hpass, hlen⟩
    refine ⟨fun h => ?_, hstrings.2 hlen⟩
    exact setting_eq_none_iff.2 (hpass (setting_eq_none_iff.1 h))

/-! ### Reading the packet -/

theorem twoBytes_eq_bigEndian (n : ℕ) : twoBytes n = bigEndian 2 n := by
  have hbyte (m : ℕ) : UInt8.ofNat (m &&& 0xFF) = UInt8.ofNat m := by
    apply UInt8.toNat_inj.1
    rw [UInt8.toNat_ofNat', UInt8.toNat_ofNat', show m &&& 0xFF = m % 256 from
      Nat.and_two_pow_sub_one_eq_mod m 8, Nat.mod_mod]
  rw [twoBytes, hbyte, hbyte, Nat.shiftRight_eq_div_pow]
  simp [bigEndian]

theorem readString_lengthPrefixed {s : Bytes} (hs : s.length ≤ 65535) (t : Bytes) :
    readString (lengthPrefixed s ++ t) = some (s, t) := by
  rw [lengthPrefixed, twoBytes_eq_bigEndian, List.append_assoc]
  exact readString_bigEndian hs t

theorem readOptional_setting {s : Bytes} (hs : s.length ≤ 65535) (t : Bytes) :
    readOptional (decide (s ≠ [])) ((if s ≠ [] then lengthPrefixed s else []) ++ t) =
      some (setting s, t) := by
  unfold readOptional setting
  by_cases h : s = []
  · simp [h]
  · simp [h, readString_lengthPrefixed hs]

/-- The flags of lawful settings. -/
theorem readFlags_connectFlags {config : MqttConfig}
    (h : config.username = [] → config.password = []) :
    readFlags (connectFlags config) =
      some ⟨decide (config.username ≠ []), decide (config.password ≠ []), true, 1, true, true⟩ := by
  unfold connectFlags
  by_cases hu : config.username = []
  · simp only [hu, h hu, ne_eq, not_true, if_false]
    decide
  · by_cases hp : config.password = []
    · simp only [hu, hp, ne_eq, not_true, not_false_iff, if_true, if_false]
      decide
    · simp only [hu, hp, ne_eq, not_false_iff, if_true]
      decide

/-- The body of the packet is read as it is meant. -/
theorem readConnect_body {config : MqttConfig} (h : (connectFields config).Lawful) :
    readConnect (connectVarHeader config ++ connectPayload config) = some (connectFields config) := by
  obtain ⟨hpass, hlen⟩ := (lawful_connectFields_iff config).1 h
  simp only [List.forall_mem_cons] at hlen
  obtain ⟨hid, htopic, huser, hpassword, -⟩ := hlen
  have hprotocol : readString (connectVarHeader config ++ connectPayload config) =
      some (str "MQTT", 0x04 :: connectFlags config :: 0x00 :: 0x3C :: connectPayload config) := by
    have hname : connectVarHeader config ++ connectPayload config =
        lengthPrefixed (str "MQTT") ++
          0x04 :: connectFlags config :: 0x00 :: 0x3C :: connectPayload config := by
      have hname : lengthPrefixed (str "MQTT") = [0x00, 0x04] ++ str "MQTT" := by decide
      rw [hname]
      simp [connectVarHeader]
    rw [hname]
    exact readString_lengthPrefixed (by decide) _
  have hpayload := readOptional_setting hpassword []
  rw [List.append_nil] at hpayload
  rw [readConnect, hprotocol]
  simp only [Option.bind_eq_bind, Option.bind_some, true_and, if_true,
    readFlags_connectFlags hpass]
  rw [readPayload, connectPayload]
  simp only [List.append_assoc, Option.bind_eq_bind, readString_lengthPrefixed hid,
    Option.bind_some, readWill, if_true, readString_lengthPrefixed htopic,
    readString_lengthPrefixed (show lwtPayload.length ≤ 65535 by decide), Option.pure_def,
    readOptional_setting huser, hpayload]
  simp [connectFields, ofBigEndian]

/-- The lawful packets are not too long for their length field. -/
theorem length_connect_lt {config : MqttConfig} (h : (connectFields config).Lawful) :
    (connectVarHeader config ++ connectPayload config).length < 128 ^ 4 := by
  obtain ⟨-, hlen⟩ := (lawful_connectFields_iff config).1 h
  simp only [List.forall_mem_cons] at hlen
  obtain ⟨hid, htopic, huser, hpassword, -⟩ := hlen
  have hprefixed (s : Bytes) : (lengthPrefixed s).length = 2 + s.length := by
    rw [lengthPrefixed, List.length_append, length_twoBytes]
  have hoptional (s : Bytes) : (if s ≠ [] then lengthPrefixed s else []).length ≤ 2 + s.length := by
    split_ifs
    · rw [hprefixed]
    · exact Nat.zero_le _
  have hheader : (connectVarHeader config).length = 10 := rfl
  have hwill : lwtPayload.length = 7 := by decide
  have hu := hoptional config.username
  have hp := hoptional config.password
  rw [List.length_append, hheader, connectPayload, List.length_append, List.length_append,
    List.length_append, List.length_append, hprefixed, hprefixed, hprefixed, hwill]
  omega

/-- The packet is right if and only if the fields may be sent at all. -/
theorem connectCorrect_iff_lawful (config : MqttConfig) :
    ConnectCorrect config ↔ (connectFields config).Lawful := by
  constructor
  · rintro ⟨p, -, -, hread⟩
    exact readConnect_lawful hread
  · intro h
    refine ⟨⟨0x10, varint (connectVarHeader config ++ connectPayload config).length,
      connectVarHeader config ++ connectPayload config, isVarint_varint _,
      length_varint_le (length_connect_lt h), ofVarint_varint _⟩, ?_, rfl, readConnect_body h⟩
    simp [Packet.bytes, mqttConnectPacket, encodeRemainingLength_eq_varint]

/-- **When the CONNECT packet is right**: there is a user name or no password, and every string fits
its length. -/
theorem connect_correct_iff (config : MqttConfig) :
    ConnectCorrect config ↔
      (config.username = [] → config.password = []) ∧
        ∀ s ∈ [config.clientId, config.baseTopic ++ str "/state/status", config.username,
          config.password], s.length ≤ 65535 := by
  rw [connectCorrect_iff_lawful, lawful_connectFields_iff]
  rfl

/-- The lengths that `cgi_config_main` accepts fit, so that for its settings only the password
without a user name remains. -/
theorem connectCorrect_iff_of_valid {config : MqttConfig} (h : config.Valid)
    (hid : config.clientId.length ≤ 65535) :
    ConnectCorrect config ↔ (config.username = [] → config.password = []) := by
  have htopic := h.baseTopic.2
  have huser := h.username
  have hpass := h.password
  have hstatus : (str "/state/status").length = 13 := by decide
  have hlen : ∀ s ∈ [config.clientId, lwtTopic config, config.username, config.password],
      s.length ≤ 65535 := by
    simp only [List.forall_mem_cons, List.not_mem_nil, false_imp_iff, implies_true, and_true,
      lwtTopic, List.length_append, hstatus]
    omega
  rw [connectCorrect_iff_lawful, lawful_connectFields_iff]
  exact and_iff_left hlen

/-- A form with a password and no user name. -/
def passwordBody : Bytes :=
  str "section=mqtt&mqtt_enabled=1&mqtt_host=broker&mqtt_port=1883&mqtt_user=" ++
    str "&mqtt_pass=secret&mqtt_topic=panel&mqtt_discovery=1"

/-- What `cgi_config_main` saves for the form. -/
def passwordConfig : Config :=
  { Config.builtin with
    mqtt :=
      { enabled := true
        host := str "broker"
        password := str "secret"
        baseTopic := str "panel" } }

/-- **A password without a user name** is accepted, and the packet has the flag for the one and not
for the other. -/
theorem password_alone_breaks_connect :
    readBody (.post passwordBody) = .ok passwordBody ∧
      (applyBody passwordBody Config.builtin).toOption = some passwordConfig ∧
      connectFlags passwordConfig.mqtt &&& 0xC0 = 0x40 ∧
      ¬ ConnectCorrect passwordConfig.mqtt := by
  refine ⟨readBody_post (by decide) ?_, ?_, by decide, ?_⟩
  · rw [passwordBody, str_ofList, str_ofList]
    decide +kernel
  · rw [passwordBody, str_ofList, str_ofList]
    decide +kernel
  · intro h
    have hlawful := (connectCorrect_iff_lawful _).1 h
    exact absurd (((lawful_connectFields_iff _).1 hlawful).1 rfl) (by decide)

end Mqtt

end HaPanel
