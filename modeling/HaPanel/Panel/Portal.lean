import HaPanel.Panel.Form
import HaPanel.Panel.Status
import HaPanel.Text.FlatJson
import HaPanel.Text.JsonString

/-!
# The settings page

The page shows the status in its inputs, compares them with the values it captured, and sends a
section of them as a form.  This file models the page, and follows a value around: from the record
through the JSON text of the status into an input, and from there through the form back into the
record.

* `denotes_status`, `Kept.populate_eq` : the status is a JSON text of the record, and loading it
  shows the record.
* `cgiConfigMain_post` : a request of the page stores its update or changes nothing.
* `Kept.apply` : what is stored is a record of the same kind.
* `means_apply`, `apply_eq_self` : afterwards the record is what the inputs of the section mean, and
  the other sections are as they were.

Two things are left to the browser: how a script turns a number into a text (`NumberText`), and that
an input holds a line of text.
-/

namespace HaPanel

namespace Panel

open Text Json

namespace Portal

/-! ### Values of the page -/

/-- How a script turns a number into a text; whole numbers become their decimal numerals. -/
structure NumberText where
  text : Numeral → Bytes
  natNumeral : ∀ n < 2 ^ 53, text (natNumeral n) = decimal n

/-- `data.KEY`: of several members with one name, the last one counts. -/
def member (key : Bytes) : Json.Value → Option Json.Value
  | .object ms => ms.reverse.lookup key
  | _ => none

/-- The member is neither absent nor `false`. -/
def notFalse : Option Json.Value → Bool
  | some (.bool b) => b
  | _ => true

variable (js : NumberText)

def truthy : Option Json.Value → Bool
  | none | some .null => false
  | some (.bool b) => b
  | some (.number n) => js.text n ≠ str "0"
  | some (.string t) => !t.isEmpty
  | some (.array _) | some (.object _) => true

mutual
/-- `String(value)` -/
def toText : Json.Value → Bytes
  | .null => str "null"
  | .bool b => boolLit b
  | .number n => js.text n
  | .string t => t
  | .array vs => [byte ','].intercalate (elementTexts vs)
  | .object _ => str "[object Object]"
/-- The texts of the elements of an array, in which `null` is empty. -/
def elementTexts : List Json.Value → List Bytes
  | [] => []
  | .null :: vs => [] :: elementTexts vs
  | v :: vs => toText v :: elementTexts vs
end

/-- `value || fallback`, as a text. -/
def orText (value : Option Json.Value) (fallback : Bytes) : Bytes :=
  match value with
  | some v => if truthy js (some v) then toText js v else fallback
  | none => fallback

/-- What an input holds when a text is assigned to it: a line of text. -/
def inputText (s : Bytes) : Bytes := s.filter fun c => !(c == 10 || c == 13)

/-! ### The page -/

/-- The parts of the configuration that are saved together. -/
inductive Section where
  | homeAssistant
  | mqtt
  | system
  deriving DecidableEq

/-- What the inputs of the forms hold. -/
structure Inputs where
  haUrl : Bytes
  haToken : Bytes
  entity1 : Bytes
  name1 : Bytes
  entity2 : Bytes
  name2 : Bytes
  mqttEnabled : Bool
  mqttHost : Bytes
  mqttPort : Bytes
  mqttUser : Bytes
  mqttPass : Bytes
  mqttTopic : Bytes
  mqttDiscovery : Bool
  haAutostart : Bool
  webAutostart : Bool
  deriving DecidableEq, Inhabited

/-- The value of an input. -/
inductive InputValue where
  | text (value : Bytes)
  | checked (value : Bool)
  deriving DecidableEq

namespace Inputs

def sectionInputs (i : Inputs) : Section → List InputValue
  | .homeAssistant => [.text i.haUrl, .text i.haToken, .text i.entity1, .text i.name1,
      .text i.entity2, .text i.name2]
  | .mqtt => [.checked i.mqttEnabled, .text i.mqttHost, .text i.mqttPort, .text i.mqttUser,
      .text i.mqttPass, .text i.mqttTopic, .checked i.mqttDiscovery]
  | .system => [.checked i.haAutostart, .checked i.webAutostart]

/-- The inputs with those of one section from `j`. -/
def withSection (i : Inputs) (j : Inputs) : Section → Inputs
  | .homeAssistant => { i with
      haUrl := j.haUrl, haToken := j.haToken, entity1 := j.entity1, name1 := j.name1,
      entity2 := j.entity2, name2 := j.name2 }
  | .mqtt => { i with
      mqttEnabled := j.mqttEnabled, mqttHost := j.mqttHost, mqttPort := j.mqttPort,
      mqttUser := j.mqttUser, mqttPass := j.mqttPass, mqttTopic := j.mqttTopic,
      mqttDiscovery := j.mqttDiscovery }
  | .system => { i with haAutostart := j.haAutostart, webAutostart := j.webAutostart }

/-- The password input of the section is emptied. -/
def clearPassword (i : Inputs) : Section → Inputs
  | .homeAssistant => { i with haToken := [] }
  | .mqtt => { i with mqttPass := [] }
  | .system => i

/-- `sectionRequest` -/
def sectionRequest (i : Inputs) : Section → List (Bytes × Bytes)
  | .homeAssistant =>
    [(str "section", str "ha"), (str "ha_url", i.haUrl), (str "ha_token", i.haToken),
      (str "entity_1", i.entity1), (str "entity_1_name", i.name1), (str "entity_2", i.entity2),
      (str "entity_2_name", i.name2)]
  | .mqtt =>
    [(str "section", str "mqtt"), (str "mqtt_enabled", boolLit i.mqttEnabled),
      (str "mqtt_host", i.mqttHost), (str "mqtt_port", i.mqttPort), (str "mqtt_user", i.mqttUser),
      (str "mqtt_pass", i.mqttPass), (str "mqtt_topic", i.mqttTopic),
      (str "mqtt_discovery", boolLit i.mqttDiscovery)]
  | .system =>
    [(str "section", str "system"), (str "web_autostart", boolLit i.webAutostart),
      (str "ha_autostart", boolLit i.haAutostart)]

/-- The texts that the status shows and a request sends. -/
def lines (i : Inputs) : List Bytes :=
  [i.haUrl, i.entity1, i.name1, i.entity2, i.name2, i.mqttHost, i.mqttUser, i.mqttTopic]

/-- The texts as they are stored. -/
def submitted (i : Inputs) : List Bytes :=
  [trimCopy i.haUrl, trimCopy i.haToken, trimCopy i.entity1, trimCopy i.name1, trimCopy i.entity2,
    trimCopy i.name2, trimCopy i.mqttHost, i.mqttUser, i.mqttPass, trimCopy i.mqttTopic]

/-- The inputs that `populateStatus` sets; the password inputs are left alone. -/
def populate (i : Inputs) (data : Json.Value) : Inputs :=
  { i with
    haUrl := inputText (orText js (member (str "ha_url") data) [])
    entity1 := inputText (orText js (member (str "entity_1") data) [])
    name1 := inputText (orText js (member (str "entity_1_name") data) [])
    entity2 := inputText (orText js (member (str "entity_2") data) [])
    name2 := inputText (orText js (member (str "entity_2_name") data) [])
    mqttEnabled := truthy js (member (str "mqtt_enabled") data)
    mqttHost := inputText (orText js (member (str "mqtt_host") data) [])
    mqttPort := inputText (orText js (member (str "mqtt_port") data) (str "1883"))
    mqttUser := inputText (orText js (member (str "mqtt_user") data) [])
    mqttTopic := inputText (orText js (member (str "mqtt_topic") data) (str "panel/tpp01"))
    mqttDiscovery := notFalse (member (str "mqtt_discovery") data)
    webAutostart := notFalse (member (str "web_autostart") data)
    haAutostart := truthy js (member (str "ha_autostart") data) }

end Inputs

/-- The page. -/
structure Page where
  inputs : Inputs
  /-- The values that the inputs had when they were captured. -/
  original : Inputs
  /-- `currentSectionKey`; the save bar is visible if there is one. -/
  currentSection : Option Section
  deriving DecidableEq

namespace Page

variable (p : Page)

/-- Some input of the section differs from its captured value. -/
def sectionIsDirty (k : Section) : Bool :=
  p.inputs.sectionInputs k ≠ p.original.sectionInputs k

def updateDirtyState (preferredSection : Option Section) : Page :=
  { p with
    currentSection :=
      (preferredSection.filter p.sectionIsDirty).or
        ([Section.homeAssistant, .mqtt, .system].find? p.sectionIsDirty) }

/-- The inputs of a section are changed. -/
def changed (k : Section) (i : Inputs) : Page :=
  { p with inputs := p.inputs.withSection i k }.updateDirtyState (some k)

def discard : Page := { p with inputs := p.original }.updateDirtyState none

/-- What `saveCurrentSection` does when the section has been saved. -/
def saved (k : Section) : Page :=
  let i := p.inputs.clearPassword k
  { p with inputs := i, original := p.original.withSection i k }.updateDirtyState none

def populateStatus (data : Json.Value) : Page :=
  let i := p.inputs.populate js data
  { p with inputs := i, original := i }.updateDirtyState none

end Page

/-! ### Requests and responses -/

/-- The body of the response that a CGI process prints. -/
def responseBody (output : Bytes) : Bytes := ((find (str "\r\n\r\n") output).getD []).drop 4

def post (ps : List (Bytes × Bytes)) : CgiRequest := .post (formEncode ps)

/-- The response says that the request was carried out: `response.ok && result.ok`, where `result`
is its body if that is a JSON text. -/
noncomputable def succeeded (response : CgiResponse) : Bool :=
  200 ≤ response.status && response.status ≤ 299 &&
    truthy js ((decode (responseBody (cgiJsonResponse response))).bind (member (str "ok")))

/-- The inputs hold lines of text, and what is stored of them does not look like a key of the
configuration file. -/
structure Inputs.Typed (i : Inputs) : Prop where
  lines : ∀ v ∈ i.lines, IsUtf8 v ∧ inputText v = v
  clear : ∀ v ∈ i.submitted, ∀ key ∈ configKeys, ¬ LooksLike v key

/-! ### The status as JSON -/

theorem chars_short {e c : UInt8} (he : Json.shortEscape e = some c) {raw t : Bytes}
    (h : Chars raw t) : Chars ([byte '\\', e] ++ raw) (c :: t) :=
  .escape (.short he) h

theorem chars_control {c x y : UInt8} (hc : c < 0x20)
    (hn : hexQuad (byte '0') (byte '0') x y = some c.toNat) {raw t : Bytes} (h : Chars raw t) :
    Chars (str "\\u00" ++ [x, y] ++ raw) (c :: t) := by
  have hlt : c.toNat < 0x20 := UInt8.lt_iff_toNat_lt.mp hc
  have hchar : String.utf8EncodeChar (Char.ofNat c.toNat) = [c] :=
    utf8EncodeChar_ofNat (by omega)
  have hescape := Chars.escape (.unicode hn (.inl (by omega))) h
  rw [hchar] at hescape
  exact hescape

theorem hexQuad_hexChar : ∀ c : UInt8, c < 0x20 →
    hexQuad (byte '0') (byte '0') (hexChar (c >>> 4)) (hexChar (c &&& 0x0f)) = some c.toNat :=
  forall_byte (by decide +kernel)

/-- What `json_escape` writes stands for the value. -/
theorem chars_jsonEscape (v : Bytes) : Chars (jsonEscape v) v := by
  induction v with
  | nil => exact .nil
  | cons c v ih =>
    rw [jsonEscape, List.flatMap_cons]
    unfold escapeByte
    split_ifs with hquote hback h8 h12 h10 h13 h9 hcontrol
    · exact chars_short (by rw [hquote]; decide) ih
    · exact chars_short (by rw [hback]; decide) ih
    · exact chars_short (by rw [h8]; decide) ih
    · exact chars_short (by rw [h12]; decide) ih
    · exact chars_short (by rw [h10]; decide) ih
    · exact chars_short (by rw [h13]; decide) ih
    · exact chars_short (by rw [h9]; decide) ih
    · exact chars_control hcontrol (hexQuad_hexChar c hcontrol) ih
    · exact .plain ⟨UInt8.not_lt.mp hcontrol, hquote, hback⟩ ih

theorem isUtf8_jsonEscape {v : Bytes} (h : IsUtf8 v) : IsUtf8 (jsonEscape v) := by
  have hascii : ∀ b : UInt8, b < 128 → ∀ x ∈ escapeByte b, x < 128 :=
    forall_byte (by decide +kernel)
  have hhigh : ∀ b : UInt8, 128 ≤ b → escapeByte b = [b] := forall_byte (by decide +kernel)
  obtain ⟨cs, rfl⟩ := h
  induction cs with
  | nil => exact isUtf8_nil
  | cons c cs ih =>
    rw [List.flatMap_cons, jsonEscape, List.flatMap_append]
    refine IsUtf8.append ?_ ih
    obtain ⟨b, hb, hc⟩ | hc := utf8EncodeChar_cases c
    · rw [hc, List.flatMap_cons, List.flatMap_nil, List.append_nil]
      exact isUtf8_of_ascii (hascii b hb)
    · refine ⟨[c], ?_⟩
      have hkept := List.flatMap_congr fun b hb => hhigh b (hc b hb)
      rw [List.flatMap_cons, List.flatMap_nil, List.append_nil, hkept]
      simp

/-- The status as a JSON object. -/
def statusMembers (env : StatusEnv) (c : Config) : List (Bytes × Json.Value) :=
  [(str "ip", .string env.wlan0Ip),
    (str "version", .string currentVersion),
    (str "uptime_seconds", .number (intNumeral env.uptimeSeconds)),
    (str "brightness", .number (intNumeral env.brightnessPercent)),
    (str "app_running", .bool env.appRunning),
    (str "ha_configured", .bool (!c.haUrl.isEmpty && !c.haToken.isEmpty)),
    (str "ha_connected", .bool env.haConnected),
    (str "ha_token_set", .bool !c.haToken.isEmpty),
    (str "ha_url", .string c.haUrl),
    (str "entity_1", .string c.haEntity1),
    (str "entity_1_name", .string c.haEntity1Name),
    (str "entity_2", .string c.haEntity2),
    (str "entity_2_name", .string c.haEntity2Name),
    (str "mqtt_enabled", .bool c.mqtt.enabled),
    (str "mqtt_connected", .bool env.mqttConnected),
    (str "mqtt_host", .string c.mqtt.host),
    (str "mqtt_port", .number (natNumeral c.mqtt.port)),
    (str "mqtt_user", .string c.mqtt.username),
    (str "mqtt_pass_set", .bool !c.mqtt.password.isEmpty),
    (str "mqtt_topic", .string c.mqtt.baseTopic),
    (str "mqtt_discovery", .bool c.mqtt.discovery),
    (str "web_autostart", .bool c.webAutostart),
    (str "ha_autostart", .bool c.haAutostart),
    (str "active_app", .string env.activeApp)]

theorem isUtf8_activeApp (env : StatusEnv) : IsUtf8 env.activeApp := by
  have hline : ∀ psLines, IsUtf8 (StatusEnv.activeAppOf psLines) := by
    intro psLines
    induction psLines with
    | nil => exact isUtf8_str "none"
    | cons psLine psLines ih =>
      unfold StatusEnv.activeAppOf
      split_ifs
      · exact ih
      · exact isUtf8_str "tuya_factory"
      · exact isUtf8_str "tuya_gui"
      · exact ih
  unfold StatusEnv.activeApp
  split_ifs
  · exact isUtf8_str "ha_panel"
  · exact hline env.psLines

/-- The values that the status shows as they are. -/
def shownTexts (c : Config) : List Bytes :=
  [c.haUrl, c.haEntity1, c.haEntity1Name, c.haEntity2, c.haEntity2Name, c.mqtt.host,
    c.mqtt.username, c.mqtt.baseTopic]

theorem standFor_statusMembers (env : StatusEnv) {c : Config} (hip : IsUtf8 env.wlan0Ip)
    (hc : ∀ v ∈ shownTexts c, IsUtf8 v) :
    StandFor (statusFields env c) (statusMembers env c) := by
  have htext : ∀ {v}, IsUtf8 v → Stands (.text (jsonEscape v)) (.string v) := fun h =>
    .string (chars_jsonEscape _) (isUtf8_jsonEscape h)
  have hint : ∀ i, Stands (.bare (decimalInt i)) (.number (intNumeral i)) := fun i =>
    .number (intNumeral i)
  have hnat : ∀ n, Stands (.bare (decimal n)) (.number (natNumeral n)) := fun n =>
    .number (natNumeral n)
  have hversion : IsUtf8 currentVersion := isUtf8_str "v1.9.11"
  unfold statusFields statusMembers StandFor
  repeat' first
    | exact List.Forall₂.nil
    | refine List.Forall₂.cons ⟨rfl, verbatim_str (by decide), ?_⟩ ?_
    | exact Stands.bool _
    | exact hint _
    | exact hnat _
    | exact htext hip
    | exact htext hversion
    | exact htext (isUtf8_activeApp env)
    | exact htext (hc _ (by simp [shownTexts]))

theorem punctuated_statusLayout : Punctuated statusLayout where
  quote := rfl
  colon := rfl
  opening := ⟨[], by decide, by decide⟩
  gap := by decide
  sep := ⟨[], by decide, by decide⟩
  closing := ⟨[], [], by decide, by decide, by decide⟩

/-- **The status is a JSON text** of what is in the configuration. -/
theorem denotes_status (env : StatusEnv) {c : Config} (hip : IsUtf8 env.wlan0Ip)
    (hc : ∀ v ∈ shownTexts c, IsUtf8 v) :
    Denotes (statusLayout.text (statusFields env c)) (.object (statusMembers env c)) :=
  denotes_text punctuated_statusLayout (standFor_statusMembers env hip hc)

/-- What a browser gets from a CGI process is the JSON text, with a newline behind it. -/
theorem responseBody_ok (json : Bytes) :
    responseBody (cgiJsonResponse ⟨200, json⟩) = json ++ str "\n" := by
  rfl

/-! ### The configuration of the page -/

/-- The record is one that the page can show and store: in normal form, without texts that look
like keys, and with lines of text where the page has inputs. -/
structure Kept (c : Config) : Prop where
  normal : c.Normal
  clear : ∀ v ∈ c.texts, ∀ key ∈ configKeys, ¬ LooksLike v key
  clientId : c.mqtt.clientId = Config.builtin.mqtt.clientId
  lines : ∀ v ∈ shownTexts c, IsUtf8 v ∧ inputText v = v
  trimmed : ∀ v ∈ [c.haUrl, c.haEntity1, c.haEntity1Name, c.haEntity2, c.haEntity2Name,
    c.mqtt.host, c.mqtt.baseTopic], trimCopy v = v
  port : c.mqtt.port.1 ≤ 65535

/-- A process reads the record from the file that was written for it. -/
theorem Kept.currentConfig_eq {c : Config} (h : Kept c) :
    currentConfig .ok (some (configText c)) = c := by
  have hclear := Config.clear_of_texts h.clear
  rw [currentConfig_some, readConfig_configText hclear.unambiguous, h.normal.readBack,
    ← h.clientId]

/-- What the page gets when it asks for the status. -/
theorem Kept.denotes_status {c : Config} (h : Kept c) {file : Option Bytes}
    (hfile : currentConfig .ok file = c) (env : StatusEnv) (hip : IsUtf8 env.wlan0Ip) :
    Denotes (responseBody (cgiStatusMain env file)) (.object (statusMembers env c)) := by
  have hstatus := Portal.denotes_status env hip fun v hv => (h.lines v hv).1
  rw [cgiStatusMain, hfile, responseBody_ok]
  exact ⟨hstatus.utf8.append (isUtf8_str "\n"), hstatus.lexes.append_blanks (by decide)⟩

/-- The inputs that show a record, next to the password inputs. -/
def shown (c : Config) (i : Inputs) : Inputs :=
  { i with
    haUrl := c.haUrl
    entity1 := c.haEntity1
    name1 := c.haEntity1Name
    entity2 := c.haEntity2
    name2 := c.haEntity2Name
    mqttEnabled := c.mqtt.enabled
    mqttHost := c.mqtt.host
    mqttPort := decimal c.mqtt.port
    mqttUser := c.mqtt.username
    mqttTopic := c.mqtt.baseTopic
    mqttDiscovery := c.mqtt.discovery
    haAutostart := c.haAutostart
    webAutostart := c.webAutostart }

theorem orText_nil (t : Bytes) : orText js (some (.string t)) [] = t := by
  cases t <;> rfl

theorem orText_string (t fallback : Bytes) :
    orText js (some (.string t)) fallback = if t = [] then fallback else t := by
  cases t <;> rfl

theorem inputText_decimal (n : ℕ) : inputText (decimal n) = decimal n := by
  refine List.filter_eq_self.mpr fun d hd => ?_
  have hline : ∀ d, isDigit d = true → (!(d == 10 || d == 13)) = true :=
    forall_byte (by decide +kernel)
  exact hline d (isDigit_of_mem_decimal hd)

theorem orText_port (p : Port) (fallback : Bytes) :
    orText js (some (.number (natNumeral p))) fallback = decimal p := by
  have hport : p.1 < 2 ^ 53 := by have := p.2.2; omega
  have htext := js.natNumeral p.1 hport
  have hne : decimal p.1 ≠ str "0" := by
    intro h
    have hzero : p.1 = 0 := decimal_injective (h.trans (by decide))
    exact absurd p.2.1 (by omega)
  simp [orText, truthy, toText, htext, hne]

/-- **Loading shows the record.** -/
theorem Kept.populate_eq {c : Config} (h : Kept c) (env : StatusEnv) (i : Inputs) :
    i.populate js (.object (statusMembers env c)) = shown c i := by
  have htopic : orText js (some (.string c.mqtt.baseTopic)) (str "panel/tpp01") =
      c.mqtt.baseTopic := by
    rw [orText_string, if_neg (h.normal.filled _ (by simp))]
  have hline : ∀ v ∈ shownTexts c, inputText v = v := fun v hv => (h.lines v hv).2
  simp only [shownTexts, List.forall_mem_cons] at hline
  obtain ⟨hurl, he₁, hn₁, he₂, hn₂, hhost, huser, htopicline, -⟩ := hline

  have mUrl : member (str "ha_url") (.object (statusMembers env c)) = some (.string c.haUrl) := rfl
  have mEntity₁ : member (str "entity_1") (.object (statusMembers env c)) =
      some (.string c.haEntity1) := rfl
  have mName₁ : member (str "entity_1_name") (.object (statusMembers env c)) =
      some (.string c.haEntity1Name) := rfl
  have mEntity₂ : member (str "entity_2") (.object (statusMembers env c)) =
      some (.string c.haEntity2) := rfl
  have mName₂ : member (str "entity_2_name") (.object (statusMembers env c)) =
      some (.string c.haEntity2Name) := rfl
  have mEnabled : member (str "mqtt_enabled") (.object (statusMembers env c)) =
      some (.bool c.mqtt.enabled) := rfl
  have mHost : member (str "mqtt_host") (.object (statusMembers env c)) =
      some (.string c.mqtt.host) := rfl
  have mPort : member (str "mqtt_port") (.object (statusMembers env c)) =
      some (.number (natNumeral c.mqtt.port)) := rfl
  have mUser : member (str "mqtt_user") (.object (statusMembers env c)) =
      some (.string c.mqtt.username) := rfl
  have mTopic : member (str "mqtt_topic") (.object (statusMembers env c)) =
      some (.string c.mqtt.baseTopic) := rfl
  have mDiscovery : member (str "mqtt_discovery") (.object (statusMembers env c)) =
      some (.bool c.mqtt.discovery) := rfl
  have mWeb : member (str "web_autostart") (.object (statusMembers env c)) =
      some (.bool c.webAutostart) := rfl
  have mHa : member (str "ha_autostart") (.object (statusMembers env c)) =
      some (.bool c.haAutostart) := rfl
  simp only [Inputs.populate, shown, mUrl, mEntity₁, mName₁, mEntity₂, mName₂, mEnabled, mHost,
    mPort, mUser, mTopic, mDiscovery, mWeb, mHa, orText_nil, htopic, orText_port, truthy,
    notFalse, inputText_decimal, hurl, he₁, hn₁, he₂, hn₂, hhost, huser,
    htopicline]

/-! ### Requests of the page -/

/-- The update that the request for a section asks for. -/
def Inputs.update (i : Inputs) : Section → Option Update
  | .homeAssistant => some (.connect (trimCopy i.haUrl) (trimCopy i.haToken) (trimCopy i.entity1)
      (trimCopy i.name1) (trimCopy i.entity2) (trimCopy i.name2))
  | .mqtt => (portOf (trimCopy i.mqttPort)).map fun port =>
      .mqtt i.mqttEnabled (trimCopy i.mqttHost) port i.mqttUser i.mqttPass (trimCopy i.mqttTopic)
        i.mqttDiscovery
  | .system => some (.system i.webAutostart i.haAutostart)

theorem formBool_formEncode {ps : List (Bytes × Bytes)} {key : Bytes} {b : Bool}
    (h : (ps.find? fun p => p.1 = key).map Prod.snd = some (boolLit b)) :
    formBool (formEncode ps) key = b := by
  rw [formBool, formValue_formEncode, h, Option.getD_some]
  cases b <;> decide

theorem ofBody_sectionRequest (i : Inputs) (k : Section) :
    Update.ofBody (formEncode (i.sectionRequest k)) = i.update k := by
  cases k with
  | homeAssistant =>
    have hdisconnect : formBool (formEncode (i.sectionRequest .homeAssistant))
        (str "disconnect") = false := by
      rw [formBool, formValue_formEncode]
      rfl
    simp only [Update.ofBody, hdisconnect, formValue_formEncode]
    rfl
  | mqtt =>
    have henabled : formBool (formEncode (i.sectionRequest .mqtt)) (str "mqtt_enabled") =
        i.mqttEnabled := formBool_formEncode rfl
    have hdiscovery : formBool (formEncode (i.sectionRequest .mqtt)) (str "mqtt_discovery") =
        i.mqttDiscovery := formBool_formEncode rfl
    simp only [Update.ofBody, henabled, hdiscovery, formValue_formEncode]
    rfl
  | system =>
    have hweb : formBool (formEncode (i.sectionRequest .system)) (str "web_autostart") =
        i.webAutostart := formBool_formEncode rfl
    have hha : formBool (formEncode (i.sectionRequest .system)) (str "ha_autostart") =
        i.haAutostart := formBool_formEncode rfl
    simp only [Update.ofBody, hweb, hha, formValue_formEncode]
    rfl

theorem strtol_decimal_fst (n : ℕ) : (strtol (decimal n)).1 = clamp 64 n := by
  obtain ⟨htake, -⟩ := span_decimal n (s := []) (by simp)
  have hspace := dropWhile_isSpace_decimalInt n []
  have hsign := takeSign_decimalInt n []
  rw [decimalInt_natCast, List.append_nil] at hspace hsign
  rw [List.append_nil] at htake
  have hneg : ¬ (n : ℤ) < 0 := by omega
  simp [strtol, hspace, hsign, htake, decimal_ne_nil, digitsValue_decimal, hneg]

/-- A request that is not too long arrives as it was sent. -/
theorem eq_of_readBody_post {body body' : Bytes} (h : readBody (.post body) = .ok body') :
    body' = body := by
  have hlen : announcedLength (.post body) = some body.length ∨
      announcedLength (.post body) = none := by
    simp only [announcedLength, CgiRequest.post, cStr_decimal, strtol_decimal_fst]
    split_ifs with hbad
    · exact .inr rfl
    · left
      have hclamp : clamp 64 (body.length : ℤ) = body.length := by
        unfold clamp at hbad ⊢
        omega
      rw [hclamp, Int.toNat_natCast]
  unfold readBody at h
  rw [if_neg (by simp [CgiRequest.post]), if_neg (by simp [CgiRequest.post])] at h
  obtain hlen | hlen := hlen
  · rw [hlen] at h
    simp only [CgiRequest.post, lt_irrefl, if_false, List.take_length, Except.ok.injEq] at h
    exact h.symm
  · rw [hlen] at h
    cases h

/-- A response is the one to a saved section or to a failure. -/
theorem cgiConfigMain_status (ops : FileOps) (req : CgiRequest) (file : Option Bytes) :
    (cgiConfigMain ops req file).1.status = 200 ∨ 400 ≤ (cgiConfigMain ops req file).1.status := by
  have hbody : ∀ r, readBody req = .error r → 400 ≤ r.status := by
    intro r hr
    unfold readBody at hr
    repeat' split at hr
    all_goals
      cases hr
      try decide
  unfold cgiConfigMain
  cases hread : readBody req with
  | error r => exact .inr (hbody r hread)
  | ok body =>
    simp only
    split_ifs
    · exact .inr (show 400 ≤ 500 by decide)
    · cases applyBody body (currentConfig ops file) with
      | error e => exact .inr (le_refl 400)
      | ok c =>
        simp only
        split_ifs
        · exact .inl rfl
        · exact .inr (show 400 ≤ 500 by decide)

/-- If the operations on the file go wrong, the request is not acknowledged and changes nothing. -/
theorem cgiConfigMain_ops {ops : FileOps} (hread : ops.read = true) (req : CgiRequest)
    (file : Option Bytes) :
    cgiConfigMain ops req file = cgiConfigMain .ok req file ∨
      ((cgiConfigMain ops req file).1.status ≠ 200 ∧ (cgiConfigMain ops req file).2 = file) := by
  have hcurrent : currentConfig ops file = currentConfig .ok file := by
    cases file with
    | none => rfl
    | some json => simp [currentConfig, loadConfiguration, hread, FileOps.ok]
  obtain ⟨lock, read, write, rename⟩ := ops
  unfold cgiConfigMain
  simp only [hcurrent]
  generalize currentConfig .ok file = c
  cases hbody : readBody req with
  | error r => exact .inl rfl
  | ok body =>
    cases lock with
    | false => exact .inr ⟨by simp [failure], rfl⟩
    | true =>
      cases happ : applyBody body c with
      | error e => exact .inl (by simp [happ, FileOps.ok])
      | ok c' =>
        cases write <;> cases rename <;> simp [happ, saveConfiguration, failure, FileOps.ok]

theorem cgiConfigMain_update {req : CgiRequest} {file : Option Bytes} {u : Update}
    (hu : req.update (currentConfig .ok file) = some u) :
    ∃ body, readBody req = .ok body ∧ Update.ofBody body = some u ∧
      u.Valid (currentConfig .ok file) ∧
      cgiConfigMain .ok req file = (accepted (formValue body (str "section")),
        some (configText (u.apply (currentConfig .ok file)))) := by
  unfold CgiRequest.update at hu
  cases hbody : readBody req with
  | error r => simp [hbody] at hu
  | ok body =>
    simp only [hbody] at hu
    have happ := applyBody_toOption body (currentConfig .ok file)
    rw [hu] at happ
    obtain ⟨hof, hvalid⟩ := Option.filter_eq_some_iff.mp hu
    refine ⟨body, rfl, hof, of_decide_eq_true hvalid, ?_⟩
    cases hsection : applyBody body (currentConfig .ok file) with
    | error e => simp [hsection, Except.toOption] at happ
    | ok c =>
      rw [hsection] at happ
      obtain rfl : c = u.apply (currentConfig .ok file) := by simpa [Except.toOption] using happ
      have hlock : FileOps.ok.lock = true := rfl
      simp [cgiConfigMain, hbody, hlock, hsection]

/-- **A request of the page** is acknowledged and stores its update, or it changes nothing. -/
theorem cgiConfigMain_post {c : Config} {file : Option Bytes} (hfile : currentConfig .ok file = c)
    {ops : FileOps} (hread : ops.read = true) (ps : List (Bytes × Bytes)) :
    (∃ u, Update.ofBody (formEncode ps) = some u ∧ u.Valid c ∧
      cgiConfigMain ops (post ps) file =
        (accepted (formValue (formEncode ps) (str "section")), some (configText (u.apply c)))) ∨
    (400 ≤ (cgiConfigMain ops (post ps) file).1.status ∧
      (cgiConfigMain ops (post ps) file).2 = file) := by
  have hstatus := cgiConfigMain_status ops (post ps) file
  obtain hops | ⟨hfailed, hunchanged⟩ := cgiConfigMain_ops hread (post ps) file
  · obtain ⟨u, hu, -⟩ | ⟨-, hfailed, hunchanged⟩ := cgiConfigMain_ok (post ps) file
    · obtain ⟨body, hbody, hof, hvalid, heq⟩ := cgiConfigMain_update hu
      rw [eq_of_readBody_post hbody] at hof heq
      rw [hfile] at hvalid heq
      exact .inl ⟨u, hof, hvalid, hops.trans heq⟩
    · have hrefused : (cgiConfigMain ops (post ps) file).1.status ≠ 200 := hops ▸ hfailed
      exact .inr ⟨hstatus.resolve_left hrefused, hops ▸ hunchanged⟩
  · exact .inr ⟨hstatus.resolve_left hfailed, hunchanged⟩

/-! ### What is stored -/

theorem trimCopy_subset (v : Bytes) : ∀ c ∈ trimCopy v, c ∈ v := fun _ hc =>
  (List.dropWhile_sublist isSpace).subset ((List.rdropWhile_prefix isSpace _).subset hc)

theorem trimCopy_trimCopy (v : Bytes) : trimCopy (trimCopy v) = trimCopy v := by
  have hprefix : trimCopy v <+: v.dropWhile isSpace := List.rdropWhile_prefix isSpace _
  have hdrop : (trimCopy v).dropWhile isSpace = trimCopy v := by
    cases htrim : trimCopy v with
    | nil => rfl
    | cons c w =>
      rw [htrim] at hprefix
      obtain ⟨t, ht⟩ := hprefix
      have hc : isSpace c = false := by
        have hhead := List.head?_dropWhile_not isSpace v
        rw [← ht] at hhead
        simpa using hhead
      rw [List.dropWhile_cons, hc, if_neg Bool.false_ne_true]
  rw [trimCopy, hdrop, trimCopy, List.rdropWhile_idempotent]

theorem inputText_trimCopy {v : Bytes} (h : inputText v = v) :
    inputText (trimCopy v) = trimCopy v := by
  have hv := List.filter_eq_self.mp h
  exact List.filter_eq_self.mpr fun c hc => hv c (trimCopy_subset v c hc)

theorem isUtf8_trimCopy {v : Bytes} (h : IsUtf8 v) : IsUtf8 (trimCopy v) := by
  have hascii : ∀ c, isSpace c = true → c < 128 := forall_byte (by decide +kernel)
  have hdrop : IsUtf8 (v.dropWhile isSpace) := by
    rw [← List.takeWhile_append_dropWhile (p := isSpace) (l := v)] at h
    exact h.of_append fun c hc => hascii c (List.mem_takeWhile_imp hc)
  rw [← List.rdropWhile_append_rtakeWhile (p := isSpace) (l := v.dropWhile isSpace)] at hdrop
  unfold trimCopy
  cases hblank : (v.dropWhile isSpace).rtakeWhile isSpace with
  | nil => simpa [hblank] using hdrop
  | cons c t =>
    have hc : isSpace c = true := List.mem_rtakeWhile_imp (hblank ▸ List.mem_cons_self)
    rw [hblank] at hdrop
    exact (hdrop.split (hascii c hc)).1

theorem getLast_trimCopy (v : Bytes) (hne : trimCopy v ≠ []) :
    isTrailing ((trimCopy v).getLast hne) = false := by
  have hself := List.rdropWhile_eq_self_iff.mp (rdropWhile_trimCopy v) hne
  simpa using hself

theorem line_trimCopy {v : Bytes} (h : IsUtf8 v ∧ inputText v = v) :
    IsUtf8 (trimCopy v) ∧ inputText (trimCopy v) = trimCopy v :=
  ⟨isUtf8_trimCopy h.1, inputText_trimCopy h.2⟩

theorem validEntityId_ne_nil {v : Bytes} (h : validEntityId v = true) : v ≠ [] := by
  rintro rfl
  exact absurd h (by decide)

theorem portOf_le {text : Bytes} {port : Port} (h : portOf text = some port) :
    port.1 ≤ 65535 := by
  simp only [portOf] at h
  split_ifs at h with hempty hrange
  obtain rfl := Option.some.inj h
  have := hrange.2
  simp only
  omega

/-- A secret that is left empty is not changed. -/
theorem getLast_secret {stored v : Bytes} (hstored : ∀ h, isTrailing (stored.getLast h) = false)
    (hv : ∀ h, isTrailing (v.getLast h) = false) :
    ∀ h, isTrailing ((if v = [] then stored else v).getLast h) = false := by
  split_ifs
  · exact hstored
  · exact hv

theorem clear_secret {stored v : Bytes} (hstored : ∀ key ∈ configKeys, ¬ LooksLike stored key)
    (hv : ∀ key ∈ configKeys, ¬ LooksLike v key) :
    ∀ key ∈ configKeys, ¬ LooksLike (if v = [] then stored else v) key := by
  split_ifs
  · exact hstored
  · exact hv

/-- The connection to Home Assistant, with the two entities. -/
theorem Kept.apply_homeAssistant {c : Config} (hc : Kept c) {i : Inputs} (hi : i.Typed) {u : Update}
    (hu : i.update .homeAssistant = some u) (hvalid : u.Valid c) : Kept (u.apply c) := by
  obtain ⟨⟨hurl, htoken, hfilled⟩, hclear, hid, hlines, htrimmed, hport⟩ := hc
  obtain ⟨hilines, hiclear⟩ := hi
  simp only [Config.texts, List.forall_mem_cons] at hclear
  simp only [shownTexts, List.forall_mem_cons] at hlines
  simp only [List.forall_mem_cons] at hfilled htrimmed
  simp only [Inputs.lines, List.forall_mem_cons] at hilines
  simp only [Inputs.submitted, List.forall_mem_cons] at hiclear
  obtain ⟨-, cToken, -, -, -, -, cHost, cUser, cPass, cTopic, -⟩ := hclear
  obtain ⟨-, -, -, -, -, lHost, lUser, lTopic, -⟩ := hlines
  obtain ⟨-, -, -, -, fTopic, -⟩ := hfilled
  obtain ⟨-, -, -, -, -, tHost, tTopic, -⟩ := htrimmed
  obtain ⟨iUrl, iEntity₁, iName₁, iEntity₂, iName₂, -⟩ := hilines
  obtain ⟨jUrl, jToken, jEntity₁, jName₁, jEntity₂, jName₂, -⟩ := hiclear
  obtain rfl := Option.some.inj hu
  obtain ⟨-, -, -, hentity₁, hentity₂, hname₁, -, hname₂, -⟩ := hvalid
  -- the texts of the section come from the inputs, and those of the broker from the record
  refine ⟨⟨getLast_trimCopy i.haUrl, getLast_secret htoken (getLast_trimCopy i.haToken), ?_⟩, ?_,
    hid, ?_, ?_, hport⟩
  · simp only [Update.apply, List.forall_mem_cons]
    exact ⟨validEntityId_ne_nil hentity₁, hname₁, validEntityId_ne_nil hentity₂, hname₂, fTopic,
      List.forall_mem_nil _⟩
  · simp only [Update.apply, Config.texts, List.forall_mem_cons]
    exact ⟨jUrl, clear_secret cToken jToken, jEntity₁, jName₁, jEntity₂, jName₂, cHost, cUser, cPass,
      cTopic, List.forall_mem_nil _⟩
  · simp only [Update.apply, shownTexts, List.forall_mem_cons]
    exact ⟨line_trimCopy iUrl, line_trimCopy iEntity₁, line_trimCopy iName₁,
      line_trimCopy iEntity₂, line_trimCopy iName₂, lHost, lUser, lTopic, List.forall_mem_nil _⟩
  · simp only [Update.apply, List.forall_mem_cons, trimCopy_trimCopy, true_and]
    exact ⟨tHost, tTopic, List.forall_mem_nil _⟩

/-- The connection to the broker. -/
theorem Kept.apply_mqtt {c : Config} (hc : Kept c) {i : Inputs} (hi : i.Typed) {u : Update}
    (hu : i.update .mqtt = some u) (hvalid : u.Valid c) : Kept (u.apply c) := by
  obtain ⟨⟨hurl, htoken, hfilled⟩, hclear, hid, hlines, htrimmed, hport⟩ := hc
  obtain ⟨hilines, hiclear⟩ := hi
  simp only [Config.texts, List.forall_mem_cons] at hclear
  simp only [shownTexts, List.forall_mem_cons] at hlines
  simp only [List.forall_mem_cons] at hfilled htrimmed
  simp only [Inputs.lines, List.forall_mem_cons] at hilines
  simp only [Inputs.submitted, List.forall_mem_cons] at hiclear
  obtain ⟨cUrl, cToken, cEntity₁, cName₁, cEntity₂, cName₂, -, -, cPass, -⟩ := hclear
  obtain ⟨lUrl, lEntity₁, lName₁, lEntity₂, lName₂, -⟩ := hlines
  obtain ⟨fEntity₁, fName₁, fEntity₂, fName₂, -⟩ := hfilled
  obtain ⟨tUrl, tEntity₁, tName₁, tEntity₂, tName₂, -⟩ := htrimmed
  obtain ⟨-, -, -, -, -, iHost, iUser, iTopic, -⟩ := hilines
  obtain ⟨-, -, -, -, -, -, jHost, jUser, jPass, jTopic, -⟩ := hiclear
  obtain ⟨port, hportOf, rfl⟩ := Option.map_eq_some_iff.mp hu
  obtain ⟨-, -, -, htopic, -⟩ := hvalid
  -- the user name and the password are not trimmed
  refine ⟨⟨hurl, htoken, ?_⟩, ?_, hid, ?_, ?_, portOf_le hportOf⟩
  · simp only [Update.apply, List.forall_mem_cons]
    exact ⟨fEntity₁, fName₁, fEntity₂, fName₂, htopic, List.forall_mem_nil _⟩
  · simp only [Update.apply, Config.texts, List.forall_mem_cons]
    exact ⟨cUrl, cToken, cEntity₁, cName₁, cEntity₂, cName₂, jHost, jUser, clear_secret cPass jPass,
      jTopic, List.forall_mem_nil _⟩
  · simp only [Update.apply, shownTexts, List.forall_mem_cons]
    exact ⟨lUrl, lEntity₁, lName₁, lEntity₂, lName₂, line_trimCopy iHost, iUser,
      line_trimCopy iTopic, List.forall_mem_nil _⟩
  · simp only [Update.apply, List.forall_mem_cons, trimCopy_trimCopy, true_and]
    exact ⟨tUrl, tEntity₁, tName₁, tEntity₂, tName₂, List.forall_mem_nil _⟩

/-- The system settings are no texts. -/
theorem Kept.apply_system {c : Config} (hc : Kept c) {i : Inputs} {u : Update}
    (hu : i.update .system = some u) : Kept (u.apply c) := by
  obtain rfl := Option.some.inj hu
  exact ⟨⟨hc.normal.haUrl, hc.normal.haToken, hc.normal.filled⟩, hc.clear, hc.clientId, hc.lines,
    hc.trimmed, hc.port⟩

/-- **What an acknowledged request stores** is again a record of this kind. -/
theorem Kept.apply {c : Config} (hc : Kept c) {i : Inputs} (hi : i.Typed) {k : Section}
    {u : Update} (hu : i.update k = some u) (hvalid : u.Valid c) : Kept (u.apply c) := by
  cases k with
  | homeAssistant => exact hc.apply_homeAssistant hi hu hvalid
  | mqtt => exact hc.apply_mqtt hi hu hvalid
  | system => exact hc.apply_system hu

/-- The record after Home Assistant has been disconnected, as it is read back. -/
def disconnected (c : Config) : Config :=
  { c with
    haUrl := []
    haToken := []
    haEntity1 := str "light.living_room"
    haEntity2 := str "switch.fan" }

theorem Kept.disconnected {c : Config} (hc : Kept c) : Kept (disconnected c) := by
  have hids : ∀ v ∈ [[], str "light.living_room", str "switch.fan"],
      (∀ key ∈ configKeys, ¬ LooksLike v key) ∧ inputText v = v ∧ trimCopy v = v := by
    decide +kernel
  simp only [List.forall_mem_cons] at hids
  obtain ⟨⟨cNil, -⟩, ⟨cOne, lOne, tOne⟩, ⟨cTwo, lTwo, tTwo⟩, -⟩ := hids
  obtain ⟨⟨-, -, hfilled⟩, hclear, hid, hlines, htrimmed, hport⟩ := hc
  simp only [Config.texts, List.forall_mem_cons] at hclear
  simp only [shownTexts, List.forall_mem_cons] at hlines
  simp only [List.forall_mem_cons] at hfilled htrimmed
  obtain ⟨-, -, -, cName₁, -, cName₂, cHost, cUser, cPass, cTopic, -⟩ := hclear
  obtain ⟨-, -, lName₁, -, lName₂, lHost, lUser, lTopic, -⟩ := hlines
  obtain ⟨-, fName₁, -, fName₂, fTopic, -⟩ := hfilled
  obtain ⟨-, -, tName₁, -, tName₂, tHost, tTopic, -⟩ := htrimmed
  refine ⟨⟨fun h => absurd rfl h, fun h => absurd rfl h, ?_⟩, ?_, hid, ?_, ?_, hport⟩
  · simp only [Portal.disconnected, List.forall_mem_cons]
    exact ⟨by decide, fName₁, by decide, fName₂, fTopic, List.forall_mem_nil _⟩
  · simp only [Portal.disconnected, Config.texts, List.forall_mem_cons]
    exact ⟨cNil, cNil, cOne, cName₁, cTwo, cName₂, cHost, cUser, cPass, cTopic,
      List.forall_mem_nil _⟩
  · simp only [Portal.disconnected, shownTexts, List.forall_mem_cons]
    exact ⟨⟨isUtf8_nil, rfl⟩, ⟨isUtf8_str _, lOne⟩, lName₁, ⟨isUtf8_str _, lTwo⟩, lName₂, lHost,
      lUser, lTopic, List.forall_mem_nil _⟩
  · simp only [Portal.disconnected, List.forall_mem_cons]
    exact ⟨rfl, tOne, tName₁, tTwo, tName₂, tHost, tTopic, List.forall_mem_nil _⟩

theorem Kept.currentConfig_disconnect {c : Config} (hc : Kept c) :
    currentConfig .ok (some (configText (Update.disconnect.apply c))) = Portal.disconnected c := by
  have hnil : ∀ key ∈ configKeys, ¬ LooksLike [] key := by decide +kernel
  have hclear := hc.clear
  have hfilled := hc.normal.filled
  simp only [Config.texts, List.forall_mem_cons] at hclear
  simp only [List.forall_mem_cons] at hfilled
  obtain ⟨-, -, -, cName₁, -, cName₂, cHost, cUser, cPass, cTopic, -⟩ := hclear
  obtain ⟨-, fName₁, -, fName₂, fTopic, -⟩ := hfilled
  have htexts : ∀ v ∈ (Update.disconnect.apply c).texts, ∀ key ∈ configKeys,
      ¬ LooksLike v key := by
    simp only [Update.apply, Config.texts, List.forall_mem_cons]
    exact ⟨hnil, hnil, hnil, cName₁, hnil, cName₂, cHost, cUser, cPass, cTopic,
      List.forall_mem_nil _⟩
  rw [currentConfig_some, readConfig_configText (Config.clear_of_texts htexts).unambiguous]
  simp only [Config.readBack, Update.apply, List.rdropWhile_nil, if_true, fName₁, fName₂, fTopic,
    if_false, ← hc.clientId]
  rfl

/-! ### What the inputs mean -/

/-- The inputs of the section mean what is in the record, once blanks around them are dropped. -/
def Means (i : Inputs) (c : Config) : Section → Prop
  | .homeAssistant => trimCopy i.haUrl = c.haUrl ∧ trimCopy i.entity1 = c.haEntity1 ∧
      trimCopy i.name1 = c.haEntity1Name ∧ trimCopy i.entity2 = c.haEntity2 ∧
      trimCopy i.name2 = c.haEntity2Name
  | .mqtt => i.mqttEnabled = c.mqtt.enabled ∧ trimCopy i.mqttHost = c.mqtt.host ∧
      portOf (trimCopy i.mqttPort) = some c.mqtt.port ∧ i.mqttUser = c.mqtt.username ∧
      trimCopy i.mqttTopic = c.mqtt.baseTopic ∧ i.mqttDiscovery = c.mqtt.discovery
  | .system => i.haAutostart = c.haAutostart ∧ i.webAutostart = c.webAutostart

theorem means_congr {i j : Inputs} {c : Config} {k : Section}
    (h : i.sectionInputs k = j.sectionInputs k) : Means i c k ↔ Means j c k := by
  cases k <;> simp only [Inputs.sectionInputs, List.cons.injEq, InputValue.text.injEq,
    InputValue.checked.injEq] at h <;> simp only [Means, h]

theorem means_clearPassword {i : Inputs} {c : Config} {k k' : Section} :
    Means (i.clearPassword k) c k' ↔ Means i c k' := by
  cases k <;> cases k' <;> rfl

theorem means_withSection {i j : Inputs} {c : Config} {k k' : Section} :
    Means (i.withSection j k) c k' ↔ Means (if k' = k then j else i) c k' := by
  cases k <;> cases k' <;> rfl

theorem portOf_decimal {p : Port} (h : p.1 ≤ 65535) : portOf (trimCopy (decimal p)) = some p := by
  have hdigit : ∀ d, isDigit d = true → isSpace d = false := forall_byte (by decide +kernel)
  have hspace : ∀ d ∈ decimal p.1, isSpace d = false := fun d hd =>
    hdigit d (isDigit_of_mem_decimal hd)
  have htrim : trimCopy (decimal p.1) = decimal p.1 := by
    have hdrop : (decimal p.1).dropWhile isSpace = decimal p.1 := by
      have hself := dropWhile_isSpace_decimalInt p.1 []
      rwa [decimalInt_natCast, List.append_nil] at hself
    rw [trimCopy, hdrop, List.rdropWhile_eq_self_iff]
    intro hne
    simp [hspace _ (List.getLast_mem hne)]
  have hpos := p.2.1
  have hne : (decimal p.1).isEmpty = false := by simp [decimal_ne_nil]
  have hrange : 1 ≤ (p.1 : ℤ) ∧ (p.1 : ℤ) ≤ 65535 := by omega
  simp only [htrim, portOf, cStr_decimal, strtol_decimal (n := p.1) (by omega), hne,
    List.isEmpty_nil, Bool.not_true, Bool.or_self, Bool.false_eq_true, if_false, dif_pos hrange]
  exact congrArg some (Subtype.ext (Int.toNat_natCast _))

theorem Kept.means_shown {c : Config} (h : Kept c) (i : Inputs) (k : Section) :
    Means (shown c i) c k := by
  have htrimmed := h.trimmed
  simp only [List.forall_mem_cons] at htrimmed
  obtain ⟨tUrl, tEntity₁, tName₁, tEntity₂, tName₂, tHost, tTopic, -⟩ := htrimmed
  cases k with
  | homeAssistant => exact ⟨tUrl, tEntity₁, tName₁, tEntity₂, tName₂⟩
  | mqtt => exact ⟨rfl, tHost, portOf_decimal h.port, rfl, tTopic, rfl⟩
  | system => exact ⟨rfl, rfl⟩

/-- After an acknowledged request, the record is what the inputs of the section mean, and the other
sections are as they were. -/
theorem means_apply {c : Config} {i : Inputs} {k : Section} {u : Update}
    (hu : i.update k = some u) :
    Means i (u.apply c) k ∧ ∀ j, ∀ k' ≠ k, Means j (u.apply c) k' ↔ Means j c k' := by
  cases k with
  | homeAssistant =>
    obtain rfl := Option.some.inj hu
    refine ⟨⟨rfl, rfl, rfl, rfl, rfl⟩, fun j k' hk' => ?_⟩
    cases k' with
    | homeAssistant => exact absurd rfl hk'
    | mqtt | system => rfl
  | mqtt =>
    obtain ⟨port, hport, rfl⟩ := Option.map_eq_some_iff.mp hu
    refine ⟨⟨rfl, rfl, hport, rfl, rfl, rfl⟩, fun j k' hk' => ?_⟩
    cases k' with
    | mqtt => exact absurd rfl hk'
    | homeAssistant | system => rfl
  | system =>
    obtain rfl := Option.some.inj hu
    refine ⟨⟨rfl, rfl⟩, fun j k' hk' => ?_⟩
    cases k' with
    | system => exact absurd rfl hk'
    | homeAssistant | mqtt => rfl

/-- A request with inputs that mean the record, and no password, changes nothing. -/
theorem apply_eq_self {c : Config} {i : Inputs} {k : Section} {u : Update}
    (hu : i.update k = some u) (hmeans : Means i c k) (htoken : i.haToken = [])
    (hpass : i.mqttPass = []) : u.apply c = c := by
  cases k with
  | homeAssistant =>
    obtain rfl := Option.some.inj hu
    obtain ⟨hurl, he₁, hn₁, he₂, hn₂⟩ := hmeans
    have htrim : trimCopy i.haToken = [] := by rw [htoken]; rfl
    simp only [Update.apply, htrim, if_true, hurl, he₁, hn₁, he₂, hn₂]
  | mqtt =>
    obtain ⟨port, hport, rfl⟩ := Option.map_eq_some_iff.mp hu
    obtain ⟨henabled, hhost, hmeansport, huser, htopic, hdiscovery⟩ := hmeans
    obtain rfl : port = c.mqtt.port := Option.some.inj (hport.symm.trans hmeansport)
    simp only [Update.apply, hpass, if_true, henabled, hhost, huser, htopic, hdiscovery]
  | system =>
    obtain rfl := Option.some.inj hu
    obtain ⟨hha, hweb⟩ := hmeans
    simp only [Update.apply, hha, hweb]

/-! ### Responses -/

/-- The name of a section in requests. -/
def sectionName : Section → Bytes
  | .homeAssistant => str "ha"
  | .mqtt => str "mqtt"
  | .system => str "system"

theorem formValue_section (i : Inputs) (k : Section) :
    formValue (formEncode (i.sectionRequest k)) (str "section") = sectionName k := by
  rw [formValue_formEncode]
  cases k <;> rfl

theorem denotes_accepted (k : Section) :
    Denotes (responseBody (cgiJsonResponse (accepted (sectionName k))))
      (.object [(str "ok", .bool true), (str "section", .string (sectionName k)),
        (str "restart_required", .bool true)]) := by
  have hname : IsUtf8 (sectionName k) := by cases k <;> exact isUtf8_str _
  have hstand : StandFor
      [(str "ok", .bare (boolLit true)), (str "section", .text (jsonEscape (sectionName k))),
        (str "restart_required", .bare (boolLit true))]
      [(str "ok", .bool true), (str "section", .string (sectionName k)),
        (str "restart_required", .bool true)] := by
    refine .cons ⟨rfl, verbatim_str (by decide), .bool true⟩ ?_
    refine .cons ⟨rfl, verbatim_str (by decide), ?_⟩ ?_
    · exact .string (chars_jsonEscape _) (isUtf8_jsonEscape hname)
    · exact .cons ⟨rfl, verbatim_str (by decide), .bool true⟩ .nil
  have htext : (accepted (sectionName k)).json = statusLayout.text
      [(str "ok", .bare (boolLit true)), (str "section", .text (jsonEscape (sectionName k))),
        (str "restart_required", .bare (boolLit true))] := by
    cases k <;> decide +kernel
  have hobject := denotes_text punctuated_statusLayout hstand
  have hbody : responseBody (cgiJsonResponse (accepted (sectionName k))) =
      (accepted (sectionName k)).json ++ str "\n" := responseBody_ok _
  rw [hbody, htext]
  exact ⟨hobject.utf8.append (isUtf8_str "\n"), hobject.lexes.append_blanks (by decide)⟩

theorem succeeded_accepted (k : Section) : succeeded js (accepted (sectionName k)) = true := by
  unfold succeeded
  rw [decode_eq_some_iff.mpr (denotes_accepted k)]
  rfl

/-- A response that says that the request was carried out is not one to a failure. -/
theorem lt_of_succeeded {response : CgiResponse} (h : succeeded js response = true) :
    response.status < 400 := by
  simp only [succeeded, Bool.and_eq_true, decide_eq_true_eq] at h
  omega

/-! ### The inputs stay lines of text -/

theorem Inputs.Typed.withSection {i j : Inputs} (hi : i.Typed) (hj : j.Typed) (k : Section) :
    (i.withSection j k).Typed := by
  obtain ⟨hilines, hiclear⟩ := hi
  obtain ⟨hjlines, hjclear⟩ := hj
  simp only [Inputs.lines, List.forall_mem_cons] at hilines hjlines
  simp only [Inputs.submitted, List.forall_mem_cons] at hiclear hjclear
  constructor
  · cases k <;> simp only [Inputs.withSection, Inputs.lines, List.forall_mem_cons] <;> tauto
  · cases k <;> simp only [Inputs.withSection, Inputs.submitted, List.forall_mem_cons] <;> tauto

theorem Inputs.Typed.clearPassword {i : Inputs} (hi : i.Typed) (k : Section) :
    (i.clearPassword k).Typed := by
  have hnil : ∀ key ∈ configKeys, ¬ LooksLike [] key := by decide +kernel
  have hnil' : ∀ key ∈ configKeys, ¬ LooksLike (trimCopy []) key := hnil
  obtain ⟨hilines, hiclear⟩ := hi
  simp only [Inputs.submitted, List.forall_mem_cons] at hiclear
  refine ⟨?_, ?_⟩
  · cases k <;> exact hilines
  · cases k <;> simp only [Inputs.clearPassword, Inputs.submitted, List.forall_mem_cons] <;> tauto

theorem Inputs.Typed.shown {i : Inputs} (hi : i.Typed) {c : Config} (hc : Kept c) :
    (shown c i).Typed := by
  have hclear := hc.clear
  have htrimmed := hc.trimmed
  have hiclear := hi.clear
  simp only [Config.texts, List.forall_mem_cons] at hclear
  simp only [List.forall_mem_cons] at htrimmed
  simp only [Inputs.submitted, List.forall_mem_cons] at hiclear
  obtain ⟨tUrl, tEntity₁, tName₁, tEntity₂, tName₂, tHost, tTopic, -⟩ := htrimmed
  refine ⟨hc.lines, ?_⟩
  simp only [Portal.shown, Inputs.submitted, List.forall_mem_cons, tUrl, tEntity₁, tName₁, tEntity₂,
    tName₂, tHost, tTopic]
  tauto

/-! ### The save bar -/

/-- The save bar is hidden if no section is dirty, and else names a dirty one. -/
theorem currentSection_updateDirtyState (p : Page) (preferred : Option Section) :
    ((p.updateDirtyState preferred).currentSection = none → ∀ k, p.sectionIsDirty k = false) ∧
      ∀ k ∈ (p.updateDirtyState preferred).currentSection, p.sectionIsDirty k = true := by
  have hfound : ([Section.homeAssistant, .mqtt, .system].find? p.sectionIsDirty = none →
      ∀ k, p.sectionIsDirty k = false) ∧
      ∀ k ∈ [Section.homeAssistant, .mqtt, .system].find? p.sectionIsDirty,
        p.sectionIsDirty k = true := by
    refine ⟨fun hnone k => ?_, fun k hk => List.find?_some hk⟩
    have hclean := List.find?_eq_none.mp hnone k (by cases k <;> decide)
    simpa using hclean
  cases hpreferred : preferred.filter p.sectionIsDirty with
  | none =>
    simp only [Page.updateDirtyState, hpreferred, Option.none_or]
    exact hfound
  | some k =>
    simp only [Page.updateDirtyState, hpreferred, Option.some_or]
    refine ⟨fun h => absurd h (by simp), fun k' hk' => ?_⟩
    obtain rfl := Option.some.inj hk'
    exact (Option.filter_eq_some_iff.mp hpreferred).2

end Portal

end Panel

end HaPanel
