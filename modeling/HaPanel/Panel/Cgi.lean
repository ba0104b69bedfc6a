import HaPanel.Panel.Config

/-!
# The configuration CGI

`cgi_config_main` and the form helpers it uses.  A request is the CGI environment with the
body on standard input; the outcome is the response, and the configuration file afterwards.
Every request runs in a process of its own, so it starts from `Config.builtin` and sees the
earlier ones through the file only.
-/

namespace HaPanel

namespace Panel

open Text

/-! ### Form data -/

/-- `hex_value`, with `none` for `-1`. -/
def hexValue (c : UInt8) : Option ℕ := hexDigit c

def urlDecode : Bytes → Bytes
  | [] => []
  | c :: s =>
    if c = byte '+' then byte ' ' :: urlDecode s
    else if c = byte '%' then
      match s with
      | h :: l :: t =>
        match hexValue h, hexValue l with
        | some high, some low => UInt8.ofNat (high <<< 4 ||| low) :: urlDecode t
        | _, _ => c :: urlDecode (h :: l :: t)
      | s => c :: urlDecode s
    else c :: urlDecode s

/-- The decoded value of one segment between `&`s, if it has the given name. -/
def segmentValue (key segment : Bytes) : Option Bytes :=
  match find [byte '='] segment with
  | none => none
  | some t =>
    if urlDecode (segment.take (segment.length - t.length)) = key then some (urlDecode t.tail)
    else none

def formValue (body key : Bytes) : Bytes :=
  ((body.splitOn (byte '&')).findSome? (segmentValue key)).getD []

def trimCopy (value : Bytes) : Bytes := (value.dropWhile isSpace).rdropWhile isSpace

def formBool (body key : Bytes) : Bool :=
  let value := formValue body key
  value = str "true" || value = str "1" || value = str "on"

def validEntityId (value : Bytes) : Bool :=
  match value.findIdx? (· == byte '.') with
  | none => false
  | some dot =>
    !(value.isEmpty || value.length > 128 || dot == 0 || dot == value.length - 1) &&
      value.all fun c => isAlnum c || c == byte '_' || c == byte '.'

/-! ### Requests and responses -/

/-- The environment and the standard input of a CGI process. -/
structure CgiRequest where
  /-- `REQUEST_METHOD`. -/
  method : Option Bytes
  /-- `HTTP_X_REQUESTED_WITH`. -/
  requestedWith : Option Bytes
  /-- `CONTENT_LENGTH`. -/
  contentLength : Option Bytes
  stdin : Bytes
  deriving DecidableEq

/-- A POST of the portal with the given body. -/
def CgiRequest.post (body : Bytes) : CgiRequest :=
  ⟨some (str "POST"), some (str "TPP01-Panel"), some (decimal body.length), body⟩

structure CgiResponse where
  status : ℕ
  json : Bytes
  deriving DecidableEq

/-- What `cgi_json_response` prints. -/
def cgiJsonResponse (r : CgiResponse) : Bytes :=
  let reason := if r.status = 403 then str "Forbidden"
    else if r.status = 500 then str "Internal Server Error" else str "Bad Request"
  (if r.status ≠ 200 then str "Status: " ++ decimal r.status ++ str " " ++ reason ++ str "\r\n"
    else []) ++
    str "Content-Type: application/json; charset=utf-8\r\n" ++
    str "Cache-Control: no-store\r\n\r\n" ++ r.json ++ str "\n"

/-- The response to a failure that names no field. -/
def failure (status : ℕ) (error : Bytes) : CgiResponse :=
  ⟨status, str "\x7b\"ok\":false,\"error\":\"" ++ error ++ str "\"\x7d"⟩

/-- The response to a field with an invalid value. -/
def fieldError (field error : Bytes) : CgiResponse :=
  ⟨400, str "\x7b\"ok\":false,\"field\":\"" ++ jsonEscape field ++ str "\",\"error\":\"" ++
    jsonEscape error ++ str "\"\x7d"⟩

/-- The response to a saved section. -/
def accepted (name : Bytes) : CgiResponse :=
  ⟨200, str "\x7b\"ok\":true,\"section\":\"" ++ jsonEscape name ++
    str "\",\"restart_required\":true\x7d"⟩

/-! ### The sections -/

/-- An invalid field and the message for it. -/
structure Rejection where
  field : Bytes
  error : Bytes
  deriving DecidableEq

/-- `new_url.compare(0, 7, "http://") == 0 || new_url.compare(0, 8, "https://") == 0`. -/
def hasHttpScheme (url : Bytes) : Bool :=
  (str "http://").isPrefixOf url || (str "https://").isPrefixOf url

/-- The `ha` branch of `cgi_config_main`. -/
def haSection (body : Bytes) (c : Config) : Except Rejection Config :=
  let disconnect := formBool body (str "disconnect")
  let newUrl := trimCopy (formValue body (str "ha_url"))
  let newToken := trimCopy (formValue body (str "ha_token"))
  let newEntity1 := trimCopy (formValue body (str "entity_1"))
  let newEntity2 := trimCopy (formValue body (str "entity_2"))
  let newName1 := trimCopy (formValue body (str "entity_1_name"))
  let newName2 := trimCopy (formValue body (str "entity_2_name"))
  if disconnect then .ok { c with haUrl := [], haToken := [], haEntity1 := [], haEntity2 := [] }
  else if !hasHttpScheme newUrl || newUrl.length > 512 then
    .error ⟨str "ha_url", str "Invalid Home Assistant URL"⟩
  else if newToken.isEmpty && c.haToken.isEmpty then
    .error ⟨str "ha_token", str "Access token is required"⟩
  else if !validEntityId newEntity1 then
    .error ⟨str "entity_1", str "Invalid first entity ID"⟩
  else if !validEntityId newEntity2 then
    .error ⟨str "entity_2", str "Invalid second entity ID"⟩
  else if newName1.isEmpty || newName1.length > 64 || newName2.isEmpty || newName2.length > 64 then
    .error ⟨str "entity_names", str "Entity names must contain 1 to 64 bytes"⟩
  else
    .ok { c with
      haUrl := newUrl
      haToken := if newToken.isEmpty then c.haToken else newToken
      haEntity1 := newEntity1
      haEntity1Name := newName1
      haEntity2 := newEntity2
      haEntity2Name := newName2 }

/-- The port in a text, if it is the decimal numeral of a number between 1 and 65535 for
`strtol`. -/
def portOf (text : Bytes) : Option Port :=
  let r := strtol (cStr text)
  if text.isEmpty || !r.2.isEmpty then none
  else if h : 1 ≤ r.1 ∧ r.1 ≤ 65535 then some ⟨r.1.toNat, by omega⟩
  else none

/-- The `mqtt` branch of `cgi_config_main`. -/
def mqttSection (body : Bytes) (c : Config) : Except Rejection Config :=
  let host := trimCopy (formValue body (str "mqtt_host"))
  let portText := trimCopy (formValue body (str "mqtt_port"))
  let username := formValue body (str "mqtt_user")
  let password := formValue body (str "mqtt_pass")
  let topic := trimCopy (formValue body (str "mqtt_topic"))
  let enabled := formBool body (str "mqtt_enabled")
  if enabled && (host.isEmpty || host.length > 255) then
    .error ⟨str "mqtt_host", str "MQTT host is required"⟩
  else match portOf portText with
    | none => .error ⟨str "mqtt_port", str "MQTT port must be between 1 and 65535"⟩
    | some port =>
      if username.length > 255 || password.length > 512 then
        .error ⟨str "mqtt_credentials", str "MQTT credentials are too long"⟩
      else if topic.isEmpty || topic.length > 255 then
        .error ⟨str "mqtt_topic", str "MQTT base topic is required"⟩
      else
        .ok { c with mqtt := { c.mqtt with
          enabled := enabled
          host := host
          port := port
          username := username
          password := if password.isEmpty then c.mqtt.password else password
          baseTopic := topic
          discovery := formBool body (str "mqtt_discovery") } }

/-- The `system` branch of `cgi_config_main`. -/
def systemSection (body : Bytes) (c : Config) : Except Rejection Config :=
  .ok { c with
    webAutostart := formBool body (str "web_autostart")
    haAutostart := formBool body (str "ha_autostart") }

/-- The record after a request body, or the field and message of its rejection. -/
def applyBody (body : Bytes) (c : Config) : Except Rejection Config :=
  let name := formValue body (str "section")
  if name = str "ha" then haSection body c
  else if name = str "mqtt" then mqttSection body c
  else if name = str "system" then systemSection body c
  else .error ⟨str "section", str "Unknown configuration section"⟩

/-! ### The process -/

/-- The number of body bytes a request announces, if it is acceptable. -/
def announcedLength (req : CgiRequest) : Option ℕ :=
  let n := match req.contentLength with
    | none => 0
    | some text => (strtol (cStr text)).1
  if n ≤ 0 ∨ n > 16384 then none else some n.toNat

/-- The body of a request, or the response to a request without an acceptable body. -/
def readBody (req : CgiRequest) : Except CgiResponse Bytes :=
  if req.method ≠ some (str "POST") then .error (failure 400 (str "POST required"))
  else if req.requestedWith ≠ some (str "TPP01-Panel") then
    .error (failure 403 (str "Invalid request origin"))
  else match announcedLength req with
    | none => .error (failure 400 (str "Invalid request size"))
    | some n =>
      if req.stdin.length < n then .error (failure 400 (str "Incomplete request"))
      else .ok (req.stdin.take n)

/-- The body of a portal request arrives. -/
theorem readBody_post {body : Bytes} (hne : body ≠ []) (hlen : body.length ≤ 16384) :
    readBody (.post body) = .ok body := by
  have hpos : 0 < body.length := List.length_pos_iff.mpr hne
  have hann : announcedLength (.post body) = some body.length := by
    simp only [announcedLength, CgiRequest.post, cStr_decimal, strtol_decimal (n := body.length)
      (by omega)]
    rw [if_neg (by omega), Int.toNat_natCast]
  rw [readBody, if_neg (by simp [CgiRequest.post]), if_neg (by simp [CgiRequest.post]), hann]
  simp [CgiRequest.post]

/-- The variables of the process after `if (config_exists()) load_configuration();`. -/
def currentConfig (ops : FileOps) (file : Option Bytes) : Config :=
  (loadConfiguration ops Config.builtin file).2

/-- The response of `cgi_config_main` and the configuration file after it.  The process exits
with status 0 exactly when the response has status 200. -/
def cgiConfigMain (ops : FileOps) (req : CgiRequest) (file : Option Bytes) :
    CgiResponse × Option Bytes :=
  match readBody req with
  | .error r => (r, file)
  | .ok body =>
    if !ops.lock then (failure 500 (str "Configuration is busy"), file)
    else match applyBody body (currentConfig ops file) with
      | .error e => (fieldError e.field e.error, file)
      | .ok c =>
        let saved := saveConfiguration ops c file
        if saved.1 then (accepted (formValue body (str "section")), saved.2)
        else (failure 500 (str "Unable to save configuration"), saved.2)

end Panel

end HaPanel
