import HaPanel.Panel.Status
import HaPanel.Panel.Url
import HaPanel.Text.Shell

/-!
# Command lines with configured values

`ha_request` has `sh` run `curl`, and `stream_and_play_tts` a pipeline from `curl` to the player.
The command lines contain the access token, the address and what the server sent, between double
quotation marks and without any escaping.

`shell_line_iff` : the shell splits such a line into the intended words exactly if the values
between the quotation marks are safe there (`QuoteSafe`).  `cgi_config_main` does not ask for that:
`token_runs_command`.
-/

namespace HaPanel

namespace Panel

open Text Shell

open Assist (ParsedUrl parseHaUrl)

/-! ### Requests -/

/-- An entity ID that `cgi_config_main` accepts. -/
abbrev EntityId := {e : Bytes // validEntityId e = true}

/-- An address of `get_wlan0_ip`. -/
structure Ipv4 where
  a : UInt8
  b : UInt8
  c : UInt8
  d : UInt8
  deriving DecidableEq

/-- What `inet_ntop` writes. -/
def Ipv4.text (ip : Ipv4) : Bytes :=
  decimal ip.a.toNat ++ str "." ++ decimal ip.b.toNat ++ str "." ++ decimal ip.c.toNat ++ str "." ++
    decimal ip.d.toNat

/-- The arguments of `ha_request`. -/
structure HaRequest where
  method : Bytes
  endpoint : Bytes
  body : Bytes
  deriving DecidableEq

/-- The places that call `ha_request`. -/
inductive HaCall where
  /-- The first request of `publish_panel_state_to_ha`. -/
  | screen (ip : Ipv4) (blanked : Bool)
  /-- The second request of `publish_panel_state_to_ha`. -/
  | status (ip : Ipv4) (screenTimeoutMs : UInt32)
  /-- `update_control_state` and `state_poll_timer_cb`. -/
  | state (entity : EntityId)
  /-- `btn_event_cb`. -/
  | toggle (entity : EntityId)
  deriving DecidableEq

/-- The domains whose entities a button toggles. -/
def toggleDomains : List Bytes := [str "light", str "fan", str "switch", str "input_boolean"]

/-- The arguments, if the place calls `ha_request` at all. -/
def HaCall.request : HaCall → Option HaRequest
  | screen ip blanked => some
    { method := str "POST"
      endpoint := str "/api/states/binary_sensor.moes_panel_screen"
      body := str "\x7b\"state\":\"" ++ (if blanked then str "off" else str "on") ++
        str "\",\"attributes\":\x7b\"friendly_name\":\"MOES Panel - Ekran\",\"ip_address\":\"" ++
        ip.text ++ str "\",\"version\":\"" ++ currentVersion ++ str "\"\x7d\x7d" }
  | status ip screenTimeoutMs => some
    { method := str "POST"
      endpoint := str "/api/states/sensor.moes_panel_status"
      body := str "\x7b\"state\":\"online\",\"attributes\":\x7b" ++
        str "\"friendly_name\":\"MOES Panel - Status\",\"ip_address\":\"" ++
        ip.text ++ str "\",\"version\":\"" ++ currentVersion ++ str "\",\"screen_timeout_s\":" ++
        decimal (screenTimeoutMs / 1000).toNat ++ str "\x7d\x7d" }
  | state entity => some
    { method := str "GET", endpoint := str "/api/states/" ++ entity.1, body := [] }
  | toggle entity =>
    let domain := entity.1.takeWhile (· ≠ byte '.')
    if domain ∈ toggleDomains then some
      { method := str "POST"
        endpoint := str "/api/services/" ++ domain ++ str "/toggle"
        body := str "\x7b\"entity_id\":\"" ++ entity.1 ++ str "\"\x7d" }
    else none

/-! ### Command lines -/

/-- `curl_bin`: is there a `curl` in `/tuya/data`? -/
def curlBin (own : Bool) : Bytes := if own then str "/tuya/data/curl" else str "curl"

/-- A byte that `ha_request` strips from the end of the address. -/
def isUrlTrailing (c : UInt8) : Bool := c == byte '/' || c == byte ' ' || c == 13 || c == 10

/-- `full_url`. -/
def fullUrl (haUrl endpoint : Bytes) : Bytes := haUrl.rdropWhile isUrlTrailing ++ endpoint

/-- The command line of `ha_request`. -/
def haRequestLine (own : Bool) (haUrl haToken : Bytes) (r : HaRequest) : Bytes :=
  curlBin own ++ str " -s -k -m 5 -i -X " ++ r.method ++
    str " -H \"Authorization: Bearer " ++ haToken ++ str "\"" ++
    str " -H \"Accept: application/json\"" ++
    (if r.body = [] then [] else
      str " -H \"Content-Type: application/json\"" ++ str " -d '" ++ r.body ++ str "'") ++
    str " \"" ++ fullUrl haUrl r.endpoint ++ str "\" 2>/dev/null"

/-- The `url` of `stream_and_play_tts`. -/
def ttsUrl (parsed : ParsedUrl) (path : Bytes) : Bytes :=
  str "https://" ++ parsed.host ++ str ":" ++ decimalInt parsed.port ++ parsed.basePath ++ path

/-- The command line of `stream_and_play_tts`. -/
def ttsLine (parsed : ParsedUrl) (path : Bytes) : Bytes :=
  str "/tuya/data/curl -fskL --max-time 30 \"" ++ ttsUrl parsed path ++ str "\" | " ++
    str "/usr/bin/gst-launch-1.0 -q fdsrc fd=0 ! decodebin ! " ++
    str "audioconvert ! audioresample ! " ++
    str "audio/x-raw,format=S16LE,rate=48000,channels=2 ! " ++
    str "alsasink device=hw:0,0 sync=false"

/-- What `download_and_play_tts` checks before it streams. -/
def acceptsTts (path mimeType : Bytes) : Bool :=
  (str "/api/tts_proxy/").isPrefixOf path && (str "audio/").isPrefixOf mimeType

/-- A command line with configured values, or with values of the server. -/
inductive ShellCall where
  | request (own : Bool) (call : HaCall)
  | tts (path mimeType : Bytes)
  deriving DecidableEq

/-- What `/bin/sh -c` is given: a command line, if there is one, up to its first zero byte. -/
def ShellCall.line (haUrl haToken : Bytes) : ShellCall → Option Bytes
  | request own call => call.request.map fun r => cStr (haRequestLine own haUrl haToken r)
  | tts path mimeType =>
    if acceptsTts path mimeType then (parseHaUrl haUrl).map fun parsed => cStr (ttsLine parsed path)
    else none

def words (texts : List Bytes) : List Token := texts.map .word

/-- The intended tokens of the command line of `ha_request`. -/
def haRequestTokens (own : Bool) (haUrl haToken : Bytes) (r : HaRequest) : List Token :=
  words [curlBin own, str "-s", str "-k", str "-m", str "5", str "-i", str "-X", r.method, str "-H",
      str "Authorization: Bearer " ++ haToken, str "-H", str "Accept: application/json"] ++
    words (if r.body = [] then [] else
      [str "-H", str "Content-Type: application/json", str "-d", r.body]) ++
    words [fullUrl haUrl r.endpoint] ++
    [.ioNumber (str "2"), .operator (byte '>'), .word (str "/dev/null")]

/-- The intended tokens of the command line of `stream_and_play_tts`. -/
def ttsTokens (parsed : ParsedUrl) (path : Bytes) : List Token :=
  words [str "/tuya/data/curl", str "-fskL", str "--max-time", str "30", ttsUrl parsed path] ++
    [.operator (byte '|')] ++
    words [str "/usr/bin/gst-launch-1.0", str "-q", str "fdsrc", str "fd=0", str "!",
      str "decodebin", str "!", str "audioconvert", str "!", str "audioresample", str "!",
      str "audio/x-raw,format=S16LE,rate=48000,channels=2", str "!", str "alsasink",
      str "device=hw:0,0", str "sync=false"]

/-- The intended tokens. -/
def ShellCall.intended (haUrl haToken : Bytes) : ShellCall → Option (List Token)
  | request own call => call.request.map (haRequestTokens own haUrl haToken)
  | tts path _ => (parseHaUrl haUrl).map fun parsed => ttsTokens parsed path

/-- The value has no zero byte, and nothing that is special between double quotation marks. -/
def QuoteSafe (v : Bytes) : Prop := 0 ∉ v ∧ doubleSafe v = true

instance (v : Bytes) : Decidable (QuoteSafe v) := inferInstanceAs (Decidable (_ ∧ _))

/-- The values between the quotation marks of the command line are safe there. -/
def ShellCall.Safe (haUrl haToken : Bytes) : ShellCall → Prop
  | request _ call =>
    QuoteSafe haToken ∧ ∀ r ∈ call.request, QuoteSafe (fullUrl haUrl r.endpoint)
  | tts path _ => ∀ parsed ∈ parseHaUrl haUrl, QuoteSafe (ttsUrl parsed path)

/-! ### The command line of the player -/

/-- The bytes whose loss would show a quotation that is not intended. -/
def quoters : List UInt8 := [byte '\'', byte '\\', byte '#']

/-- The text before the address. -/
def ttsHead : Bytes := str "/tuya/data/curl -fskL --max-time 30 "

/-- The text after the address. -/
def ttsTail : Bytes :=
  str "| " ++ (str "/usr/bin/gst-launch-1.0 -q fdsrc fd=0 ! decodebin ! " ++
    (str "audioconvert ! audioresample ! " ++
      (str "audio/x-raw,format=S16LE,rate=48000,channels=2 ! " ++
        str "alsasink device=hw:0,0 sync=false")))

theorem ttsLine_eq (parsed : ParsedUrl) (path : Bytes) :
    ttsLine parsed path =
      ttsHead ++ byte '"' :: (ttsUrl parsed path ++ byte '"' :: byte ' ' :: ttsTail) := by
  have hhead : str "/tuya/data/curl -fskL --max-time 30 \"" = ttsHead ++ [byte '"'] := by
    rw [ttsHead, str_ofList, str_ofList]
    rfl
  have htail : str "\" | " = byte '"' :: byte ' ' :: str "| " := by decide
  rw [ttsLine, hhead, htail, ttsTail]
  simp only [List.append_assoc, List.cons_append, List.nil_append]

theorem ttsTokens_eq (parsed : ParsedUrl) (path : Bytes) :
    ttsTokens parsed path =
      words [str "/tuya/data/curl", str "-fskL", str "--max-time", str "30"] ++
        .word (ttsUrl parsed path) :: (.operator (byte '|') ::
          words [str "/usr/bin/gst-launch-1.0", str "-q", str "fdsrc", str "fd=0", str "!",
            str "decodebin", str "!", str "audioconvert", str "!", str "audioresample", str "!",
            str "audio/x-raw,format=S16LE,rate=48000,channels=2", str "!", str "alsasink",
            str "device=hw:0,0", str "sync=false"]) := by
  simp [ttsTokens, words]

theorem run_ttsHead : ({} : Lexer).run ttsHead =
    some { tokens := words [str "/tuya/data/curl", str "-fskL", str "--max-time", str "30"] } := by
  rw [ttsHead]
  repeat rw [str_ofList]
  decide +kernel

/-- The words after the address, piece by piece. -/
theorem tokens_ttsTail : tokens ttsTail = some (.operator (byte '|') ::
    words [str "/usr/bin/gst-launch-1.0", str "-q", str "fdsrc", str "fd=0", str "!",
      str "decodebin", str "!", str "audioconvert", str "!", str "audioresample", str "!",
      str "audio/x-raw,format=S16LE,rate=48000,channels=2", str "!", str "alsasink",
      str "device=hw:0,0", str "sync=false"]) := by
  have hpipe : ({} : Lexer).run (str "| ") = some { tokens := [.operator (byte '|')] } := by decide
  have hsource : ({} : Lexer).run (str "/usr/bin/gst-launch-1.0 -q fdsrc fd=0 ! decodebin ! ") =
      some { tokens := words [str "/usr/bin/gst-launch-1.0", str "-q", str "fdsrc", str "fd=0",
        str "!", str "decodebin", str "!"] } := by
    repeat rw [str_ofList]
    decide +kernel
  have hconvert : ({} : Lexer).run (str "audioconvert ! audioresample ! ") =
      some { tokens := words [str "audioconvert", str "!", str "audioresample", str "!"] } := by
    repeat rw [str_ofList]
    decide +kernel
  have hformat : ({} : Lexer).run (str "audio/x-raw,format=S16LE,rate=48000,channels=2 ! ") =
      some { tokens := words [str "audio/x-raw,format=S16LE,rate=48000,channels=2", str "!"] } := by
    repeat rw [str_ofList]
    decide +kernel
  have hsink : tokens (str "alsasink device=hw:0,0 sync=false") =
      some (words [str "alsasink", str "device=hw:0,0", str "sync=false"]) := by
    repeat rw [str_ofList]
    decide +kernel
  rw [ttsTail, tokens, Lexer.run_piece hpipe [], Lexer.run_piece hsource, Lexer.run_piece hconvert,
    Lexer.run_piece hformat, tokens_rest, hsink]
  rfl

theorem tokens_ttsLine {parsed : ParsedUrl} {path : Bytes}
    (h : doubleSafe (ttsUrl parsed path) = true) :
    tokens (ttsLine parsed path) = some (ttsTokens parsed path) := by
  rw [ttsLine_eq, ttsTokens_eq]
  exact tokens_double run_ttsHead h tokens_ttsTail

theorem notMem_ttsPieces : ∀ q ∈ 0 :: quoters,
    q ∉ ttsHead ∧ q ∉ ttsTail ∧ q ≠ byte '"' ∧ q ≠ byte ' ' := by
  rw [ttsHead, ttsTail]
  repeat rw [str_ofList]
  decide +kernel

theorem keeps_ttsLine (parsed : ParsedUrl) (path : Bytes) {q : UInt8} (hq : q ∈ quoters) :
    Keeps q 0 (ttsLine parsed path) (ttsTokens parsed path) := by
  obtain ⟨h₁, h₂, h₃, h₄⟩ := notMem_ttsPieces q (List.mem_cons_of_mem 0 hq)
  rw [← List.count_eq_zero] at h₁ h₂
  rw [Keeps, ttsLine_eq, ttsTokens_eq]
  simp only [texts, List.count_append, List.count_cons, List.flatMap_append, List.flatMap_cons,
    Token.text, h₁, h₂]
  simp [Ne.symm h₃, Ne.symm h₄]
  omega

theorem ttsLine_iff (parsed : ParsedUrl) (path : Bytes) :
    tokens (cStr (ttsLine parsed path)) = some (ttsTokens parsed path) ↔
      QuoteSafe (ttsUrl parsed path) := by
  have hcstr : 0 ∉ ttsUrl parsed path → cStr (ttsLine parsed path) = ttsLine parsed path := by
    intro hzero
    have hclosed := notMem_ttsPieces 0 List.mem_cons_self
    refine cStr_eq_self ?_
    rw [ttsLine_eq]
    simp [hzero, hclosed]
  constructor
  · intro h
    have hzero : 0 ∉ ttsUrl parsed path := by
      intro hmem
      refine zero_notMem_cStr _ ((texts_sublist h).subset ?_)
      rw [ttsTokens_eq]
      simp [texts, Token.text, hmem]
    rw [hcstr hzero] at h
    have hkeeps : ∀ q ∈ quoters, Keeps q 0 (ttsLine parsed path) (ttsTokens parsed path) :=
      fun q hq => keeps_ttsLine parsed path hq
    have hmarked := markedTokens_eq_zero h (hkeeps _ (by decide)) (hkeeps _ (by decide))
      (hkeeps _ (by decide))
    have hurl : Lexer.marked (ttsUrl parsed path) = false := by
      rw [markedTokens, List.countP_eq_zero] at hmarked
      have := hmarked (.word (ttsUrl parsed path)) (by rw [ttsTokens_eq]; simp)
      simpa [Token.text] using this
    refine ⟨hzero, ?_⟩
    have hb := hkeeps (byte '\\') (by decide)
    rw [ttsLine_eq] at h hb
    exact doubleSafe_of_tokens run_ttsHead h hb hurl
  · rintro ⟨hzero, hsafe⟩
    rw [hcstr hzero]
    exact tokens_ttsLine hsafe

/-! ### The command line of a request -/

/-- The text before the token. -/
def requestHead (own : Bool) (method : Bytes) : Bytes :=
  curlBin own ++ str " -s -k -m 5 -i -X " ++ method ++ str " -H "

/-- The arguments for the body. -/
def bodyArguments (body : Bytes) : Bytes :=
  if body = [] then [] else
    str "-H \"Content-Type: application/json\" -d " ++ byte '\'' :: (body ++ str "' ")

/-- The text between token and address. -/
def requestMiddle (body : Bytes) : Bytes :=
  str "-H \"Accept: application/json\" " ++ bodyArguments body

def authorization (haToken : Bytes) : Bytes := str "Authorization: Bearer " ++ haToken

theorem haRequestLine_eq (own : Bool) (haUrl haToken : Bytes) (r : HaRequest) :
    haRequestLine own haUrl haToken r =
      requestHead own r.method ++ byte '"' :: (authorization haToken ++ byte '"' :: byte ' ' ::
        (requestMiddle r.body ++ byte '"' :: (fullUrl haUrl r.endpoint ++ byte '"' :: byte ' ' ::
          str "2>/dev/null"))) := by
  have h₁ : str " -H \"Authorization: Bearer " =
      str " -H " ++ byte '"' :: str "Authorization: Bearer " := by
    rw [str_ofList, str_ofList, str_ofList]
    rfl
  have h₂ : str "\"" = [byte '"'] := by decide
  have h₃ : str " -H \"Accept: application/json\"" =
      byte ' ' :: str "-H \"Accept: application/json\"" := by
    rw [str_ofList, str_ofList]
    rfl
  have h₄ : str "-H \"Accept: application/json\" " =
      str "-H \"Accept: application/json\"" ++ [byte ' '] := by
    rw [str_ofList, str_ofList]
    rfl
  have h₅ : str " \"" = [byte ' ', byte '"'] := by decide
  have h₆ : str "\" 2>/dev/null" = byte '"' :: byte ' ' :: str "2>/dev/null" := by decide
  have h₇ : str " -H \"Content-Type: application/json\"" ++ str " -d '" =
      byte ' ' :: str "-H \"Content-Type: application/json\" -d " ++ [byte '\''] := by
    rw [str_ofList, str_ofList, str_ofList]
    rfl
  have h₈ : str "'" = [byte '\''] := by decide
  have h₉ : str "' " = [byte '\'', byte ' '] := by decide
  unfold haRequestLine requestHead authorization requestMiddle bodyArguments
  rw [h₁, h₂, h₃, h₄, h₅, h₆, h₇, h₈, h₉]
  split_ifs
  · simp
  · simp

/-- What the program passes to `ha_request`, apart from the endpoint. -/
structure HaRequest.Regular (r : HaRequest) : Prop where
  method : r.method = str "GET" ∨ r.method = str "POST"
  apostrophe : byte '\'' ∉ r.body
  zero : 0 ∉ r.body
  /-- A body is an object, and has quotation marks. -/
  marked : r.body ≠ [] → Lexer.marked r.body = true

theorem notMem_entityId (e : EntityId) : ∀ q ∈ [byte '\'', 0], q ∉ e.1 := by
  obtain ⟨e, he⟩ := e
  have hall : ∀ c ∈ e, (isAlnum c || c == byte '_' || c == byte '.') = true := by
    unfold validEntityId at he
    split at he
    · cases he
    · exact List.all_eq_true.mp (Bool.and_eq_true_iff.mp he).2
  have hnone : ∀ q ∈ [byte '\'', 0], (isAlnum q || q == byte '_' || q == byte '.') = false :=
    forall_mem_of_all (by decide)
  intro q hq hmem
  have hsome := hall q hmem
  rw [hnone q hq] at hsome
  cases hsome

theorem not_isDigit : ∀ q ∈ [byte '\'', 0], isDigit q = false := forall_mem_of_all (by decide)

theorem notMem_ipv4 (ip : Ipv4) : ∀ q ∈ [byte '\'', 0], q ∉ ip.text := by
  intro q hq
  have hdot : ∀ q ∈ [byte '\'', 0], q ∉ str "." := forall_mem_of_all (by decide)
  simp [Ipv4.text, notMem_decimal (not_isDigit q hq), hdot q hq]

/-- The fixed pieces of the bodies have no apostrophe and no zero byte. -/
theorem notMem_bodyPieces : ∀ q ∈ [byte '\'', 0],
    (q ∉ str "\x7b\"state\":\"" ∧ q ∉ str "off" ∧ q ∉ str "on" ∧
      q ∉ str "\",\"attributes\":\x7b\"friendly_name\":\"MOES Panel - Ekran\",\"ip_address\":\"" ∧
      q ∉ str "\",\"version\":\"" ∧ q ∉ currentVersion ∧ q ∉ str "\"\x7d\x7d") ∧
    (q ∉ str "\x7b\"state\":\"online\",\"attributes\":\x7b" ∧
      q ∉ str "\"friendly_name\":\"MOES Panel - Status\",\"ip_address\":\"" ∧
      q ∉ str "\",\"screen_timeout_s\":" ∧ q ∉ str "\x7d\x7d") ∧
    q ∉ str "\x7b\"entity_id\":\"" ∧ q ∉ str "\"\x7d" := by
  rw [currentVersion]
  repeat rw [str_ofList]
  decide +kernel

theorem HaRequest.Regular.post {r : HaRequest} (hmethod : r.method = str "POST")
    (hbody : ∀ q ∈ [byte '\'', 0], q ∉ r.body) (hquote : byte '"' ∈ r.body) : r.Regular where
  method := .inr hmethod
  apostrophe := hbody _ (by decide)
  zero := hbody _ (by decide)
  marked _ := List.any_eq_true.mpr ⟨_, hquote, by decide⟩

theorem HaCall.regular {call : HaCall} {r : HaRequest} (h : call.request = some r) : r.Regular := by
  cases call with
  | screen ip blanked =>
    cases h
    have hquote : byte '"' ∈ str "\x7b\"state\":\"" := by decide
    refine .post rfl (fun q hq => ?_) (by simp [hquote])
    obtain ⟨⟨h₁, h₂, h₃, h₄, h₅, h₆, h₇⟩, -⟩ := notMem_bodyPieces q hq
    cases blanked <;> simp [h₁, h₂, h₃, h₄, h₅, h₆, h₇, notMem_ipv4 ip q hq]
  | status ip screenTimeoutMs =>
    cases h
    have hquote : byte '"' ∈ str "\",\"version\":\"" := by decide
    refine .post rfl (fun q hq => ?_) (by simp [hquote])
    obtain ⟨⟨-, -, -, -, h₁, h₂, -⟩, ⟨h₃, h₄, h₅, h₆⟩, -⟩ := notMem_bodyPieces q hq
    simp [h₁, h₂, h₃, h₄, h₅, h₆, notMem_ipv4 ip q hq, notMem_decimal (not_isDigit q hq)]
  | state entity =>
    cases h
    exact ⟨.inl rfl, by simp, by simp, fun h => absurd rfl h⟩
  | toggle entity =>
    simp only [HaCall.request] at h
    split_ifs at h
    cases h
    have hquote : byte '"' ∈ str "\"\x7d" := by decide
    refine .post rfl (fun q hq => ?_) (by simp [hquote])
    obtain ⟨-, -, h₁, h₂⟩ := notMem_bodyPieces q hq
    simp [h₁, h₂, notMem_entityId entity q hq]

/-- The words before the token. -/
def headWords (own : Bool) (method : Bytes) : List Token :=
  words [curlBin own, str "-s", str "-k", str "-m", str "5", str "-i", str "-X", method, str "-H"]

/-- The words between token and address. -/
def middleWords (body : Bytes) : List Token :=
  words ([str "-H", str "Accept: application/json"] ++ if body = [] then [] else
    [str "-H", str "Content-Type: application/json", str "-d", body])

/-- The redirection at the end. -/
def discardErrors : List Token :=
  [.ioNumber (str "2"), .operator (byte '>'), .word (str "/dev/null")]

theorem haRequestTokens_eq (own : Bool) (haUrl haToken : Bytes) (r : HaRequest) :
    haRequestTokens own haUrl haToken r = headWords own r.method ++
      .word (authorization haToken) :: (middleWords r.body ++
        .word (fullUrl haUrl r.endpoint) :: discardErrors) := by
  simp [haRequestTokens, words, headWords, middleWords, authorization, discardErrors]

theorem run_requestHead (own : Bool) {method : Bytes}
    (h : method = str "GET" ∨ method = str "POST") :
    ({} : Lexer).run (requestHead own method) = some { tokens := headWords own method } := by
  rw [requestHead, headWords, curlBin]
  rcases h with rfl | rfl <;> cases own
  all_goals
    simp only [Bool.false_eq_true, ↓reduceIte]
    repeat rw [str_ofList]
    decide +kernel

theorem run_requestMiddle {body : Bytes} (h : byte '\'' ∉ body) :
    ({} : Lexer).run (requestMiddle body) = some { tokens := middleWords body } := by
  have haccept : ({} : Lexer).run (str "-H \"Accept: application/json\" ") =
      some { tokens := words [str "-H", str "Accept: application/json"] } := by
    repeat rw [str_ofList]
    decide +kernel
  have htype : ({} : Lexer).run (str "-H \"Content-Type: application/json\" -d ") =
      some { tokens := words [str "-H", str "Content-Type: application/json", str "-d"] } := by
    repeat rw [str_ofList]
    decide +kernel
  have hclose : str "' " = [byte '\'', byte ' '] := by decide
  rw [requestMiddle]
  refine (Lexer.run_piece haccept [] _).trans ?_
  rw [bodyArguments, middleWords]
  split_ifs
  · simp
  · have hblank : ∀ ts, (⟨.plain, some ⟨body, false⟩, ts⟩ : Lexer).run [byte ' '] =
        some { tokens := ts ++ [.word body] } := fun _ => rfl
    rw [Lexer.run_piece htype, hclose, Lexer.run_single_word h, hblank]
    simp [words]

/-- The line up to the address. -/
theorem run_to_url (own : Bool) {haToken : Bytes} {r : HaRequest} (hr : r.Regular)
    (htoken : doubleSafe (authorization haToken) = true) :
    ({} : Lexer).run (requestHead own r.method ++ byte '"' :: (authorization haToken ++
        byte '"' :: byte ' ' :: requestMiddle r.body)) =
      some { tokens := headWords own r.method ++ [.word (authorization haToken)] ++
        middleWords r.body } := by
  have hmiddle := Lexer.run_piece (run_requestMiddle hr.apostrophe)
    (headWords own r.method ++ [.word (authorization haToken)]) []
  rw [List.append_nil, Lexer.run_nil] at hmiddle
  rw [Lexer.run_append, run_requestHead own hr.method, Option.bind_some,
    Lexer.run_double_word htoken, hmiddle]

theorem tokens_haRequestLine {own : Bool} {haUrl haToken : Bytes} {r : HaRequest} (hr : r.Regular)
    (htoken : doubleSafe (authorization haToken) = true)
    (hurl : doubleSafe (fullUrl haUrl r.endpoint) = true) :
    tokens (haRequestLine own haUrl haToken r) = some (haRequestTokens own haUrl haToken r) := by
  rw [haRequestLine_eq, haRequestTokens_eq]
  refine tokens_double (run_requestHead own hr.method) htoken ?_
  exact tokens_double (run_requestMiddle hr.apostrophe) hurl (by decide)

theorem doubleSafe_authorization (haToken : Bytes) :
    doubleSafe (authorization haToken) = doubleSafe haToken :=
  Lexer.doubleSafe_append (forall_mem_of_all (by decide)) haToken

theorem marked_authorization (haToken : Bytes) :
    Lexer.marked (authorization haToken) = Lexer.marked haToken := by
  have hbearer : Lexer.marked (str "Authorization: Bearer ") = false := by decide
  rw [authorization, Lexer.marked, List.any_append]
  rw [Lexer.marked] at hbearer
  rw [hbearer, Bool.false_or, Lexer.marked]

/-- The fixed pieces of the line have no quoting byte but quotation marks, and no zero byte. -/
theorem notMem_requestPieces (own : Bool) {method : Bytes}
    (hmethod : method = str "GET" ∨ method = str "POST") {q : UInt8} (hq : q ∈ 0 :: quoters) :
    q ∉ requestHead own method ∧
      (q ∉ str "-H \"Accept: application/json\" " ∧
        q ∉ str "-H \"Content-Type: application/json\" -d ") ∧
      q ∉ str "2>/dev/null" ∧ q ≠ byte '"' ∧ q ≠ byte ' ' := by
  have hclosed : ∀ q ∈ 0 :: quoters,
      (q ∉ str "/tuya/data/curl" ∧ q ∉ str "curl" ∧ q ∉ str " -s -k -m 5 -i -X " ∧ q ∉ str "GET" ∧
        q ∉ str "POST" ∧ q ∉ str " -H ") ∧
      (q ∉ str "-H \"Accept: application/json\" " ∧
        q ∉ str "-H \"Content-Type: application/json\" -d ") ∧
      q ∉ str "2>/dev/null" ∧ q ≠ byte '"' ∧ q ≠ byte ' ' := by
    repeat rw [str_ofList]
    decide +kernel
  obtain ⟨⟨h₁, h₂, h₃, h₄, h₅, h₆⟩, hrest⟩ := hclosed q hq
  refine ⟨?_, hrest⟩
  unfold requestHead curlBin
  rcases hmethod with rfl | rfl <;> cases own <;> simp [h₁, h₂, h₃, h₄, h₅, h₆]

section

variable {own : Bool} {haUrl haToken : Bytes} {r : HaRequest}

theorem zero_notMem_haRequestLine (hr : r.Regular) (htoken : 0 ∉ haToken)
    (hurl : 0 ∉ fullUrl haUrl r.endpoint) : 0 ∉ haRequestLine own haUrl haToken r := by
  obtain ⟨hhead, hmiddle, hend, hquote, hblank⟩ :=
    notMem_requestPieces own hr.method List.mem_cons_self
  have hbearer : 0 ∉ str "Authorization: Bearer " := by decide
  have hbody : 0 ∉ requestMiddle r.body := by
    have hclose : 0 ∉ str "' " ∧ 0 ≠ byte '\'' := by decide
    unfold requestMiddle bodyArguments
    split_ifs
    · simpa using hmiddle.1
    · simp [hmiddle, hclose, hr.zero]
  rw [haRequestLine_eq]
  simp [hhead, hbody, hend, hquote, hblank, hbearer, htoken, hurl, authorization]

/-- The quotation marks of the body are lost, and nothing else of the bytes that quote. -/
theorem keeps_haRequestLine (own : Bool) (haUrl haToken : Bytes) (hr : r.Regular) {q : UInt8}
    (hq : q ∈ quoters) :
    Keeps q (if q = byte '\'' ∧ r.body ≠ [] then 2 else 0) (haRequestLine own haUrl haToken r)
      (haRequestTokens own haUrl haToken r) := by
  obtain ⟨hhead, ⟨h₄, h₅⟩, h₁, h₂, h₃⟩ :=
    notMem_requestPieces own hr.method (List.mem_cons_of_mem 0 hq)
  rw [← List.count_eq_zero] at hhead h₁ h₄ h₅
  rw [Keeps, haRequestLine_eq, haRequestTokens_eq]
  have hmiddle : (requestMiddle r.body).count q ≤
      (texts (middleWords r.body)).count q + if q = byte '\'' ∧ r.body ≠ [] then 2 else 0 := by
    have hclose : str "' " = [byte '\'', byte ' '] := by decide
    unfold requestMiddle bodyArguments middleWords
    rw [hclose]
    split_ifs with hbody hquote hquote
    · simp [h₄]
    · simp [h₄]
    · simp only [List.count_append, List.count_cons, List.count_nil, h₄, h₅, texts, words,
        List.map_append, List.map_cons, List.map_nil, List.flatMap_append, List.flatMap_cons,
        Token.text]
      simp only [beq_iff_eq, Ne.symm h₃, if_false]
      split_ifs <;> omega
    · simp only [List.count_append, List.count_cons, List.count_nil, h₄, h₅, texts, words,
        List.map_append, List.map_cons, List.map_nil, List.flatMap_append, List.flatMap_cons,
        Token.text]
      have hne : q ≠ byte '\'' := fun h => hquote ⟨h, hbody⟩
      simp [Ne.symm hne, Ne.symm h₃]
      omega
  have htexts : ∀ ts us : List Token, texts (ts ++ us) = texts ts ++ texts us := fun ts us => by
    simp [texts]
  have hcons : ∀ v (ts : List Token), texts (.word v :: ts) = v ++ texts ts := fun v ts => by
    simp [texts, Token.text]
  rw [htexts, hcons, htexts, hcons]
  simp only [List.count_append, List.count_cons, h₁, hhead, beq_iff_eq, Ne.symm h₂, Ne.symm h₃,
    if_false]
  omega

/-- Neither the token nor the address has a special byte: the quotation marks of the body quote
one word, and that is the body. -/
theorem unmarked_of_tokens (hr : r.Regular)
    (h : tokens (haRequestLine own haUrl haToken r) = some (haRequestTokens own haUrl haToken r)) :
    Lexer.marked haToken = false ∧ Lexer.marked (fullUrl haUrl r.endpoint) = false := by
  have hs := keeps_haRequestLine own haUrl haToken hr (q := byte '\'') (by decide)
  have hb := keeps_haRequestLine own haUrl haToken hr (q := byte '\\') (by decide)
  have hh := keeps_haRequestLine own haUrl haToken hr (q := byte '#') (by decide)
  rw [if_neg fun h => absurd h.1 (by decide)] at hb hh
  have hcount : markedTokens (haRequestTokens own haUrl haToken r) =
      markedTokens (headWords own r.method) + (if Lexer.marked haToken then 1 else 0) +
        markedTokens (middleWords r.body) +
        (if Lexer.marked (fullUrl haUrl r.endpoint) then 1 else 0) + markedTokens discardErrors := by
    rw [haRequestTokens_eq]
    simp only [markedTokens, List.countP_append, List.countP_cons, Token.text, marked_authorization]
    omega
  suffices hle : markedTokens (haRequestTokens own haUrl haToken r) ≤
      markedTokens (middleWords r.body) by
    constructor
    · by_contra hmark
      rw [hcount, if_pos (by simpa using hmark)] at hle
      omega
    · by_contra hmark
      rw [hcount, if_pos (c := Lexer.marked (fullUrl _ _) = true) (by simpa using hmark)] at hle
      omega
  by_cases hbody : r.body = []
  · rw [if_neg (by simp [hbody])] at hs
    have hzero := markedTokens_eq_zero h hs hb hh
    omega
  · rw [if_pos ⟨rfl, hbody⟩] at hs
    have hone := markedTokens_le_one h hs hb hh
    have hmiddle : 1 ≤ markedTokens (middleWords r.body) := by
      rw [markedTokens, Nat.one_le_iff_ne_zero, Ne, List.countP_eq_zero, not_forall]
      refine ⟨.word r.body, ?_⟩
      simp [middleWords, words, hbody, Token.text, hr.marked hbody]
    omega

theorem haRequestLine_iff (hr : r.Regular) :
    tokens (cStr (haRequestLine own haUrl haToken r)) = some (haRequestTokens own haUrl haToken r) ↔
      QuoteSafe haToken ∧ QuoteSafe (fullUrl haUrl r.endpoint) := by
  constructor
  · intro h
    have hzero : 0 ∉ haToken ∧ 0 ∉ fullUrl haUrl r.endpoint := by
      have hsub := (texts_sublist h).subset
      rw [haRequestTokens_eq] at hsub
      constructor
      · intro hmem
        exact zero_notMem_cStr _ (hsub (by simp [texts, Token.text, authorization, hmem]))
      · intro hmem
        exact zero_notMem_cStr _ (hsub (by simp [texts, Token.text, hmem]))
    rw [cStr_eq_self (zero_notMem_haRequestLine hr hzero.1 hzero.2)] at h
    obtain ⟨hmarkt, hmarku⟩ := unmarked_of_tokens hr h
    have hb := keeps_haRequestLine own haUrl haToken hr (q := byte '\\') (by decide)
    rw [if_neg fun h => absurd h.1 (by decide)] at hb
    rw [haRequestLine_eq] at h hb
    have htoken : doubleSafe (authorization haToken) = true :=
      doubleSafe_of_tokens (run_requestHead own hr.method) h hb (by rwa [marked_authorization])
    refine ⟨⟨hzero.1, by rwa [doubleSafe_authorization] at htoken⟩, hzero.2, ?_⟩
    have hrun := run_to_url own hr htoken
    exact doubleSafe_of_tokens (t := byte ' ' :: str "2>/dev/null") hrun (by simpa using h)
      (by simpa using hb) hmarku
  · rintro ⟨⟨hzt, hst⟩, hzu, hsu⟩
    rw [cStr_eq_self (zero_notMem_haRequestLine hr hzt hzu)]
    exact tokens_haRequestLine hr (by rwa [doubleSafe_authorization]) hsu

end

/-- **The shell splits a command line into the intended words** exactly if the values between
quotation marks are safe there. -/
theorem shell_line_iff (haUrl haToken : Bytes) (c : ShellCall) {text : Bytes}
    (h : c.line haUrl haToken = some text) :
    tokens text = c.intended haUrl haToken ↔ c.Safe haUrl haToken := by
  cases c with
  | request own call =>
    simp only [ShellCall.line, Option.map_eq_some_iff] at h
    obtain ⟨r, hr, rfl⟩ := h
    simp only [ShellCall.intended, ShellCall.Safe, hr, Option.map_some, Option.mem_def,
      Option.some.injEq, forall_eq']
    exact haRequestLine_iff (HaCall.regular hr)
  | tts path mimeType =>
    simp only [ShellCall.line] at h
    split_ifs at h
    obtain ⟨parsed, hp, rfl⟩ := Option.map_eq_some_iff.mp h
    simp only [ShellCall.intended, ShellCall.Safe, hp, Option.map_some, Option.mem_def,
      Option.some.injEq, forall_eq']
    exact ttsLine_iff parsed path

/-- A button that toggles a light. -/
def lightCall : ShellCall := .request false (.toggle ⟨str "light.salon", by decide⟩)

/-- A server and a token without anything special. -/
theorem lightCall_is_split :
    ∃ text, lightCall.line (str "https://ha.local:8123/") (str "ey.J0-k_n") = some text ∧
      tokens text = lightCall.intended (str "https://ha.local:8123/") (str "ey.J0-k_n") := by
  refine ⟨_, rfl, (shell_line_iff _ _ lightCall rfl).mpr ⟨by decide, ?_⟩⟩
  rintro r ⟨⟩
  decide +kernel

/-- A token that closes the quotation marks. -/
def commandToken : Bytes := str "x\";reboot;\""

/-- A form with that token. -/
def commandBody : Bytes :=
  str "section=ha&ha_url=http://ha.local&ha_token=x%22;reboot;%22&entity_1=light.a" ++
    str "&entity_1_name=A&entity_2=fan.b&entity_2_name=B"

/-- What `cgi_config_main` saves for the form. -/
def commandConfig : Config :=
  { Config.builtin with
    haUrl := str "http://ha.local", haToken := commandToken, haEntity1 := str "light.a"
    haEntity1Name := str "A", haEntity2 := str "fan.b", haEntity2Name := str "B" }

/-- **The token becomes a command**: `cgi_config_main` saves it, and then the shell restarts the
panel. -/
theorem token_runs_command :
    readBody (.post commandBody) = .ok commandBody ∧
      (applyBody commandBody Config.builtin).toOption = some commandConfig ∧
      (lightCall.line commandConfig.haUrl commandConfig.haToken).bind tokens =
        some (words [str "curl", str "-s", str "-k", str "-m", str "5", str "-i", str "-X",
            str "POST", str "-H", str "Authorization: Bearer x"] ++
          [.operator (byte ';'), .word (str "reboot"), .operator (byte ';')] ++
          words [[], str "-H", str "Accept: application/json", str "-H",
            str "Content-Type: application/json", str "-d",
            str "\x7b\"entity_id\":\"light.salon\"\x7d",
            str "http://ha.local/api/services/light/toggle"] ++ discardErrors) ∧
      (lightCall.line commandConfig.haUrl commandConfig.haToken).bind tokens ≠
        lightCall.intended commandConfig.haUrl commandConfig.haToken := by
  refine ⟨readBody_post (by decide) ?_, ?_, ?_, ?_⟩
  · rw [commandBody, str_ofList, str_ofList]
    decide +kernel
  · rw [commandBody, str_ofList, str_ofList]
    decide +kernel
  · simp only [lightCall, ShellCall.line, HaCall.request, commandConfig, commandToken,
      haRequestLine, toggleDomains, curlBin, fullUrl, discardErrors]
    repeat rw [str_ofList]
    decide +kernel
  · have hcalls : (HaCall.toggle ⟨str "light.salon", by decide⟩).request.isSome = true := by
      decide +kernel
    obtain ⟨r, hr⟩ := Option.isSome_iff_exists.1 hcalls
    simp only [lightCall, ShellCall.line, ShellCall.intended, hr, Option.map_some, Option.bind_some]
    intro h
    have hsafe := ((haRequestLine_iff (HaCall.regular hr)).1 h).1
    exact absurd hsafe (by decide)

end Panel

end HaPanel
