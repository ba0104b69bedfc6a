import HaPanel.Assist.Protocol
import HaPanel.Transition.Run
import Mathlib.Data.List.DropRight

/-!
# The pipeline process

`assist_pipeline_child_main` connects to Home Assistant, starts a pipeline, streams the recorded
audio and follows the events of the pipeline.  It waits for the server at five places; what arrives
there is an `Arrival`, and `Child.next` is what the process does with it.  What else is out
of its hands (the TLS layer, the HTTP answer, the playback tools) is in its `Conditions`.

`childMain` is the whole run: the process starts, something arrives again and again, and in the end
time is up.
-/

namespace HaPanel

namespace Assist

open Text Transition

/-! ### Reading answers of the server -/

/-- The length of the object that starts with the text, if it is closed: the loop of
`json_string_in_object` with its variables `depth`, `in_string` and `escaped`. -/
def objectLength : ℕ → Bool → Bool → Bytes → Option ℕ
  | _, _, _, [] => none
  | depth, true, escaped, c :: s =>
    (if escaped then objectLength depth true false s
    else if c = byte '\\' then objectLength depth true true s
    else if c = byte '"' then objectLength depth false false s
    else objectLength depth true false s).map (· + 1)
  | depth, false, escaped, c :: s =>
    if c = byte '"' then (objectLength depth true escaped s).map (· + 1)
    else if c = byte '\x7b' then (objectLength (depth + 1) false escaped s).map (· + 1)
    else if c = byte '\x7d' then
      if depth - 1 = 0 then some 1 else (objectLength (depth - 1) false escaped s).map (· + 1)
    else (objectLength depth false escaped s).map (· + 1)

def jsonStringInObject (json objectKey valueKey : Bytes) : Bytes :=
  match (find (marker objectKey) json).bind fun t =>
      find [byte '\x7b'] (t.drop (marker objectKey).length) with
  | none => []
  | some object =>
    match objectLength 0 false false object with
    | none => []
    | some n => jsonStringAfter (object.take n) valueKey

/-- The text, or another one if it is empty. -/
def orElse (text other : Bytes) : Bytes := if text.isEmpty then other else text

/-! ### The address of Home Assistant -/

structure ParsedUrl where
  host : Bytes
  basePath : Bytes
  port : ℤ

/-- A byte that is trimmed off an address. -/
def isTrimmed (c : UInt8) : Bool := c ≤ 32

def parseHaUrl (input : Bytes) : Option ParsedUrl :=
  let url := (input.rdropWhile isTrimmed).dropWhile isTrimmed
  if !(str "https://").isPrefixOf url then none
  else
    let url := url.drop 8
    let authority := url.takeWhile (· ≠ byte '/')
    let basePath := (url.dropWhile (· ≠ byte '/')).rdropWhile (· = byte '/')
    -- without a colon `rdropWhile` removes everything
    let beforeColon := authority.rdropWhile (· ≠ byte ':')
    let host := if beforeColon = [] then authority else beforeColon.dropLast
    let port := if beforeColon = [] then 443 else atoi (authority.rtakeWhile (· ≠ byte ':'))
    if host ≠ [] ∧ 0 < port ∧ port ≤ 65535 then some ⟨host, basePath, port⟩ else none

/-! ### What is out of the hands of the process -/

/-- The arguments of the process, its input, and what the TLS layer and the playback tools do. -/
structure Conditions where
  haUrl : Bytes
  token : Bytes
  conversationId : Bytes
  /-- The standard input. -/
  audio : Bytes
  seedOk : Bool
  connectOk : Bool
  configOk : Bool
  setupOk : Bool
  handshakeOk : Bool
  requestOk : Bool
  /-- What the server answers to the upgrade request, until a read fails. -/
  answer : Bytes
  /-- Whether the `n`-th frame with a command or audio can be sent. -/
  sendOk : ℕ → Bool
  streamOk : Bool
  downloadOk : Bool
  playbackOk : Bool

/-- What the process gets when it waits for the server. -/
inductive Arrival where
  /-- `read_ws_frame` returns a frame. -/
  | frame (opcode : UInt8) (payload : Bytes)
  /-- `read_ws_frame` fails, with `left` in the payload so far. -/
  | failed (left : Bytes)
  /-- `wait_for_socket` sees nothing. -/
  | silence
  /-- Time is up: that of the loop, or that of `ssl_read_all` before a frame. -/
  | deadline
deriving DecidableEq

/-- What `read_ws_frame` returns in the places without a loop: the payload, or what is left in it. -/
def Arrival.read : Arrival → Except Bytes Bytes
  | frame _ payload => .ok payload
  | failed left => .error left
  | silence | deadline => .error []

/-- The place where the process waits. -/
inductive Position where
  | authRequired
  | authOk
  | runResult
  | runStart
  | events
  | ended (status : ℕ)
deriving DecidableEq

def Position.isEnded : Position → Bool
  | ended _ => true
  | _ => false

structure Child where
  position : Position := .authRequired
  result : AssistPipelineResult := {}
  ttsUrl : Bytes := []
  ttsMimeType : Bytes := []
  /-- The frames with commands and audio. -/
  sent : List (UInt8 × Bytes) := []
  /-- The payloads of the pongs; `send_ws_frame` is not asked whether it could send them. -/
  pongs : List Bytes := []
  /-- The records written to the standard output. -/
  output : List Report := []
  /-- The URLs and MIME types of the calls of `download_and_play_tts`. -/
  plays : List (Bytes × Bytes) := []
deriving DecidableEq

namespace Child

variable (w : Conditions)

/-! ### Playback and the end -/

def setError (c : Child) (error : Bytes) : Child := { c with result := { c.result with error } }

/-- Write a record of the progress. -/
def report (c : Child) (stage : Bytes) : Child :=
  { c with
    result := { c.result with stage }
    output := c.output ++ [({ c.result with stage }, false)] }

/-- `download_and_play_tts`; its argument `on_level` is never called. -/
def downloadAndPlayTts (c : Child) : Child :=
  let c := { c with plays := c.plays ++ [(c.ttsUrl, c.ttsMimeType)] }
  if !(str "/api/tts_proxy/").isPrefixOf c.ttsUrl || !(str "audio/").isPrefixOf c.ttsMimeType then
    c.setError (str "Home Assistant zwrócił nieprawidłowe audio TTS")
  else
    -- `stream_and_play_tts`
    let c := c.report (str "playback")
    if w.streamOk then c
    else if !w.downloadOk then c.setError (str "Nie można pobrać odpowiedzi głosowej")
    else
      let c := c.report (str "playback")
      if w.playbackOk then c else c.setError (str "Nie można odtworzyć odpowiedzi głosowej")

/-- The final record and the exit status. -/
def finish (c : Child) : Child :=
  let result := { c.result with stage := str "final" }
  { c with
    result
    output := c.output ++ [(result, true)]
    position := .ended (if result.success then 0 else 1) }

/-- What follows the label `cleanup`. -/
def cleanup (c : Child) : Child :=
  (if c.result.success && !c.ttsUrl.isEmpty then c.downloadAndPlayTts w else c).finish

/-- Set the error and go to `cleanup`. -/
def fail (c : Child) (error : Bytes) : Child := (c.setError error).cleanup w

/-! ### Sending -/

def authMessage (token : Bytes) : Bytes :=
  str "\x7b\"type\":\"auth\",\"access_token\":\"" ++ token ++ str "\"\x7d"

def runCommand (conversationId : Bytes) : Bytes :=
  str "\x7b\"id\":1,\"type\":\"assist_pipeline/run\",\"start_stage\":\"stt\"," ++
    str "\"end_stage\":\"tts\",\"input\":\x7b\"sample_rate\":16000,\"no_vad\":true\x7d," ++
    str "\"timeout\":60" ++
    (if conversationId.isEmpty then []
    else str ",\"conversation_id\":\"" ++ jsonEscape conversationId ++ str "\"") ++ str "\x7d"

/-- `send_ws_frame`, and whether it succeeds. -/
def send (c : Child) (opcode : UInt8) (payload : Bytes) : Child × Bool :=
  ({ c with sent := c.sent ++ [(opcode, payload)] }, w.sendOk c.sent.length)

/-- The pieces of at most 1024 bytes the audio is sent in. -/
def audioChunks (audio : Bytes) : List Bytes :=
  (List.range ((audio.length + 1023) / 1024)).map fun k => (audio.drop (1024 * k)).take 1024

/-- The loop that sends the audio. -/
def sendChunks (handler : UInt8) : Child → List Bytes → Child × Bool
  | c, [] => (c, true)
  | c, chunk :: chunks =>
    let sent := c.send w 0x2 (handler :: chunk)
    if sent.2 then sendChunks handler sent.1 chunks else (sent.1, false)

/-- The audio, and the frame that ends it. -/
def streamAudio (handler : UInt8) (c : Child) : Child :=
  let chunks := sendChunks w handler c (audioChunks w.audio)
  if !chunks.2 then chunks.1.fail w (str "Błąd wysyłania audio do pipeline")
  else
    let last := chunks.1.send w 0x2 [handler]
    if !last.2 then last.1.fail w (str "Nie można zakończyć audio pipeline")
    else { last.1 with position := .events }

/-! ### The five places -/

def onAuthRequired (c : Child) (a : Arrival) : Child :=
  match a.read with
  | .ok message =>
    if contains (str "auth_required") message then
      let auth := c.send w 0x1 (authMessage w.token)
      if auth.2 then { auth.1 with position := .authOk }
      else auth.1.fail w (str "Home Assistant odrzucił autoryzację")
    else c.fail w (str "Brak żądania autoryzacji HA")
  | .error _ => c.fail w (str "Brak żądania autoryzacji HA")

/-- The pipeline cannot be started: the error is the one in the message, if there is one. -/
def notStarted (c : Child) (message : Bytes) : Child :=
  c.fail w (orElse (jsonStringAfter message (str "message"))
    (str "Pipeline Assist nie wystartował"))

def onAuthOk (c : Child) (a : Arrival) : Child :=
  match a.read with
  | .ok message =>
    if contains (str "auth_ok") message then
      let command := c.send w 0x1 (runCommand w.conversationId)
      -- if it cannot be sent, `message` is still empty
      if command.2 then { command.1 with position := .runResult } else command.1.notStarted w []
    else c.fail w (str "Home Assistant odrzucił autoryzację")
  | .error _ => c.fail w (str "Home Assistant odrzucił autoryzację")

def onRunResult (c : Child) (a : Arrival) : Child :=
  match a.read with
  | .ok message =>
    if contains (str "\"success\":true") message then { c with position := .runStart }
    else c.notStarted w message
  | .error left => c.notStarted w left

def pong (c : Child) (payload : Bytes) : Child := { c with pongs := c.pongs ++ [payload] }

def onRunStart (c : Child) : Arrival → Child
  | .silence => c
  | .failed _ | .deadline => c.fail w (str "Pipeline nie zwrócił handlera audio")
  | .frame opcode message =>
    -- a close frame is not looked for here: it is read as a message like any other
    if opcode = 0x9 then c.pong message
    else if contains (str "\"type\":\"run-start\"") message then
      let handlerId := (jsonIntAfter message (str "stt_binary_handler_id") ⟨-1, by decide⟩).1
      let c := { c with
        result := { c.result with
          conversationId := jsonStringAfter message (str "conversation_id") } }
      if handlerId < 1 ∨ 255 < handlerId then
        c.fail w (str "Pipeline nie zwrócił handlera audio")
      else c.streamAudio w (UInt8.ofNat handlerId.toNat)
    else c

end Child

/-- What the loop over the events takes a frame for. -/
inductive EventKind where
  | ping
  | close
  | sttEnd
  | error
  | intentEnd
  | ttsStart
  | ttsEnd
  | other
deriving DecidableEq

/-- The tests of the loop over the events, in their order. -/
def eventKind (opcode : UInt8) (message : Bytes) : EventKind :=
  if opcode = 0x9 then .ping
  else if opcode = 0x8 then .close
  else if contains (str "\"type\":\"stt-end\"") message then .sttEnd
  else if contains (str "\"type\":\"error\"") message then .error
  else if contains (str "\"type\":\"intent-end\"") message then .intentEnd
  else if contains (str "\"type\":\"tts-start\"") message then .ttsStart
  else if contains (str "\"type\":\"tts-end\"") message then .ttsEnd
  else .other

namespace Child

variable (w : Conditions)

/-- What follows the loop over the events. -/
def endLoop (c : Child) : Child :=
  if c.ttsUrl.isEmpty && c.result.error.isEmpty then
    c.fail w (str "Pipeline Assist przekroczył limit czasu")
  else c.cleanup w

/-- `stt-end` -/
def sttEnd (c : Child) (message : Bytes) : Child :=
  { c with
    result := { c.result with
      transcript := jsonStringAfter message (str "text") } }.report (str "transcript")

/-- `intent-end` -/
def intentEnd (c : Child) (message : Bytes) : Child :=
  { c with
    result := { c.result with
      response := orElse (jsonStringInObject message (str "plain") (str "speech"))
        (str "Polecenie zostało wykonane.")
      responseType := jsonStringAfter message (str "response_type")
      continueConversation := jsonBoolAfter message (str "continue_conversation") false
      success := true } }

/-- `tts-start` -/
def ttsStart (c : Child) (message : Bytes) : Child :=
  { c with
    result := { c.result with
      response := orElse c.result.response (jsonStringAfter message (str "tts_input")) } }

/-- `tts-end` -/
def ttsEnd (c : Child) (message : Bytes) : Child :=
  { c with
    ttsUrl := jsonStringAfter message (str "url")
    ttsMimeType := jsonStringAfter message (str "mime_type") }

def onEvent (c : Child) : Arrival → Child
  | .silence => c
  | .deadline => c.endLoop w
  | .failed _ => (c.setError (str "Połączenie pipeline zostało zamknięte")).endLoop w
  | .frame opcode message =>
    match eventKind opcode message with
    | .ping => c.pong message
    | .close => (c.setError (str "Home Assistant zakończył połączenie")).endLoop w
    | .sttEnd => c.sttEnd message
    | .error =>
      (c.setError (orElse (jsonStringAfter message (str "message"))
        (str "Błąd pipeline Assist"))).endLoop w
    | .intentEnd => c.intentEnd message
    | .ttsStart => c.ttsStart message
    | .ttsEnd => (c.ttsEnd message).endLoop w
    | .other => c

/-- What the process does with what arrives.  Before the loops it waits until a frame arrives or the
read fails. -/
def next (c : Child) (a : Arrival) : Child :=
  match c.position with
  | .ended _ => c
  | .authRequired => if a = .silence then c else c.onAuthRequired w a
  | .authOk => if a = .silence then c else c.onAuthOk w a
  | .runResult => if a = .silence then c else c.onRunResult w a
  | .runStart => c.onRunStart w a
  | .events => c.onEvent w a

end Child

/-! ### The process -/

/-- The HTTP answer: at most 4096 bytes, up to an empty line. -/
def readHeaders (answer : Bytes) : Bytes :=
  let headers := answer.take 4096
  match find (str "\r\n\r\n") headers with
  | none => headers
  | some rest => headers.take (headers.length - rest.length + 4)

/-- An exit before anything is set up. -/
def refuse (error : Bytes) : Child where
  position := .ended 2
  result := { error }
  output := [({ error }, true)]

/-- The process up to the first frame. -/
def start (w : Conditions) : Child :=
  if w.audio.isEmpty then refuse (str "Brak danych audio")
  else match parseHaUrl w.haUrl with
  | none => refuse (str "Assist pipeline wymaga adresu HTTPS")
  | some _ =>
    if !w.seedOk then Child.fail w {} (str "Błąd generatora TLS")
    else if !w.connectOk then Child.fail w {} (str "Nie można połączyć z Home Assistant")
    else if !w.configOk then Child.fail w {} (str "Błąd konfiguracji TLS")
    else if !w.setupOk then Child.fail w {} (str "Błąd inicjalizacji TLS")
    else if !w.handshakeOk then Child.fail w {} (str "Handshake TLS nie powiódł się")
    else if !w.requestOk then Child.fail w {} (str "Nie można rozpocząć WebSocket")
    else
      let headers := readHeaders w.answer
      if !contains (str " 101 ") headers ||
          !contains (str "Sec-WebSocket-Accept: s3pPLMBiTxaQ9kYGzzhZRbK+xOo=") headers then
        Child.fail w {} (str "Home Assistant odrzucił WebSocket")
      else {}

/-- The process after some arrivals. -/
def after (w : Conditions) (arrivals : List Arrival) : Child := run (Child.next w) (start w) arrivals

theorem after_append (w : Conditions) (l m : List Arrival) :
    after w (l ++ m) = run (Child.next w) (after w l) m :=
  run_append _ l m

theorem after_concat (w : Conditions) (l : List Arrival) (a : Arrival) :
    after w (l ++ [a]) = (after w l).next w a :=
  after_append w l [a]

/-- `assist_pipeline_child_main`: after the arrivals time is up. -/
def childMain (w : Conditions) (arrivals : List Arrival) : Child := (after w arrivals).next w .deadline

/-! ### A run -/

/-- Everything works. -/
def allWorks : Conditions where
  haUrl := str "https://ha.local:8123"
  token := str "token"
  conversationId := []
  audio := [1, 2]
  seedOk := true
  connectOk := true
  configOk := true
  setupOk := true
  handshakeOk := true
  requestOk := true
  answer := str "HTTP/1.1 101 Switching Protocols\r\n" ++
    str "Sec-WebSocket-Accept: s3pPLMBiTxaQ9kYGzzhZRbK+xOo=\r\n\r\n"
  sendOk := fun _ => true
  streamOk := true
  downloadOk := true
  playbackOk := true

/-- The frames that set a run up. -/
def setUpFrames : List (UInt8 × Bytes) :=
  [(1, str "\x7b\"type\":\"auth_required\"\x7d"), (1, str "\x7b\"type\":\"auth_ok\"\x7d"),
    (1, str "\x7b\"id\":1,\"type\":\"result\",\"success\":true\x7d")]

def lampIntent : Bytes :=
  str "\x7b\"type\":\"intent-end\",\"plain\":\x7b\"speech\":\"ok\"\x7d\x7d"

def lampSpeech : Bytes :=
  str "\x7b\"type\":\"tts-end\",\"url\":\"/api/tts_proxy/a\",\"mime_type\":\"audio/mpeg\"\x7d"

/-- The frames of a run that turns on a lamp. -/
def lampFrames : List (UInt8 × Bytes) :=
  [(1, str "\x7b\"type\":\"run-start\",\"stt_binary_handler_id\":1\x7d"),
    (1, str "\x7b\"type\":\"stt-end\",\"text\":\"lamp\"\x7d"), (1, lampIntent), (1, lampSpeech)]

def lampRun : List Arrival := (setUpFrames ++ lampFrames).map fun f => .frame f.1 f.2

theorem lampRun_events : (after allWorks (lampRun.take 5)).position = .events := by
  decide +kernel

theorem lampRun_kinds : eventKind 1 lampIntent = .intentEnd ∧ eventKind 1 lampSpeech = .ttsEnd ∧
    jsonStringAfter lampSpeech (str "url") ≠ [] := by
  decide +kernel

end Assist

end HaPanel
