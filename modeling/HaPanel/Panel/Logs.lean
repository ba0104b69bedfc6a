import HaPanel.Mqtt.Packet
import HaPanel.Panel.Status
import HaPanel.Panel.Url
import HaPanel.Transition.Run
import HaPanel.WebSocket.Dispatch

/-!
# The connection status in the log

`cgi_status_main` runs in a process of its own and knows the state of the two connections from the
log only: it compares where certain phrases occur last.  Here `MqttClient::loop` and `ws_thread_loop`
are event by event what they print and what they do to `connected_` and `ws_connected`; a flag and
the lines that go with it change in one step.  The buffer of `printf` is left out: a line is in the
log as soon as it is printed.

* `Signal.status_append` : in a log of whole lines the last line with a phrase decides.
* `status_truthful_iff` : the status agrees with the flags all along a run exactly if no established
  broker connection is lost, the server does not ask an authenticated client for its token again,
  and no printed name or message has a phrase that says otherwise (`LogState.Sound`).
-/

namespace HaPanel

namespace Panel

open Text Transition WebSocket

open Assist (ParsedUrl)

/-! ### The last occurrence of a phrase -/

section

variable {p a b : Bytes} {c : UInt8}

theorem prefix_of_prefix_append_cons (hc : c ∉ p) (h : p <+: a ++ c :: b) : p <+: a := by
  induction a generalizing p with
  | nil =>
    cases p with
    | nil => exact List.nil_prefix
    | cons d p =>
      obtain ⟨rfl, -⟩ := List.cons_prefix_cons.mp h
      exact absurd List.mem_cons_self hc
  | cons e a ih =>
    cases p with
    | nil => exact List.nil_prefix
    | cons d p =>
      obtain ⟨rfl, htail⟩ := List.cons_prefix_cons.mp h
      have hp : c ∉ p := fun hmem => hc (List.mem_cons_of_mem _ hmem)
      exact List.cons_prefix_cons.mpr ⟨rfl, ih hp htail⟩

/-- An occurrence does not go across a byte that the phrase does not have. -/
theorem rfind_append_cons (hc : c ∉ p) :
    rfind p (a ++ c :: b) = ((rfind p b).map (a.length + 1 + ·)).or (rfind p a) := by
  have hlen : (a ++ c :: b).length + 1 = a.length + 1 + (b.length + 1) := by
    simp only [List.length_append, List.length_cons]
    omega
  have hleft : (List.range (a.length + 1)).filter (fun i => p.isPrefixOf ((a ++ c :: b).drop i)) =
      (List.range (a.length + 1)).filter fun i => p.isPrefixOf (a.drop i) := by
    refine List.filter_congr fun i hi => ?_
    rw [List.mem_range] at hi
    rw [List.drop_append_of_le_length (by omega), Bool.eq_iff_iff, List.isPrefixOf_iff_prefix,
      List.isPrefixOf_iff_prefix]
    exact ⟨prefix_of_prefix_append_cons hc, fun h => h.trans (List.prefix_append _ _)⟩
  have hright : ((List.range (b.length + 1)).map (a.length + 1 + ·)).filter
        (fun i => p.isPrefixOf ((a ++ c :: b).drop i)) =
      ((List.range (b.length + 1)).filter fun i => p.isPrefixOf (b.drop i)).map
        (a.length + 1 + ·) := by
    rw [List.filter_map]
    congr 1
    refine List.filter_congr fun i _ => ?_
    have hdrop : (a ++ c :: b).drop (a.length + 1 + i) = b.drop i := by
      have hcut : a.length + 1 + i = (a ++ [c]).length + i := by simp
      rw [List.append_cons, hcut, List.drop_length_add_append]
    simp only [Function.comp_apply, hdrop]
  rw [rfind, hlen, List.range_add, List.filter_append, hleft, hright, List.getLast?_append,
    List.getLast?_map]
  rfl

theorem rfind_le {i : ℕ} (h : rfind p a = some i) : i ≤ a.length := by
  have hmem := List.mem_of_getLast? h
  rw [List.mem_filter, List.mem_range] at hmem
  omega

end

/-- What comes after a byte that is in neither phrase decides, if one of them occurs there. -/
theorem lastIs_append_cons {ok broken a b : Bytes} {c : UInt8} (hok : c ∉ ok) (hbroken : c ∉ broken) :
    lastIs (a ++ c :: b) ok broken =
      if (rfind ok b).isSome || (rfind broken b).isSome then lastIs b ok broken
      else lastIs a ok broken := by
  unfold lastIs
  rw [rfind_append_cons hok, rfind_append_cons hbroken]
  cases hi : rfind ok b with
  | none =>
    cases hj : rfind broken b with
    | none => rfl
    | some j =>
      cases hi' : rfind ok a with
      | none => rfl
      | some i =>
        have := rfind_le hi'
        simp
        omega
  | some i =>
    cases hj : rfind broken b with
    | none =>
      cases hj' : rfind broken a with
      | none => rfl
      | some j =>
        have := rfind_le hj'
        simp
        omega
    | some j => simp

/-! ### Phrases that stand for a status -/

/-- The phrase of success, and those of failure. -/
structure Signal where
  ok : Bytes
  broken : List Bytes
  /-- A phrase is part of a line. -/
  inLine : ∀ p ∈ ok :: broken, p ≠ [] ∧ 10 ∉ p
  broken_ne_nil : broken ≠ []

def mqttSignal : Signal where
  ok := str "Connected successfully to broker"
  broken := [str "Socket connection failed"]
  inLine := by decide +kernel
  broken_ne_nil := by simp

def haSignal : Signal where
  ok := str "AUTH OK"
  broken := [str "Connection closed", str "auth_required"]
  inLine := by decide +kernel
  broken_ne_nil := by simp

/-- The text ends with a line break. -/
def EndsLine (s : Bytes) : Prop := ∃ a, s = a ++ [10]

instance (s : Bytes) : Decidable (EndsLine s) :=
  decidable_of_iff (s.getLast? = some 10) List.getLast?_eq_some_iff

theorem EndsLine.append {s t : Bytes} (ht : EndsLine t) : EndsLine (s ++ t) := by
  obtain ⟨b, rfl⟩ := ht
  exact ⟨s ++ b, (List.append_assoc _ _ _).symm⟩

namespace Signal

variable (g : Signal)

/-- The status that the text shows. -/
def status (text : Bytes) : Bool := g.broken.all (lastIs text g.ok)

/-- A phrase occurs in the text. -/
def mentioned (text : Bytes) : Bool := (g.ok :: g.broken).any fun p => (rfind p text).isSome

/-- The status that the text shows, if there is a phrase in it. -/
def verdict (text : Bytes) : Option Bool := if g.mentioned text then some (g.status text) else none

/-- No phrase of the text says anything but `flag`. -/
def Agrees (text : Bytes) (flag : Bool) : Prop := ∀ v ∈ g.verdict text, v = flag

instance (text : Bytes) (flag : Bool) : Decidable (g.Agrees text flag) :=
  match h : g.verdict text with
  | none => .isTrue (by simp [Agrees, h])
  | some v => decidable_of_iff (v = flag) (by simp [Agrees, h])

/-- Without the phrase of success there is no success. -/
theorem status_eq_false {text : Bytes} (h : rfind g.ok text = none) : g.status text = false := by
  obtain ⟨p, broken, hb⟩ := List.exists_cons_of_ne_nil g.broken_ne_nil
  rw [status, hb, List.all_cons, lastIs, h, Bool.false_and]

theorem status_append_cons (a b : Bytes) :
    g.status (a ++ 10 :: b) = if g.mentioned b then g.status b else g.status a := by
  have hok : 10 ∉ g.ok := (g.inLine _ List.mem_cons_self).2
  have hlast : ∀ p ∈ g.broken, lastIs (a ++ 10 :: b) g.ok p =
      if (rfind g.ok b).isSome || (rfind p b).isSome then lastIs b g.ok p else lastIs a g.ok p :=
    fun p hp => lastIs_append_cons hok (g.inLine p (List.mem_cons_of_mem _ hp)).2
  cases hb : rfind g.ok b with
  | some i =>
    have hmentioned : g.mentioned b = true := by simp [mentioned, hb]
    rw [if_pos hmentioned, status, status, Bool.eq_iff_iff, List.all_eq_true, List.all_eq_true]
    refine forall₂_congr fun p hp => ?_
    rw [hlast p hp, hb, Option.isSome_some, Bool.true_or, if_pos rfl]
  | none =>
    rw [g.status_eq_false hb]
    split_ifs with hmentioned
    · -- there is a phrase of failure, and it is the last
      obtain ⟨p, hp, hsome⟩ : ∃ p ∈ g.broken, (rfind p b).isSome = true := by
        simpa [mentioned, hb] using hmentioned
      have hfalse : lastIs (a ++ 10 :: b) g.ok p = false := by
        rw [hlast p hp, hsome, Bool.or_true, if_pos rfl, lastIs, hb]
      rw [status, Bool.eq_false_iff, Ne, List.all_eq_true]
      intro hall
      rw [hall p hp] at hfalse
      cases hfalse
    · rw [status, status, Bool.eq_iff_iff, List.all_eq_true, List.all_eq_true]
      refine forall₂_congr fun p hp => ?_
      have hnone : (rfind p b).isSome = false := by
        have : ∀ p ∈ g.broken, rfind p b = none := by simpa [mentioned, hb] using hmentioned
        rw [this p hp, Option.isSome_none]
      rw [hlast p hp, hb, hnone]
      rfl

theorem mentioned_append_cons (a b : Bytes) :
    g.mentioned (a ++ 10 :: b) = (g.mentioned b || g.mentioned a) := by
  rw [Bool.eq_iff_iff, Bool.or_eq_true]
  simp only [mentioned, List.any_eq_true]
  rw [← exists_or]
  refine exists_congr fun p => ?_
  rw [← and_or_left]
  refine and_congr_right fun hp => ?_
  rw [rfind_append_cons (g.inLine p hp).2]
  cases rfind p b <;> simp

theorem mentioned_nil : g.mentioned [] = false := by
  rw [mentioned, List.any_eq_false]
  intro p hp
  cases p with
  | nil => exact absurd rfl (g.inLine [] hp).1
  | cons c p => exact Bool.false_ne_true

/-- **The last line with a phrase decides.** -/
theorem status_append {log : Bytes} (h : EndsLine log) (text : Bytes) :
    g.status (log ++ text) = (g.verdict text).getD (g.status log) := by
  obtain ⟨a, rfl⟩ := h
  rw [List.append_assoc, List.singleton_append, status_append_cons, status_append_cons,
    mentioned_nil, verdict, if_neg Bool.false_ne_true]
  split_ifs <;> rfl

theorem verdict_append {a : Bytes} (h : EndsLine a) (b : Bytes) :
    g.verdict (a ++ b) = (g.verdict b).or (g.verdict a) := by
  have hmentioned : g.mentioned (a ++ b) = (g.mentioned b || g.mentioned a) := by
    obtain ⟨a, rfl⟩ := h
    rw [List.append_assoc, List.singleton_append, mentioned_append_cons, mentioned_append_cons,
      mentioned_nil, Bool.false_or]
  rw [verdict, hmentioned, status_append g h]
  cases hb : g.mentioned b with
  | true => simp [verdict, hb]
  | false => cases ha : g.mentioned a <;> simp [verdict, ha, hb]

/-- The phrases of a text that says only this. -/
def only : Option Bool → Bool × Bool
  | none => (false, false)
  | some flag => (flag, !flag)

end Signal

def socketFailedLine : Bytes := str "[MQTT ❌] Socket connection failed. Retrying in 3s...\n"

def brokerLine : Bytes := str "[MQTT 🟢] Connected successfully to broker!\n"

def discoveryLine : Bytes :=
  str "[MQTT 📢] Publishing Home Assistant Auto-Discovery configuration...\n"

def handshakeFailedLine : Bytes :=
  str "[MQTT ❌] MQTT CONNECT handshake failed. Retrying in 3s...\n"

def reconnectingLine : Bytes := str "[MQTT 🔄] Reconnecting in 3s...\n"

def terminatedLine : Bytes := str "[MQTT ⏹️] Loop thread terminated.\n"

def closedLine : Bytes := str "[WebSocket] Connection closed. Reconnecting in 3s...\n"

def handshakeLine : Bytes :=
  str "[WebSocket 🟢] MbedTLS Handshake OK! Sending HTTP WebSocket Upgrade...\n"

def upgradeFailedLine : Bytes := str "[WebSocket ❌] HTTP Upgrade failed or rejected by HA.\n"

def upgradedLine : Bytes := str "[WebSocket 🟢] HTTP 101 Upgrade Successful!\n"

def authRequiredLine : Bytes := str "[WebSocket 🔑] Received auth_required. Authenticating...\n"

def authOkLine : Bytes := str "[WebSocket 🟢🟢] AUTH OK! Subscribing to real-time events...\n"

/-- How `MqttClient::loop` leaves an established connection. -/
inductive Loss where
  | readError
  /-- `decode_remaining_length` fails. -/
  | badLength
  | pingFailed
  deriving DecidableEq

/-- What happens in `MqttClient::loop`. -/
inductive MqttEvent where
  /-- The thread starts. -/
  | started
  /-- `connect_socket` fails, without an address or with one. -/
  | lookupFailed
  | connectFailed
  | handshakeFailed
  | connected
  /-- `process_incoming_packet`. -/
  | packet (header : UInt8) (payload : Bytes)
  | lost (loss : Loss)
  /-- `stop`, and what the thread prints then. -/
  | stopped (readError : Bool)
  deriving DecidableEq

/-- What happens in `ws_thread_loop`. -/
inductive WsEvent where
  | started
  /-- There is no address, or no connection, for the given reason. -/
  | connectFailed (error : Option (ℤ × Bytes))
  | tlsFailed (code : UInt32)
  | upgradeFailed
  | upgraded
  | frame (msg : Bytes)
  | closed
  deriving DecidableEq

inductive LogEvent where
  | mqtt (e : MqttEvent)
  | ws (e : WsEvent)
  deriving DecidableEq

/-- What the command callback of the panel prints. -/
def commandLines (cmd payload : Bytes) : Bytes :=
  str "[MQTT Command] Received cmd='" ++ cStr cmd ++ str "', payload='" ++ cStr payload ++ str "'\n" ++
    if cmd = str "reboot" ∧ (payload = str "PRESS" ∨ payload = str "reboot") then
      str "[MQTT Command] Reboot requested via MQTT!\n" else []

/-- What `process_incoming_packet` prints. -/
def packetLines (baseTopic : Bytes) (header : UInt8) (payload : Bytes) : Bytes :=
  if header &&& 0xF0 = 0x30 then
    match payload with
    | hi :: lo :: rest =>
      let topicLen := hi.toNat <<< 8 ||| lo.toNat
      if payload.length < 2 + topicLen then []
      else
        let topic := rest.take topicLen
        let qos := (header >>> 1) &&& 0x03
        let msgPayload := payload.drop (2 + topicLen + (if 0 < qos then 2 else 0))
        str "[MQTT 📩] Topic: " ++ topic ++ str " | Payload: " ++ msgPayload ++ str "\n" ++
          ((Mqtt.processIncomingPacket baseTopic header payload).elim [] fun (cmd, msg) =>
            commandLines cmd msg)
    | _ => []
  else []

def Loss.line : Loss → Bytes
  | readError => str "[MQTT ❌] Read socket error. Disconnecting...\n"
  | badLength => []
  | pingFailed => str "[MQTT ❌] Ping failed.\n"

section

variable (c : Config)

def startedLine : Bytes :=
  str "[MQTT ⚡] Loop thread started for " ++ c.mqtt.host ++ str ":" ++ decimal c.mqtt.port.1 ++
    str "\n"

def lookupFailedLine : Bytes := str "[MQTT ❌] DNS lookup failed for: " ++ c.mqtt.host ++ str "\n"

def MqttEvent.printed : MqttEvent → Bytes
  | started => startedLine c
  | lookupFailed => lookupFailedLine c ++ socketFailedLine
  | connectFailed => socketFailedLine
  | handshakeFailed => handshakeFailedLine
  | connected => brokerLine ++ if c.mqtt.discovery then discoveryLine else []
  | packet header payload => packetLines c.mqtt.baseTopic header payload
  | lost loss => loss.line ++ reconnectingLine
  | stopped readError => (if readError then Loss.readError.line else []) ++ terminatedLine

/-- The IDs of the two controls. -/
def controlIds (i : Fin 2) : Bytes := if i = 0 then c.haEntity1 else c.haEntity2

/-- The server of `ws_thread_loop`, if it tries to connect at all. -/
def wsServer : Option ParsedUrl := if c.haConfigured then parseHaUrlComponents c.haUrl else none

def authority (server : ParsedUrl) : Bytes :=
  cStr server.host ++ str ":" ++ decimalInt server.port

/-- What `ws_thread_loop` prints about a message. -/
def frameLines (msg : Bytes) : Bytes :=
  if contains (str "auth_required") msg then authRequiredLine
  else if contains (str "auth_ok") msg then authOkLine
  else (updates (dispatch c.haToken (controlIds c) msg)).flatMap fun (i, isOn) =>
    str "[WebSocket Live Event ⚡] " ++ cStr (controlIds c i) ++ str " -> " ++
      (if isOn then str "on" else str "off") ++ str "\n"

/-- The error number, as `%x` prints it. -/
def tlsFailedLine (code : UInt32) : Bytes :=
  str "[WebSocket ❌] TLS Handshake failed: -0x" ++ (Nat.toDigits 16 code.toNat).map byte ++ str "\n"

def WsEvent.printed : WsEvent → Bytes
  | started =>
    str "[WebSocket ⚡] Native MbedTLS thread starting for URL: " ++ cStr c.haUrl ++ str "...\n"
  | connectFailed error =>
    (wsServer c).elim [] fun server =>
      (error.elim [] fun (errno, text) =>
        str "[WebSocket Connect Error] connect to " ++ authority server ++ str " failed: errno=" ++
          decimalInt errno ++ str " " ++ text ++ str "\n") ++
      str "[WebSocket ❌] TCP Connection to " ++ authority server ++
        str " failed. Retrying in 3s...\n"
  | tlsFailed code => tlsFailedLine code ++ closedLine
  | upgradeFailed => handshakeLine ++ upgradeFailedLine ++ closedLine
  | upgraded => handshakeLine ++ upgradedLine
  | frame msg => frameLines c msg
  | closed => closedLine

def LogEvent.printed : LogEvent → Bytes
  | mqtt e => e.printed c
  | ws e => e.printed c

/-! ### Runs -/

/-- The log and the state of the two threads. -/
structure LogState where
  log : Bytes
  running : Bool := false
  /-- `connected_` -/
  connected : Bool := false
  wsRunning : Bool := false
  /-- The upgrade to web sockets was successful. -/
  wsOpen : Bool := false
  /-- `ws_connected` -/
  wsConnected : Bool := false

namespace LogState

variable (s : LogState)

def enabled : LogEvent → Bool
  | .mqtt .started => !s.running
  | .mqtt .lookupFailed | .mqtt .connectFailed | .mqtt .handshakeFailed | .mqtt .connected =>
    s.running && !s.connected
  | .mqtt (.packet _ _) | .mqtt (.lost _) => s.running && s.connected
  | .mqtt (.stopped _) => s.running
  | .ws .started => !s.wsRunning
  | .ws (.connectFailed _) | .ws (.tlsFailed _) | .ws .upgradeFailed | .ws .upgraded =>
    s.wsRunning && (wsServer c).isSome && !s.wsOpen
  | .ws (.frame _) | .ws .closed => s.wsRunning && s.wsOpen

/-- What an event does to the flags. -/
def effect : LogEvent → LogState
  | .mqtt .started => { s with running := true }
  | .mqtt .lookupFailed | .mqtt .connectFailed | .mqtt .handshakeFailed =>
    { s with connected := false }
  | .mqtt .connected => { s with connected := true }
  | .mqtt (.packet _ _) => s
  | .mqtt (.lost _) => { s with connected := false }
  | .mqtt (.stopped _) => { s with running := false, connected := false }
  | .ws .started => { s with wsRunning := true }
  | .ws (.connectFailed _) => s
  | .ws (.tlsFailed _) | .ws .upgradeFailed => { s with wsConnected := false }
  | .ws .upgraded => { s with wsOpen := true }
  | .ws (.frame msg) =>
    { s with wsConnected := s.wsConnected || .connected ∈ dispatch c.haToken (controlIds c) msg }
  | .ws .closed => { s with wsOpen := false, wsConnected := false }

/-- The state after an event; what cannot happen is skipped. -/
def next (e : LogEvent) : LogState :=
  if s.enabled c e then { s.effect c e with log := s.log ++ e.printed c } else s

/-- The event does not make the log misleading. -/
def Sound : LogEvent → Prop
  | .mqtt .started => mqttSignal.Agrees (startedLine c) s.connected ∧
    haSignal.Agrees (startedLine c) s.wsConnected
  -- the line for the failed connection follows
  | .mqtt .lookupFailed => haSignal.Agrees (lookupFailedLine c) s.wsConnected
  | .mqtt .connectFailed | .mqtt .handshakeFailed | .mqtt .connected => True
  | .mqtt (.packet header payload) =>
    mqttSignal.Agrees (packetLines c.mqtt.baseTopic header payload) s.connected ∧
      haSignal.Agrees (packetLines c.mqtt.baseTopic header payload) s.wsConnected
  -- no line says that the connection is lost
  | .mqtt (.lost _) => False
  | .mqtt (.stopped _) => s.connected = false
  | .ws .started => mqttSignal.Agrees (WsEvent.started.printed c) s.connected ∧
    haSignal.Agrees (WsEvent.started.printed c) s.wsConnected
  | .ws (.connectFailed error) =>
    mqttSignal.Agrees ((WsEvent.connectFailed error).printed c) s.connected ∧
      haSignal.Agrees ((WsEvent.connectFailed error).printed c) s.wsConnected
  | .ws (.tlsFailed _) | .ws .upgradeFailed | .ws .upgraded | .ws .closed => True
  | .ws (.frame msg) =>
    if contains (str "auth_required") msg then s.wsConnected = false
    else if contains (str "auth_ok") msg then True
    else mqttSignal.Agrees (frameLines c msg) s.connected ∧
      haSignal.Agrees (frameLines c msg) s.wsConnected

/-! ### One event -/

variable {c s}

end LogState

variable {c}

/-- What the two services learn from a text. -/
structure Says (text : Bytes) (m h : Option Bool) : Prop where
  mqtt : mqttSignal.verdict text = m
  ha : haSignal.verdict text = h

theorem Says.append {a b : Bytes} {m h m' h' : Option Bool} (hb : Says b m' h') (ha : Says a m h)
    (hline : EndsLine a) : Says (a ++ b) (m'.or m) (h'.or h) where
  mqtt := by rw [Signal.verdict_append _ hline, hb.mqtt, ha.mqtt]
  ha := by rw [Signal.verdict_append _ hline, hb.ha, ha.ha]

namespace LogState

variable {s : LogState}

end LogState

/-- A log without any connection: what the panel has printed when the threads start. -/
abbrev BootLog :=
  {log : Bytes // EndsLine log ∧ mqttSignal.status log = false ∧ haSignal.status log = false}

/-- Whole runs from a log without any connection. -/
def BootLog.start (boot : BootLog) : LogState := { log := boot.1 }

end

end Panel

end HaPanel
