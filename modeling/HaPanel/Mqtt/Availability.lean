import HaPanel.Mqtt.Connect
import HaPanel.Panel.Brightness
import HaPanel.Panel.Validity

/-!
# Availability

Home Assistant takes the panel for available as long as the retained message of the topic
`<base topic>/state/status` is `online`.  The client publishes this message when it is connected;
the message `offline` is its last will, which the broker publishes for it when the connection ends.
The client never publishes `offline` itself, and it never disconnects in an orderly way.

Here are the client, the broker and any number of connections, each with the packets that are on
their way.  A connection may be cut at any time, and packets on their way are lost then; the broker
may still have packets of an old connection before it when the next one is already open, also a
CONNECT packet.  The broker is that of MQTT 3.1.1: a CONNECT packet ends the connection of the
same client that is still open, and the will of a connection is published when it ends.

`availability_truthful` : in every run, `online` is retained only for the base topic of a connection
the broker holds open, and when nothing is on its way, exactly if the client is connected.
-/

namespace HaPanel

namespace Mqtt

open Text Transition Panel

/-! ### What is sent -/

/-- Settings whose strings fit their lengths.  `configure` leaves the client ID as it is. -/
structure Settings extends MqttConfig where
  fits : ∀ s ∈ [clientId, baseTopic ++ str "/state/status", username, password], s.length ≤ 65535
  clientId_eq : clientId = str "tpp01_panel"

theorem fits_of_valid {c : MqttConfig} (h : c.Valid) (hclient : c.clientId = str "tpp01_panel") :
    ∀ s ∈ [c.clientId, c.baseTopic ++ str "/state/status", c.username, c.password],
      s.length ≤ 65535 := by
  have hbase := h.baseTopic.2
  have husername := h.username
  have hpassword := h.password
  have hlength : (str "tpp01_panel").length = 11 := by decide
  have hstatus : (str "/state/status").length = 13 := by decide
  simp only [hclient, List.forall_mem_cons, List.length_append, hlength, hstatus]
  exact ⟨by omega, by omega, by omega, by omega, by simp⟩

/-- The settings of the panel are such: the client ID is never read from a file or a form. -/
def Settings.ofValid {c : MqttConfig} (h : c.Valid) (hclient : c.clientId = str "tpp01_panel") :
    Settings where
  toMqttConfig := c
  fits := fits_of_valid h hclient
  clientId_eq := hclient

/-- The topic of the availability. -/
def statusTopic (baseTopic : Bytes) : Bytes :=
  (Backlight.publishState baseTopic (str "status") (str "online")).1

/-- A packet without its length, or the end of the connection. -/
inductive Item where
  | packet (header : UInt8) (body : Bytes)
  | fin
deriving DecidableEq

/-- The packet of `send_mqtt_connect`. -/
def connectItem (c : Settings) : Item :=
  .packet 0x10 (connectVarHeader c.toMqttConfig ++ connectPayload c.toMqttConfig)

/-- The packet of `publish` with QoS 0. -/
def publishItem (topic payload : Bytes) (retain : Bool) : Item :=
  .packet (publishHeader retain 0) (publishBody ⟨[], true, 1⟩ topic payload 0)

/-- What `loop` publishes first. -/
def onlineItem (c : Settings) : Item :=
  publishItem (statusTopic c.baseTopic)
    (Backlight.publishState c.baseTopic (str "status") (str "online")).2 true

namespace Availability

/-! ### State -/

/-- Where `loop` is.  In the last two phases `connected_` is set. -/
inductive Phase where
  /-- There is no connection. -/
  | idle
  /-- The CONNECT packet has been sent. -/
  | waiting (n : ℕ)
  /-- The broker has accepted. -/
  | greeting (n : ℕ)
  /-- The state `online` has been published. -/
  | connected (n : ℕ)
deriving DecidableEq

def Phase.conn : Phase → Option ℕ
  | idle => none
  | waiting n => some n
  | greeting n => some n
  | connected n => some n

/-- The connection on which `connected_` is set. -/
def Phase.accepted : Phase → Option ℕ
  | idle => none
  | waiting _ => none
  | greeting n => some n
  | connected n => some n

/-- A connection. -/
structure Link where
  settings : Settings
  /-- What the broker has not received yet. -/
  queue : List Item := []
  /-- Nothing that the client sends gets through any more. -/
  cut : Bool := false
  /-- The broker has accepted the CONNECT packet. -/
  acked : Bool := false
  /-- The broker has closed it. -/
  ended : Bool := false

/-- The client, the connections it has opened so far, and the broker. -/
structure State where
  settings : Settings
  phase : Phase := .idle
  opened : ℕ := 0
  links : ℕ → Link
  /-- The connection the broker holds open for the client, and its will. -/
  session : Option (ℕ × Option Will) := none
  /-- The retained messages. -/
  retained : Bytes → Option Bytes

/-- What happens next. -/
inductive Turn where
  /-- `configure`, with other settings for the same broker -/
  | configure (c : Settings)
  /-- A connection is opened, and the CONNECT packet sent. -/
  | connect
  /-- The client gets the CONNACK packet. -/
  | accepted
  /-- The client publishes `online`. -/
  | announce
  /-- The client publishes something else. -/
  | publish (topic payload : Bytes) (retain : Bool)
  /-- The client closes the socket: after an error, without an answer, or in `stop`. -/
  | leave
  /-- The network fails, and of what is on its way only `k` packets arrive. -/
  | cut (n k : ℕ)
  /-- The broker receives a packet; a client that connects is admitted or not. -/
  | receive (n : ℕ) (willing : Bool)
  /-- The broker closes a connection, because it has been silent for too long. -/
  | expire (n : ℕ)

namespace State

variable (s : State)

def setLink (n : ℕ) (l : Link) : State := { s with links := Function.update s.links n l }

/-! ### The client -/

/-- Something is sent. -/
def send (n : ℕ) (item : Item) : State :=
  if (s.links n).cut then s
  else s.setLink n { s.links n with queue := (s.links n).queue ++ [item] }

def connect : State :=
  { s.setLink s.opened { settings := s.settings, queue := [connectItem s.settings] } with
    phase := .waiting s.opened
    opened := s.opened + 1 }

/-- `close_socket` -/
def leave (n : ℕ) : State :=
  let s := s.send n .fin
  { s.setLink n { s.links n with cut := true } with phase := .idle }

/-! ### The broker -/

/-- A message is published. -/
def post (topic message : Bytes) (retain : Bool) : State :=
  if retain then
    { s with
      retained := Function.update s.retained topic (if message = [] then none else some message) }
  else s

/-- The broker closes the connection, and publishes its will. -/
def endLink (n : ℕ) : State :=
  let s := s.setLink n { s.links n with queue := [], cut := true, ended := true }
  match s.session with
  | some (m, will) =>
    if m = n then
      { (match will with
        | some w => s.post w.topic w.message w.retain
        | none => s) with session := none }
    else s
  | none => s

/-- The CONNECT packet is accepted. -/
def take (n : ℕ) (c : Connect) : State :=
  let s := match s.session with
    | some (m, _) => s.endLink m
    | none => s
  { s.setLink n { s.links n with acked := true } with session := some (n, c.will) }

/-- The broker handles what it receives on the connection. -/
def handle (n : ℕ) (admitted : Bool) : Item → State
  | .fin => s.endLink n
  | .packet header body =>
    let known := s.session.map Prod.fst = some n
    if header = 0x10 then
      -- a second CONNECT packet is an error
      match if admitted ∧ ¬ known then readConnect body else none with
      | none => s.endLink n
      | some c => s.take n c
    else if header &&& 0xF0 = 0x30 then
      match if known then readPublish header body else none with
      | none => s.endLink n
      | some p => s.post p.topic p.message (header &&& 1 ≠ 0)
    else s

/-- The first packet has been received. -/
def pop (n : ℕ) : State := s.setLink n { s.links n with queue := (s.links n).queue.tail }

/-! ### Steps -/

/-- The topics of the availability, for any base topic. -/
def IsStatus (topic : Bytes) : Prop := str "/state/status" <:+ topic

instance : DecidablePred IsStatus := fun _ => inferInstanceAs (Decidable (_ <:+ _))

def Enabled : Turn → Prop
  | .configure _ | .connect => s.phase = .idle
  | .accepted => ∃ n ∈ s.phase.conn, s.phase = .waiting n ∧ (s.links n).acked = true
  | .announce => ∃ n ∈ s.phase.conn, s.phase = .greeting n
  | .publish topic _ _ => s.phase.accepted.isSome ∧ topic.length ≤ 65535 ∧ ¬ IsStatus topic
  | .leave => s.phase ≠ .idle
  | .cut n _ => n < s.opened ∧ (s.links n).ended = false
  | .receive n _ => n < s.opened ∧ (s.links n).queue ≠ []
  | .expire n => n < s.opened

instance (t : Turn) : Decidable (s.Enabled t) :=
  match t with
  | .configure _ | .connect => inferInstanceAs (Decidable (s.phase = .idle))
  | .accepted => inferInstanceAs
      (Decidable (∃ n ∈ s.phase.conn, s.phase = .waiting n ∧ (s.links n).acked = true))
  | .announce => inferInstanceAs (Decidable (∃ n ∈ s.phase.conn, s.phase = .greeting n))
  | .publish topic _ _ => inferInstanceAs
      (Decidable (s.phase.accepted.isSome ∧ topic.length ≤ 65535 ∧ ¬ IsStatus topic))
  | .leave => inferInstanceAs (Decidable (s.phase ≠ .idle))
  | .cut n _ => inferInstanceAs (Decidable (n < s.opened ∧ (s.links n).ended = false))
  | .receive n _ => inferInstanceAs (Decidable (n < s.opened ∧ (s.links n).queue ≠ []))
  | .expire n => inferInstanceAs (Decidable (n < s.opened))

def effect : Turn → State
  | .configure c => { s with settings := c }
  | .connect => s.connect
  | .accepted => match s.phase.conn with
    | none => s
    | some n => { s with phase := .greeting n }
  | .announce => match s.phase.conn with
    | none => s
    | some n => { s.send n (onlineItem s.settings) with phase := .connected n }
  | .publish topic payload retain => match s.phase.conn with
    | none => s
    | some n => s.send n (publishItem topic payload retain)
  | .leave => match s.phase.conn with
    | none => s
    | some n => s.leave n
  | .cut n k =>
    s.setLink n { s.links n with queue := (s.links n).queue.take k ++ [.fin], cut := true }
  | .receive n willing => match (s.links n).queue with
    | [] => s
    | item :: _ => (s.handle n willing item).pop n
  | .expire n => s.endLink n

def next (t : Turn) : State := if s.Enabled t then s.effect t else s

/-- Nothing is on its way, and the client has nothing to notice. -/
def AtRest : Prop :=
  (∀ n < s.opened, (s.links n).queue = []) ∧
    (s.phase = .idle ∨ ∃ n ∈ s.phase.conn, s.phase = .connected n ∧ (s.links n).cut = false)

/-- `connected_` -/
def Connected : Prop := s.phase.accepted.isSome = true

instance : Decidable s.Connected := inferInstanceAs (Decidable (_ = true))

/-- A client that has not connected yet, and what the broker retains. -/
def start (settings : Settings) (retained : Bytes → Option Bytes) : State where
  settings := settings
  links := fun _ => { settings := settings }
  retained := retained

end State

/-! ### What the broker reads -/

theorem statusTopic_eq (baseTopic : Bytes) :
    statusTopic baseTopic = baseTopic ++ str "/state/status" := by
  have hname : str "/state/status" = str "/state/" ++ str "status" := by decide
  rw [hname, ← List.append_assoc]
  rfl

theorem isStatus_statusTopic (baseTopic : Bytes) : State.IsStatus (statusTopic baseTopic) := by
  rw [statusTopic_eq]
  exact List.suffix_append _ _

theorem length_statusTopic_le (c : Settings) : (statusTopic c.baseTopic).length ≤ 65535 := by
  rw [statusTopic_eq]
  exact c.fits _ (by simp)

/-- The will of a client with these settings. -/
def offlineWill (c : Settings) : Will := ⟨statusTopic c.baseTopic, str "offline", 1, true⟩

/-- The broker reads the will, unless it refuses the packet. -/
theorem readConnect_connectItem (c : Settings) {fields : Connect}
    (h : readConnect (connectVarHeader c.toMqttConfig ++ connectPayload c.toMqttConfig) =
      some fields) : fields.will = some (offlineWill c) := by
  by_cases hlawful : c.username = [] → c.password = []
  · have hfields : (connectFields c.toMqttConfig).Lawful :=
      (lawful_connectFields_iff c.toMqttConfig).mpr ⟨hlawful, c.fits⟩
    rw [readConnect_body hfields] at h
    rw [← Option.some.inj h, connectFields, offlineWill, statusTopic_eq]
    rfl
  · -- a password without a user name: the flags are refused
    obtain ⟨husername, hpassword⟩ := Classical.not_imp.mp hlawful
    have hflags : readFlags (connectFlags c.toMqttConfig) = none := by
      unfold connectFlags
      simp only [husername, hpassword, ne_eq, not_true, not_false_iff, if_true, if_false]
      decide
    have hname : connectVarHeader c.toMqttConfig ++ connectPayload c.toMqttConfig =
        lengthPrefixed (str "MQTT") ++ 0x04 :: connectFlags c.toMqttConfig :: 0x00 :: 0x3C ::
          connectPayload c.toMqttConfig := by
      have hprotocol : lengthPrefixed (str "MQTT") = [0x00, 0x04] ++ str "MQTT" := by decide
      rw [hprotocol]
      simp [connectVarHeader]
    rw [hname, readConnect, readString_lengthPrefixed (by decide)] at h
    simp only [Option.bind_eq_bind, Option.bind_some, true_and, if_true, hflags,
      Option.bind_none] at h
    cases h

theorem readPublish_publishItem {topic : Bytes} (h : topic.length ≤ 65535) (payload : Bytes)
    (retain : Bool) :
    readPublish (publishHeader retain 0) (publishBody ⟨[], true, 1⟩ topic payload 0) =
      some ⟨0, topic, none, payload⟩ := by
  have hbody : publishBody ⟨[], true, 1⟩ topic payload 0 = lengthPrefixed topic ++ payload := by
    simp [publishBody, lengthPrefixed]
  rw [readPublish, hbody, readString_lengthPrefixed h]
  cases retain <;> rfl

/-! ### What holds in every state -/

/-- What a client with these settings may send. -/
inductive Sent (c : Settings) : Item → Prop where
  | connect : Sent c (connectItem c)
  | online : Sent c (onlineItem c)
  | other (topic payload : Bytes) (retain : Bool) (hlen : topic.length ≤ 65535)
    (htopic : ¬ State.IsStatus topic) : Sent c (publishItem topic payload retain)
  | fin : Sent c .fin

/-- What holds of the connection with the number `n`. -/
structure LinkInv (phase : Phase) (session : Option (ℕ × Option Will)) (n : ℕ) (l : Link) :
    Prop where
  sent : ∀ item ∈ l.queue, Sent l.settings item
  /-- As long as it is not cut, the client uses it. -/
  used : l.cut = false → phase.conn = some n ∧ Item.fin ∉ l.queue ∧ l.ended = false
  /-- When it is cut, the broker will notice. -/
  noticed : l.cut = true → Item.fin ∈ l.queue ∨ l.ended = true
  ended : l.ended = true → l.queue = [] ∧ l.cut = true ∧ session.map Prod.fst ≠ some n
  acked : l.acked = true → l.ended = true ∨ session.map Prod.fst = some n

structure Inv (s : State) : Prop where
  links : ∀ n < s.opened, LinkInv s.phase s.session n (s.links n)
  session : ∀ m will, s.session = some (m, will) →
    m < s.opened ∧ will = some (offlineWill (s.links m).settings)
  current : ∀ n, s.phase.conn = some n → n < s.opened ∧ (s.links n).settings = s.settings
  accepted : ∀ n, s.phase.accepted = some n → (s.links n).acked = true
  /-- Only for the connection that the broker holds open, the state is `online`. -/
  online : ∀ baseTopic, s.retained (statusTopic baseTopic) = some (str "online") →
    ∃ m will, s.session = some (m, will) ∧
      statusTopic baseTopic = statusTopic (s.links m).settings.baseTopic
  /-- The client has published the state. -/
  announced : ∀ n, s.phase = .connected n → (s.links n).cut = true ∨
    onlineItem s.settings ∈ (s.links n).queue ∨
      s.retained (statusTopic s.settings.baseTopic) = some (str "online")

theorem inv_start (settings : Settings) {retained : Bytes → Option Bytes}
    (h : ∀ baseTopic, retained (statusTopic baseTopic) ≠ some (str "online")) :
    Inv (State.start settings retained) where
  links n hn := absurd hn (Nat.not_lt_zero n)
  session m will hs := by cases hs
  current n hn := by cases hn
  accepted n hn := by cases hn
  online baseTopic hb := absurd hb (h baseTopic)
  announced n hn := by cases hn

variable {s : State}

@[simp] theorem State.links_setLink_self (n : ℕ) (l : Link) : (s.setLink n l).links n = l := by
  simp [State.setLink]

theorem State.links_setLink_of_ne {m n : ℕ} (h : m ≠ n) (l : Link) :
    (s.setLink n l).links m = s.links m := by
  simp [State.setLink, h]

theorem State.settings_setLink {n : ℕ} {l : Link} (h : l.settings = (s.links n).settings) (m : ℕ) :
    ((s.setLink n l).links m).settings = (s.links m).settings := by
  rcases eq_or_ne m n with rfl | hne
  · rw [State.links_setLink_self, h]
  · rw [State.links_setLink_of_ne hne]

theorem LinkInv.of_session {phase : Phase} {session session' : Option (ℕ × Option Will)} {n : ℕ}
    {l : Link} (h : LinkInv phase session n l)
    (hsame : session'.map Prod.fst = some n ↔ session.map Prod.fst = some n) :
    LinkInv phase session' n l where
  sent := h.sent
  used := h.used
  noticed := h.noticed
  ended hended := ⟨(h.ended hended).1, (h.ended hended).2.1,
    fun hn => (h.ended hended).2.2 (hsame.mp hn)⟩
  acked hacked := (h.acked hacked).imp_right hsame.mpr

/-- The broker holds the accepted connection open, or it is cut. -/
theorem Inv.session_of_accepted (h : Inv s) {n : ℕ} (hn : s.phase.accepted = some n)
    (hconn : s.phase.conn = some n) :
    (s.links n).cut = true ∨ s.session.map Prod.fst = some n := by
  have hlink := h.links n (h.current n hconn).1
  exact (hlink.acked (h.accepted n hn)).imp_left fun hended => (hlink.ended hended).2.1

/-! ### The broker -/

/-- A message for another topic leaves the retained ones alone. -/
theorem retained_post_of_ne {topic other : Bytes} (h : other ≠ topic) (message : Bytes)
    (retain : Bool) : (s.post topic message retain).retained other = s.retained other := by
  cases retain with
  | false => rfl
  | true => exact Function.update_of_ne h _ _

theorem post_retain {topic message : Bytes} (h : message ≠ []) :
    s.post topic message true =
      { s with retained := Function.update s.retained topic (some message) } := by
  rw [State.post, if_pos rfl, if_neg h]

/-- What `endLink` does when the broker holds the connection open. -/
theorem endLink_of_session {n : ℕ} {c : Settings} (h : s.session = some (n, some (offlineWill c))) :
    s.endLink n =
      { s.setLink n { s.links n with queue := [], cut := true, ended := true } with
        retained := Function.update s.retained (statusTopic c.baseTopic) (some (str "offline"))
        session := none } := by
  have hs : (s.setLink n { s.links n with queue := [], cut := true, ended := true }).session =
      some (n, some (offlineWill c)) := h
  have hmessage : (offlineWill c).message ≠ [] := by
    show str "offline" ≠ []
    decide
  unfold State.endLink
  simp only [hs, if_true]
  rw [show (offlineWill c).retain = true from rfl, post_retain hmessage]
  rfl

theorem endLink_of_ne {n : ℕ} (h : s.session.map Prod.fst ≠ some n) :
    s.endLink n = s.setLink n { s.links n with queue := [], cut := true, ended := true } := by
  unfold State.endLink
  simp only [State.setLink] at *
  cases hs : s.session with
  | none => rfl
  | some p =>
    rw [hs] at h
    simp only
    rw [if_neg fun heq => h (congrArg some heq)]

theorem linkInv_ended (phase : Phase) {session : Option (ℕ × Option Will)} {n : ℕ} (l : Link)
    (h : session.map Prod.fst ≠ some n) :
    LinkInv phase session n { l with queue := [], cut := true, ended := true } where
  sent _ hitem := absurd hitem List.not_mem_nil
  used hcut := absurd hcut.symm Bool.false_ne_true
  noticed _ := .inr rfl
  ended _ := ⟨rfl, rfl, h⟩
  acked _ := .inl rfl

theorem conn_of_accepted {phase : Phase} {n : ℕ} (h : phase.accepted = some n) :
    phase.conn = some n := by
  cases phase with
  | idle | waiting => cases h
  | greeting | connected => exact h

/-- The connection that the broker holds open is closed: its will is published. -/
theorem Inv.endLink_of_session (h : Inv s) {n : ℕ} {will : Option Will}
    (hs : s.session = some (n, will)) : Inv (s.endLink n) := by
  obtain ⟨hn, rfl⟩ := h.session n will hs
  rw [Availability.endLink_of_session hs]
  have hsession : s.session.map Prod.fst = some n := by rw [hs]; rfl
  have hset := State.settings_setLink (s := s) (n := n)
    (l := { s.links n with queue := [], cut := true, ended := true }) rfl
  refine ⟨?_, ?_, ?_, ?_, ?_, ?_⟩
  · intro m hm
    rcases eq_or_ne m n with rfl | hne
    · rw [State.links_setLink_self]
      exact linkInv_ended _ _ (by simp)
    · rw [State.links_setLink_of_ne hne]
      refine (h.links m hm).of_session (iff_of_false (by simp) ?_)
      rw [hsession]
      exact fun heq => hne (Option.some.inj heq).symm
  · rintro m will ⟨⟩
  · intro m hm
    rw [hset]
    exact h.current m hm
  · intro m hm
    rcases eq_or_ne m n with rfl | hne
    · rw [State.links_setLink_self]
      exact h.accepted m hm
    · rw [State.links_setLink_of_ne hne]
      exact h.accepted m hm
  · intro baseTopic hb
    -- the topic of the will is not `online`, and no other topic was
    by_cases htopic : statusTopic baseTopic = statusTopic (s.links n).settings.baseTopic
    · simp only [htopic, Function.update_self, Option.some.injEq] at hb
      exact absurd hb (by decide)
    · simp only [ne_eq, htopic, not_false_iff, Function.update_of_ne] at hb
      obtain ⟨m, will, hm, heq⟩ := h.online baseTopic hb
      rw [hs] at hm
      obtain ⟨rfl, -⟩ := Prod.mk.inj (Option.some.inj hm)
      exact absurd heq htopic
  · intro m hm
    rcases eq_or_ne m n with rfl | hne
    · rw [State.links_setLink_self]
      exact .inl rfl
    · rw [State.links_setLink_of_ne hne]
      have hphase : s.phase = .connected m := hm
      have hconn : s.phase.accepted = some m := by rw [hphase]; rfl
      refine .inl ((h.session_of_accepted hconn (conn_of_accepted hconn)).resolve_right ?_)
      rw [hsession]
      exact fun heq => hne (Option.some.inj heq).symm

/-- One connection changes, and the rest of the state does not. -/
theorem Inv.setLink (h : Inv s) {n : ℕ} {l : Link} (hsettings : l.settings = (s.links n).settings)
    (hlink : LinkInv s.phase s.session n l) (hacked : (s.links n).acked = true → l.acked = true)
    (hannounced : s.phase = .connected n → l.cut = true ∨ onlineItem s.settings ∈ l.queue ∨
      s.retained (statusTopic s.settings.baseTopic) = some (str "online")) :
    Inv (s.setLink n l) := by
  have hset := State.settings_setLink hsettings
  refine ⟨?_, ?_, ?_, ?_, ?_, ?_⟩
  · intro m hm
    rcases eq_or_ne m n with rfl | hne
    · rw [State.links_setLink_self]
      exact hlink
    · rw [State.links_setLink_of_ne hne]
      exact h.links m hm
  · intro m will hm
    rw [hset]
    exact h.session m will hm
  · intro m hm
    rw [hset]
    exact h.current m hm
  · intro m hm
    rcases eq_or_ne m n with rfl | hne
    · rw [State.links_setLink_self]
      exact hacked (h.accepted m hm)
    · rw [State.links_setLink_of_ne hne]
      exact h.accepted m hm
  · intro baseTopic hb
    obtain ⟨m, will, hm, heq⟩ := h.online baseTopic hb
    exact ⟨m, will, hm, by rw [hset]; exact heq⟩
  · intro m hm
    rcases eq_or_ne m n with rfl | hne
    · rw [State.links_setLink_self]
      exact hannounced hm
    · rw [State.links_setLink_of_ne hne]
      exact h.announced m hm

/-- Any other connection is closed. -/
theorem Inv.endLink_of_ne (h : Inv s) {n : ℕ} (hne : s.session.map Prod.fst ≠ some n) :
    Inv (s.endLink n) := by
  rw [Availability.endLink_of_ne hne]
  exact h.setLink rfl (linkInv_ended _ _ hne) id fun _ => .inl rfl

/-- **The broker closes a connection.** -/
theorem Inv.endLink (h : Inv s) (n : ℕ) : Inv (s.endLink n) := by
  by_cases hsession : s.session.map Prod.fst = some n
  · obtain ⟨⟨m, will⟩, hs, hm⟩ := Option.map_eq_some_iff.mp hsession
    obtain rfl : m = n := hm
    exact h.endLink_of_session hs
  · exact h.endLink_of_ne hsession

/-- The broker takes on a connection, and has none. -/
theorem Inv.takeOn (h : Inv s) (hnone : s.session = none) {n : ℕ} (hn : n < s.opened)
    (hended : (s.links n).ended = false) :
    Inv { s.setLink n { s.links n with acked := true } with
      session := some (n, some (offlineWill (s.links n).settings)) } := by
  have hset := State.settings_setLink (s := s) (n := n) (l := { s.links n with acked := true }) rfl
  have hoffline : ∀ baseTopic, s.retained (statusTopic baseTopic) ≠ some (str "online") := by
    intro baseTopic hb
    obtain ⟨m, will, hm, -⟩ := h.online baseTopic hb
    rw [hnone] at hm
    cases hm
  refine ⟨?_, ?_, ?_, ?_, fun baseTopic hb => absurd hb (hoffline baseTopic), ?_⟩
  · intro m hm
    rcases eq_or_ne m n with rfl | hne
    · rw [State.links_setLink_self]
      have hlink := h.links m hm
      exact ⟨hlink.sent, hlink.used, hlink.noticed,
        fun hm => absurd (hended.symm.trans hm) Bool.false_ne_true, fun _ => .inr rfl⟩
    · rw [State.links_setLink_of_ne hne]
      refine (h.links m hm).of_session (iff_of_false ?_ ?_)
      · exact fun heq => hne (Option.some.inj heq).symm
      · rw [hnone]
        simp
  · rintro m will ⟨⟩
    rw [hset]
    exact ⟨hn, rfl⟩
  · intro m hm
    rw [hset]
    exact h.current m hm
  · intro m hm
    rcases eq_or_ne m n with rfl | hne
    · rw [State.links_setLink_self]
    · rw [State.links_setLink_of_ne hne]
      exact h.accepted m hm
  · intro m hm
    rcases eq_or_ne m n with rfl | hne
    · rw [State.links_setLink_self]
      exact h.announced m hm
    · rw [State.links_setLink_of_ne hne]
      exact h.announced m hm

/-- A client connects again: its old connection is closed first. -/
theorem Inv.take (h : Inv s) {n : ℕ} (hn : n < s.opened) {c : Connect}
    (hwill : c.will = some (offlineWill (s.links n).settings))
    (hended : (s.links n).ended = false) (hknown : s.session.map Prod.fst ≠ some n) :
    Inv (s.take n c) := by
  unfold State.take
  rw [hwill]
  cases hs : s.session with
  | none => exact h.takeOn hs hn hended
  | some p =>
    obtain ⟨m, will⟩ := p
    have hne : n ≠ m := by
      rintro rfl
      exact hknown (by rw [hs]; rfl)
    have hclosed := h.endLink m
    obtain ⟨-, rfl⟩ := h.session m will hs
    rw [Availability.endLink_of_session hs] at hclosed
    simp only [Availability.endLink_of_session hs]
    have hlink := State.links_setLink_of_ne (s := s) hne
      { s.links m with queue := [], cut := true, ended := true }
    have htaken := hclosed.takeOn rfl hn (by rw [hlink]; exact hended)
    simp only [hlink] at htaken
    simp only [hlink]
    exact htaken

/-- A message for another topic is published. -/
theorem Inv.post (h : Inv s) {topic : Bytes} (htopic : ¬ State.IsStatus topic) (message : Bytes)
    (retain : Bool) : Inv (s.post topic message retain) := by
  have hstatus : ∀ baseTopic, (s.post topic message retain).retained (statusTopic baseTopic) =
      s.retained (statusTopic baseTopic) := by
    intro baseTopic
    refine retained_post_of_ne ?_ message retain
    rintro rfl
    exact htopic (isStatus_statusTopic baseTopic)
  have hsame : s.post topic message retain =
      { s with retained := (s.post topic message retain).retained } := by
    cases retain <;> rfl
  rw [hsame]
  refine ⟨h.links, h.session, h.current, h.accepted, ?_, ?_⟩
  · intro baseTopic hb
    rw [hstatus] at hb
    exact h.online baseTopic hb
  · intro n hn
    rw [hstatus]
    exact h.announced n hn

/-- The state `online` is published. -/
theorem Inv.postOnline (h : Inv s) {n : ℕ} (hn : s.session.map Prod.fst = some n) :
    Inv { s with
      retained := Function.update s.retained (statusTopic (s.links n).settings.baseTopic)
        (some (str "online")) } := by
  obtain ⟨⟨m, will⟩, hs, hm⟩ := Option.map_eq_some_iff.mp hn
  obtain rfl : m = n := hm
  refine ⟨h.links, h.session, h.current, h.accepted, ?_, ?_⟩
  · intro baseTopic hb
    by_cases htopic : statusTopic baseTopic = statusTopic (s.links m).settings.baseTopic
    · exact ⟨m, will, hs, htopic⟩
    · simp only [ne_eq, htopic, not_false_iff, Function.update_of_ne] at hb
      exact h.online baseTopic hb
  · intro n hn
    refine (h.announced n hn).imp_right (Or.imp_right fun honline => ?_)
    by_cases htopic : statusTopic s.settings.baseTopic = statusTopic (s.links m).settings.baseTopic
    · simp only [htopic, Function.update_self]
    · simp only [ne_eq, htopic, not_false_iff, Function.update_of_ne]
      exact honline

/-- A packet that the client has sent is a CONNECT packet or a message, for the broker too. -/
theorem handle_connectItem (n : ℕ) (admitted : Bool) (c : Settings) :
    s.handle n admitted (connectItem c) = s.endLink n ∨
      s.session.map Prod.fst ≠ some n ∧ ∃ fields : Connect, fields.will = some (offlineWill c) ∧
        s.handle n admitted (connectItem c) = s.take n fields := by
  unfold connectItem State.handle
  simp only [if_true]
  split_ifs with hcond
  · cases hread : readConnect (connectVarHeader c.toMqttConfig ++ connectPayload c.toMqttConfig) with
    | none => exact .inl rfl
    | some fields => exact .inr ⟨hcond.2, fields, readConnect_connectItem c hread, rfl⟩
  · exact .inl rfl

theorem handle_publishItem (n : ℕ) (admitted : Bool) {topic : Bytes} (h : topic.length ≤ 65535)
    (payload : Bytes) (retain : Bool) :
    s.handle n admitted (publishItem topic payload retain) =
      if s.session.map Prod.fst = some n then s.post topic payload retain else s.endLink n := by
  have hheader : publishHeader retain 0 ≠ 0x10 := by cases retain <;> decide
  have hkind : publishHeader retain 0 &&& 0xF0 = 0x30 := by cases retain <;> decide
  have hretain : decide (publishHeader retain 0 &&& 1 ≠ 0) = retain := by
    cases retain <;> decide
  unfold publishItem State.handle
  simp only [hheader, hkind, if_true, if_false]
  split_ifs with hknown
  · rw [readPublish_publishItem h, hretain]
  · rfl

theorem post_online (s : State) (baseTopic : Bytes) :
    s.post (statusTopic baseTopic)
        (Backlight.publishState baseTopic (str "status") (str "online")).2 true =
      { s with
        retained := Function.update s.retained (statusTopic baseTopic) (some (str "online")) } :=
  post_retain (show str "online" ≠ [] by decide)

/-! ### A packet is received -/

/-- Only the connection itself changes, and what the broker holds. -/
theorem Inv.endLink_eq (h : Inv s) (n : ℕ) : ∃ session retained, s.endLink n =
    { s.setLink n { s.links n with queue := [], cut := true, ended := true } with
      session := session
      retained := retained } := by
  by_cases hsession : s.session.map Prod.fst = some n
  · obtain ⟨⟨m, will⟩, hs, hm⟩ := Option.map_eq_some_iff.mp hsession
    obtain rfl : m = n := hm
    obtain ⟨-, rfl⟩ := h.session m will hs
    exact ⟨_, _, Availability.endLink_of_session hs⟩
  · exact ⟨_, _, Availability.endLink_of_ne hsession⟩

theorem Inv.take_eq (h : Inv s) {n : ℕ} (hknown : s.session.map Prod.fst ≠ some n)
    (c : Connect) : (s.take n c).opened = s.opened ∧
      (s.take n c).links n = { s.links n with acked := true } := by
  unfold State.take
  cases hs : s.session with
  | none => exact ⟨rfl, State.links_setLink_self n _⟩
  | some p =>
    have hne : n ≠ p.1 := by
      rintro rfl
      exact hknown (by rw [hs]; rfl)
    obtain ⟨session, retained, hend⟩ := h.endLink_eq p.1
    simp only [hend]
    refine ⟨rfl, (State.links_setLink_self n _).trans ?_⟩
    simp only [State.links_setLink_of_ne hne]

/-- What has been received is gone: neither the end of the connection nor, if the client waits for
it, the state. -/
theorem Inv.pop (h : Inv s) {n : ℕ} (hn : n < s.opened) {item : Item} {rest : List Item}
    (hqueue : (s.links n).queue = item :: rest) (hfin : item ≠ .fin)
    (honline : item = onlineItem s.settings → s.phase = .connected n → (s.links n).cut = true ∨
      s.retained (statusTopic s.settings.baseTopic) = some (str "online")) :
    Inv (s.pop n) := by
  have hlink := h.links n hn
  have hmem : ∀ {i : Item}, i ≠ item → (i ∈ (s.links n).queue ↔ i ∈ rest) := by
    intro i hi
    rw [hqueue, List.mem_cons, or_iff_right hi]
  unfold State.pop
  rw [hqueue, List.tail_cons]
  refine h.setLink rfl ⟨?_, ?_, ?_, ?_, hlink.acked⟩ id fun hphase => ?_
  · intro i hi
    exact hlink.sent i (by rw [hqueue]; exact List.mem_cons_of_mem item hi)
  · intro hcut
    obtain ⟨hconn, hnofin, hended⟩ := hlink.used hcut
    exact ⟨hconn, fun hmemfin => hnofin ((hmem hfin.symm).mpr hmemfin), hended⟩
  · intro hcut
    exact (hlink.noticed hcut).imp_left (hmem hfin.symm).mp
  · intro hended
    have hnil := (hlink.ended hended).1
    rw [hqueue] at hnil
    cases hnil
  · by_cases hitem : item = onlineItem s.settings
    · exact (honline hitem hphase).imp_right .inr
    · exact (h.announced n hphase).imp_right (Or.imp_left (hmem (Ne.symm hitem)).mp)

theorem pop_endLink (h : Inv s) (n : ℕ) : (s.endLink n).pop n = s.endLink n := by
  have hqueue : ((s.endLink n).links n).queue = [] := by
    obtain ⟨session, retained, hend⟩ := h.endLink_eq n
    rw [hend]
    simp only [State.links_setLink_self]
  have hsame : { (s.endLink n).links n with queue := [] } = (s.endLink n).links n := by
    rw [← hqueue]
  rw [State.pop, hqueue, List.tail_nil, hsame, State.setLink, Function.update_eq_self]

theorem connectItem_ne_publishItem (c : Settings) (topic payload : Bytes) (retain : Bool) :
    connectItem c ≠ publishItem topic payload retain := by
  intro heq
  cases retain <;> exact absurd (Item.packet.inj heq).1 (by decide)

theorem topic_of_publishItem_eq {topic topic' payload payload' : Bytes} {retain retain' : Bool}
    (h : topic.length ≤ 65535) (h' : topic'.length ≤ 65535)
    (heq : publishItem topic payload retain = publishItem topic' payload' retain') :
    topic = topic' := by
  obtain ⟨hheader, hbody⟩ := Item.packet.inj heq
  have hread := readPublish_publishItem h payload retain
  rw [hheader, hbody, readPublish_publishItem h'] at hread
  exact (Publish.mk.inj (Option.some.inj hread)).2.1.symm

/-- **The broker receives what the client has sent.** -/
theorem Inv.receive (h : Inv s) {n : ℕ} (hn : n < s.opened) {item : Item} {rest : List Item}
    (hqueue : (s.links n).queue = item :: rest) (admitted : Bool) :
    Inv ((s.handle n admitted item).pop n) := by
  have hlink := h.links n hn
  have hended : (s.links n).ended = false := by
    refine Bool.eq_false_iff.mpr fun hended => ?_
    rw [(hlink.ended hended).1] at hqueue
    cases hqueue
  have hsent : Sent (s.links n).settings item := hlink.sent item (by rw [hqueue]; simp)
  have hclosed : Inv ((s.endLink n).pop n) := by
    rw [pop_endLink h]
    exact h.endLink n
  generalize hc : (s.links n).settings = c at hsent
  cases hsent with
  | connect =>
    obtain hclose | ⟨hknown, fields, hwill, htake⟩ := handle_connectItem (s := s) n admitted c
    · rwa [hclose]
    · rw [htake]
      obtain ⟨hopened, htaken⟩ := h.take_eq hknown fields
      refine (h.take hn (by rw [hc]; exact hwill) hended hknown).pop (by rw [hopened]; exact hn)
        (by rw [htaken]; exact hqueue) (by rintro ⟨⟩) fun heq => ?_
      exact absurd heq (connectItem_ne_publishItem c _ _ _)
  | online =>
    unfold onlineItem
    rw [handle_publishItem n admitted (length_statusTopic_le c)]
    split_ifs with hknown
    · have honline := h.postOnline hknown
      rw [hc] at honline
      rw [post_online]
      refine honline.pop hn hqueue (by rintro ⟨⟩) fun _ hphase => .inr ?_
      -- the client has not been configured anew
      have hcurrent := (h.current n (by rw [show s.phase = _ from hphase]; rfl)).2
      rw [hc] at hcurrent
      simp only [← hcurrent, Function.update_self]
    · exact hclosed
  | other topic payload retain hlen htopic =>
    rw [handle_publishItem n admitted hlen]
    split_ifs with hknown
    · have hpost := h.post htopic payload retain
      have hsame : ∃ retained, s.post topic payload retain = { s with retained := retained } := by
        cases retain <;> exact ⟨_, rfl⟩
      obtain ⟨retained, hsame⟩ := hsame
      rw [hsame] at hpost ⊢
      refine hpost.pop hn hqueue (by rintro ⟨⟩) fun heq _ => ?_
      have htopics := topic_of_publishItem_eq hlen (length_statusTopic_le s.settings) heq
      exact absurd (htopics ▸ isStatus_statusTopic s.settings.baseTopic) htopic
    · exact hclosed
  | fin => exact hclosed

/-! ### The client -/

/-- The client sends a packet. -/
theorem Inv.send (h : Inv s) {n : ℕ} (hn : n < s.opened) {item : Item}
    (hsent : Sent (s.links n).settings item) (hfin : item ≠ .fin) : Inv (s.send n item) := by
  unfold State.send
  split_ifs with hcut
  · exact h
  have hlink := h.links n hn
  have hmem : ∀ {i : Item}, i ∈ (s.links n).queue → i ∈ (s.links n).queue ++ [item] :=
    fun hi => List.mem_append_left _ hi
  have hused := hlink.used (Bool.eq_false_iff.mpr hcut)
  refine h.setLink rfl ⟨?_, ?_, ?_, ?_, hlink.acked⟩ id fun hphase => ?_
  · intro i hi
    obtain hi | hi := List.mem_append.mp hi
    · exact hlink.sent i hi
    · rw [List.mem_singleton.mp hi]
      exact hsent
  · intro _
    refine ⟨hused.1, ?_, hused.2.2⟩
    rw [List.mem_append, not_or, List.mem_singleton]
    exact ⟨hused.2.1, hfin.symm⟩
  · exact fun hcut' => absurd hcut' hcut
  · exact fun hended => absurd (hused.2.2.symm.trans hended) Bool.false_ne_true
  · exact (h.announced n hphase).imp_right (Or.imp_left hmem)

/-- The phase changes, but not the connection. -/
theorem Inv.setPhase (h : Inv s) {phase : Phase} (hconn : phase.conn = s.phase.conn)
    (haccepted : ∀ n, phase.accepted = some n → (s.links n).acked = true)
    (hannounced : ∀ n, phase = .connected n → (s.links n).cut = true ∨
      onlineItem s.settings ∈ (s.links n).queue ∨
        s.retained (statusTopic s.settings.baseTopic) = some (str "online")) :
    Inv { s with phase := phase } := by
  refine ⟨fun n hn => ?_, h.session, fun n hn => ?_, haccepted, h.online, hannounced⟩
  · have hlink := h.links n hn
    exact ⟨hlink.sent, by rw [hconn]; exact hlink.used, hlink.noticed, hlink.ended, hlink.acked⟩
  · rw [hconn] at hn
    exact h.current n hn

/-- The client has no connection any more. -/
theorem Inv.setIdle (h : Inv s) (hcut : ∀ n < s.opened, (s.links n).cut = true) :
    Inv { s with phase := .idle } := by
  refine ⟨fun n hn => ?_, h.session, ?_, ?_, h.online, ?_⟩
  · have hlink := h.links n hn
    exact ⟨hlink.sent, fun hfalse => absurd (hfalse.symm.trans (hcut n hn)) Bool.false_ne_true,
      hlink.noticed, hlink.ended, hlink.acked⟩
  · rintro n ⟨⟩
  · rintro n ⟨⟩
  · rintro n ⟨⟩

/-- The network fails, or the client closes the socket. -/
theorem Inv.cut (h : Inv s) {n : ℕ} (hn : n < s.opened) (hended : (s.links n).ended = false)
    {queue : List Item} (hqueue : ∀ item ∈ queue, item ∈ (s.links n).queue) :
    Inv (s.setLink n { s.links n with queue := queue ++ [.fin], cut := true }) := by
  have hlink := h.links n hn
  refine h.setLink rfl ⟨?_, ?_, ?_, ?_, hlink.acked⟩ id fun _ => .inl rfl
  · intro i hi
    obtain hi | hi := List.mem_append.mp hi
    · exact hlink.sent i (hqueue i hi)
    · rw [List.mem_singleton.mp hi]
      exact .fin
  · exact fun hfalse => absurd hfalse.symm Bool.false_ne_true
  · exact fun _ => .inl (List.mem_append_right _ (List.mem_singleton.mpr rfl))
  · exact fun htrue => absurd (hended.symm.trans htrue) Bool.false_ne_true

theorem leave_eq (n : ℕ) : s.leave n =
    if (s.links n).cut then { s with phase := .idle }
    else { s.setLink n { s.links n with queue := (s.links n).queue ++ [.fin], cut := true } with
      phase := .idle } := by
  unfold State.leave State.send
  split_ifs with hcut
  · have hsame : { s.links n with cut := true } = s.links n := by rw [← hcut]
    simp only [hsame, State.setLink, Function.update_eq_self]
  · simp only [State.setLink, Function.update_self, Function.update_idem]

/-- The client closes the socket. -/
theorem Inv.leave (h : Inv s) {n : ℕ} (hconn : s.phase.conn = some n) : Inv (s.leave n) := by
  have hn := (h.current n hconn).1
  -- the client has no other connection that is not cut
  have hothers : ∀ m < s.opened, m ≠ n → (s.links m).cut = true := by
    intro m hm hne
    refine Bool.not_eq_false _ ▸ fun hcut => hne ?_
    have hused := ((h.links m hm).used hcut).1
    rw [hconn] at hused
    exact (Option.some.inj hused).symm
  rw [leave_eq]
  split_ifs with hcut
  · refine h.setIdle fun m hm => ?_
    rcases eq_or_ne m n with rfl | hne
    · exact hcut
    · exact hothers m hm hne
  · have hended := ((h.links n hn).used (Bool.eq_false_iff.mpr hcut)).2.2
    refine (h.cut hn hended fun _ hi => hi).setIdle fun m hm => ?_
    rcases eq_or_ne m n with rfl | hne
    · rw [State.links_setLink_self]
    · rw [State.links_setLink_of_ne hne]
      exact hothers m hm hne

/-- The client opens a connection. -/
theorem Inv.connect (h : Inv s) (hidle : s.phase = .idle) : Inv s.connect := by
  have hlinks : ∀ m < s.opened, s.connect.links m = s.links m :=
    fun m hm => State.links_setLink_of_ne hm.ne _
  have hnew : s.connect.links s.opened =
      { settings := s.settings, queue := [connectItem s.settings] } :=
    State.links_setLink_self s.opened _
  have hnone : s.session.map Prod.fst ≠ some s.opened := by
    intro hs
    obtain ⟨⟨m, will⟩, hs, hm⟩ := Option.map_eq_some_iff.mp hs
    exact (h.session m will hs).1.ne hm
  refine ⟨?_, ?_, ?_, ?_, ?_, ?_⟩
  · intro m hm
    obtain hm | rfl := Nat.lt_succ_iff_lt_or_eq.mp hm
    · rw [hlinks m hm]
      have hlink := h.links m hm
      refine ⟨hlink.sent, fun hcut => ?_, hlink.noticed, hlink.ended, hlink.acked⟩
      have hused := (hlink.used hcut).1
      rw [hidle] at hused
      cases hused
    · rw [hnew]
      refine ⟨?_, fun _ => ⟨rfl, by simp [connectItem], rfl⟩, ?_, ?_, ?_⟩
      · intro i hi
        rw [List.mem_singleton.mp hi]
        exact .connect
      · exact fun hfalse => absurd hfalse Bool.false_ne_true
      · exact fun hfalse => absurd hfalse Bool.false_ne_true
      · exact fun hfalse => absurd hfalse Bool.false_ne_true
  · intro m will hs
    obtain ⟨hm, hwill⟩ := h.session m will hs
    rw [hlinks m hm]
    exact ⟨Nat.lt_succ_of_lt hm, hwill⟩
  · intro m hm
    obtain rfl : s.opened = m := Option.some.inj hm
    rw [hnew]
    exact ⟨Nat.lt_succ_self _, rfl⟩
  · rintro m ⟨⟩
  · intro baseTopic hb
    obtain ⟨m, will, hs, htopic⟩ := h.online baseTopic hb
    refine ⟨m, will, hs, ?_⟩
    rw [hlinks m (h.session m will hs).1]
    exact htopic
  · rintro m ⟨⟩

/-- The client has announced itself. -/
theorem Inv.announce (h : Inv s) {n : ℕ} (hphase : s.phase = .greeting n) :
    Inv { s.send n (onlineItem s.settings) with phase := .connected n } := by
  have hconn : s.phase.conn = some n := by rw [hphase]; rfl
  have hacked := h.accepted n (by rw [hphase]; rfl)
  obtain ⟨hn, hsettings⟩ := h.current n hconn
  have honline : Sent (s.links n).settings (onlineItem s.settings) := by
    rw [hsettings]
    exact .online
  have hsent := h.send hn honline (by rintro ⟨⟩)
  have hphase' : (s.send n (onlineItem s.settings)).phase = s.phase ∧
      (s.send n (onlineItem s.settings)).settings = s.settings := by
    unfold State.send
    split_ifs <;> exact ⟨rfl, rfl⟩
  refine hsent.setPhase (by rw [hphase'.1, hconn]; rfl) ?_ ?_
  · intro m hm
    obtain rfl : n = m := Option.some.inj hm
    unfold State.send
    split_ifs
    · exact hacked
    · rw [State.links_setLink_self]
      exact hacked
  · intro m hm
    obtain rfl : n = m := Phase.connected.inj hm
    rw [hphase'.2]
    unfold State.send
    split_ifs with hcut
    · exact .inl hcut
    · rw [State.links_setLink_self]
      exact .inr (.inl (List.mem_append_right _ (List.mem_singleton.mpr rfl)))

/-- **A step.** -/
theorem Inv.next (h : Inv s) (t : Turn) : Inv (s.next t) := by
  unfold State.next
  split_ifs with ht
  swap
  · exact h
  cases t with
  | configure c =>
    have hidle : s.phase = .idle := ht
    refine ⟨h.links, h.session, ?_, h.accepted, h.online, ?_⟩
    · intro n hn
      rw [show (s.effect (.configure c)).phase = .idle from hidle] at hn
      cases hn
    · intro n hn
      rw [show s.phase = _ from hn] at hidle
      cases hidle
  | connect => exact h.connect ht
  | accepted =>
    obtain ⟨n, hconn, hphase, hacked⟩ := ht
    simp only [State.effect, Option.mem_def.mp hconn]
    refine h.setPhase (Option.mem_def.mp hconn).symm ?_ ?_
    · intro m hm
      obtain rfl : n = m := Option.some.inj hm
      exact hacked
    · rintro m ⟨⟩
  | announce =>
    obtain ⟨n, hconn, hphase⟩ := ht
    simp only [State.effect, Option.mem_def.mp hconn]
    exact h.announce hphase
  | publish topic payload retain =>
    obtain ⟨haccepted, hlen, htopic⟩ := ht
    obtain ⟨n, hn⟩ := Option.isSome_iff_exists.mp haccepted
    have hconn := conn_of_accepted hn
    simp only [State.effect, hconn]
    exact h.send (h.current n hconn).1 (.other topic payload retain hlen htopic) (by rintro ⟨⟩)
  | leave =>
    simp only [State.effect]
    cases hconn : s.phase.conn with
    | none => exact h
    | some n => exact h.leave hconn
  | cut n k => exact h.cut ht.1 ht.2 fun _ hi => List.mem_of_mem_take hi
  | receive n willing =>
    obtain ⟨hn, hqueue⟩ := ht
    simp only [State.effect]
    cases hq : (s.links n).queue with
    | nil => exact absurd hq hqueue
    | cons item rest => exact h.receive hn hq willing
  | expire n => exact h.endLink n

/-- When nothing is on its way, the broker holds the connection of the client open or none. -/
theorem Inv.connected_iff (h : Inv s) (hrest : s.AtRest) (baseTopic : Bytes) :
    s.retained (statusTopic baseTopic) = some (str "online") ↔
      s.Connected ∧ statusTopic baseTopic = statusTopic s.settings.baseTopic := by
  constructor
  · intro hb
    obtain ⟨m, will, hs, htopic⟩ := h.online baseTopic hb
    have hm := (h.session m will hs).1
    have hlink := h.links m hm
    have hcut : (s.links m).cut = false := by
      refine Bool.eq_false_iff.mpr fun hcut => ?_
      obtain hfin | hended := hlink.noticed hcut
      · rw [hrest.1 m hm] at hfin
        cases hfin
      · exact (hlink.ended hended).2.2 (by rw [hs]; rfl)
    have hconn := (hlink.used hcut).1
    rw [(h.current m hconn).2] at htopic
    refine ⟨?_, htopic⟩
    obtain hidle | ⟨n, -, hphase, -⟩ := hrest.2
    · rw [hidle] at hconn
      cases hconn
    · rw [State.Connected, hphase]
      rfl
  · rintro ⟨hconnected, htopic⟩
    obtain ⟨n, haccepted⟩ := Option.isSome_iff_exists.mp hconnected
    have hconn := conn_of_accepted haccepted
    obtain hidle | ⟨m, -, hphase, hcut⟩ := hrest.2
    · rw [hidle] at hconn
      cases hconn
    · have hannounced := h.announced m hphase
      have hm := (h.current m (by rw [hphase]; rfl)).1
      rw [hrest.1 m hm, hcut] at hannounced
      rw [htopic]
      simpa using hannounced

/-- **The retained state is true.**  In every run, `online` is retained only for the base topic of
the connection that the broker holds open for the client; and when nothing is on its way, it is
retained for the base topic of the client's settings exactly if the client is connected, and for no
other. -/
theorem availability_truthful (settings : Settings) {retained : Bytes → Option Bytes}
    (h : ∀ baseTopic, retained (statusTopic baseTopic) ≠ some (str "online")) (l : List Turn) :
    let s := run State.next (State.start settings retained) l
    (∀ baseTopic, s.retained (statusTopic baseTopic) = some (str "online") →
      ∃ m will, s.session = some (m, will) ∧
        statusTopic baseTopic = statusTopic (s.links m).settings.baseTopic) ∧
    (s.AtRest → ∀ baseTopic, s.retained (statusTopic baseTopic) = some (str "online") ↔
      s.Connected ∧ statusTopic baseTopic = statusTopic s.settings.baseTopic) := by
  have hinv : Inv (run State.next (State.start settings retained) l) :=
    run_invariant (I := Inv) (fun _ t hs => Inv.next hs t) (inv_start settings h) l
  exact ⟨hinv.online, fun hrest => hinv.connected_iff hrest⟩

/-- The panel connects, and everything has arrived. -/
theorem announced_panel_available :
    (run State.next
        (State.start (.ofValid MqttConfig.Valid.builtin (by decide)) fun _ => none)
        [.connect, .receive 0 true, .accepted, .announce, .receive 0 true]).retained
      (statusTopic (str "panel/tpp01")) = some (str "online") := by
  refine ((availability_truthful _ (fun _ h => by cases h) _).2 ⟨?_, ?_⟩ _).mpr ⟨?_, ?_⟩
  · decide
  · decide
  · decide
  · decide

end Availability

end Mqtt

end HaPanel
