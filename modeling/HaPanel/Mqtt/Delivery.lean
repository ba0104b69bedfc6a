import HaPanel.Mqtt.Boundaries

/-!
# Commands with QoS 1

The client subscribes to its commands with QoS 1: the broker numbers each command, keeps it in flight
until it is acknowledged, and has at most `W` of them in flight.  A session is the broker, one
connection of `MqttClient::loop` that reads whatever pieces it is given, and the bytes between them.

The client never acknowledges (`processSends`).  `deliveries_complete_iff` : when neither party can
go on, every command has been called back once and in order exactly if there are no more than `W`
of them, no more than there are packet identifiers, and none is too long for
`decode_remaining_length`.
-/

namespace HaPanel

namespace Mqtt

open Text Transition

/-! ### Reading while packets are sent -/

/-- `decode_remaining_length` accepts the length field. -/
def Packet.Short (p : Packet) : Prop := p.lengthField.length ≤ 3

instance (p : Packet) : Decidable p.Short := inferInstanceAs (Decidable (_ ≤ _))

/-- Where the loop is in the packets that are left, with no byte missing. -/
inductive Reads : List Packet → Position → Bytes → Prop where
  | header {rest : List Packet} : Reads rest .header (wire rest)
  | length {p : Packet} {rest : List Packet} {pre post : Bytes} {v : ℕ}
      (hfield : p.lengthField = pre ++ post) (hpost : IsVarint post)
      (hv : v + 128 ^ pre.length * ofVarint post = p.body.length) :
      Reads (p :: rest) (.length p.header (128 ^ pre.length) v) (post ++ (p.body ++ wire rest))
  | body {p : Packet} {rest : List Packet} {pre post : Bytes} (hshort : p.Short)
      (hbody : p.body = pre ++ post) (hpost : post ≠ []) :
      Reads (p :: rest) (.body p.header p.body.length pre) (post ++ wire rest)
  | closed {p : Packet} {rest : List Packet} {inbound : Bytes} (hlong : ¬ p.Short) :
      Reads (p :: rest) .closed inbound

/-- The connection has handed over some of the packets sent, and reads the rest. -/
structure Follows (sent : List Packet) (c : Connection) : Prop where
  running : c.running = true
  pingOk : c.pingOk = true
  reads : ∃ done rest, sent = done ++ rest ∧ c.handed = done.map Packet.pair ∧
    (∀ p ∈ done, p.Short) ∧ Reads rest c.position c.inbound

theorem Reads.append {rest : List Packet} {position : Position} {inbound : Bytes}
    (h : Reads rest position inbound) (q : Packet) :
    Reads (rest ++ [q]) position (inbound ++ q.bytes) := by
  have hwire : ∀ ps : List Packet, wire ps ++ q.bytes = wire (ps ++ [q]) := by
    intro ps
    rw [wire_append, wire_cons, wire_nil, List.append_nil]
  cases h with
  | header =>
    rw [hwire]
    exact .header
  | length hfield hpost hv =>
    rw [List.append_assoc, List.append_assoc, hwire]
    exact .length hfield hpost hv
  | body hshort hbody hpost =>
    rw [List.append_assoc, hwire]
    exact .body hshort hbody hpost
  | closed hlong => exact .closed hlong

section

variable {sent : List Packet} {c : Connection}

/-- A packet is put on the wire. -/
theorem Follows.send (h : Follows sent c) (q : Packet) :
    Follows (sent ++ [q]) { c with inbound := c.inbound ++ q.bytes } := by
  obtain ⟨done, rest, hsent, hhanded, hshort, hreads⟩ := h.reads
  exact ⟨h.running, h.pingOk, done, rest ++ [q], by rw [hsent, List.append_assoc], hhanded, hshort,
    hreads.append q⟩

/-- The loop over the body, entered with the part `pre` of it. -/
theorem follows_bodyLoop {done rest : List Packet} {p : Packet} {pre post : Bytes}
    (hrunning : c.running = true) (hping : c.pingOk = true) (hsent : sent = done ++ p :: rest)
    (hhanded : c.handed = done.map Packet.pair) (hdone : ∀ p ∈ done, p.Short) (hshort : p.Short)
    (hbody : p.body = pre ++ post) (hin : c.inbound = post ++ wire rest) :
    Follows sent (c.bodyLoop p.header p.body.length pre) := by
  have hlen : p.body.length = pre.length + post.length := by rw [hbody, List.length_append]
  unfold Connection.bodyLoop
  split_ifs with hmore hall
  · refine ⟨hrunning, hping, done, p :: rest, hsent, hhanded, hdone, ?_⟩
    simp only [hin]
    refine .body hshort hbody fun h => ?_
    rw [h, List.length_nil] at hlen
    omega
  · have hpost : post = [] := List.eq_nil_of_length_eq_zero (by omega)
    have hpre : pre = p.body := by rw [hbody, hpost, List.append_nil]
    refine ⟨hrunning, hping, done ++ [p], rest, by rw [hsent]; simp, ?_, ?_, ?_⟩
    · simp [Connection.endIteration, hhanded, hpre, Packet.pair]
    · intro q hq
      rcases List.mem_append.mp hq with hq | hq
      · exact hdone q hq
      · rwa [List.mem_singleton.mp hq]
    · simp only [Connection.endIteration, hping, hrunning, and_self, if_true, hin, hpost,
        List.nil_append]
      exact .header
  · exact absurd ⟨by omega, hrunning⟩ hmore

/-- A byte of a length field.  The fourth one is always refused. -/
theorem follows_lengthByte {done rest : List Packet} {p : Packet} {pre post : Bytes} {b : UInt8}
    {v : ℕ} (hrunning : c.running = true) (hping : c.pingOk = true)
    (hsent : sent = done ++ p :: rest) (hhanded : c.handed = done.map Packet.pair)
    (hdone : ∀ p ∈ done, p.Short) (hfield : p.lengthField = pre ++ b :: post)
    (hpost : IsVarint (b :: post))
    (hv : v + 128 ^ pre.length * ofVarint (b :: post) = p.body.length)
    (hin : c.inbound = post ++ (p.body ++ wire rest)) :
    Follows sent (c.lengthByte p.header (128 ^ pre.length) v b) := by
  have hpow : 128 ^ pre.length * 128 = 128 ^ (pre ++ [b]).length := by
    rw [List.length_append, List.length_singleton, pow_succ]
  have hcut : p.lengthField = (pre ++ [b]) ++ post := by rw [hfield]; simp
  unfold Connection.lengthByte
  by_cases hpre : pre.length ≤ 2
  · have hgo : ¬ 128 ^ pre.length * 128 > 128 * 128 * 128 := by
      have := Nat.pow_le_pow_right (by decide : 0 < 128) hpre
      omega
    simp only [hgo, if_false]
    cases hpost with
    | last hb =>
      have hstop : ¬ b &&& 128 ≠ 0 := not_not.mpr ((and_continuation b).mpr hb)
      have hvalue : v + (b &&& 127).toNat * 128 ^ pre.length = p.body.length := by
        rw [← hv, and_group, ofVarint, ofVarint, Nat.mul_zero, Nat.add_zero, Nat.mul_comm]
      have hshort : p.Short := by
        rw [Packet.Short, hfield, List.length_append, List.length_singleton]
        omega
      simp only [hstop, if_false, hvalue]
      exact follows_bodyLoop hrunning hping hsent hhanded hdone hshort (List.nil_append _).symm hin
    | more hb hbs =>
      have hmore : b &&& 128 ≠ 0 := fun h => absurd ((and_continuation b).mp h) (by omega)
      simp only [hmore, if_true, ne_eq, not_false_eq_true]
      refine ⟨hrunning, hping, done, p :: rest, hsent, hhanded, hdone, ?_⟩
      simp only [hpow, hin]
      refine .length hcut hbs ?_
      rw [← hv, and_group, ofVarint, ← hpow]
      ring
  · have hstop : 128 ^ pre.length * 128 > 128 * 128 * 128 := by
      have := Nat.pow_le_pow_right (by decide : 0 < 128) (show 3 ≤ pre.length by omega)
      omega
    simp only [hstop, if_true]
    refine ⟨hrunning, hping, done, p :: rest, hsent, hhanded, hdone, .closed ?_⟩
    rw [Packet.Short, hfield, List.length_append, List.length_cons]
    omega

theorem inbound_bodyLoop (header : UInt8) (remLen : ℕ) (payload : Bytes) :
    (c.bodyLoop header remLen payload).inbound = c.inbound := by
  unfold Connection.bodyLoop
  split_ifs <;> rfl

theorem inbound_lengthByte (header : UInt8) (m v : ℕ) (b : UInt8) :
    (c.lengthByte header m v b).inbound = c.inbound := by
  unfold Connection.lengthByte
  simp only
  split_ifs
  · rfl
  · rfl
  · rw [inbound_bodyLoop]

/-- **A read goes on with the packets sent**, and takes something off the wire. -/
theorem Follows.read (h : Follows sent c) (hopen : c.position ≠ .closed) (hne : c.inbound ≠ [])
    (n : ℕ) :
    Follows sent (c.onRead (.bytes n)) ∧
      (c.onRead (.bytes n)).inbound.length < c.inbound.length := by
  obtain ⟨hrunning, hping, done, rest, hsent, hhanded, hdone, hreads⟩ := h
  generalize hpos : c.position = position at hreads hopen
  generalize hin : c.inbound = inbound at hreads hne
  cases hreads with
  | header =>
    cases rest with
    | nil => exact absurd rfl hne
    | cons p rest =>
      rw [wire_cons, Packet.bytes, List.cons_append, List.append_assoc] at hin
      rw [onRead_header hpos hin]
      refine ⟨⟨hrunning, hping, done, p :: rest, hsent, hhanded, hdone, ?_⟩, ?_⟩
      · refine Reads.length (List.nil_append _).symm p.isVarint ?_
        rw [List.length_nil, pow_zero, Nat.one_mul, Nat.zero_add, p.length_eq]
      · rw [wire_cons, Packet.bytes]
        simp
  | @length p rest pre post v hfield hpost hv =>
    obtain ⟨b, post, rfl⟩ := List.exists_cons_of_ne_nil hpost.ne_nil
    rw [onRead_length hpos hin]
    refine ⟨follows_lengthByte hrunning hping hsent hhanded hdone hfield hpost hv rfl, ?_⟩
    rw [inbound_lengthByte]
    simp
  | @body p rest pre post hshort hbody hpost =>
    obtain ⟨b, bs, rfl⟩ := List.exists_cons_of_ne_nil hpost
    have hreq : p.body.length - pre.length = (b :: bs).length := by
      rw [hbody, List.length_append, Nat.add_sub_cancel_left]
    have hread : readRaw (.bytes n) (p.body.length - pre.length) (b :: bs ++ wire rest) =
        some (b :: bs.take n) := by
      rw [readRaw, hreq, ← List.take_take, List.take_left, List.take_succ_cons]
    have hsplit : b :: bs ++ wire rest = (b :: bs.take n) ++ (bs.drop n ++ wire rest) := by
      rw [List.cons_append, List.cons_append, ← List.append_assoc, List.take_append_drop]
    have hstep : c.onRead (.bytes n) =
        (c.take (b :: bs.take n)).bodyLoop p.header p.body.length (pre ++ b :: bs.take n) := by
      simp only [Connection.onRead, hpos, hin, hread]
    have hinbound : (c.take (b :: bs.take n)).inbound = bs.drop n ++ wire rest := by
      rw [Connection.take, hin, hsplit, List.drop_left]
    have hbody' : p.body = (pre ++ b :: bs.take n) ++ bs.drop n := by
      rw [List.append_assoc, List.cons_append, List.take_append_drop, hbody]
    rw [hstep]
    refine ⟨follows_bodyLoop hrunning hping hsent hhanded hdone hshort hbody' hinbound, ?_⟩
    rw [inbound_bodyLoop, hinbound, hsplit]
    simp only [List.length_append, List.length_cons]
    omega
  | closed hlong => exact absurd rfl hopen

/-- When nothing is left on the wire, everything has been handed over. -/
theorem Follows.handed_of_nil (h : Follows sent c) (hopen : c.position ≠ .closed)
    (hnil : c.inbound = []) : c.handed = sent.map Packet.pair ∧ ∀ p ∈ sent, p.Short := by
  obtain ⟨-, -, done, rest, hsent, hhanded, hdone, hreads⟩ := h
  generalize hpos : c.position = position at hreads hopen
  generalize hin : c.inbound = inbound at hreads hnil
  have hrest : rest = [] := by
    cases hreads with
    | header =>
      cases rest with
      | nil => rfl
      | cons p rest => cases hnil
    | length hfield hpost hv => exact absurd (List.append_eq_nil_iff.mp hnil).1 hpost.ne_nil
    | body hshort hbody hpost => exact absurd (List.append_eq_nil_iff.mp hnil).1 hpost
    | closed hlong => exact absurd rfl hopen
  rw [hrest, List.append_nil] at hsent
  rw [hsent]
  exact ⟨hhanded, hdone⟩

/-- A connection is given up because of a packet that is too long. -/
theorem Follows.handed_of_closed (h : Follows sent c) (hclosed : c.position = .closed) :
    ∃ done p rest, sent = done ++ p :: rest ∧ c.handed = done.map Packet.pair ∧ ¬ p.Short := by
  obtain ⟨-, -, done, rest, hsent, hhanded, hdone, hreads⟩ := h
  rw [hclosed] at hreads
  cases hreads with
  | @closed p rest _ hlong => exact ⟨done, p, rest, hsent, hhanded, hlong⟩

end

/-! ### The session -/

/-- A command for the panel, as far as MQTT can transport it. -/
structure Command (baseTopic : Bytes) where
  name : Bytes
  payload : Bytes
  topic_le : (baseTopic ++ str "/cmd/" ++ name).length ≤ 65535
  body_lt : 2 + (baseTopic ++ str "/cmd/" ++ name).length + 2 + payload.length < 128 ^ 4

namespace Command

variable {baseTopic : Bytes} (cmd : Command baseTopic)

def topic : Bytes := baseTopic ++ str "/cmd/" ++ cmd.name

/-- The remaining length of its packet. -/
def size : ℕ := 2 + cmd.topic.length + 2 + cmd.payload.length

/-- The arguments of the callback. -/
def call : Bytes × Bytes := (cmd.name, cmd.payload)

/-- The broker forwards a message as `publish` would send it. -/
def packet (id : UInt16) : Packet :=
  publishedPacket ⟨baseTopic, true, id⟩ cmd.topic cmd.payload false 1 (by
    rw [length_publishBody]
    exact cmd.body_lt)

theorem packet_call (id : UInt16) :
    processIncomingPacket baseTopic (cmd.packet id).header (cmd.packet id).body = some cmd.call :=
  processIncomingPacket_publishBody ⟨baseTopic, true, id⟩ baseTopic cmd.name cmd.payload false
    (.inr rfl) cmd.topic_le

theorem short_packet_iff (id : UInt16) : (cmd.packet id).Short ↔ cmd.size < 128 ^ 3 := by
  have hlength : (cmd.packet id).lengthField = varint cmd.size := by
    rw [packet, publishedPacket]
    simp only [length_publishBody]
    rfl
  rw [Packet.Short, hlength]
  constructor
  · intro h
    have hlt := ofVarint_lt (varint cmd.size)
    rw [ofVarint_varint] at hlt
    exact hlt.trans_le (Nat.pow_le_pow_right (by decide) h)
  · exact fun h => length_varint_le h

end Command

theorem length_suback (id : UInt16) : ofVarint [3] = (twoBytes id.toNat ++ [1]).length := rfl

/-- The acknowledgement of a subscription with QoS 1. -/
def suback (id : UInt16) : Packet where
  header := 0x90
  lengthField := [3]
  body := twoBytes id.toNat ++ [1]
  isVarint := isVarint_three
  length_le := length_three_le
  length_eq := length_suback id

/-- What `process_incoming_packet` sends: nothing, also for a message with QoS 1. -/
def processSends (_header : UInt8) (_payload : Bytes) : List Bytes := []

/-- The packet of `send_mqtt_ping`. -/
def pingRequest : Bytes := [0xC0, 0x00]

/-- The identifier in a PUBACK packet. -/
def pubackId : Bytes → Option UInt16
  | [0x40, 0x02, hi, lo] => some (UInt16.ofNat (256 * hi.toNat + lo.toNat))
  | _ => none

structure Session (baseTopic : Bytes) where
  /-- The commands that the broker has not sent yet. -/
  queue : List (Command baseTopic)
  /-- The identifiers of the commands that are not acknowledged. -/
  inFlight : List UInt16 := []
  client : Connection
  /-- What the client has sent and the broker has not received. -/
  toBroker : List Bytes := []

/-- A step of one of the parties. -/
inductive Turn where
  /-- The broker sends the next command with the identifier. -/
  | send (id : UInt16)
  /-- The broker receives a packet. -/
  | receive
  /-- The client reads. -/
  | read (n : ℕ)
  /-- The client sends a ping. -/
  | ping
deriving DecidableEq

namespace Session

variable {baseTopic : Bytes} (W : ℕ) (s : Session baseTopic)

def Enabled : Turn → Prop
  | .send id => s.queue ≠ [] ∧ s.inFlight.length < W ∧ id ≠ 0 ∧ id ∉ s.inFlight ∧
    s.client.position ≠ .closed
  | .receive => s.toBroker ≠ []
  | .read _ => s.client.inbound ≠ [] ∧ s.client.position ≠ .closed
  | .ping => s.client.position ≠ .closed

instance (t : Turn) : Decidable (s.Enabled W t) :=
  match t with
  | .send id => inferInstanceAs (Decidable (s.queue ≠ [] ∧ s.inFlight.length < W ∧ id ≠ 0 ∧
    id ∉ s.inFlight ∧ s.client.position ≠ .closed))
  | .receive => inferInstanceAs (Decidable (s.toBroker ≠ []))
  | .read _ => inferInstanceAs (Decidable (s.client.inbound ≠ [] ∧ s.client.position ≠ .closed))
  | .ping => inferInstanceAs (Decidable (s.client.position ≠ .closed))

/-- The packet is on the wire to the client. -/
def put (p : Packet) : Session baseTopic :=
  { s with client := { s.client with inbound := s.client.inbound ++ p.bytes } }

/-- What the broker does with a packet of the client. -/
def onPacket (p : Bytes) : Session baseTopic :=
  match pubackId p with
  | some id => { s with inFlight := s.inFlight.erase id }
  | none => if p = pingRequest then s.put pingResponse else s

def effect : Turn → Session baseTopic
  | .send id =>
    match s.queue with
    | [] => s
    | cmd :: queue => { s.put (cmd.packet id) with queue := queue, inFlight := s.inFlight ++ [id] }
  | .receive =>
    match s.toBroker with
    | [] => s
    | p :: toBroker => { s with toBroker := toBroker }.onPacket p
  | .read n =>
    let client := s.client.onRead (.bytes n)
    { s with
      client := client
      toBroker := s.toBroker ++ (client.handed.drop s.client.handed.length).flatMap fun p =>
        processSends p.1 p.2 }
  | .ping => { s with toBroker := s.toBroker ++ [pingRequest] }

def next (t : Turn) : Session baseTopic := if s.Enabled W t then s.effect t else s

/-- After the subscription. -/
def start (cmds : List (Command baseTopic)) (subscription : UInt16) : Session baseTopic where
  queue := cmds
  client := { inbound := (suback subscription).bytes }

/-- Neither party can go on; pings deliver nothing. -/
def Quiet : Prop := ∀ t, t ≠ .ping → ¬ s.Enabled W t

/-- The calls of the command callback. -/
def calls : List (Bytes × Bytes) := s.client.callbacks baseTopic

/-! ### The invariant -/

/-- The call that a packet leads to. -/
def callOf (baseTopic : Bytes) (p : Packet) : Option (Bytes × Bytes) :=
  processIncomingPacket baseTopic p.header p.body

variable {W s}

/-- `sent` has been put on the wire, with the commands `issued` in it.  Nothing is acknowledged. -/
structure Inv (W : ℕ) (cmds issued : List (Command baseTopic)) (sent : List Packet)
    (s : Session baseTopic) : Prop where
  follows : Follows sent s.client
  split : cmds = issued ++ s.queue
  calls : sent.filterMap (callOf baseTopic) = issued.map Command.call
  packets : ∀ cmd ∈ issued, ∃ id, cmd.packet id ∈ sent
  /-- Only commands can be too long. -/
  long : ∀ p ∈ sent, ¬ p.Short → ∃ cmd ∈ issued, ∃ id, p = cmd.packet id
  count : s.inFlight.length = issued.length
  nodup : s.inFlight.Nodup
  ne_zero : 0 ∉ s.inFlight
  le_window : s.inFlight.length ≤ W
  pings : ∀ p ∈ s.toBroker, p = pingRequest

theorem inv_start (W : ℕ) (cmds : List (Command baseTopic)) (subscription : UInt16) :
    Inv W cmds [] [suback subscription] (start cmds subscription) where
  follows := ⟨rfl, rfl, [], [suback subscription], rfl, rfl, by simp, by
    have hwire : (suback subscription).bytes = wire [suback subscription] := by simp
    show Reads _ .header (suback subscription).bytes
    rw [hwire]
    exact .header⟩
  split := rfl
  calls := by
    have hcall : callOf baseTopic (suback subscription) = none :=
      if_neg (show ¬ ((0x90 : UInt8) &&& 0xF0 = 0x30) by decide)
    simp [hcall]
  packets := by simp
  long := by
    intro p hp hlong
    rw [List.mem_singleton.mp hp] at hlong
    exact absurd (show [(3 : UInt8)].length ≤ 3 by decide) hlong
  count := rfl
  nodup := List.nodup_nil
  ne_zero := List.not_mem_nil
  le_window := Nat.zero_le W
  pings := by simp [start]

/-- A packet that is no command. -/
theorem Inv.put {cmds issued : List (Command baseTopic)} {sent : List Packet}
    (h : Inv W cmds issued sent s) {p : Packet} (hcall : callOf baseTopic p = none)
    (hshort : p.Short) : Inv W cmds issued (sent ++ [p]) (s.put p) where
  follows := h.follows.send p
  split := h.split
  calls := by rw [List.filterMap_append, h.calls]; simp [hcall]
  packets := fun cmd hcmd => (h.packets cmd hcmd).imp fun _ => List.mem_append_left _
  long := by
    intro q hq hlong
    rcases List.mem_append.mp hq with hq | hq
    · exact h.long q hq hlong
    · rw [List.mem_singleton.mp hq] at hlong
      exact absurd hshort hlong
  count := h.count
  nodup := h.nodup
  ne_zero := h.ne_zero
  le_window := h.le_window
  pings := h.pings

/-- A command that has been taken from the queue. -/
theorem Inv.issue {cmds issued : List (Command baseTopic)} {sent : List Packet}
    (h : Inv W cmds issued sent s) {cmd : Command baseTopic} {queue : List (Command baseTopic)}
    (hqueue : s.queue = cmd :: queue) {id : UInt16} (hid : id ≠ 0) (hfresh : id ∉ s.inFlight)
    (hwindow : s.inFlight.length < W) :
    Inv W cmds (issued ++ [cmd]) (sent ++ [cmd.packet id])
      { s.put (cmd.packet id) with queue := queue, inFlight := s.inFlight ++ [id] } where
  follows := h.follows.send _
  split := by rw [h.split, hqueue, List.append_assoc, List.singleton_append]
  calls := by
    have hcall : callOf baseTopic (cmd.packet id) = some cmd.call := cmd.packet_call id
    rw [List.filterMap_append, h.calls, List.map_append]
    simp [hcall]
  packets := by
    intro cmd' hcmd'
    rcases List.mem_append.mp hcmd' with hcmd' | hcmd'
    · exact (h.packets cmd' hcmd').imp fun _ => List.mem_append_left _
    · rw [List.mem_singleton.mp hcmd']
      exact ⟨id, List.mem_append_right _ List.mem_cons_self⟩
  long := by
    intro p hp hlong
    rcases List.mem_append.mp hp with hp | hp
    · obtain ⟨cmd', hcmd', hid'⟩ := h.long p hp hlong
      exact ⟨cmd', List.mem_append_left _ hcmd', hid'⟩
    · exact ⟨cmd, List.mem_append_right _ List.mem_cons_self, id, List.mem_singleton.mp hp⟩
  count := by
    rw [List.length_append, List.length_append, h.count]
    rfl
  nodup := List.nodup_append.mpr ⟨h.nodup, List.nodup_singleton id, fun a ha b hb hab =>
    hfresh (by rwa [← List.mem_singleton.mp hb, ← hab])⟩
  ne_zero := by
    intro hzero
    rcases List.mem_append.mp hzero with hzero | hzero
    · exact h.ne_zero hzero
    · exact hid (List.mem_singleton.mp hzero).symm
  le_window := by
    rw [List.length_append, List.length_singleton]
    exact hwindow
  pings := h.pings

/-- The broker answers a ping, which is all it gets from the client. -/
theorem Inv.receive {cmds issued : List (Command baseTopic)} {sent : List Packet}
    (h : Inv W cmds issued sent s) (hne : s.toBroker ≠ []) :
    Inv W cmds issued (sent ++ [pingResponse]) (s.effect .receive) := by
  obtain ⟨p, toBroker, hto⟩ := List.exists_cons_of_ne_nil hne
  have hping : p = pingRequest := h.pings p (by rw [hto]; exact List.mem_cons_self)
  have hrest : Inv W cmds issued sent { s with toBroker := toBroker } :=
    { h with pings := fun q hq => h.pings q (by rw [hto]; exact List.mem_cons_of_mem _ hq) }
  have hstep : s.effect .receive = Session.put { s with toBroker := toBroker } pingResponse := by
    simp only [Session.effect, hto, hping]
    rfl
  rw [hstep]
  exact hrest.put rfl (by decide)

/-- **Every step keeps the invariant.** -/
theorem Inv.effect {cmds issued : List (Command baseTopic)} {sent : List Packet}
    (h : Inv W cmds issued sent s) {t : Turn} (ht : s.Enabled W t) :
    ∃ issued sent, Inv W cmds issued sent (s.effect t) := by
  cases t with
  | send id =>
    obtain ⟨hne, hwindow, hid, hfresh, -⟩ := ht
    obtain ⟨cmd, queue, hqueue⟩ := List.exists_cons_of_ne_nil hne
    simp only [Session.effect, hqueue]
    exact ⟨_, _, h.issue hqueue hid hfresh hwindow⟩
  | receive => exact ⟨_, _, h.receive ht⟩
  | read n =>
    obtain ⟨hne, hopen⟩ := ht
    refine ⟨issued, sent, { h with follows := (h.follows.read hopen hne n).1, pings := ?_ }⟩
    simpa [Session.effect, processSends] using h.pings
  | ping =>
    refine ⟨issued, sent, { h with pings := ?_ }⟩
    intro p hp
    rcases List.mem_append.mp hp with hp | hp
    · exact h.pings p hp
    · exact List.mem_singleton.mp hp

theorem inv_run (W : ℕ) (cmds : List (Command baseTopic)) (subscription : UInt16)
    (turns : List Turn) :
    ∃ issued sent, Inv W cmds issued sent (run (next W) (start cmds subscription) turns) := by
  refine run_invariant (I := fun s => ∃ issued sent, Inv W cmds issued sent s) ?_
    ⟨_, _, inv_start W cmds subscription⟩ turns
  rintro s t ⟨issued, sent, h⟩
  unfold next
  split_ifs with ht
  · exact h.effect ht
  · exact ⟨issued, sent, h⟩

/-! ### The end of a session -/

theorem length_le_of_ids {ids : List UInt16} (hnodup : ids.Nodup) (hzero : 0 ∉ ids) :
    ids.length ≤ 65535 := by
  have hsub : ids.map UInt16.toNat ⊆ List.range' 1 65535 := by
    intro n hn
    obtain ⟨id, hid, rfl⟩ := List.mem_map.mp hn
    have hpos : id.toNat ≠ 0 := by
      intro h
      have hid0 : id = 0 := UInt16.toNat_inj.mp h
      exact hzero (hid0 ▸ hid)
    have := id.toNat_lt
    rw [List.mem_range'_1]
    omega
  have hmap : (ids.map UInt16.toNat).Nodup := hnodup.map fun a b h => UInt16.toNat_inj.mp h
  simpa using (List.subperm_of_subset hmap hsub).length_le

/-- If no identifier is free, all of them are in use. -/
theorem length_ge_of_ids {ids : List UInt16} (hall : ∀ id, id ≠ 0 → id ∈ ids) :
    65535 ≤ ids.length := by
  have hsub : List.range' 1 65535 ⊆ ids.map UInt16.toNat := by
    intro n hn
    rw [List.mem_range'_1] at hn
    have hn' : (UInt16.ofNat n).toNat = n := UInt16.toNat_ofNat_of_lt (show n < 65536 by omega)
    refine List.mem_map.mpr ⟨UInt16.ofNat n, hall _ fun h => ?_, hn'⟩
    rw [h] at hn'
    exact absurd hn' (by rw [UInt16.toNat_zero]; omega)
  simpa using (List.subperm_of_subset List.nodup_range' hsub).length_le

/-- What is left to do, first the commands, then the packets of the client, then the bytes. -/
def rank (s : Session baseTopic) : ℕ × ℕ × ℕ :=
  (s.queue.length, s.toBroker.length, s.client.inbound.length)

theorem rank_effect {cmds issued : List (Command baseTopic)} {sent : List Packet}
    (h : Inv W cmds issued sent s) {t : Turn} (hping : t ≠ .ping) (ht : s.Enabled W t) :
    Prod.Lex (· < ·) (Prod.Lex (· < ·) (· < ·)) (s.effect t).rank s.rank := by
  cases t with
  | send id =>
    obtain ⟨cmd, queue, hqueue⟩ := List.exists_cons_of_ne_nil ht.1
    simp only [Session.effect, hqueue, rank]
    exact .left _ _ (by simp)
  | receive =>
    obtain ⟨p, toBroker, hto⟩ := List.exists_cons_of_ne_nil ht
    have hp : p = pingRequest := h.pings p (by rw [hto]; exact List.mem_cons_self)
    have hstep : s.effect .receive = Session.put { s with toBroker := toBroker } pingResponse := by
      simp only [Session.effect, hto, hp]
      rfl
    rw [hstep]
    simp only [rank, put, hto]
    exact .right _ (.left _ _ (by simp))
  | read n =>
    have hread := (h.follows.read ht.2 ht.1 n).2
    have hsends : (s.effect (.read n)).toBroker = s.toBroker := by
      simp [Session.effect, processSends]
    rw [rank, hsends]
    exact .right _ (.right _ hread)
  | ping => exact absurd rfl hping

/-- Some run of the session comes to an end. -/
theorem exists_quiet {cmds issued : List (Command baseTopic)} {sent : List Packet}
    (s : Session baseTopic) (h : Inv W cmds issued sent s) :
    ∃ turns, (run (next W) s turns).Quiet W := by
  by_cases hquiet : s.Quiet W
  · exact ⟨[], hquiet⟩
  · obtain ⟨t, hping, ht⟩ : ∃ t, t ≠ .ping ∧ s.Enabled W t := by
      simpa [Quiet] using hquiet
    obtain ⟨issued', sent', h'⟩ := h.effect ht
    obtain ⟨turns, hturns⟩ := exists_quiet (s.effect t) h'
    refine ⟨t :: turns, ?_⟩
    rwa [run_cons, next, if_pos ht]
termination_by s.rank
decreasing_by exact rank_effect h hping ht

/-- What a session has come to when neither party can go on. -/
theorem calls_of_quiet {cmds issued : List (Command baseTopic)} {sent : List Packet}
    (h : Inv W cmds issued sent s) (hquiet : s.Quiet W) :
    s.calls = cmds.map Command.call ↔
      s.client.position ≠ .closed ∧ s.queue = [] := by
  have hlength : cmds.length = issued.length + s.queue.length := by
    rw [h.split, List.length_append]
  have hcallsOf : ∀ ps : List Packet, (ps.map Packet.pair).filterMap
      (fun p => processIncomingPacket baseTopic p.1 p.2) = ps.filterMap (callOf baseTopic) := by
    intro ps
    rw [List.filterMap_map]
    rfl
  by_cases hclosed : s.client.position = .closed
  · -- a command that is too long is not called back
    obtain ⟨done, p, rest, hsent, hhanded, hlong⟩ := h.follows.handed_of_closed hclosed
    obtain ⟨cmd, -, id, hp⟩ := h.long p (by rw [hsent]; simp) hlong
    have hcall : callOf baseTopic p = some cmd.call := by
      rw [hp]
      exact cmd.packet_call id
    have hcalls : s.calls = done.filterMap (callOf baseTopic) := by
      rw [calls, Connection.callbacks, hhanded, hcallsOf]
    have hissued : (issued.map Command.call).length =
        (done.filterMap (callOf baseTopic)).length + 1 +
          (rest.filterMap (callOf baseTopic)).length := by
      rw [← h.calls, hsent, List.filterMap_append, List.filterMap_cons_some hcall]
      simp only [List.length_append, List.length_cons]
      omega
    refine iff_of_false (fun hall => ?_) fun hopen => hopen.1 hclosed
    have := congrArg List.length hall
    rw [hcalls, List.length_map, hlength] at this
    rw [List.length_map] at hissued
    omega
  · have hnil : s.client.inbound = [] := by
      by_contra hne
      exact hquiet (.read 0) (by simp) ⟨hne, hclosed⟩
    have hcalls : s.calls = issued.map Command.call := by
      rw [calls, Connection.callbacks, (h.follows.handed_of_nil hclosed hnil).1, hcallsOf, h.calls]
    rw [hcalls]
    constructor
    · intro hall
      have := congrArg List.length hall
      rw [List.length_map, List.length_map] at this
      exact ⟨hclosed, List.eq_nil_of_length_eq_zero (by omega)⟩
    · rintro ⟨-, hqueue⟩
      rw [h.split, hqueue, List.append_nil]

/-- A session that has come to an end without a problem. -/
theorem open_of_short {cmds issued : List (Command baseTopic)} {sent : List Packet}
    (h : Inv W cmds issued sent s) (hshort : ∀ cmd ∈ cmds, cmd.size < 128 ^ 3) :
    s.client.position ≠ .closed := by
  intro hclosed
  obtain ⟨done, p, rest, hsent, -, hlong⟩ := h.follows.handed_of_closed hclosed
  obtain ⟨cmd, hcmd, id, rfl⟩ := h.long p (by rw [hsent]; simp) hlong
  have hmem : cmd ∈ cmds := by
    rw [h.split]
    exact List.mem_append_left _ hcmd
  exact hlong ((cmd.short_packet_iff id).mpr (hshort cmd hmem))

/-- **All commands are called back once and in order, whatever the parties do,** exactly if there
are no more commands than the window and the identifiers allow and none is too long. -/
theorem deliveries_complete_iff (W : ℕ) (cmds : List (Command baseTopic)) (subscription : UInt16) :
    (∀ turns, (run (next W) (start cmds subscription) turns).Quiet W →
        (run (next W) (start cmds subscription) turns).calls = cmds.map Command.call) ↔
      cmds.length ≤ W ∧ cmds.length ≤ 65535 ∧ ∀ cmd ∈ cmds, cmd.size < 128 ^ 3 := by
  constructor
  · intro hall
    obtain ⟨turns, hquiet⟩ := exists_quiet _ (inv_start W cmds subscription)
    obtain ⟨issued, sent, h⟩ := inv_run W cmds subscription turns
    obtain ⟨hopen, hqueue⟩ := (calls_of_quiet h hquiet).mp (hall turns hquiet)
    have hissued : cmds = issued := by rw [h.split, hqueue, List.append_nil]
    have hnil : (run (next W) (start cmds subscription) turns).client.inbound = [] := by
      by_contra hne
      exact hquiet (.read 0) (by simp) ⟨hne, hopen⟩
    have hshort := (h.follows.handed_of_nil hopen hnil).2
    refine ⟨?_, ?_, fun cmd hcmd => ?_⟩
    · rw [hissued, ← h.count]
      exact h.le_window
    · rw [hissued, ← h.count]
      exact length_le_of_ids h.nodup h.ne_zero
    · obtain ⟨id, hid⟩ := h.packets cmd (hissued ▸ hcmd)
      exact (cmd.short_packet_iff id).mp (hshort _ hid)
  · rintro ⟨hwindow, hids, hshort⟩ turns hquiet
    obtain ⟨issued, sent, h⟩ := inv_run W cmds subscription turns
    have hopen := open_of_short h hshort
    refine (calls_of_quiet h hquiet).mpr ⟨hopen, ?_⟩
    by_contra hqueue
    have hmore : issued.length < cmds.length := by
      rw [h.split, List.length_append]
      have := List.length_pos_of_ne_nil hqueue
      omega
    have hcount := h.count
    -- the window is open and an identifier is free, so the broker can send
    obtain ⟨id, hid, hfree⟩ : ∃ id, id ≠ 0 ∧
        id ∉ (run (next W) (start cmds subscription) turns).inFlight := by
      by_contra hnone
      have := length_ge_of_ids fun id hid => by_contra fun hmem => hnone ⟨id, hid, hmem⟩
      omega
    exact hquiet (.send id) (by simp) ⟨hqueue, by omega, hid, hfree, hopen⟩

end Session

/-- Switch the screen on, or off. -/
def screenCommand (payload : Bytes) (h : payload.length ≤ 3) : Command (str "p") :=
  ⟨str "screen", payload, by decide, by
    have hlen : (str "p" ++ str "/cmd/" ++ str "screen").length = 12 := by decide
    rw [hlen]
    omega⟩

/-- Two commands for a broker that has one message in flight at most. -/
def onOff : List (Command (str "p")) :=
  [screenCommand (str "ON") (by decide), screenCommand (str "OFF") (by decide)]

/-- The first command is sent, and everything is read. -/
def firstDelivered : Session (str "p") :=
  run (Session.next 1) (Session.start onOff 1)
    [.send 1, .read 99, .read 99, .read 99, .read 99, .read 99, .read 99]

/-- **The second command is held back for ever**: the panel has been called with the first one, which
it does not acknowledge, and neither party can go on. -/
theorem second_command_is_held_back :
    firstDelivered.Quiet 1 ∧ firstDelivered.calls = [(str "screen", str "ON")] ∧
      firstDelivered.calls ≠ onOff.map Command.call := by
  have hcalls : firstDelivered.calls = [(str "screen", str "ON")] := by decide +kernel
  have hflight : firstDelivered.inFlight = [1] := by decide +kernel
  have hinbound : firstDelivered.client.inbound = [] := by decide +kernel
  have hto : firstDelivered.toBroker = [] := by decide +kernel
  refine ⟨?_, hcalls, ?_⟩
  · intro t hping ht
    cases t with
    | send id =>
      have := ht.2.1
      rw [hflight] at this
      exact absurd this (by decide)
    | receive => exact ht hto
    | read n => exact ht.1 hinbound
    | ping => exact hping rfl
  · rw [hcalls]
    decide

end Mqtt

end HaPanel
