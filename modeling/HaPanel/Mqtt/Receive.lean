import HaPanel.Mqtt.Packet
import HaPanel.Transition.Run

/-!
# The receive loop of the MQTT client

One connection of `MqttClient::loop`, as a machine that makes one call of `read_raw` at a time.
`Position` says which call that is and what the loop has in its variables there; the broker's bytes
wait in `inbound`, and the socket decides with every call how many of them it hands out.

* `run_packet` : a packet that arrives without a timeout is handed over and read to its last byte,
  whatever the pieces it arrives in.
* `publish_receive_inverse` : what `publish` sends, the loop receives.
* `connection_segmentation_independent_iff` : the outcome of a connection depends on the pieces only
  through the first read.
-/

namespace HaPanel

namespace Mqtt

open Text Transition

/-! ### The socket -/

/-- How a call of `read_raw` ends: with up to `n + 1` of the bytes that have arrived, with a timeout,
or with an error. -/
inductive Read where
  | bytes (n : ℕ)
  | timeout
  | error
deriving DecidableEq

/-- `read_raw` for `len` bytes: `none` is a negative result, and the empty string the result 0, which
also the end of the stream gives. -/
def readRaw (r : Read) (len : ℕ) (inbound : Bytes) : Option Bytes :=
  match r with
  | .error => none
  | .timeout => some []
  | .bytes n => some (inbound.take (min (n + 1) len))

/-! ### The loop -/

/-- The call of `read_raw` the loop makes next. -/
inductive Position where
  /-- The header byte of a packet. -/
  | header
  /-- A byte of the length field, in `decode_remaining_length`. -/
  | length (header : UInt8) (multiplier value : ℕ)
  /-- The rest of a body of `remLen` bytes; `payload` has been read. -/
  | body (header : UInt8) (remLen : ℕ) (payload : Bytes)
  /-- None: the loop has been left. -/
  | closed
deriving DecidableEq

/-- A connection. -/
structure Connection where
  /-- The bytes of the broker that have not been read. -/
  inbound : Bytes
  position : Position := .header
  running : Bool := true
  /-- The next ping that is due can be sent. -/
  pingOk : Bool := true
  /-- How many bytes have been read. -/
  offset : ℕ := 0
  /-- Where in the stream header bytes have been read. -/
  headerAt : List ℕ := []
  /-- The calls of `process_incoming_packet`. -/
  handed : List (UInt8 × Bytes) := []
deriving DecidableEq

/-- What happens to a connection: a read ends, `stop` is called, or the broker stops taking pings. -/
inductive Event where
  | read (r : Read)
  | stop
  | pingFails
deriving DecidableEq

namespace Connection

/-- The bytes are read. -/
def take (c : Connection) (bs : Bytes) : Connection :=
  { c with inbound := c.inbound.drop bs.length, offset := c.offset + bs.length }

def close (c : Connection) : Connection := { c with position := .closed }

/-- The end of the loop's body: the ping timer, and the test of `running_`. -/
def endIteration (c : Connection) : Connection :=
  { c with position := if c.pingOk ∧ c.running then .header else .closed }

/-- The test of the loop that reads the body, and what follows it. -/
def bodyLoop (c : Connection) (header : UInt8) (remLen : ℕ) (payload : Bytes) : Connection :=
  if payload.length < remLen ∧ c.running then
    { c with position := .body header remLen payload }
  else if payload.length = remLen then
    { c with handed := c.handed ++ [(header, payload)] }.endIteration
  else c.endIteration

/-- A byte of the length field arrives in `decode_remaining_length`. -/
def lengthByte (c : Connection) (header : UInt8) (multiplier value : ℕ) (b : UInt8) : Connection :=
  let value := value + (b &&& 127).toNat * multiplier
  let multiplier := multiplier * 128
  -- tested before the continuation bit, so the fourth byte of a field is always refused
  if multiplier > 128 * 128 * 128 then c.close
  else if b &&& 128 ≠ 0 then { c with position := .length header multiplier value }
  else c.bodyLoop header value []

/-- A call of `read_raw` ends. -/
def onRead (c : Connection) (r : Read) : Connection :=
  match c.position with
  | .header =>
    match readRaw r 1 c.inbound with
    | none => c.close
    | some [] => c.endIteration
    | some (h :: _) =>
      { c.take [h] with position := .length h 1 0, headerAt := c.headerAt ++ [c.offset] }
  | .length header multiplier value =>
    match readRaw r 1 c.inbound with
    | none | some [] => c.close
    | some (b :: _) => (c.take [b]).lengthByte header multiplier value b
  | .body header remLen payload =>
    match readRaw r (remLen - payload.length) c.inbound with
    -- the packet is given up, but the loop goes on with the rest of its body
    | none | some [] => c.endIteration
    | some (b :: bs) => (c.take (b :: bs)).bodyLoop header remLen (payload ++ b :: bs)
  | .closed => c

def next (c : Connection) : Event → Connection
  | .read r => c.onRead r
  | .stop => { c with running := false }
  | .pingFails => { c with pingOk := false }

/-- The callbacks made so far. -/
def callbacks (baseTopic : Bytes) (c : Connection) : List (Bytes × Bytes) :=
  c.handed.filterMap fun p => processIncomingPacket baseTopic p.1 p.2

end Connection

/-- Reads that each hand out at least one byte. -/
def segments (ns : List ℕ) : List Event := ns.map fun n => .read (.bytes n)

/-! ### One packet in pieces -/

/-- The loop is at the beginning of a packet and goes on. -/
structure Connection.Ready (c : Connection) : Prop where
  position : c.position = .header
  running : c.running = true
  pingOk : c.pingOk = true

/-- The packet has been handed over, and `tail` is left in the socket. -/
def Connection.received (c : Connection) (p : Packet) (tail : Bytes) : Connection :=
  { c with
    inbound := tail
    offset := c.offset + p.bytes.length
    headerAt := c.headerAt ++ [c.offset]
    handed := c.handed ++ [p.pair] }

theorem readRaw_one (n : ℕ) (b : UInt8) (bs : Bytes) :
    readRaw (.bytes n) 1 (b :: bs) = some [b] := by
  simp [readRaw]

theorem readRaw_nil (n len : ℕ) : readRaw (.bytes n) len [] = some [] := by
  simp [readRaw]

theorem segments_cons (n : ℕ) (ns : List ℕ) :
    segments (n :: ns) = .read (.bytes n) :: segments ns := rfl

theorem segments_append (ns ms : List ℕ) : segments (ns ++ ms) = segments ns ++ segments ms :=
  List.map_append

section

variable {c : Connection} {b : UInt8} {t : Bytes} {n : ℕ}

theorem onRead_header (hpos : c.position = .header) (hin : c.inbound = b :: t) :
    c.onRead (.bytes n) =
      { c with
        inbound := t
        offset := c.offset + 1
        position := .length b 1 0
        headerAt := c.headerAt ++ [c.offset] } := by
  simp [Connection.onRead, hpos, hin, readRaw_one, Connection.take]

theorem onRead_length {header : UInt8} {m v : ℕ} (hpos : c.position = .length header m v)
    (hin : c.inbound = b :: t) :
    c.onRead (.bytes n) =
      { c with inbound := t, offset := c.offset + 1 }.lengthByte header m v b := by
  simp [Connection.onRead, hpos, hin, readRaw_one, Connection.take]

/-- At the end of the stream the loop waits. -/
theorem onRead_end (h : c.Ready) (hin : c.inbound = []) : c.onRead (.bytes n) = c := by
  cases c
  cases h
  simp_all [Connection.onRead, readRaw_nil, Connection.endIteration]

end

/-- The machine reads a length as `decode_remaining_length` does. -/
theorem run_decodeLoop {used tail : Bytes} {c : Connection} {header : UInt8} {m v n : ℕ}
    {ns : List ℕ} (hpos : c.position = .length header m v) (hin : c.inbound = used ++ tail)
    (hdecode : decodeLoop m v (used ++ tail) = some (n, tail)) (hns : ns.length = used.length) :
    run Connection.next c (segments ns) =
      { c with inbound := tail, offset := c.offset + used.length }.bodyLoop header n [] := by
  induction used generalizing c m v ns with
  | nil => exact absurd (decodeLoop_length_lt hdecode) (lt_irrefl _)
  | cons b used ih =>
    obtain ⟨k, ns, rfl⟩ := List.exists_cons_of_length_eq_add_one hns
    rw [segments_cons, run_cons]
    simp only [Connection.next]
    rw [onRead_length hpos hin, Connection.lengthByte]
    rw [List.cons_append, decodeLoop] at hdecode
    split_ifs at hdecode ⊢ with hlimit hmore
    · refine (ih rfl rfl hdecode (by simpa using hns)).trans ?_
      simp only [List.length_cons, Nat.add_assoc, Nat.add_comm 1]
      rfl
    · obtain ⟨rfl, hrest⟩ := Prod.mk.inj (Option.some.inj hdecode)
      obtain rfl : used = [] := List.append_left_eq_self.1 hrest
      obtain rfl : ns = [] := List.length_eq_zero_iff.1 (by simpa using hns)
      rfl

/-- `decode_remaining_length` on a field of at most three bytes. -/
theorem run_length {field : Bytes} (hfield : IsVarint field) {c : Connection} {header : UInt8}
    {k v : ℕ} {tail : Bytes} {ns : List ℕ} (hpos : c.position = .length header (128 ^ k) v)
    (hin : c.inbound = field ++ tail) (hk : k + field.length ≤ 3) (hns : ns.length = field.length) :
    run Connection.next c (segments ns) =
      { c with inbound := tail, offset := c.offset + field.length }.bodyLoop header
        (v + 128 ^ k * ofVarint field) [] := by
  refine run_decodeLoop hpos hin ?_ hns
  rw [decodeLoop_append hfield, if_pos hk, Nat.mul_comm]

/-- The body is complete. -/
theorem bodyLoop_complete {c : Connection} (hrun : c.running = true) (hping : c.pingOk = true)
    (header : UInt8) (payload : Bytes) :
    c.bodyLoop header payload.length payload =
      { c with position := .header, handed := c.handed ++ [(header, payload)] } := by
  have hdone : ¬ (payload.length < payload.length ∧ c.running) := fun h => lt_irrefl _ h.1
  rw [Connection.bodyLoop, if_neg hdone, if_pos (by simp)]
  simp [Connection.endIteration, hrun, hping]

/-- A piece of what is missing arrives. -/
theorem readRaw_piece (n : ℕ) (b : UInt8) (bs tail : Bytes) :
    ∃ got miss, b :: bs = b :: got ++ miss ∧
      readRaw (.bytes n) (b :: bs).length (b :: bs ++ tail) = some (b :: got) := by
  refine ⟨bs.take n, bs.drop n, ?_, ?_⟩
  · rw [List.cons_append, List.take_append_drop]
  · rw [readRaw, ← List.take_take, List.take_left]
    rfl

/-- The loop goes on with what is missing after the piece. -/
theorem onRead_body {c : Connection} (hrun : c.running = true) (header : UInt8) {remLen : ℕ}
    {payload : Bytes} (hmore : payload.length < remLen) {b : UInt8} {got rest : Bytes} {n : ℕ}
    (hin : c.inbound = b :: got ++ rest)
    (hread : readRaw (.bytes n) (remLen - payload.length) c.inbound = some (b :: got)) :
    (c.bodyLoop header remLen payload).onRead (.bytes n) =
      { c with inbound := rest, offset := c.offset + (got.length + 1) }.bodyLoop header remLen
        (payload ++ b :: got) := by
  have hdrop : c.inbound.drop (b :: got).length = rest := by
    rw [hin, List.drop_left]
  rw [Connection.bodyLoop, if_pos ⟨hmore, hrun⟩, Connection.onRead]
  simp only [hread, Connection.take, hdrop]
  rfl

/-- The loop that reads the body collects it from whatever pieces arrive. -/
theorem run_body {c : Connection} (header : UInt8) {remLen : ℕ} (payload : Bytes)
    {rest tail : Bytes} {ns : List ℕ} (hrun : c.running = true) (hping : c.pingOk = true)
    (hin : c.inbound = rest ++ tail) (hlen : payload.length + rest.length = remLen)
    (hns : rest.length ≤ ns.length) :
    ∃ k ≤ rest.length,
      run Connection.next (c.bodyLoop header remLen payload) (segments (ns.take k)) =
        { c with
          inbound := tail
          offset := c.offset + rest.length
          position := .header
          handed := c.handed ++ [(header, payload ++ rest)] } := by
  -- by induction on the number of bytes that are missing
  induction hsize : rest.length using Nat.strongRecOn generalizing c payload rest ns with
  | ind size ih =>
    subst hsize
    cases rest with
    | nil =>
      rw [List.length_nil, Nat.add_zero] at hlen
      refine ⟨0, Nat.le_refl 0, ?_⟩
      rw [List.take_zero, ← hlen, bodyLoop_complete hrun hping, List.append_nil]
      simp [segments, run, hin]
    | cons b bs =>
      obtain ⟨n, ns, rfl⟩ : ∃ n ms, ns = n :: ms :=
        List.exists_cons_of_length_pos (lt_of_lt_of_le (Nat.succ_pos _) hns)
      obtain ⟨got, miss, hsplit, hread⟩ := readRaw_piece n b bs tail
      have hsum : bs.length = got.length + miss.length := by
        simpa using congrArg List.length hsplit
      rw [List.length_cons] at hlen hns ih
      rw [List.length_cons] at hns
      have hpiece : c.inbound = b :: got ++ (miss ++ tail) := by
        rw [hin, hsplit, List.append_assoc]
      have hmissing : readRaw (.bytes n) (remLen - payload.length) c.inbound =
          some (b :: got) := by
        rw [hin, ← hread, List.length_cons, ← hlen, Nat.add_sub_cancel_left]
      have hstep := onRead_body hrun header (by omega) hpiece hmissing
      have hlen' : (payload ++ b :: got).length + miss.length = remLen := by
        rw [List.length_append, List.length_cons]
        omega
      obtain ⟨k, hk, hrest⟩ := ih miss.length (by omega) (payload ++ b :: got)
        (c := { c with inbound := miss ++ tail, offset := c.offset + (got.length + 1) })
        hrun hping rfl hlen' (show miss.length ≤ ns.length by omega) rfl
      refine ⟨k + 1, by rw [List.length_cons]; omega, ?_⟩
      rw [List.take_succ_cons, segments_cons, run_cons]
      simp only [Connection.next]
      rw [hstep, hrest, List.append_assoc, ← hsplit]
      simp only [List.length_cons]
      congr 1
      omega

/-- **A packet is received from whatever pieces it arrives in**, and nothing behind it is read. -/
theorem run_packet {c : Connection} (h : c.Ready) {p : Packet} (hp : p.lengthField.length ≤ 3)
    {tail : Bytes} (hin : c.inbound = p.bytes ++ tail) {ns : List ℕ}
    (hns : p.bytes.length ≤ ns.length) :
    ∃ k ≤ p.bytes.length,
      run Connection.next c (segments (ns.take k)) = c.received p tail := by
  have hlen := p.length_bytes
  obtain ⟨n, ns, rfl⟩ : ∃ n ms, ns = n :: ms := List.exists_cons_of_length_pos (by omega)
  rw [List.length_cons] at hns
  have hin' : c.inbound = p.header :: (p.lengthField ++ (p.body ++ tail)) := by
    rw [hin, Packet.bytes, List.cons_append, List.append_assoc]
  -- the header byte and the length field take one read a byte
  have hfieldReads : (ns.take p.lengthField.length).length = p.lengthField.length := by
    rw [List.length_take]
    omega
  have hfield := run_length p.isVarint
    (c := { c with
      inbound := p.lengthField ++ (p.body ++ tail)
      offset := c.offset + 1
      position := .length p.header 1 0
      headerAt := c.headerAt ++ [c.offset] })
    (k := 0) rfl rfl (by omega) hfieldReads
  rw [pow_zero, Nat.one_mul, Nat.zero_add, p.length_eq] at hfield
  have hbodyReads : p.body.length ≤ (ns.drop p.lengthField.length).length := by
    rw [List.length_drop]
    omega
  obtain ⟨k, hk, hbody⟩ := run_body p.header []
    (c := { c with
      inbound := p.body ++ tail
      offset := c.offset + 1 + p.lengthField.length
      headerAt := c.headerAt ++ [c.offset] })
    h.running h.pingOk rfl (Nat.zero_add _) hbodyReads
  refine ⟨p.lengthField.length + k + 1, by omega, ?_⟩
  rw [List.take_succ_cons, segments_cons, run_cons, List.take_add, segments_append, run_append]
  simp only [Connection.next]
  rw [onRead_header h.position hin', hfield]
  refine hbody.trans ?_
  have hcount : c.offset + 1 + p.lengthField.length + p.body.length =
      c.offset + p.bytes.length := by omega
  rw [hcount, List.nil_append, ← h.position]
  rfl

theorem Connection.Ready.received {c : Connection} (h : c.Ready) (p : Packet) (tail : Bytes) :
    (c.received p tail).Ready :=
  ⟨h.position, h.running, h.pingOk⟩

/-- At the end of the stream all packets have been handed over, whatever pieces they arrived in. -/
theorem run_wire {ps : List Packet} (hps : ∀ p ∈ ps, p.lengthField.length ≤ 3) {c : Connection}
    (h : c.Ready) (hin : c.inbound = wire ps) {ns : List ℕ} (hns : (wire ps).length ≤ ns.length) :
    (run Connection.next c (segments ns)).handed = c.handed ++ ps.map Packet.pair := by
  induction ps generalizing c ns with
  | nil =>
    have hstay : run Connection.next c (segments ns) = c := by
      induction ns with
      | nil => rfl
      | cons n ns ih =>
        rw [segments_cons, run_cons]
        simp only [Connection.next]
        rw [onRead_end h hin]
        exact ih (Nat.zero_le _)
    rw [hstay, List.map_nil, List.append_nil]
  | cons p ps ih =>
    rw [wire_cons] at hin
    rw [wire_cons, List.length_append] at hns
    have hfirst : p.bytes.length ≤ ns.length := by omega
    obtain ⟨k, hk, hrun⟩ := run_packet h (hps p List.mem_cons_self) hin hfirst
    have hlater : (wire ps).length ≤ (ns.drop k).length := by
      rw [List.length_drop]
      omega
    have hrest := ih (fun q hq => hps q (List.mem_cons_of_mem p hq)) (h.received p (wire ps)) rfl
      hlater
    rw [← List.take_append_drop k ns, segments_append, run_append, hrun, hrest]
    simp [Connection.received]

/-! ### Publishing and receiving -/

/-- The length of the topic, the topic, the packet identifier and the payload together. -/
theorem length_publishBody (client : Client) (topic payload : Bytes) (qos : ℤ) :
    (publishBody client topic payload qos).length =
      2 + topic.length + (if 0 < qos then 2 else 0) + payload.length := by
  simp only [publishBody, List.length_append, length_twoBytes]
  split_ifs <;> rfl

/-- **What is published is received.**  The packet that `publish` sends for a command, followed by
any bytes, makes the loop call back once, with the command and the payload; after it the loop is at
the header of the next packet, having read exactly this one. -/
theorem publish_receive_inverse (client : Client) (hconn : client.connected = true)
    (b c payload : Bytes) (retain : Bool) (qos : ℤ) (hqos : qos = 0 ∨ qos = 1)
    (htopic : (b ++ str "/cmd/" ++ c).length ≤ 65535)
    (hlen : 2 + (b ++ str "/cmd/" ++ c).length + (if 0 < qos then 2 else 0) + payload.length ≤
      2097151) :
    ∃ packet client', publish client (b ++ str "/cmd/" ++ c) payload retain qos =
        some (packet, client') ∧
      ∀ (rest : Bytes) (ns : List ℕ), packet.length ≤ ns.length → ∃ k ≤ packet.length,
        let conn := run Connection.next { inbound := packet ++ rest } (segments (ns.take k))
        conn.position = .header ∧ conn.inbound = rest ∧ conn.headerAt = [0] ∧
          conn.callbacks b = [(c, payload)] := by
  rw [← length_publishBody client] at hlen
  have hlt : (publishBody client (b ++ str "/cmd/" ++ c) payload qos).length < 128 ^ 4 := by omega
  obtain ⟨client', hpub⟩ := publish_eq hconn _ payload retain qos hlt
  refine ⟨_, client', hpub, fun rest ns hns => ?_⟩
  have hfield : (publishedPacket client _ payload retain qos hlt).lengthField.length ≤ 3 :=
    length_varint_le (by omega)
  obtain ⟨k, hk, hrun⟩ := run_packet
    (c := { inbound := (publishedPacket client _ payload retain qos hlt).bytes ++ rest })
    ⟨rfl, rfl, rfl⟩ hfield rfl hns
  refine ⟨k, hk, ?_⟩
  simp only [hrun]
  refine ⟨rfl, rfl, rfl, ?_⟩
  have hcall := processIncomingPacket_publishBody client b c payload retain hqos htopic
  simp only [Connection.callbacks, Connection.received, Packet.pair, publishedPacket,
    List.nil_append, List.filterMap_cons, hcall, List.filterMap_nil]

/-- A command with an empty name and a payload that looks like a topic. -/
theorem publish_receive_inverse_screen :
    ∃ packet client', publish ⟨str "panel", true, 0xFFFF⟩ (str "panel" ++ str "/cmd/" ++ [])
        (str "panel/cmd/") true 1 = some (packet, client') ∧
      ∀ (rest : Bytes) (ns : List ℕ), packet.length ≤ ns.length → ∃ k ≤ packet.length,
        let conn := run Connection.next { inbound := packet ++ rest } (segments (ns.take k))
        conn.position = .header ∧ conn.inbound = rest ∧ conn.headerAt = [0] ∧
          conn.callbacks (str "panel") = [([], str "panel/cmd/")] :=
  publish_receive_inverse ⟨str "panel", true, 0xFFFF⟩ rfl (str "panel") [] (str "panel/cmd/") true 1
    (.inr rfl) (by decide) (by decide)

/-! ### The connection -/

/-- The end of `send_mqtt_connect`: the connection acknowledgement is read with one call, which has
to return all four bytes. -/
def sendMqttConnect (r : Read) (inbound : Bytes) : Option Connection :=
  match readRaw r 4 inbound with
  | some [a₀, a₁, _, a₃] =>
    if a₀ = 0x20 ∧ a₁ = 0x02 ∧ a₃ = 0x00 then some { inbound := inbound.drop 4 } else none
  | _ => none

/-- A connection whose reads hand out one byte more than `ns` says, as far as they are asked for
them: `none` if it is not accepted. -/
def session (inbound : Bytes) : List ℕ → Option Connection
  | [] => none
  | n :: ns => (sendMqttConnect (.bytes n) inbound).map fun c => run Connection.next c (segments ns)

/-- Reads that return every byte they are asked for. -/
def atOnce (inbound : Bytes) : List ℕ := List.replicate inbound.length inbound.length

/-- An acknowledgement that accepts the connection, and packets behind it. -/
def accepted (flags : UInt8) (ps : List Packet) : Bytes := [0x20, 0x02, flags, 0x00] ++ wire ps

/-- The connection is accepted, and its callbacks are those of the connection that gets every byte at
once. -/
def SameOutcome (baseTopic inbound : Bytes) (ns : List ℕ) : Prop :=
  ∃ c c', session inbound ns = some c ∧ session inbound (atOnce inbound) = some c' ∧
    c.callbacks baseTopic = c'.callbacks baseTopic

theorem sendMqttConnect_accepted {flags : UInt8} {ps : List Packet} {n : ℕ} :
    sendMqttConnect (.bytes n) (accepted flags ps) =
      if 4 ≤ n + 1 then some { inbound := wire ps } else none := by
  have hread : readRaw (.bytes n) 4 (accepted flags ps) =
      some ((accepted flags ps).take (min (n + 1) 4)) := rfl
  rw [sendMqttConnect, hread]
  by_cases h : 4 ≤ n + 1
  · rw [Nat.min_eq_right h, if_pos h]
    rfl
  · rw [if_neg h]
    obtain rfl | rfl | rfl : n = 0 ∨ n = 1 ∨ n = 2 := by omega
    all_goals rfl

theorem length_accepted (flags : UInt8) (ps : List Packet) :
    (accepted flags ps).length = (wire ps).length + 4 := by
  rw [accepted, List.length_append]
  exact Nat.add_comm _ _

/-- The callbacks of a connection that is accepted. -/
theorem session_callbacks {flags : UInt8} {ps : List Packet}
    (hps : ∀ p ∈ ps, p.lengthField.length ≤ 3) (baseTopic : Bytes) {n : ℕ} {ns : List ℕ}
    (hn : 4 ≤ n + 1) (hns : (accepted flags ps).length ≤ (n :: ns).length) :
    ∃ c, session (accepted flags ps) (n :: ns) = some c ∧
      c.callbacks baseTopic = (ps.map Packet.pair).filterMap fun p =>
        processIncomingPacket baseTopic p.1 p.2 := by
  refine ⟨_, by rw [session, sendMqttConnect_accepted, if_pos hn, Option.map_some], ?_⟩
  rw [length_accepted, List.length_cons] at hns
  rw [Connection.callbacks, run_wire hps ⟨rfl, rfl, rfl⟩ rfl (by omega)]
  rfl

/-- **The outcome of a connection and the pieces its bytes arrive in.**  For an accepting
acknowledgement and well-formed packets of admissible length, delivered without timeouts, the
connection is accepted and makes the callbacks it makes when every byte is there at once, if and
only if the first read returns the four bytes of the acknowledgement together. -/
theorem connection_segmentation_independent_iff (baseTopic : Bytes) (flags : UInt8)
    (ps : List Packet) (hps : ∀ p ∈ ps, p.lengthField.length ≤ 3) (n : ℕ) (ns : List ℕ)
    (hns : (accepted flags ps).length ≤ (n :: ns).length) :
    SameOutcome baseTopic (accepted flags ps) (n :: ns) ↔ 4 ≤ n + 1 := by
  constructor
  · rintro ⟨c, -, hc, -⟩
    by_contra h
    rw [session, sendMqttConnect_accepted, if_neg h] at hc
    cases hc
  · intro h
    obtain ⟨c, hc, hcalls⟩ := session_callbacks hps baseTopic h hns
    have hlen := length_accepted flags ps
    have honce : atOnce (accepted flags ps) = (accepted flags ps).length ::
        List.replicate ((wire ps).length + 3) (accepted flags ps).length := by
      rw [atOnce, hlen, List.replicate_succ]
    have hreads : (accepted flags ps).length ≤ ((accepted flags ps).length ::
        List.replicate ((wire ps).length + 3) (accepted flags ps).length).length := by
      rw [List.length_cons, List.length_replicate]
      omega
    obtain ⟨c', hc', hcalls'⟩ := session_callbacks hps baseTopic (by omega) hreads
    refine ⟨c, c', hc, by rw [honce]; exact hc', ?_⟩
    rw [hcalls, hcalls']

/-- A ping response. -/
def pingResponse : Packet where
  header := 0xD0
  lengthField := [0]
  body := []
  isVarint := .last (by decide)
  length_le := by decide
  length_eq := rfl

/-- All bytes one at a time, but for the first four. -/
theorem connection_segmentation_ping_response :
    SameOutcome (str "panel") (accepted 0 [pingResponse]) [3, 0, 0, 0, 0, 0] :=
  (connection_segmentation_independent_iff (str "panel") 0 [pingResponse] (by simp [pingResponse])
    3 [0, 0, 0, 0, 0] (by decide)).mpr (by decide)

/-- The first read returns two bytes of the acknowledgement: the connection is given up, although it
is accepted when the four bytes come at once. -/
theorem connection_lost_by_segmentation :
    session (accepted 0 [pingResponse]) [1, 3, 3, 3, 3, 3] = none ∧
      (session (accepted 0 [pingResponse]) (atOnce (accepted 0 [pingResponse]))).isSome ∧
      ¬ SameOutcome (str "panel") (accepted 0 [pingResponse]) [1, 3, 3, 3, 3, 3] := by
  have hnone : session (accepted 0 [pingResponse]) [1, 3, 3, 3, 3, 3] = none := rfl
  refine ⟨hnone, rfl, ?_⟩
  rintro ⟨c, -, hc, -⟩
  rw [hnone] at hc
  cases hc

end Mqtt

end HaPanel
