import HaPanel.Text.BigEndian
import HaPanel.Text.Varint

/-!
# MQTT packets

A packet is a header byte, the number of bytes that follow in groups of seven bits, and these
bytes.  `Packet` states the format; `publish` and `processIncomingPacket` are the two ends of the
client.
-/

namespace HaPanel

namespace Mqtt

open Text

/-! ### The format -/

/-- A well-formed packet: its length field has at most four bytes and denotes the length of the
body.  The field may be longer than necessary. -/
structure Packet where
  header : UInt8
  lengthField : Bytes
  body : Bytes
  isVarint : IsVarint lengthField
  length_le : lengthField.length ≤ 4
  length_eq : ofVarint lengthField = body.length

theorem isVarint_three : IsVarint [3] := .last (by decide)

theorem length_three_le : ([3] : Bytes).length ≤ 4 := by decide

/-- The bytes of a packet on the wire. -/
def Packet.bytes (p : Packet) : Bytes := p.header :: (p.lengthField ++ p.body)

/-- What the receive loop makes of a packet. -/
def Packet.pair (p : Packet) : UInt8 × Bytes := (p.header, p.body)

/-- The bytes of consecutive packets. -/
def wire (ps : List Packet) : Bytes := ps.flatMap Packet.bytes

@[simp] theorem wire_nil : wire [] = [] := rfl

@[simp] theorem wire_cons (p : Packet) (ps : List Packet) : wire (p :: ps) = p.bytes ++ wire ps :=
  rfl

theorem wire_append (ps qs : List Packet) : wire (ps ++ qs) = wire ps ++ wire qs :=
  List.flatMap_append

theorem Packet.length_bytes (p : Packet) :
    p.bytes.length = 1 + p.lengthField.length + p.body.length := by
  simp only [bytes, List.length_cons, List.length_append]
  omega

/-! ### The length field -/

def encodeRemainingLength (length : ℕ) : Bytes :=
  let d := UInt8.ofNat (length % 128)
  if 0 < length / 128 then (d ||| 128) :: encodeRemainingLength (length / 128) else [d]
termination_by length
decreasing_by omega

theorem or_continuation : ∀ n < 128, UInt8.ofNat n ||| 128 = UInt8.ofNat (n + 128) := by
  decide +kernel

theorem encodeRemainingLength_eq_varint (n : ℕ) : encodeRemainingLength n = varint n := by
  induction n using Nat.strongRecOn with
  | ind n ih =>
    rw [encodeRemainingLength]
    by_cases h : n < 128
    · rw [if_neg (by omega), varint_of_lt h, Nat.mod_eq_of_lt h]
    · rw [if_pos (by omega), varint_of_ge (by omega), ih (n / 128) (by omega),
        or_continuation _ (Nat.mod_lt _ (by decide))]

/-- The loop of `decode_remaining_length` on the bytes that `read_one` hands out; a read that fails
is the end of the bytes.  The result is the length and the bytes after it. -/
def decodeLoop (multiplier value : ℕ) : Bytes → Option (ℕ × Bytes)
  | [] => none
  | b :: bs =>
    let value := value + (b &&& 127).toNat * multiplier
    let multiplier := multiplier * 128
    if multiplier > 128 * 128 * 128 then none
    else if b &&& 128 ≠ 0 then decodeLoop multiplier value bs
    else some (value, bs)

def decodeRemainingLength (bs : Bytes) : Option (ℕ × Bytes) := decodeLoop 1 0 bs

theorem and_continuation (b : UInt8) : b &&& 128 = 0 ↔ b.toNat < 128 := by
  revert b
  exact forall_byte (by decide +kernel)

theorem and_group (b : UInt8) : (b &&& 127).toNat = b.toNat % 128 := by
  revert b
  exact forall_byte (by decide +kernel)

/-- The limit of the loop, after `k` bytes have been read. -/
theorem limit_iff (k : ℕ) : 128 ^ k > 128 * 128 * 128 ↔ 3 < k := by
  rw [gt_iff_lt, show 128 * 128 * 128 = 128 ^ 3 from rfl]
  exact Nat.pow_lt_pow_iff_right (by decide)

/-- A field is read after `k` bytes exactly if it ends within three bytes. -/
theorem decodeLoop_append {field : Bytes} (h : IsVarint field) (k value : ℕ) (rest : Bytes) :
    decodeLoop (128 ^ k) value (field ++ rest) =
      if k + field.length ≤ 3 then some (value + ofVarint field * 128 ^ k, rest) else none := by
  induction h generalizing k value with
  | @last b hb =>
    have hlast : ¬ b &&& 128 ≠ 0 := not_not.mpr ((and_continuation b).mpr hb)
    rw [List.singleton_append, decodeLoop, ← pow_succ, if_neg hlast, List.length_singleton]
    -- the limit is tested after the multiplication, also for the last byte
    by_cases hk : k + 1 ≤ 3
    · rw [if_neg (by rw [limit_iff]; omega), if_pos hk, and_group]
      simp [ofVarint]
    · rw [if_pos (by rw [limit_iff]; omega), if_neg hk]
  | @more b bs hb _ ih =>
    have hmore : b &&& 128 ≠ 0 := fun h => absurd ((and_continuation b).mp h) (by omega)
    rw [List.cons_append, decodeLoop, ← pow_succ, if_pos hmore, ih, List.length_cons]
    by_cases hk : k + (bs.length + 1) ≤ 3
    · rw [if_neg (by rw [limit_iff]; omega), if_pos (by omega), if_pos hk, and_group, ofVarint,
        pow_succ]
      ring_nf
    · rw [if_neg (show ¬ k + 1 + bs.length ≤ 3 by omega), if_neg hk, ite_self]

/-- Reading back a length that was written. -/
theorem decode_encode (n : ℕ) (rest : Bytes) :
    decodeRemainingLength (encodeRemainingLength n ++ rest) =
      if n < 128 ^ 3 then some (n, rest) else none := by
  have hlen : (varint n).length ≤ 3 ↔ n < 128 ^ 3 := by
    constructor
    · intro h
      have hlt := ofVarint_lt (varint n)
      rw [ofVarint_varint] at hlt
      exact hlt.trans_le (Nat.pow_le_pow_right (by decide) h)
    · exact fun h => length_varint_le h
  have h := decodeLoop_append (isVarint_varint n) 0 0 rest
  rw [ofVarint_varint, pow_zero, mul_one, zero_add, zero_add] at h
  rw [decodeRemainingLength, encodeRemainingLength_eq_varint, h]
  simp only [hlen]

theorem decodeLoop_length_lt {bs rest : Bytes} {multiplier value n : ℕ}
    (h : decodeLoop multiplier value bs = some (n, rest)) : rest.length < bs.length := by
  induction bs generalizing multiplier value with
  | nil => cases h
  | cons b bs ih =>
    rw [decodeLoop] at h
    split_ifs at h
    · exact (ih h).trans (Nat.lt_succ_self _)
    · obtain ⟨-, rfl⟩ := Prod.mk.inj (Option.some.inj h)
      exact Nat.lt_succ_self _

/-- What is read is a part of the bytes of at most three. -/
theorem decodeLoop_reads {bs rest : Bytes} {k value n : ℕ}
    (h : decodeLoop (128 ^ k) value bs = some (n, rest)) :
    ∃ used, bs = used ++ rest ∧ k + used.length ≤ 3 := by
  induction bs generalizing k value with
  | nil => cases h
  | cons b bs ih =>
    rw [decodeLoop, ← pow_succ] at h
    split_ifs at h with hlimit hmore <;> rw [limit_iff] at hlimit
    · obtain ⟨used, rfl, hused⟩ := ih h
      exact ⟨b :: used, rfl, by rw [List.length_cons]; omega⟩
    · obtain ⟨-, rfl⟩ := Prod.mk.inj (Option.some.inj h)
      exact ⟨[b], rfl, by rw [List.length_singleton]; omega⟩

/-- **The length codec**: a length is read back, with nothing after it touched, exactly if it has at
most three bytes; and no more than four bytes are ever read. -/
theorem remaining_length_codec_iff (n : ℕ) (rest bs : Bytes) :
    (decodeRemainingLength (encodeRemainingLength n ++ rest) = some (n, rest) ↔ n < 128 ^ 3) ∧
      ∀ r ∈ decodeRemainingLength bs, ∃ used, bs = used ++ r.2 ∧ used.length ≤ 4 := by
  constructor
  · rw [decode_encode]
    split_ifs with h
    · exact iff_of_true rfl h
    · exact iff_of_false (by simp) h
  · intro r h
    obtain ⟨used, hused, hlen⟩ := decodeLoop_reads (k := 0) h
    exact ⟨used, hused, by omega⟩

/-- **The largest lengths are refused.** -/
theorem longest_length_refused :
    encodeRemainingLength 268435455 = [0xff, 0xff, 0xff, 0x7f] ∧
      decodeRemainingLength (encodeRemainingLength 268435455 ++ []) = none ∧
      decodeRemainingLength (encodeRemainingLength 268435455 ++ []) ≠ some (268435455, []) := by
  rw [encodeRemainingLength_eq_varint]
  decide +kernel

/-! ### Sending -/

/-- The fields of `MqttClient` that the two ends read and write. -/
structure Client where
  baseTopic : Bytes
  connected : Bool
  packetId : UInt16

/-- The two bytes `(n >> 8) & 0xFF` and `n & 0xFF`. -/
def twoBytes (n : ℕ) : Bytes := [UInt8.ofNat (n >>> 8 &&& 0xFF), UInt8.ofNat (n &&& 0xFF)]

/-- `publish`: the packet handed to `send_raw` and the client afterwards; nothing while there is no
connection. -/
def publish (client : Client) (topic payload : Bytes) (retain : Bool) (qos : ℤ) :
    Option (Bytes × Client) :=
  if client.connected then
    let header : UInt8 := 0x30 ||| (if retain then 0x01 else 0) ||| (if qos = 1 then 0x02 else 0)
    let pid := client.packetId
    let varHeader := twoBytes topic.length ++ topic ++
      (if 0 < qos then twoBytes pid.toNat else [])
    let remLen := varHeader.length + payload.length
    some (header :: (encodeRemainingLength remLen ++ varHeader ++ payload),
      if 0 < qos then { client with packetId := pid + 1 } else client)
  else none

/-! ### Receiving -/

/-- `process_incoming_packet`: the arguments of the command callback, if it is called. -/
def processIncomingPacket (baseTopic : Bytes) (header : UInt8) (payload : Bytes) :
    Option (Bytes × Bytes) :=
  if header &&& 0xF0 = 0x30 then
    match payload with
    | hi :: lo :: rest =>
      let topicLen := hi.toNat <<< 8 ||| lo.toNat
      if payload.length < 2 + topicLen then none
      else
        let topic := rest.take topicLen
        let qos := (header >>> 1) &&& 0x03
        let offset := 2 + topicLen + (if 0 < qos then 2 else 0)
        let msgPayload := payload.drop offset
        let cmdPrefix := baseTopic ++ str "/cmd/"
        if cmdPrefix <+: topic then some (topic.drop cmdPrefix.length, msgPayload) else none
    | _ => none
  else none

/-! ### The packet that is published -/

theorem length_twoBytes (n : ℕ) : (twoBytes n).length = 2 := rfl

theorem twoBytes_toNat {n : ℕ} (h : n ≤ 65535) :
    (UInt8.ofNat (n >>> 8 &&& 0xFF)).toNat <<< 8 ||| (UInt8.ofNat (n &&& 0xFF)).toNat = n := by
  have hhi : n >>> 8 &&& 0xFF = n / 256 := by
    rw [Nat.shiftRight_eq_div_pow]
    exact (Nat.and_two_pow_sub_one_eq_mod _ 8).trans (Nat.mod_eq_of_lt (by omega))
  have hlo : n &&& 0xFF = n % 256 := Nat.and_two_pow_sub_one_eq_mod _ 8
  have hmod : n % 256 < 2 ^ 8 := Nat.mod_lt _ (by decide)
  rw [hhi, hlo, UInt8.toNat_ofNat', UInt8.toNat_ofNat', Nat.mod_eq_of_lt (by omega),
    Nat.mod_eq_of_lt (by omega), ← Nat.shiftLeft_add_eq_or_of_lt hmod, Nat.shiftLeft_eq]
  omega

/-- The header byte of a published packet. -/
def publishHeader (retain : Bool) (qos : ℤ) : UInt8 :=
  0x30 ||| (if retain then 0x01 else 0) ||| (if qos = 1 then 0x02 else 0)

/-- The part of a published packet that its remaining length counts. -/
def publishBody (client : Client) (topic payload : Bytes) (qos : ℤ) : Bytes :=
  twoBytes topic.length ++ topic ++ (if 0 < qos then twoBytes client.packetId.toNat else []) ++
    payload

/-- A published packet is well-formed as long as four bytes can hold its length. -/
def publishedPacket (client : Client) (topic payload : Bytes) (retain : Bool) (qos : ℤ)
    (h : (publishBody client topic payload qos).length < 128 ^ 4) : Packet where
  header := publishHeader retain qos
  lengthField := varint (publishBody client topic payload qos).length
  body := publishBody client topic payload qos
  isVarint := isVarint_varint _
  length_le := length_varint_le h
  length_eq := ofVarint_varint _

theorem publish_eq {client : Client} (hconn : client.connected = true) (topic payload : Bytes)
    (retain : Bool) (qos : ℤ) (h : (publishBody client topic payload qos).length < 128 ^ 4) :
    ∃ client', publish client topic payload retain qos =
      some ((publishedPacket client topic payload retain qos h).bytes, client') := by
  have hlen : (publishBody client topic payload qos).length =
      (twoBytes topic.length ++ topic ++
        (if 0 < qos then twoBytes client.packetId.toNat else [])).length + payload.length := by
    rw [publishBody, List.length_append]
  have hbytes : (publishedPacket client topic payload retain qos h).bytes =
      publishHeader retain qos :: (varint (publishBody client topic payload qos).length ++
        publishBody client topic payload qos) := rfl
  rw [publish, if_pos hconn]
  refine ⟨_, congrArg some (Prod.ext ?_ rfl)⟩
  rw [hbytes, hlen, encodeRemainingLength_eq_varint, publishBody, List.append_assoc]
  rfl

theorem publishHeader_type (retain : Bool) (qos : ℤ) :
    publishHeader retain qos &&& 0xF0 = 0x30 := by
  unfold publishHeader
  split_ifs <;> decide

theorem publishHeader_qos (retain : Bool) {qos : ℤ} (hqos : qos = 0 ∨ qos = 1) :
    (0 : UInt8) < (publishHeader retain qos >>> 1) &&& 0x03 ↔ 0 < qos := by
  rcases hqos with rfl | rfl <;> cases retain <;> decide

/-- A message for a command topic, taken apart. -/
theorem processIncomingPacket_command {header : UInt8} {b c pid payload : Bytes}
    (htype : header &&& 0xF0 = 0x30)
    (hpid : pid.length = if (0 : UInt8) < (header >>> 1) &&& 0x03 then 2 else 0)
    (hlen : (b ++ str "/cmd/" ++ c).length ≤ 65535) :
    processIncomingPacket b header (twoBytes (b ++ str "/cmd/" ++ c).length ++
      ((b ++ str "/cmd/" ++ c) ++ (pid ++ payload))) = some (c, payload) := by
  have hdrop : (b ++ str "/cmd/" ++ c).drop (b ++ str "/cmd/").length = c := List.drop_left
  have hpre : b ++ str "/cmd/" <+: b ++ str "/cmd/" ++ c := List.prefix_append _ _
  generalize b ++ str "/cmd/" ++ c = topic at *
  have hbody : twoBytes topic.length ++ (topic ++ (pid ++ payload)) =
      UInt8.ofNat (topic.length >>> 8 &&& 0xFF) :: UInt8.ofNat (topic.length &&& 0xFF) ::
        (topic ++ (pid ++ payload)) := rfl
  have hlong : ¬ (UInt8.ofNat (topic.length >>> 8 &&& 0xFF) ::
      UInt8.ofNat (topic.length &&& 0xFF) :: (topic ++ (pid ++ payload))).length <
        2 + topic.length := by
    simp only [List.length_cons, List.length_append]
    omega
  have hmsg : (UInt8.ofNat (topic.length >>> 8 &&& 0xFF) ::
      UInt8.ofNat (topic.length &&& 0xFF) :: (topic ++ (pid ++ payload))).drop
        (2 + topic.length + pid.length) = payload := by
    have hcount : 2 + topic.length + pid.length = (topic ++ pid).length + 1 + 1 := by
      rw [List.length_append]
      omega
    rw [hcount, List.drop_succ_cons, List.drop_succ_cons, ← List.append_assoc, List.drop_left]
  rw [hbody, processIncomingPacket, if_pos htype]
  simp only [twoBytes_toNat hlen]
  rw [if_neg hlong, List.take_left, if_pos hpre, hdrop, ← hpid, hmsg]

/-- **A command that is published is recognised**: the receiving end calls back with the name of
the command and the payload. -/
theorem processIncomingPacket_publishBody (client : Client) (b c payload : Bytes) (retain : Bool)
    {qos : ℤ} (hqos : qos = 0 ∨ qos = 1)
    (hlen : (b ++ str "/cmd/" ++ c).length ≤ 65535) :
    processIncomingPacket b (publishHeader retain qos)
      (publishBody client (b ++ str "/cmd/" ++ c) payload qos) = some (c, payload) := by
  have hq := publishHeader_qos retain hqos
  rw [publishBody, List.append_assoc, List.append_assoc]
  refine processIncomingPacket_command (publishHeader_type retain qos) ?_ hlen
  by_cases h : 0 < qos
  · rw [if_pos h, if_pos (hq.mpr h), length_twoBytes]
  · rw [if_neg h, if_neg (fun h' => h (hq.mp h')), List.length_nil]

end Mqtt

end HaPanel
