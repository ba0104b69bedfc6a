import HaPanel.Mqtt.Packet
import HaPanel.Transition.Run

/-!
# Packet identifiers

`send_mqtt_subscribe` and `publish` take their packet identifiers from `packet_id_`, a counter of 16
bits that starts with 1, counts over all connections and wraps to 0.  MQTT does not allow the
identifier 0.

* `Sender.Numbering` : what the counter and the packets sent have to do with the number of
  identifiers taken so far.
* `identifiers_lawful_iff` : all packets of a run are numbered as MQTT asks for exactly if none of
  them is the 65536th, or the 131072nd, and so on, to take an identifier.
-/

namespace HaPanel

namespace Mqtt

open Text Transition

/-- `send_mqtt_subscribe`: the packet handed to `send_raw` and the client afterwards. -/
def sendMqttSubscribe (client : Client) (topicFilter : Bytes) (qos : ℤ) : Bytes × Client :=
  let pid := client.packetId
  let varHeader := twoBytes pid.toNat
  let payload := twoBytes topicFilter.length ++ topicFilter ++ [UInt8.ofInt qos]
  let remLen := varHeader.length + payload.length
  (0x82 :: (encodeRemainingLength remLen ++ varHeader ++ payload),
    { client with packetId := pid + 1 })

/-- A SUBSCRIBE or a PUBLISH packet with QoS 1. -/
structure Numbered where
  id : UInt16
  /-- How many identifiers had been taken before. -/
  index : ℕ
  bytes : Bytes

/-- The client, with what it has sent. -/
structure Sender where
  client : Client
  /-- How many identifiers have been taken. -/
  taken : ℕ := 0
  sent : List Numbered := []

/-- What the panel does with the client.  `written` says whether `send_raw` gets the packet out. -/
inductive SenderOp where
  /-- `loop` connects. -/
  | connect
  /-- `close_socket` -/
  | disconnect
  | subscribe (topicFilter : Bytes) (qos : ℤ) (written : Bool)
  | publish (topic payload : Bytes) (retain : Bool) (qos : ℤ) (written : Bool)
  deriving DecidableEq

namespace Sender

def next (s : Sender) : SenderOp → Sender
  | .connect => { s with client := { s.client with connected := true } }
  | .disconnect => { s with client := { s.client with connected := false } }
  | .subscribe topicFilter qos written =>
    let (bytes, client) := sendMqttSubscribe s.client topicFilter qos
    { client := client
      taken := s.taken + 1
      sent := s.sent ++ if s.client.connected && written then [⟨s.client.packetId, s.taken, bytes⟩]
        else [] }
  | .publish topic payload retain qos written =>
    match Mqtt.publish s.client topic payload retain qos with
    | none => s
    | some (bytes, client) =>
      { client := client
        taken := if 0 < qos then s.taken + 1 else s.taken
        sent := s.sent ++ if qos = 1 ∧ written then [⟨s.client.packetId, s.taken, bytes⟩] else [] }

/-- A client that has just been constructed. -/
def fresh (baseTopic : Bytes) : Sender := { client := ⟨baseTopic, false, 1⟩ }

/-- The operation sends a packet with an identifier. -/
def Sends (s : Sender) : SenderOp → Prop
  | .subscribe _ _ written => s.client.connected = true ∧ written = true
  | .publish _ _ _ qos written => s.client.connected = true ∧ qos = 1 ∧ written = true
  | _ => False

/-- The packets are numbered as MQTT asks for: no identifier is 0, and packets that are less than
65535 identifiers apart have different ones. -/
structure Lawful (sent : List Numbered) : Prop where
  ne_zero : ∀ p ∈ sent, p.id ≠ 0
  apart : sent.Pairwise fun p q => p.index < q.index ∧ (q.index - p.index < 65535 → p.id ≠ q.id)

/-! ### One operation -/

/-- The packets that an operation sends, with their numbers. -/
theorem next_cases (s : Sender) (op : SenderOp) :
    (∃ client, client.packetId = s.client.packetId ∧ s.next op = { s with client := client } ∧
        ¬ s.Sends op) ∨
      ∃ client, client.packetId = s.client.packetId + 1 ∧
        ((s.next op = { s with client := client, taken := s.taken + 1 } ∧ ¬ s.Sends op) ∨
          ∃ bytes, s.next op = ⟨client, s.taken + 1,
            s.sent ++ [⟨s.client.packetId, s.taken, bytes⟩]⟩ ∧ s.Sends op) := by
  cases op with
  | connect => exact .inl ⟨{ s.client with connected := true }, rfl, rfl, id⟩
  | disconnect => exact .inl ⟨{ s.client with connected := false }, rfl, rfl, id⟩
  | subscribe topicFilter qos written =>
    refine .inr ⟨{ s.client with packetId := s.client.packetId + 1 }, rfl, ?_⟩
    by_cases h : s.client.connected = true ∧ written = true
    · have hsend : (s.client.connected && written) = true := by simpa using h
      refine .inr ⟨(sendMqttSubscribe s.client topicFilter qos).1, ?_, h⟩
      rw [next, hsend]
      rfl
    · refine .inl ⟨?_, h⟩
      have hsend : (s.client.connected && written) = false := by simpa using h
      simp [next, sendMqttSubscribe, hsend]
  | publish topic payload retain qos written =>
    by_cases hconn : s.client.connected = true
    · by_cases hqos : 0 < qos
      · refine .inr ⟨{ s.client with packetId := s.client.packetId + 1 }, rfl, ?_⟩
        by_cases h : qos = 1 ∧ written = true
        · exact .inr ⟨_, by simp [next, Mqtt.publish, hconn, h]; rfl, hconn, h⟩
        · refine .inl ⟨?_, fun hsends => h hsends.2⟩
          simp only [next, Mqtt.publish, hconn, hqos, h, if_true, if_false, List.append_nil]
      · refine .inl ⟨s.client, rfl, ?_, fun hsends => hqos (by rw [hsends.2.1]; decide)⟩
        have h : ¬ (qos = 1 ∧ written = true) := fun h => hqos (by rw [h.1]; decide)
        simp only [next, Mqtt.publish, hconn, hqos, h, if_true, if_false, List.append_nil]
    · refine .inl ⟨s.client, rfl, ?_, fun hsends => hconn hsends.1⟩
      simp [next, Mqtt.publish, hconn]

/-! ### Whole runs -/

/-- The counter and the identifiers are the numbers of identifiers taken, in 16 bits. -/
structure Numbering (s : Sender) : Prop where
  counter : s.client.packetId = UInt16.ofNat (1 + s.taken)
  ids : ∀ p ∈ s.sent, p.id = UInt16.ofNat (1 + p.index)
  below : ∀ p ∈ s.sent, p.index < s.taken
  increasing : s.sent.Pairwise fun p q => p.index < q.index

theorem Numbering.next {s : Sender} (h : s.Numbering) (op : SenderOp) : (s.next op).Numbering := by
  have hcounter : s.client.packetId + 1 = UInt16.ofNat (1 + (s.taken + 1)) := by
    rw [h.counter, ← Nat.add_assoc, UInt16.ofNat_add (1 + s.taken)]
    rfl
  have hbelow : ∀ p ∈ s.sent, p.index < s.taken + 1 := fun p hp =>
    (h.below p hp).trans (Nat.lt_succ_self _)
  rcases s.next_cases op with ⟨client, hid, hnext, -⟩ | ⟨client, hid, ⟨hnext, -⟩ | ⟨bytes, hnext, -⟩⟩
  · rw [hnext]
    exact ⟨hid.trans h.counter, h.ids, h.below, h.increasing⟩
  · rw [hnext]
    exact ⟨hid.trans hcounter, h.ids, hbelow, h.increasing⟩
  · rw [hnext]
    refine ⟨hid.trans hcounter, ?_, ?_, ?_⟩
    · intro p hp
      rcases List.mem_append.mp hp with hp | hp
      · exact h.ids p hp
      · rw [List.mem_singleton.mp hp]
        exact h.counter
    · intro p hp
      rcases List.mem_append.mp hp with hp | hp
      · exact hbelow p hp
      · rw [List.mem_singleton.mp hp]
        exact Nat.lt_succ_self _
    · refine List.pairwise_append.mpr ⟨h.increasing, List.pairwise_singleton _ _, ?_⟩
      intro p hp q hq
      rw [List.mem_singleton.mp hq]
      exact h.below p hp

theorem numbering_run (baseTopic : Bytes) (ops : List SenderOp) :
    (run next (fresh baseTopic) ops).Numbering :=
  run_invariant (fun _ op h => h.next op) ⟨rfl, by simp [fresh], by simp [fresh], by simp [fresh]⟩ ops

theorem toNat_id (k : ℕ) : (UInt16.ofNat (1 + k)).toNat = (1 + k) % 65536 := UInt16.toNat_ofNat'

/-- The identifier is 0 when the counter has wrapped. -/
theorem id_eq_zero_iff (k : ℕ) : UInt16.ofNat (1 + k) = 0 ↔ k % 65536 = 65535 := by
  rw [← UInt16.toNat_inj, toNat_id, UInt16.toNat_zero]
  omega

theorem Numbering.lawful_iff {s : Sender} (h : s.Numbering) :
    Lawful s.sent ↔ ∀ p ∈ s.sent, p.index % 65536 ≠ 65535 := by
  constructor
  · intro hlaw p hp hwrap
    refine hlaw.ne_zero p hp ?_
    rw [h.ids p hp, id_eq_zero_iff]
    exact hwrap
  · intro hwrap
    constructor
    · intro p hp hzero
      rw [h.ids p hp, id_eq_zero_iff] at hzero
      exact hwrap p hp hzero
    · -- the distance part does not need the condition
      refine List.Pairwise.imp_of_mem (fun {p q} hp hq hlt => ⟨hlt, fun hclose heq => ?_⟩) h.increasing
      rw [h.ids p hp, h.ids q hq, ← UInt16.toNat_inj, toNat_id, toNat_id] at heq
      omega

/-- What holds of the packets of a run was so whenever one was sent. -/
theorem forall_sent_run_iff (Q : ℕ → Prop) (s : Sender) (ops : List SenderOp) :
    (∀ p ∈ (run next s ops).sent, Q p.index) ↔
      (∀ p ∈ s.sent, Q p.index) ∧ Along next (fun s op => s.Sends op → Q s.taken) s ops := by
  induction ops generalizing s with
  | nil => simp [run, Along]
  | cons op ops ih =>
    have hstep : (∀ p ∈ (s.next op).sent, Q p.index) ↔
        (∀ p ∈ s.sent, Q p.index) ∧ (s.Sends op → Q s.taken) := by
      rcases s.next_cases op with
        ⟨client, -, hnext, hsends⟩ | ⟨client, -, ⟨hnext, hsends⟩ | ⟨bytes, hnext, hsends⟩⟩
      · simp [hnext, hsends]
      · simp [hnext, hsends]
      · simp [hnext, hsends, or_imp, forall_and]
    rw [run_cons, ih (s.next op), hstep, and_assoc]
    rfl

/-- **The packets of a run are numbered as MQTT asks for** exactly if none is sent when the counter
has wrapped. -/
theorem identifiers_lawful_iff (baseTopic : Bytes) (ops : List SenderOp) :
    Lawful (run next (fresh baseTopic) ops).sent ↔
      Along next (fun s op => s.Sends op → s.taken % 65536 ≠ 65535) (fresh baseTopic) ops := by
  rw [(numbering_run baseTopic ops).lawful_iff,
    forall_sent_run_iff (fun k => k % 65536 ≠ 65535) (fresh baseTopic) ops]
  simp [fresh]

/-- A subscription to all commands. -/
def subscription : SenderOp := .subscribe (str "p/cmd/#") 1 true

theorem subscriptions (n : ℕ) {s : Sender} (h : s.client.connected = true) :
    (run next s (List.replicate n subscription)).taken = s.taken + n ∧
      (run next s (List.replicate n subscription)).client.connected = true := by
  induction n generalizing s with
  | zero => exact ⟨rfl, h⟩
  | succ n ih =>
    obtain ⟨htaken, hconn⟩ := ih (s := s.next subscription) h
    rw [List.replicate_succ, run_cons]
    refine ⟨?_, hconn⟩
    rw [htaken]
    show s.taken + 1 + n = s.taken + (n + 1)
    omega

/-- One connection and `n + 1` subscriptions. -/
def subscribing (n : ℕ) : List SenderOp :=
  .connect :: (List.replicate n subscription ++ [subscription])

theorem subscribing_id_zero {n : ℕ} (hn : n % 65536 = 65535) :
    ∃ p ∈ (run next (fresh (str "p")) (subscribing n)).sent, p.id = 0 := by
  set s := run next ((fresh (str "p")).next .connect) (List.replicate n subscription) with hs
  obtain ⟨htaken, hconn⟩ := subscriptions n (s := (fresh (str "p")).next .connect) rfl
  rw [← hs] at htaken hconn
  have hnumbering : s.Numbering :=
    numbering_run (str "p") (.connect :: List.replicate n subscription)
  have hsent : (s.next subscription).sent = s.sent ++
      [⟨s.client.packetId, s.taken, (sendMqttSubscribe s.client (str "p/cmd/#") 1).1⟩] := by
    simp only [next, subscription, hconn, Bool.and_true, if_true]
  have hrun : run next (fresh (str "p")) (subscribing n) = s.next subscription := by
    rw [subscribing, run_cons, run_append, ← hs]
    rfl
  have hzero : s.client.packetId = 0 := by
    rw [hnumbering.counter, id_eq_zero_iff, htaken]
    show (0 + n) % 65536 = 65535
    rwa [Nat.zero_add]
  rw [hrun, hsent]
  exact ⟨_, List.mem_append_right _ List.mem_cons_self, hzero⟩

/-- **After 65535 subscriptions the identifier is 0.** -/
theorem subscription_with_id_zero :
    (∃ p ∈ (run next (fresh (str "p")) (subscribing 65535)).sent, p.id = 0) ∧
      ¬ Lawful (run next (fresh (str "p")) (subscribing 65535)).sent := by
  have hzero := subscribing_id_zero (n := 65535) rfl
  refine ⟨hzero, fun h => ?_⟩
  obtain ⟨p, hp, hp0⟩ := hzero
  exact h.ne_zero p hp hp0

end Sender

end Mqtt

end HaPanel
