import HaPanel.Mqtt.Format
import HaPanel.Mqtt.Packet

/-!
# Which packets are commands

`process_incoming_packet` calls the command callback for a PUBLISH packet on a command topic.  It
checks that the topic is complete; it does not check the quality of service, nor that there is a
packet identifier where there has to be one.

* `processChecked_eq` : every byte it reads is in the body.
* `commands_exact_iff` : it calls back for the well-formed commands, with what they say, and for no
  others, exactly if the packet is not one of those the missing checks are about.
-/

namespace HaPanel

namespace Mqtt

open Text

/-! ### Reads -/

/-- `std::string(data + start, n)`, if that is inside the body. -/
def slice (body : Bytes) (start n : ℕ) : Option Bytes :=
  if start + n ≤ body.length then some ((body.drop start).take n) else none

/-- The application message: the bytes from `offset` on, if there are any. -/
def messageFrom (body : Bytes) (offset : ℕ) : Option Bytes :=
  if body.length > offset then slice body offset (body.length - offset) else some []

/-- `process_incoming_packet` with its reads: `none` if one of them is outside the body. -/
def processChecked (baseTopic : Bytes) (header : UInt8) (payload : Bytes) :
    Option (Option (Bytes × Bytes)) :=
  if header &&& 0xF0 = 0x30 then
    if payload.length < 2 then some none
    else do
      let hi ← payload[0]?
      let lo ← payload[1]?
      let topicLen := hi.toNat <<< 8 ||| lo.toNat
      if payload.length < 2 + topicLen then some none
      else
        let topic ← slice payload 2 topicLen
        let qos := (header >>> 1) &&& 0x03
        -- the packet identifier is skipped, whether it is there or not
        let offset := 2 + topicLen + (if 0 < qos then 2 else 0)
        let msgPayload ← messageFrom payload offset
        let cmdPrefix := baseTopic ++ str "/cmd/"
        if cmdPrefix <+: topic then some (some (topic.drop cmdPrefix.length, msgPayload))
        else some none
  else some none

theorem messageFrom_eq (body : Bytes) (offset : ℕ) :
    messageFrom body offset = some (body.drop offset) := by
  unfold messageFrom
  split_ifs with hmore
  · rw [slice, if_pos (by omega), List.take_of_length_le (by rw [List.length_drop])]
  · rw [List.drop_eq_nil_of_le (by omega)]

/-- **Every read is inside the body**, whatever the packet is. -/
theorem processChecked_eq (baseTopic : Bytes) (header : UInt8) (payload : Bytes) :
    processChecked baseTopic header payload =
      some (processIncomingPacket baseTopic header payload) := by
  unfold processChecked processIncomingPacket
  by_cases htype : header &&& 0xF0 = 0x30
  · rw [if_pos htype, if_pos htype]
    match payload with
    | [] => rfl
    | [_] => rfl
    | hi :: lo :: rest =>
      have hlong : ¬ (hi :: lo :: rest).length < 2 := by simp
      rw [if_neg hlong]
      simp only [List.getElem?_cons_zero, List.getElem?_cons_succ, Option.bind_eq_bind,
        Option.bind_some]
      by_cases hshort : (hi :: lo :: rest).length < 2 + (hi.toNat <<< 8 ||| lo.toNat)
      · rw [if_pos hshort, if_pos hshort]
      · have htopic : slice (hi :: lo :: rest) 2 (hi.toNat <<< 8 ||| lo.toNat) =
            some (rest.take (hi.toNat <<< 8 ||| lo.toNat)) := by
          rw [slice, if_pos (by omega)]
          rfl
        rw [if_neg hshort, if_neg hshort, htopic, Option.bind_some, messageFrom_eq,
          Option.bind_some]
        split_ifs <;> rfl
  · rw [if_neg htype, if_neg htype]

/-! ### Commands -/

theorem topicLen_eq (hi lo : UInt8) : hi.toNat <<< 8 ||| lo.toNat = ofBigEndian [hi, lo] := by
  have hlo : lo.toNat < 2 ^ 8 := lo.toNat_lt
  rw [← Nat.shiftLeft_add_eq_or_of_lt hlo, Nat.shiftLeft_eq]
  simp [ofBigEndian, Nat.mul_comm]

theorem headerQos_pos_iff : ∀ header : UInt8,
    (0 : UInt8) < (header >>> 1) &&& 0x03 ↔ headerQos header ≠ 0 :=
  forall_byte (by decide +kernel)

/-- What the callback gets for the application message, where `s` follows the topic: it is without
the packet identifier, and empty if that is not complete. -/
def messageAfter (header : UInt8) (s : Bytes) : Bytes :=
  if headerQos header = 0 then s else s.drop 2

/-- The callback gets the rest of a command topic and the message. -/
theorem processIncomingPacket_eq (baseTopic : Bytes) (header : UInt8) (payload : Bytes) :
    processIncomingPacket baseTopic header payload =
      if header &&& 0xF0 = 0x30 then
        match readString payload with
        | none => none
        | some (topic, s) =>
          if baseTopic ++ str "/cmd/" <+: topic then
            some (topic.drop (baseTopic ++ str "/cmd/").length, messageAfter header s)
          else none
      else none := by
  unfold processIncomingPacket
  by_cases htype : header &&& 0xF0 = 0x30
  · rw [if_pos htype, if_pos htype]
    match payload with
    | [] => rfl
    | [_] => rfl
    | hi :: lo :: rest =>
      -- the source counts from the start of the body, `readString` from after the length
      simp only [readString, topicLen_eq, List.length_cons]
      by_cases hle : ofBigEndian [hi, lo] ≤ rest.length
      · have hdrop (k : ℕ) : (hi :: lo :: rest).drop (2 + ofBigEndian [hi, lo] + k) =
            (rest.drop (ofBigEndian [hi, lo])).drop k := by
          have hoffset : 2 + ofBigEndian [hi, lo] + k = ofBigEndian [hi, lo] + k + 1 + 1 := by omega
          rw [List.drop_drop, hoffset, List.drop_succ_cons, List.drop_succ_cons]
        rw [if_neg (show ¬ rest.length + 1 + 1 < 2 + ofBigEndian [hi, lo] by omega), if_pos hle]
        simp only [hdrop, headerQos_pos_iff]
        by_cases hqos : headerQos header = 0
        · simp [hqos, messageAfter]
        · simp [hqos, messageAfter]
      · rw [if_pos (show rest.length + 1 + 1 < 2 + ofBigEndian [hi, lo] by omega), if_neg hle]
  · rw [if_neg htype, if_neg htype]

/-- The callback is called for the well-formed commands only, with what they say. -/
def CommandsExact (baseTopic : Bytes) (header : UInt8) (body : Bytes) : Prop :=
  ∀ r : Bytes × Bytes, processIncomingPacket baseTopic header body = some r ↔
    ∃ p ∈ readPublish header body, p.topic = baseTopic ++ str "/cmd/" ++ r.1 ∧ p.message = r.2

/-- What the missing checks are about: after the topic follows `s`, but the quality of service is 3,
or the packet identifier is not complete. -/
def Incomplete (header : UInt8) (s : Bytes) : Prop :=
  headerQos header = 3 ∨ (headerQos header ≠ 0 ∧ s.length < 2)

/-- The packet is on a command topic, but its quality of service is 3, or its packet identifier is
not complete. -/
structure MalformedCommand (baseTopic : Bytes) (header : UInt8) (body : Bytes) : Prop where
  publish : header &&& 0xF0 = 0x30
  topic : ∃ topic s, readString body = some (topic, s) ∧ baseTopic ++ str "/cmd/" <+: topic ∧
    Incomplete header s

/-- When the callback is called, and with what. -/
theorem processIncomingPacket_eq_some_iff {baseTopic : Bytes} {header : UInt8} {body : Bytes}
    {r : Bytes × Bytes} :
    processIncomingPacket baseTopic header body = some r ↔
      header &&& 0xF0 = 0x30 ∧ ∃ s, readString body = some (baseTopic ++ str "/cmd/" ++ r.1, s) ∧
        messageAfter header s = r.2 := by
  rw [processIncomingPacket_eq]
  constructor
  · intro h
    split_ifs at h with htype
    refine ⟨htype, ?_⟩
    cases hread : readString body with
    | none =>
      rw [hread] at h
      cases h
    | some q =>
      obtain ⟨topic, s⟩ := q
      rw [hread] at h
      simp only at h
      split_ifs at h with hcmd
      obtain ⟨name, rfl⟩ := hcmd
      obtain rfl := Option.some.inj h
      exact ⟨s, by rw [List.drop_left], rfl⟩
  · rintro ⟨htype, s, hread, hmessage⟩
    rw [if_pos htype, hread]
    simp only [List.prefix_append, if_true, List.drop_left, hmessage]

/-- What a well-formed packet says. -/
theorem exists_readPublish_iff {header : UInt8} {body topic message : Bytes} :
    (∃ p ∈ readPublish header body, p.topic = topic ∧ p.message = message) ↔
      header &&& 0xF0 = 0x30 ∧ ∃ s, readString body = some (topic, s) ∧ ¬ Incomplete header s ∧
        messageAfter header s = message := by
  unfold readPublish Incomplete messageAfter
  constructor
  · rintro ⟨p, hp, rfl, rfl⟩
    by_cases htype : header &&& 0xF0 = 0x30 ∧ headerQos header ≠ 3
    · rw [if_pos htype] at hp
      refine ⟨htype.1, ?_⟩
      cases hread : readString body with
      | none =>
        rw [hread] at hp
        cases hp
      | some q =>
        obtain ⟨topic, s⟩ := q
        rw [hread] at hp
        by_cases hqos : headerQos header = 0
        · obtain rfl := Option.some.inj ((if_pos hqos).symm.trans hp)
          exact ⟨s, rfl, by simp [hqos], if_pos hqos⟩
        · replace hp := (if_neg hqos).symm.trans hp
          match s, hp with
          | a :: b :: message, hp =>
            obtain rfl := Option.some.inj hp
            exact ⟨_, rfl, by simp [htype.2], if_neg hqos⟩
    · rw [if_neg htype] at hp
      cases hp
  · rintro ⟨htype, s, hread, hcomplete, rfl⟩
    -- what the message leaves out is the identifier, which is there
    rw [not_or] at hcomplete
    rw [if_pos ⟨htype, hcomplete.1⟩, hread]
    simp only
    split_ifs with hqos
    · exact ⟨_, rfl, rfl, rfl⟩
    · have hlen : 2 ≤ s.length := by
        by_contra hshort
        exact hcomplete.2 ⟨hqos, by omega⟩
      match s, hlen with
      | a :: b :: message, _ => exact ⟨_, rfl, rfl, rfl⟩

/-- **Every read is inside the body, and the callback is called for the well-formed commands only**,
with what they say, except for a command that has quality of service 3 or no complete packet
identifier. -/
theorem commands_exact_iff (baseTopic : Bytes) (header : UInt8) (body : Bytes) :
    processChecked baseTopic header body = some (processIncomingPacket baseTopic header body) ∧
      (CommandsExact baseTopic header body ↔ ¬ MalformedCommand baseTopic header body) := by
  refine ⟨processChecked_eq baseTopic header body, fun hexact hbad => ?_, fun hgood r => ?_⟩
  · obtain ⟨htype, _, s, hread, ⟨name, rfl⟩, hincomplete⟩ := hbad
    -- the callback is called for it, so there would be a well-formed packet
    have hcalled : processIncomingPacket baseTopic header body =
        some (name, messageAfter header s) :=
      processIncomingPacket_eq_some_iff.2 ⟨htype, s, hread, rfl⟩
    obtain ⟨-, s', hread', hcomplete, -⟩ := exists_readPublish_iff.1 ((hexact _).1 hcalled)
    obtain ⟨-, rfl⟩ := Prod.mk.inj (Option.some.inj (hread.symm.trans hread'))
    exact hcomplete hincomplete
  · rw [processIncomingPacket_eq_some_iff, exists_readPublish_iff]
    refine and_congr_right fun htype => exists_congr fun s => and_congr_right fun hread => ?_
    have hcomplete : ¬ Incomplete header s := fun hincomplete =>
      hgood ⟨htype, _, s, hread, List.prefix_append _ _, hincomplete⟩
    rw [iff_true_intro hcomplete, true_and]

/-- A PUBLISH packet of quality of service 1 that ends after its topic. -/
def truncatedBuzzer : Bytes := twoBytes 12 ++ str "p/cmd/buzzer"

/-- The packet is cut off before its identifier, or has the quality of service that does not exist,
but the buzzer sounds. -/
theorem truncated_command_is_run :
    processIncomingPacket (str "p") 0x32 truncatedBuzzer = some (str "buzzer", []) ∧
      readPublish 0x32 truncatedBuzzer = none ∧
      processIncomingPacket (str "p") 0x36 (truncatedBuzzer ++ [0, 1]) = some (str "buzzer", []) ∧
      readPublish 0x36 (truncatedBuzzer ++ [0, 1]) = none ∧
      ¬ CommandsExact (str "p") 0x32 truncatedBuzzer := by
  have hcalled : processIncomingPacket (str "p") 0x32 truncatedBuzzer =
      some (str "buzzer", []) := by decide +kernel
  have hnone : readPublish 0x32 truncatedBuzzer = none := by decide +kernel
  refine ⟨hcalled, hnone, by decide +kernel, by decide +kernel, fun hexact => ?_⟩
  obtain ⟨p, hp, -⟩ := (hexact _).1 hcalled
  rw [hnone] at hp
  cases hp

end Mqtt

end HaPanel
