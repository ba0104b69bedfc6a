import HaPanel.Text.BigEndian

/-!
# Fields of MQTT packets

What MQTT 3.1.1 says about strings with a length in front, about the body of a CONNECT packet and
about that of a PUBLISH packet.  The readers here give a value only for what the standard calls well
formed; a broker may close the connection for everything else.

`readString` reads a string, `readConnect` the body of a CONNECT packet, and `readPublish` a PUBLISH
packet.  `Connect.Lawful` is what the standard asks of the fields of a CONNECT packet together.
Whatever `readConnect` accepts is lawful (`readConnect_lawful`), so that fields which are not lawful
cannot be sent in any packet.
-/

namespace HaPanel

namespace Mqtt

open Text

/-! ### Strings -/

/-- A string with its length in front, and what follows it. -/
def readString : Bytes → Option (Bytes × Bytes)
  | hi :: lo :: s =>
    let n := ofBigEndian [hi, lo]
    if n ≤ s.length then some (s.take n, s.drop n) else none
  | _ => none

theorem readString_bigEndian {s : Bytes} (hs : s.length ≤ 65535) (t : Bytes) :
    readString (bigEndian 2 s.length ++ (s ++ t)) = some (s, t) := by
  have hn : ofBigEndian (bigEndian 2 s.length) = s.length := ofBigEndian_bigEndian (by omega)
  have hcons : bigEndian 2 s.length ++ (s ++ t) =
      UInt8.ofNat (s.length / 256 ^ 1) :: UInt8.ofNat (s.length / 256 ^ 0) :: (s ++ t) := rfl
  rw [hcons, readString]
  change ofBigEndian [UInt8.ofNat (s.length / 256 ^ 1), UInt8.ofNat (s.length / 256 ^ 0)] = _ at hn
  simp only [hn, List.length_append, Nat.le_add_right, if_true, List.take_left, List.drop_left]

theorem readString_eq_some {bs s t : Bytes} (h : readString bs = some (s, t)) :
    s.length ≤ 65535 ∧ ∃ hi lo, bs = hi :: lo :: (s ++ t) ∧ ofBigEndian [hi, lo] = s.length := by
  match bs, h with
  | hi :: lo :: r, h =>
    have hlt : ofBigEndian [hi, lo] < 256 ^ 2 := ofBigEndian_lt [hi, lo]
    rw [readString] at h
    split_ifs at h with hle
    obtain ⟨rfl, rfl⟩ := Prod.mk.inj (Option.some.inj h)
    have hlen : (r.take (ofBigEndian [hi, lo])).length = ofBigEndian [hi, lo] := by
      rw [List.length_take, Nat.min_eq_left hle]
    refine ⟨?_, hi, lo, by rw [List.take_append_drop], hlen.symm⟩
    omega

/-! ### CONNECT -/

/-- The message a broker publishes for a client that is gone. -/
structure Will where
  topic : Bytes
  message : Bytes
  qos : ℕ
  retain : Bool
  deriving DecidableEq

/-- The fields of a CONNECT packet. -/
structure Connect where
  cleanSession : Bool
  keepAlive : ℕ
  clientId : Bytes
  will : Option Will
  username : Option Bytes
  password : Option Bytes
  deriving DecidableEq

/-- The strings of the packet. -/
def Connect.strings (c : Connect) : List Bytes :=
  [c.clientId] ++ (c.will.map fun w => [w.topic, w.message]).getD [] ++ c.username.toList ++
    c.password.toList

/-- There is no password without a user name, and every string has a length of 16 bits. -/
structure Connect.Lawful (c : Connect) : Prop where
  password : c.username = none → c.password = none
  length_le : ∀ s ∈ c.strings, s.length ≤ 65535

/-- The connect flags. -/
structure Flags where
  username : Bool
  password : Bool
  willRetain : Bool
  willQos : ℕ
  will : Bool
  cleanSession : Bool
  deriving DecidableEq

/-- The flags in a byte, if they go together: the reserved bit is zero, the will bits are zero
without a will, there is no quality of service 3, and no password without a user name. -/
def readFlags (b : UInt8) : Option Flags :=
  let f : Flags :=
    { username := b &&& 0x80 ≠ 0
      password := b &&& 0x40 ≠ 0
      willRetain := b &&& 0x20 ≠ 0
      willQos := (b >>> 3 &&& 3).toNat
      will := b &&& 0x04 ≠ 0
      cleanSession := b &&& 0x02 ≠ 0 }
  if b &&& 1 = 0 ∧ (f.will = false → f.willQos = 0 ∧ f.willRetain = false) ∧ f.willQos ≠ 3 ∧
      (f.username = false → f.password = false) then some f
  else none

/-- A string that is there if its flag is set. -/
def readOptional (present : Bool) (s : Bytes) : Option (Option Bytes × Bytes) :=
  if present then (readString s).map fun r => (some r.1, r.2) else some (none, s)

/-- The will, if its flag is set. -/
def readWill (f : Flags) (s : Bytes) : Option (Option Will × Bytes) :=
  if f.will then do
    let (topic, s) ← readString s
    let (message, s) ← readString s
    return (some ⟨topic, message, f.willQos, f.willRetain⟩, s)
  else some (none, s)

/-- The payload of a CONNECT packet, which has nothing after its last field. -/
def readPayload (f : Flags) (keepAlive : ℕ) (s : Bytes) : Option Connect := do
  let (clientId, s) ← readString s
  let (will, s) ← readWill f s
  let (username, s) ← readOptional f.username s
  let (password, s) ← readOptional f.password s
  if s = [] ∧ (clientId = [] → f.cleanSession = true) then
    some ⟨f.cleanSession, keepAlive, clientId, will, username, password⟩
  else none

/-- The body of a CONNECT packet. -/
def readConnect (body : Bytes) : Option Connect := do
  let (protocol, s) ← readString body
  match s with
  | level :: flags :: k₁ :: k₂ :: s =>
    if protocol = str "MQTT" ∧ level = 4 then do
      let f ← readFlags flags
      readPayload f (ofBigEndian [k₁, k₂]) s
    else none
  | _ => none

theorem readFlags_eq_some {b : UInt8} {f : Flags} (h : readFlags b = some f) :
    f.username = false → f.password = false := by
  rw [readFlags] at h
  split_ifs at h with hlaw
  obtain rfl := Option.some.inj h
  exact hlaw.2.2.2

theorem readOptional_eq_some {present : Bool} {s t : Bytes} {v : Option Bytes}
    (h : readOptional present s = some (v, t)) :
    v.isSome = present ∧ ∀ x ∈ v, x.length ≤ 65535 := by
  unfold readOptional at h
  split_ifs at h with hp
  · obtain ⟨⟨x, r⟩, hread, heq⟩ := Option.map_eq_some_iff.1 h
    obtain ⟨rfl, rfl⟩ := Prod.mk.inj heq
    refine ⟨hp.symm, ?_⟩
    rintro _ ⟨⟩
    exact (readString_eq_some hread).1
  · obtain ⟨rfl, rfl⟩ := Prod.mk.inj (Option.some.inj h)
    exact ⟨by simpa using hp, fun x hx => by cases hx⟩

theorem readWill_eq_some {f : Flags} {s t : Bytes} {will : Option Will}
    (h : readWill f s = some (will, t)) :
    ∀ w ∈ will, w.topic.length ≤ 65535 ∧ w.message.length ≤ 65535 := by
  unfold readWill at h
  split_ifs at h
  · simp only [Option.bind_eq_bind, Option.bind_eq_some_iff, Option.pure_def, Option.some.injEq,
      Prod.mk.injEq, Prod.exists] at h
    obtain ⟨topic, s₁, htopic, message, s₂, hmessage, rfl, rfl⟩ := h
    rintro _ ⟨⟩
    exact ⟨(readString_eq_some htopic).1, (readString_eq_some hmessage).1⟩
  · obtain ⟨rfl, -⟩ := Prod.mk.inj (Option.some.inj h)
    exact fun w hw => by cases hw

/-- **What can be read is lawful.** -/
theorem readConnect_lawful {body : Bytes} {c : Connect} (h : readConnect body = some c) :
    c.Lawful := by
  simp only [readConnect, Option.bind_eq_bind, Option.bind_eq_some_iff, Prod.exists] at h
  obtain ⟨protocol, s, -, h⟩ := h
  split at h
  · split_ifs at h
    obtain ⟨f, hf, h⟩ := Option.bind_eq_some_iff.1 h
    simp only [readPayload, Option.bind_eq_bind, Option.bind_eq_some_iff, Prod.exists] at h
    obtain ⟨clientId, s₁, hid, will, s₂, hwill, username, s₃, huser, password, s₄, hpass, h⟩ := h
    split_ifs at h
    obtain rfl := Option.some.inj h
    obtain ⟨husername, huserlen⟩ := readOptional_eq_some huser
    obtain ⟨hpassword, hpasslen⟩ := readOptional_eq_some hpass
    have hwilllen := readWill_eq_some hwill
    constructor
    · -- both fields are there just when their flags are set, and the flags go together
      intro hnone
      rw [show username = none from hnone, Option.isSome_none] at husername
      rw [readFlags_eq_some hf husername.symm] at hpassword
      exact Option.isNone_iff_eq_none.1 (Option.isSome_eq_false_iff.1 hpassword)
    · intro x hx
      simp only [Connect.strings, List.mem_append, List.mem_singleton, Option.mem_toList] at hx
      rcases hx with ((rfl | hx) | hx) | hx
      · exact (readString_eq_some hid).1
      · cases will with
        | none => cases hx
        | some w =>
          obtain ⟨htopic, hmessage⟩ := hwilllen w rfl
          simp only [Option.map_some, Option.getD_some, List.mem_cons, List.not_mem_nil,
            or_false] at hx
          rcases hx with rfl | rfl
          · exact htopic
          · exact hmessage
      · exact huserlen x hx
      · exact hpasslen x hx
  · cases h

/-! ### PUBLISH -/

/-- The fields of a PUBLISH packet. -/
structure Publish where
  qos : ℕ
  topic : Bytes
  packetId : Option ℕ
  message : Bytes
  deriving DecidableEq

/-- The quality of service in a header byte. -/
def headerQos (header : UInt8) : ℕ := (header >>> 1 &&& 3).toNat

/-- A PUBLISH packet: there is no quality of service 3, and a packet identifier of two bytes exactly
if the quality of service is not 0. -/
def readPublish (header : UInt8) (body : Bytes) : Option Publish :=
  if header &&& 0xF0 = 0x30 ∧ headerQos header ≠ 3 then
    match readString body with
    | none => none
    | some (topic, s) =>
      if headerQos header = 0 then some ⟨0, topic, none, s⟩
      else match s with
        | a :: b :: message => some ⟨headerQos header, topic, some (ofBigEndian [a, b]), message⟩
        | _ => none
  else none

end Mqtt

end HaPanel
