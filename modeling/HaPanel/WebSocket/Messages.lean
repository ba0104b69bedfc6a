import HaPanel.WebSocket.Dispatch
import HaPanel.WebSocket.Frame

/-!
# Messages and frames

A server may split a text message into fragments, and it may send control frames between any two
frames; `Sends` states which sequences of frames carry which messages, after RFC 6455.  The reading
loop of `ws_thread_loop` takes the payload of every frame for a message: `ws_read_frame_mbed` leaves
out the FIN bit and the opcode, and the panel sends nothing but text frames.

* `handed_of_encodes` : the loop hands over the payloads of the frames, one by one.
* `messages_independent_of_framing_iff` : these are the messages, and every ping is answered, if and
  only if every frame is a text message of its own.
-/

namespace HaPanel

namespace WebSocket

open Text

/-! ### The frames of a server -/

/-- The opcodes of text messages and of control frames. -/
inductive Opcode where
  | continuation
  | text
  | close
  | ping
  | pong
deriving DecidableEq

def Opcode.code : Opcode → ℕ
  | continuation => 0
  | text => 1
  | close => 8
  | ping => 9
  | pong => 10

structure ServerFrame where
  fin : Bool
  opcode : Opcode
  payload : Bytes
deriving DecidableEq

/-- The frames carry the messages, after the fragments `part` of a message that is not complete.
The messages end with a close frame, whatever follows it, or where the connection is lost. -/
inductive Sends : Option Bytes → List ServerFrame → List Bytes → Prop where
  | lost (part : Option Bytes) : Sends part [] []
  | close (part : Option Bytes) (reason : Bytes) (frames : List ServerFrame) :
    Sends part (⟨true, .close, reason⟩ :: frames) []
  | ping {part : Option Bytes} {frames : List ServerFrame} {messages : List Bytes} (data : Bytes)
    (h : Sends part frames messages) : Sends part (⟨true, .ping, data⟩ :: frames) messages
  | pong {part : Option Bytes} {frames : List ServerFrame} {messages : List Bytes} (data : Bytes)
    (h : Sends part frames messages) : Sends part (⟨true, .pong, data⟩ :: frames) messages
  | whole {frames : List ServerFrame} {messages : List Bytes} (message : Bytes)
    (h : Sends none frames messages) :
    Sends none (⟨true, .text, message⟩ :: frames) (message :: messages)
  | first {frames : List ServerFrame} {messages : List Bytes} (data : Bytes)
    (h : Sends (some data) frames messages) : Sends none (⟨false, .text, data⟩ :: frames) messages
  | middle {part : Bytes} {frames : List ServerFrame} {messages : List Bytes} (data : Bytes)
    (h : Sends (some (part ++ data)) frames messages) :
    Sends (some part) (⟨false, .continuation, data⟩ :: frames) messages
  | last {part : Bytes} {frames : List ServerFrame} {messages : List Bytes} (data : Bytes)
    (h : Sends none frames messages) :
    Sends (some part) (⟨true, .continuation, data⟩ :: frames) ((part ++ data) :: messages)

/-- The bytes are those of the frames, without a mask and without reserved bits. -/
inductive Encodes : List ServerFrame → Bytes → Prop where
  | nil : Encodes [] []
  | cons {frame : ServerFrame} {bytes : Bytes} {frames : List ServerFrame} {wire : Bytes}
    (hframe : IsFrame frame.fin 0 frame.opcode.code none frame.payload bytes)
    (h : Encodes frames wire) : Encodes (frame :: frames) (bytes ++ wire)

/-! ### The reading loop -/

theorem length_of_readBytes {n : ℕ} {s bs rest : Bytes} (h : readBytes n s = some (bs, rest)) :
    rest.length + n = s.length := by
  unfold readBytes at h
  split at h
  · cases h
  · obtain ⟨-, rfl⟩ := Prod.mk.inj (Option.some.inj h)
    rw [List.length_drop]
    omega

theorem length_le_of_readLength {field n : ℕ} {s rest : Bytes}
    (h : readLength field s = some (n, rest)) : rest.length ≤ s.length := by
  have hmap : ∀ k, (readBytes k s).map (fun r => (shiftIn r.1, r.2)) = some (n, rest) →
      rest.length ≤ s.length := by
    intro k hk
    obtain ⟨⟨bs, t⟩, hr, hrt⟩ := Option.map_eq_some_iff.mp hk
    have hlen := length_of_readBytes hr
    obtain rfl : t = rest := (Prod.mk.inj hrt).2
    omega
  unfold readLength at h
  split_ifs at h
  · exact hmap 2 h
  · exact hmap 8 h
  · rw [(Prod.mk.inj (Option.some.inj h)).2]

/-- A frame has at least two bytes. -/
theorem length_lt_of_wsReadFrameMbed {s payload rest : Bytes}
    (h : wsReadFrameMbed s = some (payload, rest)) : rest.length < s.length := by
  simp only [wsReadFrameMbed, Option.bind_eq_bind, Option.bind_eq_some_iff, Prod.exists] at h
  obtain ⟨hdr, s₁, h₁, len, s₂, h₂, h⟩ := h
  have h₁ := length_of_readBytes h₁
  have h₂ := length_le_of_readLength h₂
  -- with a mask there is one more read, that of the key
  split_ifs at h with hmask
  · simp only [Option.bind_eq_some_iff, Prod.exists] at h
    obtain ⟨key, s₃, h₃, bs, s₄, h₄, heq⟩ := h
    have h₃ := length_of_readBytes h₃
    have h₄ := length_of_readBytes h₄
    rw [← (Prod.mk.inj (Option.some.inj heq)).2]
    omega
  · simp only [Option.bind_some, Option.bind_eq_some_iff, Prod.exists] at h
    obtain ⟨bs, s₃, h₃, heq⟩ := h
    have h₃ := length_of_readBytes h₃
    rw [← (Prod.mk.inj (Option.some.inj heq)).2]
    omega

/-- The messages the reading loop of `ws_thread_loop` hands to its dispatch, until a read fails;
`ws_thread_running` stays set. -/
def handed (s : Bytes) : List Bytes :=
  match h : wsReadFrameMbed s with
  | none => []
  | some (msg, rest) =>
    have := length_lt_of_wsReadFrameMbed h
    msg :: handed rest
termination_by s.length

/-- The frames the loop sends. -/
def sentFrames (token : Bytes) (controls : Fin 2 → Bytes) (s : Bytes) : List Bytes :=
  ((handed s).flatMap (dispatch token controls)).filterMap fun
    | .send message => some (wsEncodeFrame message)
    | _ => none

theorem handed_nil : handed [] = [] := by
  rw [handed]
  rfl

theorem handed_of_read {s msg rest : Bytes} (h : wsReadFrameMbed s = some (msg, rest)) :
    handed s = msg :: handed rest := by
  rw [handed]
  split
  · next hnone =>
    rw [hnone] at h
    cases h
  · next hsome =>
    rw [hsome] at h
    obtain ⟨rfl, rfl⟩ := Prod.mk.inj (Option.some.inj h)
    rfl

/-- **Every frame is handed over as a message.** -/
theorem handed_of_encodes {frames : List ServerFrame} {wire : Bytes} (h : Encodes frames wire) :
    handed wire = frames.map ServerFrame.payload := by
  induction h with
  | nil => exact handed_nil
  | @cons frame bytes frames wire hframe h ih =>
    rw [handed_of_read (wsReadFrameMbed_frame hframe wire), ih, List.map_cons]

/-- **Every frame that is sent is a text frame.** -/
theorem head_of_mem_sentFrames {token : Bytes} {controls : Fin 2 → Bytes} {s bytes : Bytes}
    (h : bytes ∈ sentFrames token controls s) : bytes.head? = some 0x81 := by
  obtain ⟨effect, -, heffect⟩ := List.mem_filterMap.mp h
  cases effect with
  | send message =>
    obtain rfl := Option.some.inj heffect
    rfl
  | connected => cases heffect
  | schedule control isOn => cases heffect

/-- No frame that is sent is a pong. -/
theorem not_pong_of_mem_sentFrames {token : Bytes} {controls : Fin 2 → Bytes} {s bytes : Bytes}
    (h : bytes ∈ sentFrames token controls s) (mask : Option Mask) (data : Bytes) :
    ¬ IsFrame true 0 Opcode.pong.code mask data bytes := by
  rintro ⟨-, -, field, ext, -, rfl⟩
  have hhead := head_of_mem_sentFrames h
  unfold frameBytes at hhead
  rw [List.head?_cons] at hhead
  exact absurd (Option.some.inj hhead) (by decide)

/-! ### Messages -/

/-- A text message in a frame of its own. -/
def ServerFrame.IsMessage (frame : ServerFrame) : Prop := frame.fin = true ∧ frame.opcode = .text

instance (frame : ServerFrame) : Decidable frame.IsMessage :=
  inferInstanceAs (Decidable (_ ∧ _))

section

variable {part : Option Bytes} {frames : List ServerFrame} {messages : List Bytes}

/-- There are no more messages than frames. -/
theorem Sends.length_le (h : Sends part frames messages) : messages.length ≤ frames.length := by
  induction h with
  | lost => exact Nat.le_refl 0
  | close => exact Nat.zero_le _
  | ping _ _ ih | pong _ _ ih | first _ _ ih | middle _ _ ih => exact Nat.le_succ_of_le ih
  | whole _ _ ih | last _ _ ih => exact Nat.succ_le_succ ih

/-- There are as many messages as frames only if no frame is spent on anything else. -/
theorem Sends.isMessage_of_length_eq (h : Sends none frames messages)
    (hlen : messages.length = frames.length) : ∀ f ∈ frames, f.IsMessage := by
  -- on the frames; every frame that is not a message of its own loses one of the lengths
  generalize hpart : none = part at h
  induction h with
  | lost => exact fun f hf => absurd hf List.not_mem_nil
  | close => cases hlen
  | ping _ h | pong _ h | first _ h =>
    have := h.length_le
    rw [List.length_cons] at hlen
    omega
  | whole message h ih =>
    rw [List.length_cons, List.length_cons] at hlen
    intro f hf
    rcases List.mem_cons.mp hf with rfl | hf
    · exact ⟨rfl, rfl⟩
    · exact ih (Nat.succ.inj hlen) rfl f hf
  | middle | last => cases hpart

/-- Frames that are messages carry their payloads. -/
theorem Sends.eq_payloads (h : Sends none frames messages) (hall : ∀ f ∈ frames, f.IsMessage) :
    messages = frames.map ServerFrame.payload := by
  generalize hpart : none = part at h
  induction h with
  | lost => rfl
  | close | ping | pong =>
    exact absurd (hall _ List.mem_cons_self).2 Opcode.noConfusion
  | first =>
    exact absurd (hall _ List.mem_cons_self).1 Bool.false_ne_true
  | whole message h ih =>
    rw [List.map_cons, ih (fun f hf => hall f (List.mem_cons_of_mem _ hf)) rfl]
  | middle | last => cases hpart

end

/-- **Messages and framing.**  The loop hands over exactly the complete text messages and answers
every ping, if and only if every frame of the server is a text message of its own. -/
theorem messages_independent_of_framing_iff (token : Bytes) (controls : Fin 2 → Bytes)
    (frames : List ServerFrame) (messages : List Bytes) (wire : Bytes)
    (hsends : Sends none frames messages) (hwire : Encodes frames wire) :
    (handed wire = messages ∧
      ∀ data, ⟨true, .ping, data⟩ ∈ frames → ∃ bytes ∈ sentFrames token controls wire,
        ∃ mask, IsFrame true 0 Opcode.pong.code mask data bytes) ↔
    ∀ f ∈ frames, f.IsMessage := by
  have hhanded := handed_of_encodes hwire
  constructor
  · rintro ⟨heq, -⟩
    -- as many messages as frames: no frame is left for a fragment or a control frame
    refine hsends.isMessage_of_length_eq ?_
    rw [← heq, hhanded, List.length_map]
  · intro hall
    refine ⟨by rw [hhanded, hsends.eq_payloads hall], ?_⟩
    intro data hdata
    exact absurd (hall _ hdata).2 Opcode.noConfusion

/-- Two messages in a frame each. -/
theorem messages_of_two_frames :
    handed ([0x81, 2] ++ (str "hi" ++ [0x81, 0])) = [str "hi", []] := by
  have hsends : Sends none [⟨true, .text, str "hi"⟩, ⟨true, .text, []⟩] [str "hi", []] :=
    .whole _ (.whole _ (.lost none))
  have hhi : IsFrame true 0 1 none (str "hi") ([0x81, 2] ++ str "hi") :=
    ⟨by decide, by decide, 2, [], .short (by decide), by decide⟩
  have hempty : IsFrame true 0 1 none [] [0x81, 0] :=
    ⟨by decide, by decide, 0, [], .short (by decide), by decide⟩
  have hwire : Encodes [⟨true, .text, str "hi"⟩, ⟨true, .text, []⟩]
      (([0x81, 2] ++ str "hi") ++ ([0x81, 0] ++ [])) := .cons hhi (.cons hempty .nil)
  exact ((messages_independent_of_framing_iff [] (fun _ => []) _ _ _ hsends hwire).mpr
    (by decide)).1

/-- The message `state_changed` in two fragments with a ping between them: the fragments and the
payload of the ping are handed over as messages, and the ping is not answered. -/
theorem fragments_handed_as_messages :
    let frames : List ServerFrame := [⟨false, .text, str "state_"⟩, ⟨true, .ping, str "auth_ok"⟩,
      ⟨true, .continuation, str "changed"⟩]
    let wire := ([0x01, 6] ++ str "state_") ++ (([0x89, 7] ++ str "auth_ok") ++
      (([0x80, 7] ++ str "changed") ++ []))
    Sends none frames [str "state_changed"] ∧ Encodes frames wire ∧
    handed wire = [str "state_", str "auth_ok", str "changed"] ∧
    ¬ ∃ bytes ∈ sentFrames [] (fun _ => []) wire,
      ∃ mask, IsFrame true 0 Opcode.pong.code mask (str "auth_ok") bytes := by
  intro frames wire
  have hfirst : IsFrame false 0 1 none (str "state_") ([0x01, 6] ++ str "state_") :=
    ⟨by decide, by decide, 6, [], .short (by decide), by decide⟩
  have hping : IsFrame true 0 9 none (str "auth_ok") ([0x89, 7] ++ str "auth_ok") :=
    ⟨by decide, by decide, 7, [], .short (by decide), by decide⟩
  have hlast : IsFrame true 0 0 none (str "changed") ([0x80, 7] ++ str "changed") :=
    ⟨by decide, by decide, 7, [], .short (by decide), by decide⟩
  have hwire : Encodes frames wire := .cons hfirst (.cons hping (.cons hlast .nil))
  refine ⟨.first _ (.ping _ (.last _ (.lost none))), hwire, handed_of_encodes hwire, ?_⟩
  rintro ⟨bytes, hmem, mask, hpong⟩
  exact not_pong_of_mem_sentFrames hmem mask _ hpong

end WebSocket

end HaPanel
