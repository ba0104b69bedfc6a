import HaPanel.Data.Intake
import HaPanel.WebSocket.Messages

/-!
# Receiving frames

`mbedtls_ssl_read` delivers the bytes of a connection in parts of any size.  `ws_read_bytes_mbed` and
`ssl_read_all` go on until they have what they were asked for; the first fails when a call delivers
nothing, the second calls again until its deadline.  What the calls return is in a `Source`; a call
that delivers nothing after the deadline counts as an error.

`frames_received_in_order` : whatever the parts are and wherever the connection is lost, both
receivers have read the first frames of the server as they were sent, and patient calls deliver all
that have arrived.
-/

namespace HaPanel

namespace WebSocket

open Text Transfer

/-! ### The receivers -/

/-- A TLS connection: what the server sends, and what `mbedtls_ssl_read` returns. -/
abbrev Tls := Source UInt8

def wsReadBytesMbed (len : ℕ) (tls : Tls) : Option (Bytes × Tls) := tls.read false len

def sslReadAll (size : ℕ) (tls : Tls) : Option (Bytes × Tls) := tls.read true size

/-- The length of the payload from the 7-bit field, which both read alike. -/
def lengthFrom (read : ℕ → Tls → Option (Bytes × Tls)) (field : ℕ) (tls : Tls) : Option (ℕ × Tls) :=
  if field = 126 then (read 2 tls).bind fun r => some (shiftIn r.1, r.2)
  else if field = 127 then (read 8 tls).bind fun r => some (shiftIn r.1, r.2)
  else some (field, tls)

/-- `ws_read_frame_mbed` on a connection: the payload. -/
def receiveFrameMbed (tls : Tls) : Option (Bytes × Tls) := do
  let (hdr, tls) ← wsReadBytesMbed 2 tls
  let maskLen := hdr.getD 1 0
  let hasMask := maskLen &&& 0x80 != 0
  let (len, tls) ← lengthFrom wsReadBytesMbed (maskLen &&& 0x7F).toNat tls
  let (maskKey, tls) ← if hasMask then wsReadBytesMbed 4 tls else some ([0, 0, 0, 0], tls)
  let (payload, tls) ← wsReadBytesMbed len tls
  if hasMask then some (payload.mapIdx fun i b => b ^^^ maskKey.getD (i % 4) 0, tls)
  else some (payload, tls)

/-- `read_ws_frame` on a connection: the opcode and the payload. -/
def receiveWsFrame (tls : Tls) : Option ((UInt8 × Bytes) × Tls) := do
  let (header, tls) ← sslReadAll 2 tls
  let opcode := header.getD 0 0 &&& 0x0F
  let (size, tls) ← lengthFrom sslReadAll (header.getD 1 0 &&& 0x7F).toNat tls
  if size > 1024 * 1024 then none
  else
    let (payload, tls) ← sslReadAll size tls
    some ((opcode, payload), tls)

/-- `read_ws_frame` on a stream, with the opcode and the payload together. -/
def readOpcodeFrame (s : Bytes) : Option ((UInt8 × Bytes) × Bytes) :=
  (readWsFrame s).map fun r => ((r.1, r.2.1), r.2.2)

/-! ### The receivers and the stream -/

theorem readBytes_eq_readWhole (size : ℕ) (s : Bytes) : readBytes size s = readWhole size s := rfl

theorem readLength_eq_bind (field : ℕ) (s : Bytes) :
    readLength field s =
      if field = 126 then (readWhole 2 s).bind fun r => some (shiftIn r.1, r.2)
      else if field = 127 then (readWhole 8 s).bind fun r => some (shiftIn r.1, r.2)
      else some (field, s) := by
  rw [readLength, Option.map_eq_bind, Option.map_eq_bind]
  rfl

theorem sound_lengthFrom (retries : Bool) (field : ℕ) (tls : Tls) :
    Sound (lengthFrom (fun size tls => tls.read retries size) field tls)
      (readLength field tls.stream) := by
  rw [readLength_eq_bind, lengthFrom]
  split_ifs
  · exact (sound_read retries 2 tls).bind fun b s => .some _ s
  · exact (sound_read retries 8 tls).bind fun b s => .some _ s
  · exact .some field tls

theorem sound_receiveFrameMbed (tls : Tls) :
    Sound (receiveFrameMbed tls) (wsReadFrameMbed tls.stream) := by
  refine (sound_read false 2 tls).bind fun hdr tls => ?_
  refine (sound_lengthFrom false _ tls).bind fun len tls => ?_
  -- with a mask there is one more read, that of the key
  by_cases hmask : hdr.getD 1 0 &&& 0x80 != 0
  · simp only [hmask, if_true]
    refine (sound_read false 4 tls).bind fun key tls => ?_
    exact (sound_read false len tls).bind fun payload tls => .some _ tls
  · simp only [hmask]
    exact (sound_read false len tls).bind fun payload tls => .some _ tls

theorem readOpcodeFrame_eq_bind (s : Bytes) :
    readOpcodeFrame s = (readWhole 2 s).bind fun r =>
      (readLength (r.1.getD 1 0 &&& 0x7F).toNat r.2).bind fun l =>
        if l.1 > 1024 * 1024 then none
        else (readWhole l.1 l.2).bind fun p => some ((r.1.getD 0 0 &&& 0x0F, p.1), p.2) := by
  unfold readOpcodeFrame readWsFrame
  simp only [Option.bind_eq_bind, Option.map_bind, readBytes_eq_readWhole]
  refine congrArg _ (funext fun r => ?_)
  rw [Function.comp_apply, Option.map_bind]
  refine congrArg _ (funext fun l => ?_)
  rw [Function.comp_apply]
  split_ifs
  · rfl
  · rw [Option.map_bind]
    rfl

theorem sound_receiveWsFrame (tls : Tls) :
    Sound (receiveWsFrame tls) (readOpcodeFrame tls.stream) := by
  rw [readOpcodeFrame_eq_bind]
  refine (sound_read true 2 tls).bind fun header tls => ?_
  refine (sound_lengthFrom true _ tls).bind fun size tls => ?_
  simp only
  split_ifs
  · exact .none
  · exact (sound_read true size tls).bind fun payload tls => .some _ tls

section

variable {retries : Bool} {tls : Tls}

theorem complete_lengthFrom (h : tls.Patient retries) (field : ℕ) :
    Complete retries (lengthFrom (fun size tls => tls.read retries size) field tls)
      (readLength field tls.stream) := by
  rw [readLength_eq_bind, lengthFrom]
  split_ifs
  · exact (complete_read 2 h).bind fun b s hs => .some _ hs
  · exact (complete_read 8 h).bind fun b s hs => .some _ hs
  · exact .some field h

theorem complete_receiveFrameMbed (h : tls.Patient false) :
    Complete false (receiveFrameMbed tls) (wsReadFrameMbed tls.stream) := by
  refine (complete_read 2 h).bind fun hdr tls h => ?_
  refine (complete_lengthFrom h _).bind fun len tls h => ?_
  by_cases hmask : hdr.getD 1 0 &&& 0x80 != 0
  · simp only [hmask, if_true]
    refine (complete_read 4 h).bind fun key tls h => ?_
    exact (complete_read len h).bind fun payload tls h => .some _ h
  · simp only [hmask]
    exact (complete_read len h).bind fun payload tls h => .some _ h

theorem complete_receiveWsFrame (h : tls.Patient true) :
    Complete true (receiveWsFrame tls) (readOpcodeFrame tls.stream) := by
  rw [readOpcodeFrame_eq_bind]
  refine (complete_read 2 h).bind fun header tls h => ?_
  refine (complete_lengthFrom h _).bind fun size tls h => ?_
  simp only
  split_ifs
  · exact .none
  · exact (complete_read size h).bind fun payload tls h => .some _ h

end

/-! ### More bytes -/

theorem stable_readLength (field : ℕ) : Stable (readLength field) := by
  have hfun : readLength field = fun s =>
      if field = 126 then (readWhole 2 s).bind fun r => some (shiftIn r.1, r.2)
      else if field = 127 then (readWhole 8 s).bind fun r => some (shiftIn r.1, r.2)
      else some (field, s) := funext (readLength_eq_bind field)
  rw [hfun]
  split_ifs
  · exact (stable_readWhole 2).bind fun b => .some (shiftIn b)
  · exact (stable_readWhole 8).bind fun b => .some (shiftIn b)
  · exact .some field

theorem stable_wsReadFrameMbed : Stable wsReadFrameMbed := by
  refine (stable_readWhole 2).bind fun hdr => ?_
  refine (stable_readLength _).bind fun len => ?_
  by_cases hmask : hdr.getD 1 0 &&& 0x80 != 0
  · have hkey : ∀ key : Bytes, Stable fun s => (readWhole len s).bind fun r =>
        some (r.1.mapIdx fun i b => b ^^^ key.getD (i % 4) 0, r.2) := fun key =>
      (stable_readWhole len).bind fun payload =>
        .some (payload.mapIdx fun i b => b ^^^ key.getD (i % 4) 0)
    simp only [hmask, if_true]
    exact (stable_readWhole 4).bind hkey
  · simp only [hmask]
    exact (stable_readWhole len).bind fun payload => .some payload

theorem stable_readOpcodeFrame : Stable readOpcodeFrame := by
  rw [funext readOpcodeFrame_eq_bind]
  refine (stable_readWhole 2).bind fun header => ?_
  simp only
  refine (stable_readLength _).bind fun size => ?_
  simp only
  split_ifs
  · exact .none
  · exact (stable_readWhole size).bind fun payload => .some (header.getD 0 0 &&& 0x0F, payload)

/-! ### The frames of a server -/

/-- What the pipeline's receiver should get from a frame. -/
def ServerFrame.opcodePayload (f : ServerFrame) : UInt8 × Bytes :=
  (UInt8.ofNat f.opcode.code, f.payload)

/-- The frame is not too long for the pipeline. -/
def ServerFrame.Fits (f : ServerFrame) : Prop := f.payload.length ≤ 1024 * 1024

theorem gather_wsReadFrameMbed {frames : List ServerFrame} {wire : Bytes}
    (h : Encodes frames wire) (k : ℕ) :
    gather wsReadFrameMbed k wire = (frames.take k).map ServerFrame.payload := by
  induction h generalizing k with
  | nil => cases k <;> rfl
  | @cons frame bytes frames wire hframe h ih =>
    cases k with
    | zero => rfl
    | succ k =>
      simp only [gather, wsReadFrameMbed_frame hframe wire, ih]
      rfl

theorem gather_readOpcodeFrame {frames : List ServerFrame} {wire : Bytes}
    (h : Encodes frames wire) (hfits : ∀ f ∈ frames, f.Fits) (k : ℕ) :
    gather readOpcodeFrame k wire = (frames.take k).map ServerFrame.opcodePayload := by
  induction h generalizing k with
  | nil => cases k <;> rfl
  | @cons frame bytes frames wire hframe h ih =>
    cases k with
    | zero => rfl
    | succ k =>
      have hread : readOpcodeFrame (bytes ++ wire) = some (frame.opcodePayload, wire) := by
        rw [readOpcodeFrame, readWsFrame_frame hframe (hfits frame List.mem_cons_self) wire]
        rfl
      simp only [gather, hread, ih fun f hf => hfits f (List.mem_cons_of_mem _ hf)]
      rfl

/-- **Frames are received in order and as they were sent.**  Some bytes arrive of those that a server
sends.  Whatever the parts in which they are delivered, and wherever the calls fail, `k` rounds of
each receiver get the first frames of the server, in order and unchanged.  If the calls are patient,
they get every frame that has arrived completely. -/
theorem frames_received_in_order (frames : List ServerFrame) (wire arrived : Bytes)
    (hwire : Encodes frames wire) (harrived : arrived <+: wire) (results : List Result) (k : ℕ) :
    (gather receiveFrameMbed k ⟨results, arrived⟩ <+: frames.map ServerFrame.payload ∧
      ((Source.mk results arrived).Patient false → ∀ first whole, Encodes first whole →
        whole <+: arrived → first.length ≤ k →
        first.map ServerFrame.payload <+: gather receiveFrameMbed k ⟨results, arrived⟩)) ∧
    ((∀ f ∈ frames, f.Fits) →
      gather receiveWsFrame k ⟨results, arrived⟩ <+: frames.map ServerFrame.opcodePayload ∧
      ((Source.mk results arrived).Patient true → ∀ first whole, Encodes first whole →
        (∀ f ∈ first, f.Fits) → whole <+: arrived → first.length ≤ k →
        first.map ServerFrame.opcodePayload <+: gather receiveWsFrame k ⟨results, arrived⟩)) := by
  obtain ⟨lost, rfl⟩ := harrived
  refine ⟨⟨?_, ?_⟩, fun hfits => ⟨?_, ?_⟩⟩
  · calc gather receiveFrameMbed k ⟨results, arrived⟩
      _ <+: gather wsReadFrameMbed k arrived := gather_prefix_of_sound sound_receiveFrameMbed k _
      _ <+: gather wsReadFrameMbed k (arrived ++ lost) :=
        gather_prefix stable_wsReadFrameMbed k arrived lost
      _ = (frames.take k).map ServerFrame.payload := gather_wsReadFrameMbed hwire k
      _ <+: frames.map ServerFrame.payload := (List.take_prefix k frames).map _
  · rintro hpatient first whole hfirst ⟨rest, rfl⟩ hk
    rw [gather_of_complete sound_receiveFrameMbed (fun _ h => complete_receiveFrameMbed h) k hpatient,
      ← List.take_of_length_le hk, ← gather_wsReadFrameMbed hfirst k]
    exact gather_prefix stable_wsReadFrameMbed k whole rest
  · calc gather receiveWsFrame k ⟨results, arrived⟩
      _ <+: gather readOpcodeFrame k arrived := gather_prefix_of_sound sound_receiveWsFrame k _
      _ <+: gather readOpcodeFrame k (arrived ++ lost) :=
        gather_prefix stable_readOpcodeFrame k arrived lost
      _ = (frames.take k).map ServerFrame.opcodePayload := gather_readOpcodeFrame hwire hfits k
      _ <+: frames.map ServerFrame.opcodePayload := (List.take_prefix k frames).map _
  · rintro hpatient first whole hfirst hfit ⟨rest, rfl⟩ hk
    rw [gather_of_complete sound_receiveWsFrame (fun _ h => complete_receiveWsFrame h) k hpatient,
      ← List.take_of_length_le hk, ← gather_readOpcodeFrame hfirst hfit k]
    exact gather_prefix stable_readOpcodeFrame k whole rest

/-- A message that arrives byte by byte, and the first byte of another one. -/
theorem message_and_a_byte_received :
    let tls : Tls := ⟨List.replicate 5 (.count 0), [0x81, 2] ++ str "hi" ++ [0x81]⟩
    ([str "hi"] <+: gather receiveFrameMbed 2 tls ∧
      gather receiveFrameMbed 2 tls <+: [str "hi", []]) ∧
    [(1, str "hi")] <+: gather receiveWsFrame 2 tls ∧
      gather receiveWsFrame 2 tls <+: [(1, str "hi"), (1, [])] := by
  intro tls
  have hhi : IsFrame true 0 1 none (str "hi") ([0x81, 2] ++ str "hi") :=
    ⟨by decide, by decide, 2, [], .short (by decide), by decide⟩
  have hempty : IsFrame true 0 1 none [] [0x81, 0] :=
    ⟨by decide, by decide, 0, [], .short (by decide), by decide⟩
  have hfirst : Encodes [⟨true, .text, str "hi"⟩] (([0x81, 2] ++ str "hi") ++ []) :=
    .cons hhi .nil
  have hwire : Encodes [⟨true, .text, str "hi"⟩, ⟨true, .text, []⟩]
      (([0x81, 2] ++ str "hi") ++ ([0x81, 0] ++ [])) := .cons hhi (.cons hempty .nil)
  have hpatient : ∀ retries, tls.Patient retries := fun retries =>
    ⟨by decide, fun h => absurd h (by decide), by decide⟩
  have hfit : ∀ f ∈ [(⟨true, .text, str "hi"⟩ : ServerFrame)], f.Fits := by
    intro f hf
    rw [List.mem_singleton.mp hf]
    show (2 : ℕ) ≤ 1024 * 1024
    decide
  have hfits : ∀ f ∈ [(⟨true, .text, str "hi"⟩ : ServerFrame), ⟨true, .text, []⟩], f.Fits := by
    intro f hf
    rcases List.mem_cons.mp hf with rfl | hf
    · exact hfit _ List.mem_cons_self
    · rw [List.mem_singleton.mp hf]
      exact Nat.zero_le _
  have h := frames_received_in_order _ _ tls.stream hwire ⟨[0], rfl⟩ tls.results 2
  have hwhole : ([0x81, 2] ++ str "hi") ++ [] <+: tls.stream := ⟨[0x81], rfl⟩
  exact ⟨⟨h.1.2 (hpatient false) _ _ hfirst hwhole (by decide), h.1.1⟩,
    (h.2 hfits).2 (hpatient true) _ _ hfirst hfit hwhole (by decide), (h.2 hfits).1⟩

end WebSocket

end HaPanel
