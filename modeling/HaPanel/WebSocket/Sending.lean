import HaPanel.Data.Transfer
import HaPanel.WebSocket.Messages

/-!
# Sending frames

`mbedtls_ssl_write` need not take all the bytes it is given.  `send_ws_frame` goes on with the rest
until all is taken, a call fails or time is up (`ssl_write_all`), and it returns whether all was
taken; `ws_send_frame_mbed` makes one call and forgets what it returned.

A `Sending` is a call of one of the two, with what the TLS layer does in it.  `handed_eq_bytes_iff`
says when the frame goes over whole.
-/

namespace HaPanel

namespace WebSocket

open Text Transfer

/-! ### The senders -/

/-- `ws_send_frame_mbed`: the bytes that the TLS layer takes. -/
def wsSendFrameMbed (result : Result) (message : Bytes) : Bytes :=
  write result (wsEncodeFrame message)

/-- `ssl_write_all`: the bytes that the TLS layer takes, and what is returned.  The results are
those of the calls up to the deadline. -/
def sslWriteAll (results : List Result) (data : Bytes) : Bytes × Bool := writeAll results data

/-- The frame of `send_ws_frame` before the masking key. -/
def frameHeader (opcode : UInt8) (size : ℕ) : Bytes :=
  (0x80 ||| opcode) ::
    if size ≤ 125 then [0x80 ||| UInt8.ofNat size]
    else if size ≤ 65535 then
      [0x80 ||| 126, UInt8.ofNat (size >>> 8 &&& 0xFF), UInt8.ofNat (size &&& 0xFF)]
    else
      (0x80 ||| 127) ::
        [56, 48, 40, 32, 24, 16, 8, 0].map fun shift => UInt8.ofNat (size >>> shift &&& 0xFF)

/-- What the random generator and the TLS layer do in a call of `send_ws_frame`. -/
structure Attempt where
  /-- The masking key, unless the generator fails. -/
  mask : Option Mask
  results : List Result

/-- `send_ws_frame`: the bytes that the TLS layer takes, and what is returned. -/
def Attempt.sendWsFrame (a : Attempt) (opcode : UInt8) (payload : Bytes) : Bytes × Bool :=
  match a.mask with
  | none => ([], false)
  | some mask => sslWriteAll a.results (WebSocket.sendWsFrame opcode payload mask)

/-- The frame as far as it is built. -/
def Attempt.frame (a : Attempt) (opcode : UInt8) (payload : Bytes) : Bytes :=
  match a.mask with
  | none => frameHeader opcode payload.length
  | some mask => WebSocket.sendWsFrame opcode payload mask

/-! ### A call of a sender -/

inductive Sending where
  /-- A call of `ws_send_frame_mbed`. -/
  | panel (result : Result) (message : Bytes)
  /-- A call of `send_ws_frame`, and whether its caller looks at what it returns. -/
  | bridge (checked : Bool) (attempt : Attempt) (opcode : UInt8) (payload : Bytes)

namespace Sending

/-- The caller learns whether the frame was sent. -/
def checked : Sending → Bool
  | panel _ _ => false
  | bridge checked _ _ _ => checked

/-- The bytes of the frame. -/
def bytes : Sending → Bytes
  | panel _ message => wsEncodeFrame message
  | bridge _ attempt opcode payload => attempt.frame opcode payload

/-- The bytes that the TLS layer takes. -/
def handed : Sending → Bytes
  | panel result message => wsSendFrameMbed result message
  | bridge _ attempt opcode payload => (attempt.sendWsFrame opcode payload).1

/-- The results of the TLS layer have room for the frame: the one result in `ws_send_frame_mbed`,
and all up to a failure in `send_ws_frame`, which also needs a masking key. -/
def covered : Sending → Bool
  | panel result message => (wsEncodeFrame message).length ≤ result.room
  | bridge _ attempt opcode payload =>
    match attempt.mask with
    | none => false
    | some mask => (sendWsFrame opcode payload mask).length ≤ room attempt.results

/-- `send_ws_frame` with a masking key hands over what there is room for. -/
theorem sendWsFrame_some (mask : Mask) (results : List Result) (opcode : UInt8) (payload : Bytes) :
    (Attempt.mk (some mask) results).sendWsFrame opcode payload =
      ((sendWsFrame opcode payload mask).take (room results),
        decide ((sendWsFrame opcode payload mask).length ≤ room results)) :=
  writeAll_eq results (sendWsFrame opcode payload mask)

theorem handed_prefix_bytes (s : Sending) : s.handed <+: s.bytes := by
  cases s with
  | panel result message => exact List.take_prefix _ _
  | bridge checked attempt opcode payload =>
    obtain ⟨mask, results⟩ := attempt
    cases mask with
    | none => exact List.nil_prefix
    | some mask =>
      rw [handed, sendWsFrame_some]
      exact List.take_prefix _ _

theorem handed_eq_bytes_iff (s : Sending) : s.handed = s.bytes ↔ s.covered = true := by
  cases s with
  | panel result message =>
    rw [handed, bytes, covered, wsSendFrameMbed, write, List.take_eq_self_iff, decide_eq_true_eq]
  | bridge checked attempt opcode payload =>
    obtain ⟨mask, results⟩ := attempt
    cases mask with
    | none => exact iff_of_false (List.cons_ne_nil _ _).symm Bool.false_ne_true
    | some mask =>
      rw [handed, sendWsFrame_some, covered, decide_eq_true_eq]
      exact List.take_eq_self_iff _

/-- `send_ws_frame` says whether the frame went over whole. -/
theorem sendWsFrame_snd (checked : Bool) (attempt : Attempt) (opcode : UInt8) (payload : Bytes) :
    (attempt.sendWsFrame opcode payload).2 = (bridge checked attempt opcode payload).covered := by
  obtain ⟨mask, results⟩ := attempt
  cases mask with
  | none => rfl
  | some mask =>
    rw [sendWsFrame_some]
    rfl

end Sending

theorem orderly_iff_covered (log : List Sending) :
    Orderly Sending.bytes Sending.handed log ↔ ∀ s ∈ log.dropLast, s.covered = true := by
  rw [orderly_iff Sending.handed_prefix_bytes]
  exact forall₂_congr fun s _ => s.handed_eq_bytes_iff

/-! ### The panel -/

/-- The texts that are sent. -/
def texts (effects : List Effect) : List Bytes :=
  effects.filterMap fun
    | .send message => some message
    | _ => none

/-- The calls of `ws_send_frame_mbed` in the reading loop of `ws_thread_loop`, on a connection on
which it gets these messages; `results k` is what `mbedtls_ssl_write` returns to the one after `k`
others. -/
def panelLog (token : Bytes) (controls : Fin 2 → Bytes) (results : ℕ → Result)
    (messages : List Bytes) : List Sending :=
  (texts (messages.flatMap (dispatch token controls))).mapIdx fun k message =>
    .panel (results k) message

end WebSocket

end HaPanel
