import HaPanel.WebSocket.Frame

/-!
# What a receiver makes of a stream

A receiver of RFC 6455 takes a stream of bytes apart into frames.  `Received` states which frames a
stream consists of.  There is at most one answer (`Received.unique`): a frame says itself where it
ends.
-/

namespace HaPanel

namespace WebSocket

open Text

/-- A frame, without the way in which its length is encoded. -/
@[ext] structure Frame where
  fin : Bool
  rsv : ℕ
  opcode : ℕ
  mask : Option Mask
  payload : Bytes

/-- The bytes are those of the frame. -/
def Frame.Encoded (f : Frame) (bytes : Bytes) : Prop :=
  IsFrame f.fin f.rsv f.opcode f.mask f.payload bytes

/-- The stream consists of the frames. -/
inductive Received : List Frame → Bytes → Prop where
  | nil : Received [] []
  | cons {f : Frame} {bytes : Bytes} {fs : List Frame} {stream : Bytes} (hframe : f.Encoded bytes)
    (h : Received fs stream) : Received (f :: fs) (bytes ++ stream)

/-! ### Frames -/

theorem Frame.Encoded.ne_nil {f : Frame} {bytes : Bytes} (h : f.Encoded bytes) : bytes ≠ [] := by
  obtain ⟨-, -, field, ext, -, rfl⟩ := h
  exact List.cons_ne_nil _ _

theorem eq_of_ofNat_eq {m n : ℕ} (hm : m < 256) (hn : n < 256) (h : UInt8.ofNat m = UInt8.ofNat n) :
    m = n := by
  have hnat := congrArg UInt8.toNat h
  rwa [UInt8.toNat_ofNat_of_lt' hm, UInt8.toNat_ofNat_of_lt' hn] at hnat

theorem bool_eq_of_toNat_eq : ∀ {a b : Bool}, a.toNat = b.toNat → a = b := by
  decide

/-- The parts of the first byte. -/
theorem firstByte_injective {fin fin' : Bool} {rsv rsv' opcode opcode' : ℕ} (hrsv : rsv < 8)
    (hrsv' : rsv' < 8) (hop : opcode < 16) (hop' : opcode' < 16)
    (h : UInt8.ofNat (128 * fin.toNat + 16 * rsv + opcode) =
      UInt8.ofNat (128 * fin'.toNat + 16 * rsv' + opcode')) :
    fin = fin' ∧ rsv = rsv' ∧ opcode = opcode' := by
  have hfin := fin.toNat_lt
  have hfin' := fin'.toNat_lt
  have hnat := eq_of_ofNat_eq (by omega) (by omega) h
  exact ⟨bool_eq_of_toNat_eq (by omega), by omega, by omega⟩

/-- The field says how long the extended length is. -/
theorem length_ext_eq {n field : ℕ} {ext ext' : Bytes} (h : LengthCode n field ext)
    (h' : LengthCode n field ext') : ext.length = ext'.length := by
  cases h with
  | short hn =>
    cases h' with
    | short => rfl
    | medium => omega
    | long => omega
  | medium hlen =>
    cases h' with
    | short => omega
    | medium hlen' => rw [hlen, hlen']
  | long hlen =>
    cases h' with
    | short => omega
    | long hlen' => rw [hlen, hlen']

/-- **A frame says itself what it is and where it ends.** -/
theorem Frame.Encoded.append_inj {f g : Frame} {bytes bytes' rest rest' : Bytes}
    (h : f.Encoded bytes) (h' : g.Encoded bytes') (heq : bytes ++ rest = bytes' ++ rest') :
    f = g ∧ rest = rest' := by
  -- the panel's decoder finds the payload and the end
  have hread := wsReadFrameMbed_frame h rest
  rw [heq, wsReadFrameMbed_frame h' rest'] at hread
  obtain ⟨hpayload, hrest⟩ := Prod.mk.inj (Option.some.inj hread)
  obtain rfl : bytes = bytes' := by rwa [hrest, List.append_left_inj] at heq
  refine ⟨?_, hrest.symm⟩
  obtain ⟨fin, rsv, opcode, mask, payload⟩ := f
  obtain ⟨fin', rsv', opcode', mask', payload'⟩ := g
  obtain ⟨hrsv, hop, field, ext, hcode, hbytes⟩ := h
  obtain ⟨hrsv', hop', field', ext', hcode', hbytes'⟩ := h'
  simp only at hpayload hrsv hop hcode hbytes hrsv' hop' hcode' hbytes'
  subst hpayload
  simp only [hbytes, frameBytes, List.cons.injEq] at hbytes'
  obtain ⟨hfirst, hsecond, htail⟩ := hbytes'
  obtain ⟨rfl, rfl, rfl⟩ := firstByte_injective hrsv hrsv' hop hop' hfirst
  have hsome := mask.isSome.toNat_lt
  have hsome' := mask'.isSome.toNat_lt
  have hfield := field_lt hcode
  have hfield' := field_lt hcode'
  have hnat := eq_of_ofNat_eq (by omega) (by omega) hsecond
  obtain rfl : field = field' := by omega
  have hmasked : mask.isSome = mask'.isSome := bool_eq_of_toNat_eq (by omega)
  obtain ⟨rfl, hdata⟩ := List.append_inj htail (length_ext_eq hcode hcode')
  cases mask with
  | none =>
    cases mask' with
    | none => rfl
    | some key' => cases hmasked
  | some key =>
    cases mask' with
    | none => cases hmasked
    | some key' =>
      have hkeys : List.ofFn key = List.ofFn key' := List.append_inj_left hdata (by simp)
      rw [List.ofFn_injective hkeys]

/-! ### Streams -/

/-- **A stream can be taken apart in one way at most.** -/
theorem Received.unique {fs gs : List Frame} {stream : Bytes} (h : Received fs stream)
    (h' : Received gs stream) : fs = gs := by
  induction h generalizing gs with
  | nil =>
    generalize hempty : ([] : Bytes) = stream at h'
    cases h' with
    | nil => rfl
    | cons hframe h' => exact absurd (List.append_eq_nil_iff.1 hempty.symm).1 hframe.ne_nil
  | @cons f bytes fs stream hframe h ih =>
    generalize hstream : bytes ++ stream = s at h'
    cases h' with
    | nil => exact absurd (List.append_eq_nil_iff.1 hstream).1 hframe.ne_nil
    | cons hframe' h' =>
      obtain ⟨rfl, rfl⟩ := hframe.append_inj hframe' hstream
      rw [ih h']

end WebSocket

end HaPanel
