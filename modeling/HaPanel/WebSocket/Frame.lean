import HaPanel.Text.BigEndian

/-!
# WebSocket frames

The panel and the Assist pipeline have each an encoder and a decoder of WebSocket frames.
`IsFrame` states the frame format of RFC 6455, with every admissible length encoding, and
`IsMinimalFrame` the frames a sender has to emit.  `frame_codecs_agree` says that both encoders
emit minimal frames, that the panel's decoder takes them apart again, and that both decoders read
the frames of a server alike.
-/

namespace HaPanel

namespace WebSocket

open Text

/-! ### The format -/

/-- A masking key. -/
abbrev Mask := Fin 4 → UInt8

/-- The transformation of the payload: byte `i` is combined with byte `i` modulo 4 of the key. -/
def applyMask (mask : Mask) (payload : Bytes) : Bytes :=
  payload.mapIdx fun i b => b ^^^ mask (Fin.ofNat 4 i)

/-- The 7-bit length field and the extended length of a payload of `n` bytes. -/
inductive LengthCode (n : ℕ) : ℕ → Bytes → Prop where
  | short (h : n ≤ 125) : LengthCode n n []
  | medium {ext : Bytes} (hlen : ext.length = 2) (hn : ofBigEndian ext = n) : LengthCode n 126 ext
  | long {ext : Bytes} (hlen : ext.length = 8) (hn : ofBigEndian ext = n) (hmsb : n < 2 ^ 63) :
    LengthCode n 127 ext

/-- The bytes of a frame with the given length encoding. -/
def frameBytes (fin : Bool) (rsv opcode : ℕ) (mask : Option Mask) (payload : Bytes) (field : ℕ)
    (ext : Bytes) : Bytes :=
  UInt8.ofNat (128 * fin.toNat + 16 * rsv + opcode) ::
    UInt8.ofNat (128 * mask.isSome.toNat + field) :: (ext ++ (match mask with
    | none => payload
    | some key => List.ofFn key ++ applyMask key payload))

/-- The bytes are a frame of RFC 6455. -/
def IsFrame (fin : Bool) (rsv opcode : ℕ) (mask : Option Mask) (payload bytes : Bytes) : Prop :=
  rsv < 8 ∧ opcode < 16 ∧ ∃ field ext, LengthCode payload.length field ext ∧
    bytes = frameBytes fin rsv opcode mask payload field ext

/-- The bytes are a frame without reserved bits, and no encoding of its length is shorter. -/
def IsMinimalFrame (fin : Bool) (opcode : ℕ) (mask : Option Mask) (payload bytes : Bytes) : Prop :=
  opcode < 16 ∧ ∃ field ext, LengthCode payload.length field ext ∧
    (∀ field' ext', LengthCode payload.length field' ext' → ext.length ≤ ext'.length) ∧
    bytes = frameBytes fin 0 opcode mask payload field ext

/-! ### The encoders -/

/-- The bytes `send_ws_frame` writes, when its random bytes are `mask`. -/
def sendWsFrame (opcode : UInt8) (payload : Bytes) (mask : Mask) : Bytes :=
  let size := payload.length
  let header :=
    if size ≤ 125 then [0x80 ||| UInt8.ofNat size]
    else if size ≤ 65535 then
      [0x80 ||| 126, UInt8.ofNat (size >>> 8 &&& 0xFF), UInt8.ofNat (size &&& 0xFF)]
    else
      (0x80 ||| 127) ::
        [56, 48, 40, 32, 24, 16, 8, 0].map fun shift => UInt8.ofNat (size >>> shift &&& 0xFF)
  (0x80 ||| opcode) :: (header ++ (List.ofFn mask ++
    payload.mapIdx fun i b => b ^^^ mask (Fin.ofNat 4 i)))

/-- The key `ws_encode_frame` always uses. -/
def fixedMask : Mask
  | 0 => 0x12
  | 1 => 0x34
  | 2 => 0x56
  | 3 => 0x78

def wsEncodeFrame (message : Bytes) : Bytes :=
  let len := message.length
  let header :=
    if len ≤ 125 then [0x80 ||| UInt8.ofNat len]
    else if len ≤ 65535 then
      [0x80 ||| 126, UInt8.ofNat (len >>> 8 &&& 0xFF), UInt8.ofNat (len &&& 0xFF)]
    else
      (0x80 ||| 127) ::
        [7, 6, 5, 4, 3, 2, 1, 0].map fun i => UInt8.ofNat (len >>> (i * 8) &&& 0xFF)
  0x81 :: (header ++ (List.ofFn fixedMask ++
    message.mapIdx fun i b => b ^^^ fixedMask (Fin.ofNat 4 i)))

/-! ### The decoders -/

/-- `ws_read_bytes_mbed` and `ssl_read_all` on a source that delivers the bytes it has: `size`
bytes and the rest. -/
def readBytes (size : ℕ) (s : Bytes) : Option (Bytes × Bytes) :=
  if s.length < size then none else some (s.take size, s.drop size)

/-- The length of the payload from the 7-bit field, and the rest; both decoders read it alike. -/
def readLength (field : ℕ) (s : Bytes) : Option (ℕ × Bytes) :=
  if field = 126 then (readBytes 2 s).map fun r => (shiftIn r.1, r.2)
  else if field = 127 then (readBytes 8 s).map fun r => (shiftIn r.1, r.2)
  else some (field, s)

/-- `ws_read_frame_mbed`: the payload and the unread bytes. -/
def wsReadFrameMbed (s : Bytes) : Option (Bytes × Bytes) := do
  let (hdr, s) ← readBytes 2 s
  let maskLen := hdr.getD 1 0
  let hasMask := maskLen &&& 0x80 != 0
  let (len, s) ← readLength (maskLen &&& 0x7F).toNat s
  let (maskKey, s) ← if hasMask then readBytes 4 s else some ([0, 0, 0, 0], s)
  let (payload, s) ← readBytes len s
  if hasMask then some (payload.mapIdx fun i b => b ^^^ maskKey.getD (i % 4) 0, s)
  else some (payload, s)

/-- `read_ws_frame`: the opcode, the payload and the unread bytes. -/
def readWsFrame (s : Bytes) : Option (UInt8 × Bytes × Bytes) := do
  let (header, s) ← readBytes 2 s
  let opcode := header.getD 0 0 &&& 0x0F
  let (size, s) ← readLength (header.getD 1 0 &&& 0x7F).toNat s
  if size > 1024 * 1024 then none
  else
    let (payload, s) ← readBytes size s
    some (opcode, payload, s)

/-! ### Encoding -/

/-- The shortest length encoding. -/
def lengthCode (n : ℕ) : ℕ × Bytes :=
  if n ≤ 125 then (n, []) else if n ≤ 65535 then (126, bigEndian 2 n) else (127, bigEndian 8 n)

theorem lengthCode_valid {n : ℕ} (h : n < 2 ^ 63) :
    LengthCode n (lengthCode n).1 (lengthCode n).2 := by
  unfold lengthCode
  split_ifs with h₁ h₂
  · exact .short h₁
  · exact .medium (length_bigEndian 2 n) (ofBigEndian_bigEndian (by omega))
  · exact .long (length_bigEndian 8 n) (ofBigEndian_bigEndian (by omega)) h

theorem lengthCode_minimal {n field : ℕ} {ext : Bytes} (h : LengthCode n field ext) :
    (lengthCode n).2.length ≤ ext.length := by
  cases h with
  | short h => simp [lengthCode, h]
  | medium hlen hn =>
    have hlt := ofBigEndian_lt ext
    rw [hlen, hn] at hlt
    have hle : n ≤ 65535 := by omega
    unfold lengthCode
    split_ifs <;> simp [hlen]
  | long hlen hn hmsb =>
    unfold lengthCode
    split_ifs <;> simp [hlen]

theorem ofNat_shiftRight (n s : ℕ) :
    UInt8.ofNat (n >>> s &&& 0xFF) = UInt8.ofNat (n / 2 ^ s) := by
  have hand : n >>> s &&& 0xFF = n / 2 ^ s % 2 ^ 8 := by
    rw [Nat.shiftRight_eq_div_pow]
    exact Nat.and_two_pow_sub_one_eq_mod _ 8
  rw [hand, ← UInt8.toNat_inj, UInt8.toNat_ofNat', UInt8.toNat_ofNat', Nat.mod_mod]

theorem ofNat_or_short : ∀ n ≤ 125, 0x80 ||| UInt8.ofNat n = UInt8.ofNat (128 + n) := by
  decide +kernel

theorem or_opcode : ∀ n < 16, 0x80 ||| UInt8.ofNat n = UInt8.ofNat (128 + n) := by
  decide +kernel

/-- Both encoders write the shortest length encoding. -/
theorem sendWsFrame_eq {opcode : ℕ} (hop : opcode < 16) (payload : Bytes) (mask : Mask) :
    sendWsFrame (UInt8.ofNat opcode) payload mask =
      frameBytes true 0 opcode (some mask) payload (lengthCode payload.length).1
        (lengthCode payload.length).2 := by
  have hzero := ofNat_shiftRight payload.length 0
  rw [Nat.shiftRight_zero] at hzero
  unfold sendWsFrame frameBytes lengthCode
  simp only [or_opcode opcode hop]
  split_ifs with h₁ h₂
  · simp [ofNat_or_short _ h₁, applyMask]
  · have hfield : (0x80 ||| 126 : UInt8) = 254 := by decide
    simp only [ofNat_shiftRight, hzero, hfield, bigEndian]
    simp [applyMask]
  · have hfield : (0x80 ||| 127 : UInt8) = 255 := by decide
    simp only [List.map_cons, List.map_nil, ofNat_shiftRight, hfield, bigEndian]
    simp [applyMask]

theorem wsEncodeFrame_eq (message : Bytes) :
    wsEncodeFrame message = sendWsFrame 1 message fixedMask := by
  unfold wsEncodeFrame sendWsFrame
  rfl

/-! ### Decoding -/

theorem readBytes_append {size : ℕ} {bs : Bytes} (h : bs.length = size) (s : Bytes) :
    readBytes size (bs ++ s) = some (bs, s) := by
  subst h
  simp [readBytes]

/-- Every length encoding is understood. -/
theorem readLength_append {n field : ℕ} {ext : Bytes} (h : LengthCode n field ext) (s : Bytes) :
    readLength field (ext ++ s) = some (n, s) := by
  cases h with
  | short h => simp [readLength, show n ≠ 126 by omega, show n ≠ 127 by omega]
  | medium hlen hn =>
    have hshift : shiftIn ext = n := by rw [shiftIn_eq_ofBigEndian (by omega), hn]
    rw [readLength, if_pos rfl, readBytes_append hlen, Option.map_some, hshift]
  | long hlen hn hmsb =>
    have hshift : shiftIn ext = n := by rw [shiftIn_eq_ofBigEndian (by omega), hn]
    rw [readLength, if_neg (by decide), if_pos rfl, readBytes_append hlen, Option.map_some, hshift]

theorem field_lt {n field : ℕ} {ext : Bytes} (h : LengthCode n field ext) : field < 128 := by
  cases h <;> omega

/-- The two parts of the second byte. -/
theorem second_byte : ∀ masked : Bool, ∀ field < 128,
    (UInt8.ofNat (128 * masked.toNat + field) &&& 0x80 != 0) = masked ∧
      (UInt8.ofNat (128 * masked.toNat + field) &&& 0x7F).toNat = field := by
  decide +kernel

/-- Masking twice gives the payload back. -/
theorem unmask_applyMask (mask : Mask) (payload : Bytes) :
    ((applyMask mask payload).mapIdx fun i b => b ^^^ (List.ofFn mask).getD (i % 4) 0) =
      payload := by
  have hkey : ∀ i, (List.ofFn mask).getD (i % 4) 0 = mask (Fin.ofNat 4 i) := by
    intro i
    have hi : i % 4 < (List.ofFn mask).length := by
      rw [List.length_ofFn]
      exact Nat.mod_lt _ (by decide)
    rw [List.getD_eq_getElem?_getD, List.getElem?_eq_getElem hi, Option.getD_some,
      List.getElem_ofFn]
    rfl
  refine List.ext_getElem (by simp [applyMask]) fun i h₁ h₂ => ?_
  simp only [applyMask, List.getElem_mapIdx, hkey, UInt8.xor_assoc, UInt8.xor_self, UInt8.xor_zero]

theorem readBytes_two (b₀ b₁ : UInt8) (s : Bytes) :
    readBytes 2 (b₀ :: b₁ :: s) = some ([b₀, b₁], s) :=
  readBytes_append (rfl : [b₀, b₁].length = 2) s

theorem wsReadFrameMbed_unmasked {b₀ b₁ : UInt8} {field : ℕ} {ext payload : Bytes}
    (hmask : (b₁ &&& 0x80 != 0) = false) (hfield : (b₁ &&& 0x7F).toNat = field)
    (hcode : LengthCode payload.length field ext) (rest : Bytes) :
    wsReadFrameMbed (b₀ :: b₁ :: (ext ++ (payload ++ rest))) = some (payload, rest) := by
  have hread := readLength_append hcode (payload ++ rest)
  have hpay := readBytes_append (rfl : payload.length = payload.length) rest
  simp only [wsReadFrameMbed, readBytes_two, Option.bind_eq_bind, Option.bind_some,
    List.getD_cons_succ, List.getD_cons_zero, hmask, hfield, hread, hpay, Bool.false_eq_true,
    if_false]

theorem wsReadFrameMbed_masked {b₀ b₁ : UInt8} {field : ℕ} {ext payload : Bytes} (key : Mask)
    (hmask : (b₁ &&& 0x80 != 0) = true) (hfield : (b₁ &&& 0x7F).toNat = field)
    (hcode : LengthCode payload.length field ext) (rest : Bytes) :
    wsReadFrameMbed (b₀ :: b₁ :: (ext ++ (List.ofFn key ++ (applyMask key payload ++ rest)))) =
      some (payload, rest) := by
  have hread := readLength_append hcode (List.ofFn key ++ (applyMask key payload ++ rest))
  have hkey := readBytes_append (List.length_ofFn : (List.ofFn key).length = 4)
    (applyMask key payload ++ rest)
  have hlen : (applyMask key payload).length = payload.length := by simp [applyMask]
  have hpay := readBytes_append hlen rest
  simp only [wsReadFrameMbed, readBytes_two, Option.bind_eq_bind, Option.bind_some,
    List.getD_cons_succ, List.getD_cons_zero, hmask, hfield, hread, hkey, hpay, if_true,
    unmask_applyMask]

/-- **The panel's decoder reads every frame**, masked or not. -/
theorem wsReadFrameMbed_frame {fin : Bool} {rsv opcode : ℕ} {mask : Option Mask}
    {payload bytes : Bytes} (h : IsFrame fin rsv opcode mask payload bytes) (rest : Bytes) :
    wsReadFrameMbed (bytes ++ rest) = some (payload, rest) := by
  obtain ⟨-, -, field, ext, hcode, rfl⟩ := h
  obtain ⟨hmask, hfield⟩ := second_byte mask.isSome field (field_lt hcode)
  cases mask with
  | none =>
    simp only [frameBytes, List.cons_append, List.append_assoc]
    exact wsReadFrameMbed_unmasked hmask hfield hcode rest
  | some key =>
    simp only [frameBytes, List.cons_append, List.append_assoc]
    exact wsReadFrameMbed_masked key hmask hfield hcode rest

theorem first_byte : ∀ fin : Bool, ∀ rsv < 8, ∀ opcode < 16,
    UInt8.ofNat (128 * fin.toNat + 16 * rsv + opcode) &&& 0x0F = UInt8.ofNat opcode := by
  decide +kernel

/-- **The decoder of the pipeline reads every frame without a mask** of at most 1 MiB. -/
theorem readWsFrame_frame {fin : Bool} {rsv opcode : ℕ} {payload bytes : Bytes}
    (h : IsFrame fin rsv opcode none payload bytes) (hsize : payload.length ≤ 1024 * 1024)
    (rest : Bytes) :
    readWsFrame (bytes ++ rest) = some (UInt8.ofNat opcode, payload, rest) := by
  obtain ⟨hrsv, hop, field, ext, hcode, rfl⟩ := h
  have hopcode := first_byte fin rsv hrsv opcode hop
  have hfield := (second_byte false field (field_lt hcode)).2
  have hread := readLength_append hcode (payload ++ rest)
  have hpay := readBytes_append (rfl : payload.length = payload.length) rest
  simp only [readWsFrame, frameBytes, List.cons_append, List.append_assoc, readBytes_two,
    Option.bind_eq_bind, Option.bind_some, List.getD_cons_succ, List.getD_cons_zero, hopcode,
    Option.isSome_none, hfield, hread, hpay, Nat.not_lt.mpr hsize, gt_iff_lt, if_false]

/-! ### The codecs together -/

theorem IsMinimalFrame.isFrame {fin : Bool} {opcode : ℕ} {mask : Option Mask}
    {payload bytes : Bytes} (h : IsMinimalFrame fin opcode mask payload bytes) :
    IsFrame fin 0 opcode mask payload bytes := by
  obtain ⟨hop, field, ext, hcode, -, hbytes⟩ := h
  exact ⟨by decide, hop, field, ext, hcode, hbytes⟩

theorem sendWsFrame_isMinimalFrame {opcode : ℕ} (hop : opcode < 16) {payload : Bytes}
    (hlen : payload.length < 2 ^ 63) (mask : Mask) :
    IsMinimalFrame true opcode (some mask) payload
      (sendWsFrame (UInt8.ofNat opcode) payload mask) :=
  ⟨hop, _, _, lengthCode_valid hlen, fun _ _ h => lengthCode_minimal h,
    sendWsFrame_eq hop payload mask⟩

/-- **The frame codecs agree.**  Both encoders emit minimal frames, which the panel's decoder takes
apart again whatever follows; with the same key and opcode they emit the same bytes; and both
decoders read the frames of a server alike. -/
theorem frame_codecs_agree :
    (∀ (payload : Bytes) (mask : Mask) (opcode : ℕ) (rest : Bytes), payload.length < 2 ^ 63 →
      opcode < 16 →
      IsMinimalFrame true opcode (some mask) payload
          (sendWsFrame (UInt8.ofNat opcode) payload mask) ∧
        wsReadFrameMbed (sendWsFrame (UInt8.ofNat opcode) payload mask ++ rest) =
          some (payload, rest)) ∧
    (∀ payload rest : Bytes, payload.length < 2 ^ 63 →
      IsMinimalFrame true 1 (some fixedMask) payload (wsEncodeFrame payload) ∧
        wsReadFrameMbed (wsEncodeFrame payload ++ rest) = some (payload, rest)) ∧
    (∀ payload : Bytes, sendWsFrame 1 payload fixedMask = wsEncodeFrame payload) ∧
    ∀ (fin : Bool) (rsv opcode : ℕ) (payload bytes rest : Bytes),
      IsFrame fin rsv opcode none payload bytes → payload.length ≤ 1024 * 1024 →
      wsReadFrameMbed (bytes ++ rest) = some (payload, rest) ∧
        readWsFrame (bytes ++ rest) = some (UInt8.ofNat opcode, payload, rest) := by
  refine ⟨?_, ?_, ?_, ?_⟩
  · intro payload mask opcode rest hlen hop
    have h := sendWsFrame_isMinimalFrame hop hlen mask
    exact ⟨h, wsReadFrameMbed_frame h.isFrame rest⟩
  · intro payload rest hlen
    have h := sendWsFrame_isMinimalFrame (by decide : 1 < 16) hlen fixedMask
    rw [wsEncodeFrame_eq]
    exact ⟨h, wsReadFrameMbed_frame h.isFrame rest⟩
  · intro payload
    exact (wsEncodeFrame_eq payload).symm
  · intro fin rsv opcode payload bytes rest h hsize
    exact ⟨wsReadFrameMbed_frame h rest, readWsFrame_frame h hsize rest⟩

/-- A ping of the panel, and a text message of a server with reserved bits and a length encoding
longer than necessary. -/
theorem ping_and_message_frames :
    wsReadFrameMbed (sendWsFrame 9 (str "hi") fixedMask ++ [1]) = some (str "hi", [1]) ∧
      readWsFrame ([0xC1, 126, 0, 2] ++ str "hi" ++ [1]) = some (1, str "hi", [1]) := by
  refine ⟨(frame_codecs_agree.1 (str "hi") fixedMask 9 [1] (by decide) (by decide)).2, ?_⟩
  have hframe : IsFrame true 4 1 none (str "hi") ([0xC1, 126, 0, 2] ++ str "hi") :=
    ⟨by decide, by decide, 126, [0, 2], .medium rfl rfl, by decide⟩
  exact (frame_codecs_agree.2.2.2 true 4 1 (str "hi") _ [1] hframe (by decide)).2

end WebSocket

end HaPanel
