import HaPanel.Assist.Outcome
import HaPanel.WebSocket.Receiver

/-!
# The audio of a run

When the pipeline has said which handler takes the audio, `assist_pipeline_child_main` sends it in
binary frames of at most 1024 bytes, each with the number of the handler in front, and a frame with
that number alone marks the end.

`audio_submission` : a receiver of the binary frames of a run gets the audio, whole and in order,
and the mark once, at the end.
-/

namespace HaPanel

namespace Assist

open Text Transition WebSocket

/-- The audio has not been sent yet. -/
def Position.isEarly : Position → Bool
  | authRequired | authOk | runResult | runStart => true
  | events | ended _ => false

namespace Child

/-! ### Pieces -/

/-- The loop sends the first 1024 bytes and goes on with the rest. -/
theorem audioChunks_of_ne_nil {audio : Bytes} (h : audio ≠ []) :
    audioChunks audio = audio.take 1024 :: audioChunks (audio.drop 1024) := by
  have hpos : 0 < audio.length := List.length_pos_iff.2 h
  have hcount : (audio.length + 1023) / 1024 = ((audio.drop 1024).length + 1023) / 1024 + 1 := by
    rw [List.length_drop]
    omega
  rw [audioChunks, audioChunks, hcount, List.range_succ_eq_map, List.map_cons, List.map_map]
  refine congrArg₂ List.cons (by rw [Nat.mul_zero, List.drop_zero]) (List.map_congr_left ?_)
  intro k _
  rw [Function.comp_apply, List.drop_drop, Nat.mul_succ, Nat.add_comm]

/-- **The pieces are the audio**, and each of them has at least one byte and at most 1024. -/
theorem audioChunks_spec (audio : Bytes) :
    (audioChunks audio).flatten = audio ∧
      ∀ chunk ∈ audioChunks audio, 1 ≤ chunk.length ∧ chunk.length ≤ 1024 := by
  induction hn : audio.length using Nat.strongRecOn generalizing audio with
  | ind n ih =>
    by_cases h : audio = []
    · subst h
      exact ⟨rfl, fun chunk hchunk => by cases hchunk⟩
    · have hpos : 0 < audio.length := List.length_pos_iff.2 h
      obtain ⟨hflatten, hlen⟩ := ih (audio.drop 1024).length
        (by rw [List.length_drop]; omega) (audio.drop 1024) rfl
      rw [audioChunks_of_ne_nil h]
      refine ⟨by rw [List.flatten_cons, hflatten, List.take_append_drop], ?_⟩
      rw [List.forall_mem_cons]
      refine ⟨?_, hlen⟩
      rw [List.length_take]
      omega

/-! ### Frames of a run -/

/-- The payloads of the binary frames. -/
def binary (c : Child) : List Bytes := (c.sent.filter (·.1 = 0x2)).map Prod.snd

/-- The payloads the audio is sent in. -/
def audioPayloads (handler : UInt8) (audio : Bytes) : List Bytes :=
  (audioChunks audio).map (handler :: ·) ++ [[handler]]

variable {w : Conditions} {c : Child}

theorem cleanup_sent (c : Child) : (c.cleanup w).sent = c.sent := by
  simp only [cleanup, downloadAndPlayTts, finish, setError, report]
  split_ifs <;> rfl

theorem fail_sent (c : Child) (error : Bytes) : (c.fail w error).sent = c.sent :=
  cleanup_sent _

theorem fail_not_early (c : Child) (error : Bytes) :
    (c.fail w error).position.isEarly = false := rfl

theorem endLoop_sent (c : Child) : (c.endLoop w).sent = c.sent := by
  unfold endLoop
  split_ifs
  · exact fail_sent _ _
  · exact cleanup_sent _

theorem endLoop_not_early (c : Child) : (c.endLoop w).position.isEarly = false := by
  unfold endLoop
  split_ifs <;> rfl

/-- After the audio nothing is sent any more but pongs. -/
theorem next_sent_of_late (h : c.position.isEarly = false) (a : Arrival) :
    (c.next w a).sent = c.sent ∧ (c.next w a).position.isEarly = false := by
  cases hpos : c.position with
  | authRequired | authOk | runResult | runStart =>
    rw [hpos] at h
    cases h
  | ended status =>
    simp only [next, hpos]
    exact ⟨trivial, rfl⟩
  | events =>
    simp only [next, hpos]
    cases a with
    | silence => exact ⟨rfl, h⟩
    | deadline => exact ⟨endLoop_sent _, endLoop_not_early _⟩
    | failed left => exact ⟨endLoop_sent _, endLoop_not_early _⟩
    | frame opcode message =>
      simp only [onEvent]
      cases eventKind opcode message with
      | ping | sttEnd | intentEnd | ttsStart | other => exact ⟨rfl, h⟩
      | close | error | ttsEnd => exact ⟨endLoop_sent _, endLoop_not_early _⟩

/-- Before the audio there are no binary frames. -/
def Quiet (c : Child) : Prop := c.position.isEarly = true → c.binary = []

theorem quiet_of_late (h : c.position.isEarly = false) : c.Quiet := by
  intro hearly
  rw [h] at hearly
  cases hearly

theorem quiet_fail (c : Child) (error : Bytes) : (c.fail w error).Quiet :=
  quiet_of_late (fail_not_early c error)

theorem streamAudio_not_early (handler : UInt8) (c : Child) :
    (c.streamAudio w handler).position.isEarly = false := by
  simp only [streamAudio]
  split_ifs <;> rfl

/-- Commands are text frames. -/
theorem Quiet.send (hearly : c.position.isEarly = true) (h : c.Quiet) (payload : Bytes)
    (position : Position) : { (c.send w 0x1 payload).1 with position }.Quiet := by
  have hbinary := h hearly
  intro _
  simp only [binary, Child.send, List.filter_append, List.map_append]
  rw [← binary, hbinary]
  rfl

theorem Quiet.next (h : c.Quiet) (a : Arrival) : (c.next w a).Quiet := by
  cases hpos : c.position with
  | authRequired =>
    have hearly : c.position.isEarly = true := by rw [hpos]; rfl
    simp only [Child.next, hpos, onAuthRequired]
    split
    · exact h
    · split
      · split_ifs
        · exact h.send hearly _ _
        · exact quiet_fail _ _
        · exact quiet_fail _ _
      · exact quiet_fail _ _
  | authOk =>
    have hearly : c.position.isEarly = true := by rw [hpos]; rfl
    simp only [Child.next, hpos, onAuthOk, notStarted]
    split
    · exact h
    · split
      · split_ifs
        · exact h.send hearly _ _
        · exact quiet_fail _ _
        · exact quiet_fail _ _
      · exact quiet_fail _ _
  | runResult =>
    have hearly : c.position.isEarly = true := by rw [hpos]; rfl
    simp only [Child.next, hpos, onRunResult, notStarted]
    split
    · exact h
    · split
      · split_ifs
        · exact fun _ => h hearly
        · exact quiet_fail _ _
      · exact quiet_fail _ _
  | runStart =>
    simp only [Child.next, hpos]
    cases a with
    | silence => exact h
    | failed left => exact quiet_fail _ _
    | deadline => exact quiet_fail _ _
    | frame opcode message =>
      simp only [onRunStart]
      split_ifs
      · exact h
      · exact quiet_fail _ _
      · exact quiet_of_late (streamAudio_not_early _ _)
      · exact h
  | events => exact quiet_of_late (next_sent_of_late (by rw [hpos]; rfl) a).2
  | ended status => exact quiet_of_late (next_sent_of_late (by rw [hpos]; rfl) a).2

theorem quiet_start (w : Conditions) : (start w).Quiet := by
  have hstarts := starts_start w
  generalize start w = c at hstarts
  cases hstarts with
  | refused error => exact quiet_of_late rfl
  | failed error => exact quiet_fail _ _
  | ready => exact fun _ => rfl

theorem quiet_after (w : Conditions) (l : List Arrival) : (after w l).Quiet :=
  run_invariant (fun _ a h => h.next a) (quiet_start w) l

/-- What is sent late stays. -/
theorem run_sent_of_late (h : c.position.isEarly = false) (l : List Arrival) :
    (run (Child.next w) c l).sent = c.sent := by
  have hinv : (run (Child.next w) c l).sent = c.sent ∧
      (run (Child.next w) c l).position.isEarly = false := by
    refine run_invariant (I := fun d : Child => d.sent = c.sent ∧ d.position.isEarly = false) ?_
      ⟨rfl, h⟩ l
    rintro d a ⟨hsent, hlate⟩
    obtain ⟨hsent', hlate'⟩ := next_sent_of_late (w := w) hlate a
    exact ⟨hsent'.trans hsent, hlate'⟩
  exact hinv.1

/-! ### Sending the audio -/

theorem sendChunks_of_ok (hsend : ∀ n, w.sendOk n = true) (handler : UInt8) (c : Child)
    (chunks : List Bytes) : (sendChunks w handler c chunks).2 = true := by
  induction chunks generalizing c with
  | nil => rfl
  | cons chunk chunks ih =>
    simp only [sendChunks, send, hsend, if_true]
    exact ih _

/-- The loop comes to its end only with all of the audio. -/
theorem sendChunks_eq {handler : UInt8} {c : Child} {chunks : List Bytes}
    (h : (sendChunks w handler c chunks).2 = true) :
    (sendChunks w handler c chunks).1 =
      { c with sent := c.sent ++ chunks.map fun chunk => (0x2, handler :: chunk) } := by
  induction chunks generalizing c with
  | nil => simp [sendChunks]
  | cons chunk chunks ih =>
    rw [sendChunks] at h ⊢
    by_cases hsend : (c.send w 0x2 (handler :: chunk)).2 = true
    · rw [if_pos hsend] at h ⊢
      rw [ih h]
      simp [send]
    · rw [if_neg hsend] at h
      cases h

/-- If every frame can be sent, the process goes on to the events. -/
theorem streamAudio_of_ok (hsend : ∀ n, w.sendOk n = true) (handler : UInt8) (c : Child) :
    (c.streamAudio w handler).position = .events := by
  simp [streamAudio, sendChunks_of_ok hsend, send, hsend]

/-- If the process goes on to the events, all of the audio is sent, and the mark. -/
theorem streamAudio_sent {handler : UInt8} {c : Child}
    (h : (c.streamAudio w handler).position = .events) :
    (c.streamAudio w handler).sent =
      c.sent ++ (audioPayloads handler w.audio).map fun payload => (0x2, payload) := by
  unfold streamAudio at h ⊢
  by_cases hchunks : (sendChunks w handler c (audioChunks w.audio)).2 = true
  · by_cases hlast :
        ((sendChunks w handler c (audioChunks w.audio)).1.send w 0x2 [handler]).2 = true
    · simp [hchunks, hlast]
      simp [send, sendChunks_eq hchunks, audioPayloads]
    · simp only [hchunks, hlast, Bool.not_true, Bool.false_eq_true, Bool.not_false, if_true,
        if_false] at h
      cases h
  · simp only [hchunks, Bool.not_false, if_true] at h
    cases h

/-- The bytes of the binary frames, when `masks` are the random keys. -/
def binaryStream (masks : ℕ → Mask) (c : Child) : Bytes :=
  (c.binary.mapIdx fun i payload => sendWsFrame 0x2 payload (masks i)).flatten

end Child

/-! ### What a receiver gets -/

/-- The frames carry the audio to the handler. -/
structure Submits (handler : UInt8) (audio : Bytes) (fs : List WebSocket.Frame) : Prop where
  binary : ∀ f ∈ fs, f.fin = true ∧ f.opcode = 2
  handler : ∀ f ∈ fs, f.payload.head? = some handler
  audio : fs.flatMap (fun f => f.payload.tail) = audio
  pieces : ∀ f ∈ fs.dropLast, 1 ≤ f.payload.tail.length ∧ f.payload.tail.length ≤ 1024
  last : ∃ f ∈ fs.getLast?, f.payload.tail = []

/-- The binary frames with the given payloads and keys. -/
def binaryFrames (masks : ℕ → Mask) (payloads : List Bytes) : List WebSocket.Frame :=
  payloads.mapIdx fun i payload => ⟨true, 0, 2, some (masks i), payload⟩

theorem length_audioPayloads_lt (handler : UInt8) (audio : Bytes) :
    ∀ payload ∈ Child.audioPayloads handler audio, payload.length < 2 ^ 63 := by
  intro payload hpayload
  rcases List.mem_append.1 hpayload with hchunk | hmark
  · obtain ⟨chunk, hmem, heq⟩ := List.mem_map.1 hchunk
    have hlen := (Child.audioChunks_spec audio).2 chunk hmem
    rw [← heq, List.length_cons]
    omega
  · rw [List.mem_singleton.1 hmark, List.length_singleton]
    decide

theorem received_binaryFrames (masks : ℕ → Mask) {payloads : List Bytes}
    (h : ∀ payload ∈ payloads, payload.length < 2 ^ 63) :
    Received (binaryFrames masks payloads)
      (payloads.mapIdx fun i payload => sendWsFrame 0x2 payload (masks i)).flatten := by
  induction payloads generalizing masks with
  | nil => exact .nil
  | cons payload payloads ih =>
    rw [List.forall_mem_cons] at h
    rw [binaryFrames, List.mapIdx_cons, List.mapIdx_cons, List.flatten_cons]
    have hop : (2 : UInt8).toNat < 16 := by decide
    have hframe := sendWsFrame_isMinimalFrame hop h.1 (masks 0)
    exact .cons hframe.isFrame (ih (fun i => masks (i + 1)) h.2)

theorem map_payload_binaryFrames (masks : ℕ → Mask) (payloads : List Bytes) :
    (binaryFrames masks payloads).map WebSocket.Frame.payload = payloads := by
  induction payloads generalizing masks with
  | nil => rfl
  | cons payload payloads ih =>
    rw [binaryFrames, List.mapIdx_cons, List.map_cons]
    exact congrArg (payload :: ·) (ih fun i => masks (i + 1))

theorem binaryFrames_concat (masks : ℕ → Mask) (payloads : List Bytes) (payload : Bytes) :
    binaryFrames masks (payloads ++ [payload]) =
      binaryFrames masks payloads ++ [⟨true, 0, 2, some (masks payloads.length), payload⟩] := by
  rw [binaryFrames, List.mapIdx_append, List.mapIdx_singleton, binaryFrames, Nat.zero_add]

theorem mem_binaryFrames {masks : ℕ → Mask} {payloads : List Bytes} {f : WebSocket.Frame}
    (h : f ∈ binaryFrames masks payloads) :
    f.fin = true ∧ f.opcode = 2 ∧ f.payload ∈ payloads := by
  obtain ⟨i, hi, rfl⟩ := List.mem_mapIdx.1 h
  exact ⟨rfl, rfl, List.getElem_mem hi⟩

/-- The frames of the audio carry it. -/
theorem submits_binaryFrames (masks : ℕ → Mask) (handler : UInt8) (audio : Bytes) :
    Submits handler audio (binaryFrames masks (Child.audioPayloads handler audio)) := by
  obtain ⟨hflatten, hlen⟩ := Child.audioChunks_spec audio
  constructor
  case binary =>
    intro f hf
    obtain ⟨hfin, hop, -⟩ := mem_binaryFrames hf
    exact ⟨hfin, hop⟩
  case handler =>
    intro f hf
    obtain ⟨-, -, hpayload⟩ := mem_binaryFrames hf
    rcases List.mem_append.1 hpayload with hchunk | hmark
    · obtain ⟨chunk, -, heq⟩ := List.mem_map.1 hchunk
      rw [← heq, List.head?_cons]
    · rw [List.mem_singleton.1 hmark, List.head?_cons]
  case audio =>
    have hmap := map_payload_binaryFrames masks (Child.audioPayloads handler audio)
    rw [← List.flatMap_map, hmap, Child.audioPayloads, List.flatMap_append, List.flatMap_map]
    simp [List.flatMap_id', hflatten]
  case pieces =>
    intro f hf
    rw [Child.audioPayloads, binaryFrames_concat, List.dropLast_concat] at hf
    obtain ⟨-, -, hpayload⟩ := mem_binaryFrames hf
    obtain ⟨chunk, hchunk, heq⟩ := List.mem_map.1 hpayload
    rw [← heq]
    exact hlen chunk hchunk
  case last =>
    rw [Child.audioPayloads, binaryFrames_concat, List.getLast?_concat]
    exact ⟨_, rfl, rfl⟩

/-! ### The run -/

namespace Child

variable {w : Conditions} {c : Child}

/-- The message names the handler that takes the audio. -/
structure NamesHandler (message : Bytes) (id : ℕ) : Prop where
  start : contains (str "\"type\":\"run-start\"") message = true
  handler : ∀ hnone, (jsonIntAfter message (str "stt_binary_handler_id") ⟨-1, hnone⟩).1 = id
  low : 1 ≤ id
  high : id ≤ 255

theorem next_of_namesHandler (hpos : c.position = .runStart) {opcode : UInt8} (hop : opcode ≠ 0x9)
    {message : Bytes} {id : ℕ} (h : NamesHandler message id) :
    c.next w (.frame opcode message) =
      { c with
        result := { c.result with
          conversationId := jsonStringAfter message (str "conversation_id") } }.streamAudio w
        (UInt8.ofNat id) := by
  obtain ⟨hstart, hid, hlow, hhigh⟩ := h
  simp only [next, hpos, onRunStart, hop, if_false, hstart, if_true, hid]
  rw [if_neg (by omega), Int.toNat_natCast]

/-- What has been sent before is text. -/
theorem binary_streamAudio (hbinary : c.binary = []) {handler : UInt8}
    (h : (c.streamAudio w handler).position = .events) :
    (c.streamAudio w handler).binary = audioPayloads handler w.audio := by
  rw [binary] at hbinary
  rw [binary, streamAudio_sent h, List.filter_append, List.map_append, hbinary, List.nil_append,
    List.filter_eq_self.2 (by simp), List.map_map]
  exact List.map_id _

end Child

open Child in
/-- **The audio arrives whole, and its end is marked once.**  A run in which a handler from 1 to 255
is named goes on to the events if the frames can be sent.  If it does, then whatever the masks are
and whatever arrives later, a receiver of the binary frames gets frames that carry the audio. -/
theorem audio_submission (w : Conditions) (l : List Arrival) (opcode : UInt8) {message : Bytes}
    {id : ℕ} (hpos : (after w l).position = .runStart) (hop : opcode ≠ 0x9)
    (hnames : NamesHandler message id) :
    ((∀ n, w.sendOk n = true) → (after w (l ++ [.frame opcode message])).position = .events) ∧
      ((after w (l ++ [.frame opcode message])).position = .events →
        ∀ (m : List Arrival) (masks : ℕ → Mask),
          ∃ fs, Received fs (binaryStream masks (after w (l ++ .frame opcode message :: m))) ∧
            (∀ gs, Received gs (binaryStream masks (after w (l ++ .frame opcode message :: m))) →
              gs = fs) ∧
            Submits (UInt8.ofNat id) w.audio fs) := by
  rw [after_concat, next_of_namesHandler hpos hop hnames]
  refine ⟨fun hsend => streamAudio_of_ok hsend _ _, ?_⟩
  intro hevents m masks
  have hnone : (after w l).binary = [] := quiet_after w l (by rw [hpos]; rfl)
  have hbinary := binary_streamAudio (by exact hnone) hevents
  -- nothing that arrives later makes the process send a binary frame
  have hlate := run_sent_of_late (w := w) (by rw [hevents]; rfl) m
  have hall : (after w (l ++ .frame opcode message :: m)).binary =
      audioPayloads (UInt8.ofNat id) w.audio := by
    rw [← hbinary, binary, binary, after_append, run_cons, next_of_namesHandler hpos hop hnames,
      hlate]
  have hreceived : Received (binaryFrames masks (audioPayloads (UInt8.ofNat id) w.audio))
      (binaryStream masks (after w (l ++ .frame opcode message :: m))) := by
    rw [binaryStream, hall]
    exact received_binaryFrames masks (length_audioPayloads_lt _ _)
  exact ⟨_, hreceived, fun gs hgs => hgs.unique hreceived, submits_binaryFrames masks _ _⟩

/-- The run that turns on a lamp. -/
theorem lamp_audio_submission :
    ∃ fs, Received fs (Child.binaryStream (fun _ => fun _ => 7) (after allWorks (lampRun.take 5))) ∧
      Submits 1 [1, 2] fs := by
  have hpos : (after allWorks (lampRun.take 3)).position = .runStart := by decide +kernel
  have hnames : Child.NamesHandler
      (str "\x7b\"type\":\"run-start\",\"stt_binary_handler_id\":1\x7d") 1 :=
    ⟨by decide +kernel, by intro hnone; decide +kernel +revert, le_refl _, by decide⟩
  obtain ⟨hgoes, hsubmits⟩ :=
    audio_submission allWorks (lampRun.take 3) 1 hpos (by decide) hnames
  obtain ⟨fs, hreceived, -, hfs⟩ :=
    hsubmits (hgoes fun _ => rfl) ((lampRun.drop 4).take 1) (fun _ => fun _ => 7)
  exact ⟨fs, hreceived, hfs⟩

end Assist

end HaPanel
