import HaPanel.Assist.Machine
import HaPanel.Transition.Run

/-!
# The capture thread

`capture_loop` fills a buffer of 320 stereo samples from the pipe of `arecord`, and whenever the
buffer is full it hands the left channel to the frame handler.  A read may end anywhere, in the
middle of a sample too.

A `Capture` is the thread together with the bytes that are still to come and with the panel, whose
samples the handlers fill; what `poll` and `read` return, and when `stop` is called, is open.
`capture_keeps_samples` : after any steps the frames are the left channel of the complete buffers
of what the reads have returned so far.
-/

namespace HaPanel

namespace Assist

open Text Transition

/-! ### Samples -/

/-- `sizeof(stereo)`: two channels of 16-bit samples. -/
def stereoBytes : ℕ := 4 * monoSamplesPerFrame

/-- A 16-bit little-endian sample. -/
def sampleOf (low high : UInt8) : Int16 := Int16.ofNat (low.toNat + 256 * high.toNat)

/-- `stereo[i]`. -/
def stereoSample (stereo : Bytes) (i : ℕ) : Int16 :=
  sampleOf (stereo.getD (2 * i) 0) (stereo.getD (2 * i + 1) 0)

/-- The loop that fills `mono`. -/
def mono (stereo : Bytes) : Frame :=
  ⟨(List.range monoSamplesPerFrame).map fun i => stereoSample stereo (i * 2), by simp⟩

/-- `peak * 100 / 32768`. -/
def levelOf (f : Frame) : ℤ := (f.peak * 100 : ℤ).tdiv 32768

/-! ### The thread -/

/-- The next call of the thread: the test of `running_`, `poll`, or `read`. -/
inductive CapturePlace where
  | test
  | poll
  | read
  | over
deriving DecidableEq

inductive PollResult where
  | interrupted
  | failed (error : Bytes)
  | timeout
  | ready

inductive ReadResult where
  | interrupted
  | again
  | failed (error : Bytes)
  | endOfFile
  | count (n : ℕ)

structure Capture where
  place : CapturePlace := .test
  running : Bool := true
  /-- The first `bytes_used` bytes of the buffer. -/
  stereo : Bytes := []
  receivedAudio : Bool := false
  levelPercent : ℤ := 0
  frameCount : UInt64 := 0
  lastError : Bytes := []
  /-- What the frame handler has been called with. -/
  frames : List Frame := []
  /-- The bytes that have not been read yet. -/
  incoming : Bytes
  panel : State

inductive CaptureStep where
  | test
  | poll (result : PollResult)
  | read (now : UInt32) (result : ReadResult)
  /-- `stop` is called by another thread. -/
  | stop
  /-- `stop` has joined the thread. -/
  | joined

namespace Capture

variable (s : Capture)

/-- `if (running_) set_error(..)`. -/
def setError (error : Bytes) : Capture := if s.running then { s with lastError := error } else s

/-- The lines after the loop. -/
def leave : Capture := { s with place := .over, running := false }

def onPoll : PollResult → Capture
  | .interrupted => { s with place := .test }
  | .failed error => (s.setError (str "Błąd oczekiwania na mikrofon: " ++ error)).leave
  | .timeout => { s with place := .test }
  | .ready => { s with place := .read }

/-- The buffer is full. -/
def handFrame (now : UInt32) : Capture :=
  let f := mono s.stereo
  { s with
    levelPercent := levelOf f
    frameCount := s.frameCount + 1
    frames := s.frames ++ [f]
    panel := s.panel.frame now f
    stereo := [] }

/-- `count` bytes have been read. -/
def onBytes (now : UInt32) (count : ℕ) : Capture :=
  let s := { s with
    place := .test
    receivedAudio := true
    stereo := s.stereo ++ s.incoming.take count
    incoming := s.incoming.drop count }
  if s.stereo.length ≠ stereoBytes then s else s.handFrame now

def onRead (now : UInt32) : ReadResult → Capture
  | .interrupted => { s with place := .test }
  | .again => { s with place := .test }
  | .failed error => (s.setError (str "Błąd odczytu mikrofonu: " ++ error)).leave
  | .endOfFile =>
    if s.receivedAudio then s.leave
    else (s.setError (str "arecord nie zwrócił danych audio")).leave
  | .count n =>
    -- `read` returns what there is, and at most the space that is left
    if 1 ≤ n ∧ n ≤ stereoBytes - s.stereo.length ∧ n ≤ s.incoming.length then s.onBytes now n else s

def next : CaptureStep → Capture
  | .test =>
    if s.place = .test then (if s.running then { s with place := .poll } else s.leave) else s
  | .poll result => if s.place = .poll then s.onPoll result else s
  | .read now result => if s.place = .read then s.onRead now result else s
  | .stop => { s with running := false }
  | .joined => if s.place = .over then { s with levelPercent := 0 } else s

/-- The thread at its start. -/
def begin (stream : Bytes) (panel : State) : Capture := { incoming := stream, panel := panel }

/-- The bytes that `read` returns in a step. -/
def bytesRead : CaptureStep → Bytes
  | .read _ (.count n) =>
    if s.place = .read ∧ 1 ≤ n ∧ n ≤ stereoBytes - s.stereo.length ∧ n ≤ s.incoming.length then
      s.incoming.take n
    else []
  | _ => []

/-- The bytes that the reads of a run return. -/
def received (s : Capture) : List CaptureStep → Bytes
  | [] => []
  | a :: steps => s.bytesRead a ++ (s.next a).received steps

end Capture

/-! ### What the frames should be -/

/-- The left channel of interleaved stereo. -/
def leftChannel : Bytes → List Int16
  | low :: high :: _ :: _ :: rest => sampleOf low high :: leftChannel rest
  | _ => []

theorem leftChannel_append {a : Bytes} {n : ℕ} (h : a.length = 4 * n) (b : Bytes) :
    leftChannel (a ++ b) = leftChannel a ++ leftChannel b := by
  induction n generalizing a with
  | zero =>
    obtain rfl := List.eq_nil_of_length_eq_zero h
    rfl
  | succ n ih =>
    match a, h with
    | low :: high :: right :: right' :: rest, h =>
      simp only [List.length_cons] at h
      simp only [List.cons_append, leftChannel, ih (a := rest) (by omega)]

theorem stereoSample_zero (low high : UInt8) (rest : Bytes) :
    stereoSample (low :: high :: rest) 0 = sampleOf low high := rfl

theorem stereoSample_add_two (a b c d : UInt8) (rest : Bytes) (i : ℕ) :
    stereoSample (a :: b :: c :: d :: rest) (i + 2) = stereoSample rest i := by
  have hindex : 2 * (i + 2) = 2 * i + 4 := by omega
  rw [stereoSample, stereoSample, hindex]
  rfl

/-- The even samples of a buffer are its left channel. -/
theorem map_stereoSample {stereo : Bytes} {n : ℕ} (h : stereo.length = 4 * n) :
    (List.range n).map (fun i => stereoSample stereo (i * 2)) = leftChannel stereo := by
  induction n generalizing stereo with
  | zero =>
    obtain rfl := List.eq_nil_of_length_eq_zero h
    rfl
  | succ n ih =>
    match stereo, h with
    | low :: high :: right :: right' :: rest, h =>
      have hrest : rest.length = 4 * n := by
        simp only [List.length_cons] at h
        omega
      rw [leftChannel, ← ih hrest, List.range_succ_eq_map, List.map_cons, List.map_map,
        Nat.zero_mul, stereoSample_zero]
      refine congrArg (_ :: ·) (List.map_congr_left ?_)
      intro i _
      rw [Function.comp_apply, Nat.succ_mul, stereoSample_add_two]

theorem mono_eq_leftChannel {stereo : Bytes} (h : stereo.length = stereoBytes) :
    (mono stereo).1 = leftChannel stereo :=
  map_stereoSample h

/-! ### The level -/

theorem natAbs_toInt_le (x : Int16) : x.toInt.natAbs ≤ 32768 := by
  have hlow := x.le_toInt
  have hhigh := x.toInt_lt
  omega

theorem Frame.peak_le (f : Frame) : f.peak ≤ 32768 := by
  have hfold : ∀ (l : List Int16) (peak : ℕ), peak ≤ 32768 →
      l.foldl (fun peak x => max peak x.toInt.natAbs) peak ≤ 32768 := by
    intro l
    induction l with
    | nil => exact fun _ h => h
    | cons x l ih => exact fun peak h => ih _ (max_le h (natAbs_toInt_le x))
  exact hfold f.1 0 (Nat.zero_le _)

/-- The magnitude of -32768 is one more than that of any other sample, and gives 100. -/
theorem levelOf_mem (f : Frame) : 0 ≤ levelOf f ∧ levelOf f ≤ 100 := by
  have hpeak := f.peak_le
  rw [levelOf, Int.tdiv_eq_ediv_of_nonneg (by omega)]
  omega

/-! ### What a step can do -/

namespace Capture

/-- Nothing is read in the step. -/
structure Idle (s t : Capture) : Prop where
  stereo : t.stereo = s.stereo
  incoming : t.incoming = s.incoming
  frames : t.frames = s.frames
  panel : t.panel = s.panel
  level : t.levelPercent = s.levelPercent ∨ t.levelPercent = 0

variable {s : Capture}

theorem Idle.refl (s : Capture) : Idle s s := ⟨rfl, rfl, rfl, rfl, .inl rfl⟩

theorem idle_setError_leave (error : Bytes) : Idle s (s.setError error).leave := by
  unfold setError
  split_ifs
  · exact ⟨rfl, rfl, rfl, rfl, .inl rfl⟩
  · exact ⟨rfl, rfl, rfl, rfl, .inl rfl⟩

theorem idle_onPoll (result : PollResult) : Idle s (s.onPoll result) := by
  cases result with
  | interrupted | timeout | ready => exact ⟨rfl, rfl, rfl, rfl, .inl rfl⟩
  | failed error => exact idle_setError_leave _

theorem onRead_cases {s : Capture} (hplace : s.place = .read) (now : UInt32)
    (result : ReadResult) :
    Idle s (s.onRead now result) ∧ s.bytesRead (.read now result) = [] ∨
      ∃ n, n ≤ stereoBytes - s.stereo.length ∧ n ≤ s.incoming.length ∧
        s.bytesRead (.read now result) = s.incoming.take n ∧
        s.onRead now result = s.onBytes now n := by
  cases result with
  | interrupted | again => exact .inl ⟨⟨rfl, rfl, rfl, rfl, .inl rfl⟩, rfl⟩
  | failed error => exact .inl ⟨idle_setError_leave _, rfl⟩
  | endOfFile =>
    simp only [onRead]
    split_ifs
    · exact .inl ⟨⟨rfl, rfl, rfl, rfl, .inl rfl⟩, rfl⟩
    · exact .inl ⟨idle_setError_leave _, rfl⟩
  | count n =>
    simp only [onRead, bytesRead, hplace, true_and]
    split_ifs with hcount
    · exact .inr ⟨n, hcount.2.1, hcount.2.2, rfl, rfl⟩
    · exact .inl ⟨Idle.refl s, rfl⟩

/-- **A step reads nothing, or it reads some bytes** that fit into the buffer. -/
theorem next_cases (s : Capture) (a : CaptureStep) :
    Idle s (s.next a) ∧ s.bytesRead a = [] ∨
      ∃ now n, n ≤ stereoBytes - s.stereo.length ∧ n ≤ s.incoming.length ∧
        s.bytesRead a = s.incoming.take n ∧ s.next a = s.onBytes now n := by
  cases a with
  | test =>
    simp only [next]
    split_ifs
    · exact .inl ⟨⟨rfl, rfl, rfl, rfl, .inl rfl⟩, rfl⟩
    · exact .inl ⟨⟨rfl, rfl, rfl, rfl, .inl rfl⟩, rfl⟩
    · exact .inl ⟨Idle.refl s, rfl⟩
  | stop => exact .inl ⟨⟨rfl, rfl, rfl, rfl, .inl rfl⟩, rfl⟩
  | joined =>
    simp only [next]
    split_ifs
    · exact .inl ⟨⟨rfl, rfl, rfl, rfl, .inr rfl⟩, rfl⟩
    · exact .inl ⟨Idle.refl s, rfl⟩
  | poll result =>
    simp only [next]
    split_ifs
    · exact .inl ⟨idle_onPoll result, rfl⟩
    · exact .inl ⟨Idle.refl s, rfl⟩
  | read now result =>
    simp only [next]
    split_ifs with hplace
    · rcases onRead_cases hplace now result with hidle | ⟨n, hspace, hn, hbytes, heq⟩
      · exact .inl hidle
      · exact .inr ⟨now, n, hspace, hn, hbytes, heq⟩
    · -- the thread is elsewhere
      refine .inl ⟨Idle.refl s, ?_⟩
      cases result with
      | count n => exact if_neg fun h => hplace h.1
      | interrupted | again | failed | endOfFile => rfl

/-- The bytes of a read fill the buffer up, or they do not. -/
theorem onBytes_cases (s : Capture) (now : UInt32) (n : ℕ) :
    (s.stereo ++ s.incoming.take n).length ≠ stereoBytes ∧
        s.onBytes now n = { s with
          place := .test
          receivedAudio := true
          stereo := s.stereo ++ s.incoming.take n
          incoming := s.incoming.drop n } ∨
      (s.stereo ++ s.incoming.take n).length = stereoBytes ∧
        s.onBytes now n = { s with
          place := .test
          receivedAudio := true
          stereo := []
          incoming := s.incoming.drop n
          levelPercent := levelOf (mono (s.stereo ++ s.incoming.take n))
          frameCount := s.frameCount + 1
          frames := s.frames ++ [mono (s.stereo ++ s.incoming.take n)]
          panel := s.panel.frame now (mono (s.stereo ++ s.incoming.take n)) } := by
  by_cases hfull : (s.stereo ++ s.incoming.take n).length = stereoBytes
  · refine .inr ⟨hfull, ?_⟩
    simp only [onBytes, hfull, ne_eq, not_true_eq_false, if_false, handFrame]
  · refine .inl ⟨hfull, ?_⟩
    simp only [onBytes, hfull, ne_eq, not_false_eq_true, if_true]

/-- What the reads return is taken from the stream. -/
theorem incoming_eq_bytesRead_append (s : Capture) (a : CaptureStep) :
    s.incoming = s.bytesRead a ++ (s.next a).incoming := by
  rcases next_cases s a with ⟨hidle, hbytes⟩ | ⟨now, n, -, -, hbytes, heq⟩
  · rw [hbytes, hidle.incoming, List.nil_append]
  · have hrest : (s.onBytes now n).incoming = s.incoming.drop n := by
      rcases onBytes_cases s now n with ⟨-, heq'⟩ | ⟨-, heq'⟩
      · rw [heq']
      · rw [heq']
    rw [hbytes, heq, hrest, List.take_append_drop]

theorem incoming_eq_received_append (s : Capture) (steps : List CaptureStep) :
    s.incoming = s.received steps ++ (run next s steps).incoming := by
  induction steps generalizing s with
  | nil => rfl
  | cons a steps ih =>
    rw [received, run_cons, List.append_assoc, ← ih, ← incoming_eq_bytesRead_append]

/-! ### The buffer -/

/-- The bytes received so far are those of the frames, and then those in the buffer. -/
structure Kept (stream : Bytes) (s : Capture) (whole : Bytes) : Prop where
  stream : stream = whole ++ (s.stereo ++ s.incoming)
  part : s.stereo.length < stereoBytes
  length : whole.length = stereoBytes * s.frames.length
  frames : s.frames.flatMap (fun f => f.1) = leftChannel whole

variable {stream : Bytes} {whole : Bytes}

theorem stereoBytes_pos : 0 < stereoBytes := by decide

theorem kept_begin (stream : Bytes) (panel : State) : (begin stream panel).Kept stream [] :=
  ⟨rfl, stereoBytes_pos, rfl, rfl⟩

theorem Kept.of_idle (h : s.Kept stream whole) {t : Capture} (hidle : Idle s t) :
    t.Kept stream whole := by
  refine ⟨?_, ?_, ?_, ?_⟩
  · rw [hidle.stereo, hidle.incoming]
    exact h.stream
  · rw [hidle.stereo]
    exact h.part
  · rw [hidle.frames]
    exact h.length
  · rw [hidle.frames]
    exact h.frames

/-- **A read keeps the bytes in order**, however many it returns. -/
theorem Kept.onBytes (h : s.Kept stream whole) (now : UInt32) {n : ℕ}
    (hspace : n ≤ stereoBytes - s.stereo.length) (hn : n ≤ s.incoming.length) :
    ∃ whole', (s.onBytes now n).Kept stream whole' := by
  have hpart := h.part
  have hlen : (s.stereo ++ s.incoming.take n).length = s.stereo.length + n := by
    rw [List.length_append, List.length_take, min_eq_left hn]
  have hstream : stream = whole ++ (s.stereo ++ s.incoming.take n ++ s.incoming.drop n) := by
    rw [List.append_assoc s.stereo, List.take_append_drop]
    exact h.stream
  rcases onBytes_cases s now n with ⟨hfull, heq⟩ | ⟨hfull, heq⟩
  · rw [heq]
    exact ⟨whole, hstream, by rw [hlen] at hfull ⊢; omega, h.length, h.frames⟩
  · -- the buffer is full: its bytes become the last frame
    rw [heq]
    refine ⟨whole ++ (s.stereo ++ s.incoming.take n), ?_, stereoBytes_pos, ?_, ?_⟩
    · rw [List.append_assoc]
      exact hstream
    · rw [List.length_append, hfull, h.length, List.length_append, List.length_singleton,
        Nat.mul_succ]
    · have hquarter : whole.length = 4 * (monoSamplesPerFrame * s.frames.length) := by
        rw [h.length, stereoBytes, Nat.mul_assoc]
      rw [leftChannel_append hquarter, ← h.frames, ← mono_eq_leftChannel hfull,
        List.flatMap_append, List.flatMap_singleton]

theorem Kept.next (h : s.Kept stream whole) (a : CaptureStep) :
    ∃ whole', (s.next a).Kept stream whole' := by
  rcases next_cases s a with ⟨hidle, -⟩ | ⟨now, n, hspace, hn, -, heq⟩
  · exact ⟨whole, h.of_idle hidle⟩
  · rw [heq]
    exact h.onBytes now hspace hn

theorem kept_run (stream : Bytes) (panel : State) (steps : List CaptureStep) :
    ∃ whole, (run next (begin stream panel) steps).Kept stream whole :=
  run_invariant (I := fun s : Capture => ∃ whole, s.Kept stream whole)
    (fun _ a h => h.elim fun _ hw => hw.next a) ⟨[], kept_begin stream panel⟩ steps

/-! ### The level -/

theorem level_next (h : 0 ≤ s.levelPercent ∧ s.levelPercent ≤ 100) (a : CaptureStep) :
    0 ≤ (s.next a).levelPercent ∧ (s.next a).levelPercent ≤ 100 := by
  rcases next_cases s a with ⟨hidle, -⟩ | ⟨now, n, -, -, -, heq⟩
  · rcases hidle.level with hlevel | hlevel
    · rw [hlevel]
      exact h
    · rw [hlevel]
      decide
  · rcases onBytes_cases s now n with ⟨-, heq'⟩ | ⟨-, heq'⟩
    · rw [heq, heq']
      exact h
    · rw [heq, heq']
      exact levelOf_mem _

theorem level_run (stream : Bytes) (panel : State) (steps : List CaptureStep) :
    0 ≤ (run next (begin stream panel) steps).levelPercent ∧
      (run next (begin stream panel) steps).levelPercent ≤ 100 :=
  run_invariant (I := fun s : Capture => 0 ≤ s.levelPercent ∧ s.levelPercent ≤ 100)
    (fun _ a h => level_next h a) ⟨le_refl 0, show (0 : ℤ) ≤ 100 by decide⟩ steps

end Capture

/-! ### The samples -/

/-- `max_samples` of the handlers. -/
def FrameHandler.maxSamples : FrameHandler → ℕ
  | microphoneTest => 0
  | wakeCommand => 16000 * 10
  | ptt => 16000 * 15

/-- Where the handler stops to store samples when there are `n` at its start: it takes whole
frames only. -/
def FrameHandler.room (handler : FrameHandler) (n : ℕ) : ℕ :=
  monoSamplesPerFrame * ((handler.maxSamples - n) / monoSamplesPerFrame)

theorem State.store_audio (s : State) (n : ℕ) (f : Frame) : (s.store n f).audio = s.audio := by
  unfold State.store
  split_ifs <;> rfl

theorem State.store_pcmSamples (s : State) (n : ℕ) (f : Frame) :
    (s.store n f).pcmSamples =
      if s.pcmSamples.length + monoSamplesPerFrame ≤ n then s.pcmSamples ++ f.1
      else s.pcmSamples := by
  rw [State.store, f.2]
  split_ifs <;> rfl

theorem State.frame_samples {s : State} {handler : FrameHandler} (h : s.audio = some handler)
    (now : UInt32) (f : Frame) :
    (s.frame now f).audio = some handler ∧
      (s.frame now f).pcmSamples =
        if s.pcmSamples.length + monoSamplesPerFrame ≤ handler.maxSamples then s.pcmSamples ++ f.1
        else s.pcmSamples := by
  unfold State.frame
  rw [h]
  cases handler with
  | microphoneTest =>
    have hno : ¬ s.pcmSamples.length + 320 ≤ 0 := by omega
    exact ⟨h, (if_neg hno).symm⟩
  | wakeCommand =>
    have haudio := (s.store_audio (16000 * 10) f).trans h
    have hsamples := s.store_pcmSamples (16000 * 10) f
    by_cases hloud : 900 ≤ f.peak
    · simp only [State.wakeCommandHandler, if_pos hloud]
      exact ⟨haudio, hsamples⟩
    · simp only [State.wakeCommandHandler, if_neg hloud]
      exact ⟨haudio, hsamples⟩
  | ptt => exact ⟨(s.store_audio _ f).trans h, s.store_pcmSamples _ f⟩

namespace Capture

/-- What the handler has stored of the frames. -/
def Stored (panel : State) (handler : FrameHandler) (s : Capture) : Prop :=
  s.panel.audio = some handler ∧
    s.panel.pcmSamples = panel.pcmSamples ++
      (s.frames.flatMap fun f => f.1).take (handler.room panel.pcmSamples.length)

variable {s : Capture} {panel : State} {handler : FrameHandler}

theorem length_flatMap_frames (fs : List Frame) :
    (fs.flatMap fun f => f.1).length = monoSamplesPerFrame * fs.length := by
  induction fs with
  | nil => rfl
  | cons f fs ih =>
    rw [List.flatMap_cons, List.length_append, ih, f.2, List.length_cons, Nat.mul_succ,
      Nat.add_comm]

/-- A frame is stored while there is room for it, and from then on none is. -/
theorem Stored.frame (h : s.Stored panel handler) (now : UInt32) (f : Frame) :
    (s.panel.frame now f).audio = some handler ∧
      (s.panel.frame now f).pcmSamples = panel.pcmSamples ++
        ((s.frames ++ [f]).flatMap fun f => f.1).take (handler.room panel.pcmSamples.length) := by
  obtain ⟨haudio, hstored⟩ := h
  obtain ⟨haudio', hsamples⟩ := State.frame_samples haudio now f
  refine ⟨haudio', ?_⟩
  have hlen := length_flatMap_frames s.frames
  rw [hsamples, hstored, List.flatMap_append, List.flatMap_singleton]
  rw [List.length_append, List.length_take, hlen, FrameHandler.room]
  set n := panel.pcmSamples.length
  set k := (handler.maxSamples - n) / monoSamplesPerFrame with hk
  have hdiv := Nat.div_add_mod (handler.maxSamples - n) monoSamplesPerFrame
  have hmod := Nat.mod_lt (handler.maxSamples - n) (show 0 < monoSamplesPerFrame by decide)
  rw [← hk] at hdiv
  by_cases hroom : s.frames.length < k
  · have hnext : monoSamplesPerFrame * (s.frames.length + 1) ≤ monoSamplesPerFrame * k :=
      Nat.mul_le_mul_left _ hroom
    have hpos : 0 < handler.maxSamples - n := by
      refine Nat.pos_of_ne_zero fun hzero => ?_
      rw [hzero, Nat.zero_div] at hk
      omega
    rw [Nat.mul_succ] at hnext
    have hshort : monoSamplesPerFrame * s.frames.length ≤ monoSamplesPerFrame * k := by omega
    rw [min_eq_right hshort, if_pos (by omega), List.append_assoc,
      List.take_of_length_le (by rw [hlen]; exact hshort),
      List.take_of_length_le (by rw [List.length_append, hlen, f.2]; exact hnext)]
  · have hlong : monoSamplesPerFrame * k ≤ monoSamplesPerFrame * s.frames.length :=
      Nat.mul_le_mul_left _ (not_lt.1 hroom)
    rw [min_eq_left hlong, if_neg (by omega),
      List.take_append_of_le_length (by rw [hlen]; exact hlong)]

theorem Stored.next (h : s.Stored panel handler) (a : CaptureStep) :
    (s.next a).Stored panel handler := by
  rcases next_cases s a with ⟨hidle, -⟩ | ⟨now, n, -, -, -, heq⟩
  · rw [Stored, hidle.panel, hidle.frames]
    exact h
  · rcases onBytes_cases s now n with ⟨-, heq'⟩ | ⟨-, heq'⟩
    · rw [heq, heq']
      exact h
    · rw [heq, heq']
      exact h.frame now _

theorem stored_run (stream : Bytes) (haudio : panel.audio = some handler)
    (steps : List CaptureStep) :
    (run next (begin stream panel) steps).Stored panel handler := by
  refine run_invariant (fun _ a h => h.next a) ⟨haudio, ?_⟩ steps
  rw [begin, List.flatMap_nil, List.take_nil, List.append_nil]

end Capture

/-! ### The result -/

/-- The samples added to the recording are the first ones of the sequence: all of them up to `n`,
when the recording was empty. -/
def Records (n : ℕ) (before after sequence : List Int16) : Prop :=
  ∃ stored, after = before ++ stored ∧ stored <+: sequence ∧ stored.length ≤ n ∧
    (before = [] → stored = sequence.take n)

/-- What should hold of the thread when it was started with the panel in the given state, and the
reads have returned the bytes `received`. -/
structure Captured (stream received : Bytes) (panel : State) (s : Capture) : Prop where
  stream : stream = received ++ s.incoming
  /-- The frames are the left channel of the complete buffers, 320 samples each. -/
  frames : s.frames.length = received.length / 1280 ∧
    (s.frames.flatMap fun f => f.1) = leftChannel (received.take (1280 * (received.length / 1280)))
  level : 0 ≤ s.levelPercent ∧ s.levelPercent ≤ 100
  wakeCommand : panel.audio = some .wakeCommand →
    Records 160000 panel.pcmSamples s.panel.pcmSamples (s.frames.flatMap fun f => f.1)
  ptt : panel.audio = some .ptt →
    Records 240000 panel.pcmSamples s.panel.pcmSamples (s.frames.flatMap fun f => f.1)

theorem FrameHandler.room_le (handler : FrameHandler) (n : ℕ) :
    handler.room n ≤ handler.maxSamples :=
  le_trans (Nat.mul_div_le _ _) (Nat.sub_le _ _)

theorem FrameHandler.room_zero (handler : FrameHandler) : handler.room 0 = handler.maxSamples := by
  cases handler <;> rfl

theorem Capture.Stored.records {panel : State} {handler : FrameHandler} {s : Capture}
    (h : s.Stored panel handler) :
    Records handler.maxSamples panel.pcmSamples s.panel.pcmSamples
      (s.frames.flatMap fun f => f.1) := by
  refine ⟨_, h.2, List.take_prefix _ _, ?_, ?_⟩
  · rw [List.length_take]
    exact le_trans (min_le_left _ _) (handler.room_le _)
  · intro hempty
    rw [hempty, List.length_nil, handler.room_zero]

theorem Capture.Kept.frames_eq {stream received whole : Bytes} {s : Capture}
    (h : s.Kept stream whole) (hreceived : stream = received ++ s.incoming) :
    s.frames.length = received.length / 1280 ∧
      (s.frames.flatMap fun f => f.1) =
        leftChannel (received.take (1280 * (received.length / 1280))) := by
  have hpart : s.stereo.length < 1280 := h.part
  have hlen : whole.length = 1280 * s.frames.length := h.length
  -- the reads have returned the frames and what is in the buffer
  obtain rfl : received = whole ++ s.stereo := by
    refine List.append_cancel_right (hreceived.symm.trans (h.stream.trans ?_))
    exact (List.append_assoc ..).symm
  have hcount : (whole ++ s.stereo).length / 1280 = s.frames.length := by
    rw [List.length_append]
    omega
  refine ⟨hcount.symm, ?_⟩
  rw [hcount, ← hlen, List.take_left]
  exact h.frames

/-- **The capture keeps every sample**, whatever the reads return and whenever it is stopped. -/
theorem capture_keeps_samples (stream : Bytes) (panel : State) (steps : List CaptureStep) :
    Captured stream ((Capture.begin stream panel).received steps) panel
      (run Capture.next (.begin stream panel) steps) := by
  have hreceived := Capture.incoming_eq_received_append (.begin stream panel) steps
  obtain ⟨whole, hkept⟩ := Capture.kept_run stream panel steps
  exact
    { stream := hreceived
      frames := hkept.frames_eq hreceived
      level := Capture.level_run stream panel steps
      wakeCommand := fun haudio => (Capture.stored_run stream haudio steps).records
      ptt := fun haudio => (Capture.stored_run stream haudio steps).records }

/-- A buffer and three bytes. -/
def someAudio : Bytes := (List.range 1283).map UInt8.ofNat

/-- They arrive in four pieces, the first of which ends in the middle of a sample. -/
def fourPieces : List CaptureStep :=
  [7, 1000, 273, 3].flatMap fun n => [.test, .poll .ready, .read 0 .interrupted, .test,
    .poll .timeout, .test, .poll .ready, .read 0 (.count n)]

/-- The wake command is recorded from these pieces. -/
theorem wake_command_captured :
    let panel := { State.initial 0 with audio := some .wakeCommand }
    let s := run Capture.next (.begin someAudio panel) fourPieces
    (Capture.begin someAudio panel).received fourPieces = someAudio ∧
      s.panel.pcmSamples = leftChannel (someAudio.take 1280) := by
  intro panel s
  have hreceived : (Capture.begin someAudio panel).received fourPieces = someAudio := by
    decide +kernel
  have hcaptured : Captured someAudio someAudio panel s := by
    have hcaptured := capture_keeps_samples someAudio panel fourPieces
    rwa [hreceived] at hcaptured
  generalize s = s' at hcaptured
  refine ⟨hreceived, ?_⟩
  -- the frames are the left channel of the first buffer, and all of them are stored
  have hwhole : 1280 * (someAudio.length / 1280) = 1280 := by simp [someAudio]
  have hframes := hcaptured.frames.2
  rw [hwhole] at hframes
  obtain ⟨stored, hsamples, -, -, hall⟩ := hcaptured.wakeCommand rfl
  have hshort : (leftChannel (someAudio.take 1280)).length ≤ 160000 := by decide +kernel
  have hnone : panel.pcmSamples = [] := rfl
  rw [hsamples, hall hnone, hframes, List.take_of_length_le hshort, hnone, List.nil_append]

end Assist

end HaPanel
