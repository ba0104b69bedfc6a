import HaPanel.Assist.Markdown
import HaPanel.Assist.Record
import HaPanel.Transition.Run

/-!
# The Assist state machine

The panel's own thread runs the callbacks of the user interface and the timers.  Beside it run the
thread that delivers captured audio, the thread that watches the wake word worker, and one thread
for every pipeline that was started.  This file models what they share: `State` has the variables of
`main.cpp`, and `next` the steps of all threads.

Callbacks are atomic but for the 100 ms timer `assist_runtime_timer_cb`, which reads variables that
other threads write between its four parts.  It takes four steps (`Tick`), and the other threads may
take steps between them.  Inside one part every such variable is read once, and other threads move
it one way only (`assist_pipeline_running` and the two `running_` flags fall, `assist_wake_pending`
rises), so that a condition over several of them is as good as read at once.

What the operating system decides is a parameter of the step (`World`).  Callbacks come in any order,
whether the widget they belong to is on the screen or not.  `assist_pipeline_generation` is a
natural number.  The state also has a trace of what was done, which no step reads.
-/

namespace HaPanel

namespace Assist

open Text

/-! ### Audio frames -/

/-- `kMonoSamplesPerFrame`. -/
def monoSamplesPerFrame : ℕ := 320

/-- What the capture thread hands to the frame handler. -/
abbrev Frame := {samples : List Int16 // samples.length = monoSamplesPerFrame}

/-- The greatest magnitude of a frame. -/
def Frame.peak (f : Frame) : ℕ := f.1.foldl (fun peak s => max peak s.toInt.natAbs) 0

/-- The frame handler that `g_assist_audio` was started with: the microphone test, the command after
a wake word, or push-to-talk. -/
inductive FrameHandler where
  | microphoneTest
  | wakeCommand
  | ptt
  deriving DecidableEq

/-- Does the handler store the samples? -/
def FrameHandler.records : FrameHandler → Bool
  | microphoneTest => false
  | wakeCommand => true
  | ptt => true

/-! ### The state -/

/-- `now + ms`, modulo `2 ^ 32`. -/
@[irreducible]
def deadline (now ms : UInt32) : UInt32 := now + ms

/-- `static_cast<int32_t>(now - deadline) >= 0`. -/
def reached (now deadline : UInt32) : Bool := now - deadline < 2 ^ 31

structure AssistPipelineUiResult where
  generation : ℕ
  result : AssistPipelineResult
  finalResult : Bool
  deriving DecidableEq

/-- A thread of `start_assist_pipeline`. -/
structure PipelineThread where
  generation : ℕ
  samples : List Int16
  conversationId : Bytes
  /-- What `run_assist_pipeline_process` returned; the thread has then cleared
  `assist_pipeline_running` and has still to queue this result. -/
  outcome : Option AssistPipelineResult := none
  deriving DecidableEq

structure AssistHistoryEntry where
  transcript : Bytes
  response : Bytes
  deriving DecidableEq

structure Conversation where
  id : Bytes := []
  expiresAt : UInt32 := 0
  history : List AssistHistoryEntry := []
  deriving DecidableEq

inductive OverlayState where
  | listening
  | processing
  | transcript
  | speaking
  | done
  | error
  deriving DecidableEq

/-- The screen, and the overlay on it. -/
structure Display where
  blanked : Bool := false
  /-- `assist_overlay` is there. -/
  overlay : Bool := false
  overlayState : OverlayState := .listening
  responseStartedAt : UInt32 := 0
  hideAt : UInt32 := 0
  deriving DecidableEq

/-- Where `assist_runtime_timer_cb` is; `now` is the time it has read. -/
inductive Tick where
  | idle
  | wake (now : UInt32)
  | capture (now : UInt32)
  | listener (now : UInt32)
  deriving DecidableEq

/-- What is recorded of a run. -/
inductive Event where
  /-- `start_assist_pipeline` was entered. -/
  | pipelineStarted (running : Bool) (generation : ℕ)
  /-- `g_assist_audio` was started. -/
  | captureStarted (handler : FrameHandler) (running : Bool)
  /-- `g_wake_word_listener` was started. -/
  | listenerStarted (running : Bool)
  /-- A result was dequeued, when the generation was `generation`. -/
  | dequeued (result : AssistPipelineUiResult) (generation : ℕ)
  deriving DecidableEq

structure State where
  generation : ℕ := 0
  pipelineRunning : Bool := false
  pcmSamples : List Int16 := []
  pendingResults : List AssistPipelineUiResult := []
  threads : List PipelineThread := []
  /-- The handler of `g_assist_audio` while it runs. -/
  audio : Option FrameHandler := none
  /-- `g_wake_word_listener` runs. -/
  listener : Bool := false
  wakePending : Bool := false
  wakeSpeechDetected : Bool := false
  wakeLastVoiceAt : UInt32 := 0
  wakeCaptureActive : Bool := false
  wakeCaptureStartedAt : UInt32 := 0
  wakeRestartAfter : UInt32 := 0
  micWakeEnabled : Bool := true
  micMuteOnBlank : Bool := true
  assistScreen : Bool := false
  microphoneScreen : Bool := false
  conversation : Conversation := {}
  display : Display := {}
  tick : Tick := .idle
  /-- What was done, the last first. -/
  trace : List Event := []

/-- The state when the timers are created at time `now`. -/
def State.initial (now : UInt32) : State := { wakeRestartAfter := deadline now 1000 }

/-- What the operating system and the other threads contribute to a callback. -/
structure World where
  /-- `custom_tick_get()`. -/
  now : UInt32 := 0
  /-- `g_assist_audio.start` succeeds. -/
  captureStarts : Bool := true
  /-- What the capture thread delivers until `g_assist_audio.stop` has joined it. -/
  lateFrames : List Frame := []
  /-- `g_wake_word_listener.start` succeeds. -/
  listenerStarts : Bool := true
  /-- The monitor thread reads a `WAKE` line before `g_wake_word_listener.stop` has joined it. -/
  lateWake : Bool := false
  /-- The address and the token of Home Assistant are set. -/
  configured : Bool := true
  /-- The worker and its model are there, or could be downloaded. -/
  assets : Bool := true

/-! ### The overlay -/

namespace Display

variable (d : Display)

def setState (state : OverlayState) : Display := { d with overlayState := state, hideAt := 0 }

def setText : Display := if d.overlay then { d with responseStartedAt := 0 } else d

/-- `show_assist_overlay`, which also wakes the screen. -/
def showOverlay (state : OverlayState) : Display :=
  ({ d with blanked := false, overlay := true }.setState state).setText

def hideOverlay : Display := { d with overlay := false, responseStartedAt := 0, hideAt := 0 }

def showTranscript : Display :=
  if d.overlay then { d.setState .transcript with responseStartedAt := 0 } else d

def showResponse (now : UInt32) : Display :=
  if d.overlay then { d.setState .speaking with responseStartedAt := now } else d

/-- An error that is hidden after ten seconds. -/
def showError (now : UInt32) : Display :=
  { (d.setState .error).setText with hideAt := deadline now 10000 }

end Display

namespace State

variable (s : State) (w : World)

/-! ### The microphone -/

/-- The samples of a frame are stored unless there would be more than `maxSamples`. -/
def store (maxSamples : ℕ) (f : Frame) : State :=
  if s.pcmSamples.length + f.1.length ≤ maxSamples then
    { s with pcmSamples := s.pcmSamples ++ f.1 }
  else s

/-- The frame handler of `begin_wake_command_capture`. -/
def wakeCommandHandler (now : UInt32) (f : Frame) : State :=
  let s := s.store (16000 * 10) f
  if 900 ≤ f.peak then { s with wakeSpeechDetected := true, wakeLastVoiceAt := now } else s

/-- The frame handler of `assist_ptt_event_cb`. -/
def pttHandler (f : Frame) : State := s.store (16000 * 15) f

/-- The capture thread has a frame. -/
def frame (now : UInt32) (f : Frame) : State :=
  match s.audio with
  | some .wakeCommand => s.wakeCommandHandler now f
  | some .ptt => s.pttHandler f
  | some .microphoneTest => s
  | none => s

/-- `AssistAudioCapture::stop`. -/
def stopCapture : State :=
  { w.lateFrames.foldl (fun s f => s.frame w.now f) s with audio := none }

/-- `AssistAudioCapture::start`, which returns `w.captureStarts`. -/
def startCapture (handler : FrameHandler) : State :=
  let s := s.stopCapture w
  if w.captureStarts then
    { s with
      audio := some handler
      trace := .captureStarted handler s.pipelineRunning :: s.trace }
  else s

/-- `WakeWordListener::stop`. -/
def stopListener : State :=
  { s with wakePending := s.wakePending || (s.listener && w.lateWake), listener := false }

/-- `start_wake_word_listener`. -/
def startWakeWordListener : State × Bool :=
  if !s.micWakeEnabled then (s, false)
  else if s.display.blanked && s.micMuteOnBlank then (s, false)
  else if !w.configured then (s, false)
  else if !w.assets then (s, false)
  else
    let s := s.stopListener w
    if w.listenerStarts then
      ({ s with listener := true, trace := .listenerStarted s.pipelineRunning :: s.trace }, true)
    else (s, false)

/-! ### Pipelines -/

def resetConversation : State := { s with conversation := {} }

/-- The first lines of `start_assist_pipeline`. -/
def expireConversation : State :=
  if s.conversation.expiresAt ≠ 0 ∧ reached w.now s.conversation.expiresAt then
    s.resetConversation
  else s

/-- The thread that `start_assist_pipeline` starts. -/
def newThread : PipelineThread where
  generation := s.generation
  samples := s.pcmSamples
  conversationId := (s.expireConversation w).conversation.id

def startAssistPipeline : State :=
  { s with
    conversation := (s.expireConversation w).conversation
    display := (s.display.setState .processing).setText
    threads := s.threads ++ [s.newThread w]
    pipelineRunning := true
    pcmSamples := []
    trace := .pipelineStarted s.pipelineRunning s.generation :: s.trace }

/-- The assignments before `begin_wake_command_capture` starts the capture. -/
def armWakeCommand : State :=
  { s with
    generation := s.generation + 1
    pcmSamples := []
    wakeCaptureActive := true
    wakeSpeechDetected := false
    wakeCaptureStartedAt := w.now
    wakeLastVoiceAt := w.now
    display := s.display.showOverlay .listening }

def beginWakeCommandCapture : State :=
  let s := (s.armWakeCommand w).startCapture w .wakeCommand
  if w.captureStarts then s
  else { s with
    wakeCaptureActive := false
    display := s.display.showError w.now
    wakeRestartAfter := deadline w.now 3000 }

def finishWakeCommandCapture (submit : Bool) : State :=
  let s := { s with wakeCaptureActive := false }.stopCapture w
  if submit ∧ 3200 ≤ s.pcmSamples.length then s.startAssistPipeline w
  else { s with
    pcmSamples := []
    display := s.display.showError w.now
    wakeRestartAfter := deadline w.now 2500 }

end State

/-! ### Results -/

namespace AssistPipelineUiResult

variable (data : AssistPipelineUiResult)

/-- The answer without its markup. -/
def plainResponse : Bytes := plainText data.result.response

/-- Is the answer a question, or does Home Assistant expect to hear more? -/
def askFollowup : Bool :=
  data.result.continueConversation || data.plainResponse.getLast? == some (byte '?')

/-- Is the context of the conversation kept for long? -/
def conversational : Bool :=
  data.result.continueConversation || data.result.responseType == str "query_answer" ||
    data.plainResponse.getLast? == some (byte '?')

/-- A result may name the conversation it belongs to. -/
def adopt (c : Conversation) : Conversation :=
  if data.result.conversationId ≠ [] then { c with id := data.result.conversationId } else c

/-- The conversation after a successful result. -/
def remember (now : UInt32) (c : Conversation) : Conversation :=
  if data.finalResult ∧ data.result.transcript ≠ [] then
    let history := c.history ++ [⟨data.result.transcript, data.plainResponse⟩]
    { c with
      history := history.drop (history.length - 6)
      expiresAt := deadline now (if data.conversational then 45000 else 15000) }
  else c

/-- The branches of `apply_assist_pipeline_result`. -/
inductive Branch where
  | ttsLevel
  | transcript
  | playback
  | success
  | failure
  deriving DecidableEq

/-- The branch `apply_assist_pipeline_result` takes. -/
def branch : Branch :=
  if data.result.stage = str "tts_level" then .ttsLevel
  else if data.result.stage = str "transcript" then .transcript
  else if data.result.stage = str "playback" ∧ ¬ data.finalResult then .playback
  else if data.result.success then .success
  else .failure

end AssistPipelineUiResult

namespace State

variable (s : State) (w : World)

/-- The branch of `apply_assist_pipeline_result` for a success. -/
def applySuccess (data : AssistPipelineUiResult) : State :=
  let display := if s.display.responseStartedAt = 0 then s.display.showResponse w.now else s.display
  let s := { s with conversation := data.remember w.now s.conversation, display := display }
  if data.finalResult ∧ data.askFollowup then s.beginWakeCommandCapture w
  else { s with display := { s.display.setState .done with hideAt := deadline w.now 10000 } }

/-- The branch of `apply_assist_pipeline_result` for a failure. -/
def applyFailure (data : AssistPipelineUiResult) : State :=
  let display := s.display.showOverlay .error
  { s with
    display :=
      if data.finalResult then { display with hideAt := deadline w.now 10000 } else display }

def applyAssistPipelineResult (data : AssistPipelineUiResult) : State :=
  if data.generation = s.generation then
    let s := { s with conversation := data.adopt s.conversation }
    match data.branch with
    | .ttsLevel => s
    | .transcript => { s with display := s.display.showTranscript }
    | .playback => { s with display := s.display.showResponse w.now }
    | .success => s.applySuccess w data
    | .failure => s.applyFailure w data
  else s

def applyNextAssistPipelineResult : State :=
  match s.pendingResults with
  | [] => s
  | r :: rest =>
    { s with
      pendingResults := rest
      trace := .dequeued r s.generation :: s.trace }.applyAssistPipelineResult w r

/-! ### Callbacks of the user interface -/

/-- What `assist_ptt_event_cb` does before it starts the capture. -/
def armPtt : State :=
  { s.stopListener w with
    wakeRestartAfter := deadline w.now 1000
    generation := s.generation + 1
    pcmSamples := []
    display := s.display.showOverlay .listening }

def pttPressed : State :=
  if s.pipelineRunning then s
  else
    let s := (s.armPtt w).startCapture w .ptt
    if w.captureStarts then s
    else if s.assistScreen then { s with display := s.display.showError w.now }
    else s

/-- `LV_EVENT_RELEASED` and `LV_EVENT_PRESS_LOST` of the push-to-talk button. -/
def pttReleased : State :=
  let s := s.stopCapture w
  if s.pcmSamples.length < 3200 then { s with display := s.display.showError w.now }
  else s.startAssistPipeline w

/-- `assist_overlay_cancel_event_cb`. -/
def cancel : State :=
  let s := { s with generation := s.generation + 1, wakeCaptureActive := false }.stopCapture w
  { s with wakeRestartAfter := deadline w.now 1000, display := s.display.hideOverlay }

def newConversation : State := if s.pipelineRunning then s else s.resetConversation

def createAssistScreen : State := { s with assistScreen := true }

def closeAssistScreen : State :=
  if s.assistScreen then
    let s := { s with
      generation := s.generation + 1
      display := s.display.hideOverlay
      pendingResults := [] }.stopCapture w
    { s with assistScreen := false }
  else s

/-- `create_microphone_screen`; the two settings are read from their files. -/
def createMicrophoneScreen (wakeEnabled muteOnBlank : Bool) : State :=
  if s.microphoneScreen then s
  else
    let s := { s with micWakeEnabled := wakeEnabled, micMuteOnBlank := muteOnBlank }.stopListener w
    { s.startCapture w .microphoneTest with microphoneScreen := true }

def closeMicrophoneScreen : State :=
  let s := s.stopCapture w
  ({ s with microphoneScreen := false }.startWakeWordListener w).1

/-- The screens `close_settings` closes that have to do with Assist. -/
def closeSettings : State := (s.closeMicrophoneScreen w).closeAssistScreen w

/-- `mic_toggle_event_cb` for the wake word. -/
def toggleWake (enabled : Bool) : State :=
  let s := { s with micWakeEnabled := enabled }
  if enabled then s else s.stopListener w

/-- `mic_toggle_event_cb` for muting while the screen is blank. -/
def toggleMuteOnBlank (enabled : Bool) : State := { s with micMuteOnBlank := enabled }

/-! ### Timers -/

def assistLevelTimer : State := if s.assistScreen then s.applyNextAssistPipelineResult w else s

def assistOverlayTimer : State :=
  if s.display.overlay ∧ s.display.hideAt ≠ 0 ∧ reached w.now s.display.hideAt then
    { s with display := s.display.hideOverlay }
  else s

/-- `assist_runtime_timer_cb` applies a result and reads the time. -/
def tickResult : State := { s.applyNextAssistPipelineResult w with tick := .wake w.now }

/-- May a pending wake word start a capture? -/
def wakeReady : Bool :=
  s.wakePending && !s.pipelineRunning && !s.wakeCaptureActive && s.audio.isNone

def tickWake (now : UInt32) : State :=
  if s.wakeReady then
    let s := { s with wakePending := false }.stopListener w
    { s.beginWakeCommandCapture w with tick := .idle }
  else { s with tick := .capture now }

def tickCapture (now : UInt32) : State :=
  if s.wakeCaptureActive then
    let elapsed := now - s.wakeCaptureStartedAt
    let speech := s.wakeSpeechDetected
    let silence := now - s.wakeLastVoiceAt
    let s := { s with tick := .idle }
    if (speech ∧ 1200 ≤ elapsed ∧ 1100 ≤ silence) ∨ 10000 ≤ elapsed then
      s.finishWakeCommandCapture w speech
    else if !speech ∧ 5000 ≤ elapsed then s.finishWakeCommandCapture w false
    else s
  else { s with tick := .listener now }

def tickListener (now : UInt32) : State :=
  let s := { s with tick := .idle }
  if !s.pipelineRunning ∧ s.audio.isNone ∧ !s.listener ∧ reached now s.wakeRestartAfter then
    let (s, started) := s.startWakeWordListener w
    if started then s else { s with wakeRestartAfter := deadline now 5000 }
  else s

/-! ### Other threads -/

/-- A pipeline thread reports progress. -/
def progress (i : ℕ) (result : AssistPipelineResult) : State :=
  match s.threads[i]? with
  | some t =>
    if t.outcome.isNone then
      { s with pendingResults := s.pendingResults ++ [⟨t.generation, result, false⟩] }
    else s
  | none => s

/-- `run_assist_pipeline_process` returns, and the thread clears `assist_pipeline_running`. -/
def clearRunning (i : ℕ) (result : AssistPipelineResult) : State :=
  match s.threads[i]? with
  | some t =>
    if t.outcome.isNone then
      { s with
        pipelineRunning := false
        threads := s.threads.set i { t with outcome := some result } }
    else s
  | none => s

/-- The thread queues the final result and ends. -/
def queueFinal (i : ℕ) : State :=
  match s.threads[i]? with
  | some t =>
    match t.outcome with
    | some result =>
      { s with
        pendingResults := s.pendingResults ++ [⟨t.generation, result, true⟩]
        threads := s.threads.eraseIdx i }
    | none => s
  | none => s

end State

/-! ### Steps -/

/-- A callback that the panel's thread runs between two ticks of the runtime timer. -/
inductive Callback where
  | pttPressed
  | pttReleased
  | cancel
  | newConversation
  | createAssistScreen
  | closeAssistScreen
  | createMicrophoneScreen (wakeEnabled muteOnBlank : Bool)
  | closeMicrophoneScreen
  | closeSettings
  | toggleWake (enabled : Bool)
  | toggleMuteOnBlank (enabled : Bool)
  | levelTimer
  | overlayTimer
  deriving DecidableEq

/-- A step of another thread, or of the environment. -/
inductive Outside where
  | frame (now : UInt32) (f : Frame)
  | captureEnds
  | listenerEnds
  | wakeDetected
  | progress (i : ℕ) (result : AssistPipelineResult)
  | clearRunning (i : ℕ) (result : AssistPipelineResult)
  | queueFinal (i : ℕ)
  | setBlanked (blanked : Bool)

inductive Step where
  | callback (c : Callback) (w : World)
  /-- The next part of `assist_runtime_timer_cb`. -/
  | runtimeTimer (w : World)
  | outside (o : Outside)

namespace State

def callback (s : State) (w : World) : Callback → State
  | .pttPressed => s.pttPressed w
  | .pttReleased => s.pttReleased w
  | .cancel => s.cancel w
  | .newConversation => s.newConversation
  | .createAssistScreen => s.createAssistScreen
  | .closeAssistScreen => s.closeAssistScreen w
  | .createMicrophoneScreen wakeEnabled muteOnBlank =>
    s.createMicrophoneScreen w wakeEnabled muteOnBlank
  | .closeMicrophoneScreen => s.closeMicrophoneScreen w
  | .closeSettings => s.closeSettings w
  | .toggleWake enabled => s.toggleWake w enabled
  | .toggleMuteOnBlank enabled => s.toggleMuteOnBlank enabled
  | .levelTimer => s.assistLevelTimer w
  | .overlayTimer => s.assistOverlayTimer w

def runtimeTimer (s : State) (w : World) : State :=
  match s.tick with
  | .idle => s.tickResult w
  | .wake now => s.tickWake w now
  | .capture now => s.tickCapture w now
  | .listener now => s.tickListener w now

def outside (s : State) : Outside → State
  | .frame now f => s.frame now f
  | .captureEnds => { s with audio := none }
  | .listenerEnds => { s with listener := false }
  -- the handler runs on the monitor thread, which lives while the listener runs
  | .wakeDetected => if s.listener then { s with wakePending := true } else s
  | .progress i result => s.progress i result
  | .clearRunning i result => s.clearRunning i result
  | .queueFinal i => s.queueFinal i
  | .setBlanked blanked => { s with display := { s.display with blanked := blanked } }

end State

/-- One step.  Callbacks wait until the runtime timer has returned. -/
def next (s : State) : Step → State
  | .callback c w => if s.tick = .idle then s.callback w c else s
  | .runtimeTimer w => s.runtimeTimer w
  | .outside o => s.outside o

/-! ### What the operations change -/

namespace State

variable (s : State) (w : World)

/-- `g_assist_audio` runs with a handler that stores samples. -/
def recording : Bool := s.audio.any FrameHandler.records

theorem frame_eq (now : UInt32) (f : Frame) :
    ∃ p b t, s.frame now f =
      { s with pcmSamples := p, wakeSpeechDetected := b, wakeLastVoiceAt := t } ∧
      (s.recording = false → p = s.pcmSamples) := by
  have hstore : ∀ n, ∃ p, s.store n f = { s with pcmSamples := p } := by
    intro n
    rw [store]
    split
    · exact ⟨_, rfl⟩
    · exact ⟨_, rfl⟩
  unfold frame
  split
  · rename_i ha
    obtain ⟨p, hp⟩ := hstore (16000 * 10)
    rw [wakeCommandHandler, hp]
    split
    · exact ⟨p, _, _, rfl, by simp [recording, ha, FrameHandler.records]⟩
    · exact ⟨p, _, _, rfl, by simp [recording, ha, FrameHandler.records]⟩
  · rename_i ha
    obtain ⟨p, hp⟩ := hstore (16000 * 15)
    rw [pttHandler, hp]
    exact ⟨p, _, _, rfl, by simp [recording, ha, FrameHandler.records]⟩
  · exact ⟨_, _, _, rfl, fun _ => rfl⟩
  · exact ⟨_, _, _, rfl, fun _ => rfl⟩

theorem foldl_frame_eq (now : UInt32) (fs : List Frame) :
    ∃ p b t, fs.foldl (fun s f => s.frame now f) s =
      { s with pcmSamples := p, wakeSpeechDetected := b, wakeLastVoiceAt := t } ∧
      (s.recording = false → p = s.pcmSamples) := by
  induction fs generalizing s with
  | nil => exact ⟨_, _, _, rfl, fun _ => rfl⟩
  | cons f fs ih =>
    obtain ⟨p, b, t, hf, hp⟩ := s.frame_eq now f
    obtain ⟨p', b', t', hfs, hp'⟩ := ih (s.frame now f)
    refine ⟨p', b', t', ?_, ?_⟩
    · rw [List.foldl_cons, hfs, hf]
    · intro hr
      rw [hf] at hp'
      exact (hp' hr).trans (hp hr)

/-- Stopping the capture may still add samples. -/
theorem stopCapture_eq :
    ∃ p b t, s.stopCapture w =
      { s with
        pcmSamples := p, wakeSpeechDetected := b, wakeLastVoiceAt := t, audio := none } ∧
      (s.recording = false → p = s.pcmSamples) := by
  obtain ⟨p, b, t, hfs, hp⟩ := s.foldl_frame_eq w.now w.lateFrames
  exact ⟨p, b, t, by rw [stopCapture, hfs], hp⟩

theorem startCapture_eq (handler : FrameHandler) :
    ∃ p b t, s.startCapture w handler =
      { s with
        pcmSamples := p
        wakeSpeechDetected := b
        wakeLastVoiceAt := t
        audio := if w.captureStarts then some handler else none
        trace :=
          if w.captureStarts then .captureStarted handler s.pipelineRunning :: s.trace
          else s.trace } ∧
      (s.recording = false → p = s.pcmSamples) := by
  obtain ⟨p, b, t, hs, hp⟩ := s.stopCapture_eq w
  refine ⟨p, b, t, ?_, hp⟩
  rw [startCapture, hs]
  cases w.captureStarts <;> rfl

/-- A new capture opens a new generation. -/
theorem beginWakeCommandCapture_eq :
    ∃ p b t d r, s.beginWakeCommandCapture w =
      { s with
        generation := s.generation + 1
        pcmSamples := p
        wakeCaptureActive := w.captureStarts
        wakeSpeechDetected := b
        wakeCaptureStartedAt := w.now
        wakeLastVoiceAt := t
        wakeRestartAfter := r
        display := d
        audio := if w.captureStarts then some .wakeCommand else none
        trace :=
          if w.captureStarts then .captureStarted .wakeCommand s.pipelineRunning :: s.trace
          else s.trace } := by
  unfold beginWakeCommandCapture
  obtain ⟨p, b, t, hs, -⟩ := (s.armWakeCommand w).startCapture_eq w .wakeCommand
  rw [hs]
  cases w.captureStarts
  · exact ⟨p, b, t, _, _, rfl⟩
  · exact ⟨p, b, t, _, _, rfl⟩

/-- Does `start_wake_word_listener` start the listener? -/
def listenerStarts : Bool :=
  s.micWakeEnabled && !(s.display.blanked && s.micMuteOnBlank) && w.configured && w.assets &&
    w.listenerStarts

theorem startWakeWordListener_eq :
    ∃ p l, (s.startWakeWordListener w).1 =
      { s with
        wakePending := p
        listener := l
        trace :=
          if s.listenerStarts w then .listenerStarted s.pipelineRunning :: s.trace
          else s.trace } ∧
      (s.listenerStarts w = false → s.listener = false → l = false) := by
  cases hs : s.listenerStarts w with
  | true =>
    simp only [listenerStarts, Bool.and_eq_true, Bool.not_eq_true'] at hs
    obtain ⟨⟨⟨⟨h₁, h₂⟩, h₃⟩, h₄⟩, h₅⟩ := hs
    refine ⟨(s.stopListener w).wakePending, true, ?_, fun h => nomatch h⟩
    simp [startWakeWordListener, stopListener, h₁, h₂, h₃, h₄, h₅]
  | false =>
    -- every test that fails leaves the listener alone, but the last: it comes after the stop
    unfold startWakeWordListener
    split
    · exact ⟨_, _, rfl, fun _ => id⟩
    split
    · exact ⟨_, _, rfl, fun _ => id⟩
    split
    · exact ⟨_, _, rfl, fun _ => id⟩
    split
    · exact ⟨_, _, rfl, fun _ => id⟩
    rename_i h₁ h₂ h₃ h₄
    have h₅ : w.listenerStarts = false := by simp_all [listenerStarts]
    simp only [h₅, Bool.false_eq_true, if_false]
    exact ⟨_, _, rfl, fun _ _ => rfl⟩

end State

/-- Does the result make the panel listen again? -/
def AssistPipelineUiResult.reopens (data : AssistPipelineUiResult) : Bool :=
  data.branch = .success ∧ data.finalResult ∧ data.askFollowup

theorem AssistPipelineUiResult.final_of_reopens {data : AssistPipelineUiResult}
    (h : data.reopens = true) : data.finalResult = true := by
  simp only [reopens, decide_eq_true_eq] at h
  exact h.2.1

namespace State

variable (s : State) (w : World)

/-- A result changes the conversation and the screen, and it may begin a capture. -/
theorem applyAssistPipelineResult_eq (data : AssistPipelineUiResult) :
    ∃ c d, s.applyAssistPipelineResult w data =
      if data.generation = s.generation ∧ data.reopens then
        { s with conversation := c, display := d }.beginWakeCommandCapture w
      else { s with conversation := c, display := d } := by
  unfold applyAssistPipelineResult
  by_cases hg : data.generation = s.generation
  · simp only [hg, if_true, true_and, AssistPipelineUiResult.reopens]
    cases hb : data.branch
    case success =>
      by_cases hf : data.finalResult ∧ data.askFollowup
      · exact ⟨_, _, by simp only [applySuccess, hf]; rfl⟩
      · exact ⟨_, _, by simp only [applySuccess, hf]; rfl⟩
    all_goals exact ⟨_, _, rfl⟩
  · exact ⟨_, _, by simp only [hg, if_false, false_and]; rfl⟩

/-- The result `r` has been dequeued and shown. -/
def shown (r : AssistPipelineUiResult) (rest : List AssistPipelineUiResult) (c : Conversation)
    (d : Display) : State :=
  { s with
    pendingResults := rest
    trace := .dequeued r s.generation :: s.trace
    conversation := c
    display := d }

variable {s}

/-- A wake word starts a capture only while no pipeline is running. -/
theorem not_running_of_wakeReady (h : s.wakeReady = true) : s.pipelineRunning = false := by
  simp only [wakeReady, Bool.and_eq_true, Bool.not_eq_true'] at h
  exact h.1.1.2

theorem applyNextAssistPipelineResult_nil (h : s.pendingResults = []) :
    s.applyNextAssistPipelineResult w = s := by
  simp only [applyNextAssistPipelineResult, h]

theorem applyNextAssistPipelineResult_cons {r : AssistPipelineUiResult}
    {rest : List AssistPipelineUiResult} (h : s.pendingResults = r :: rest) :
    ∃ c d, s.applyNextAssistPipelineResult w =
      if r.generation = s.generation ∧ r.reopens then
        (s.shown r rest c d).beginWakeCommandCapture w
      else s.shown r rest c d := by
  simp only [applyNextAssistPipelineResult, h]
  exact applyAssistPipelineResult_eq
    { s with pendingResults := rest, trace := .dequeued r s.generation :: s.trace } w r

end State

end Assist

end HaPanel
