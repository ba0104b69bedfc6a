import HaPanel.Assist.Machine

/-!
# Deadlines and the true time

`custom_tick_get` counts milliseconds modulo `2 ^ 32`.  A deadline is a value of that counter; it is
compared by signed difference, and two of the three deadlines use the value `0` for "not set".

`Timed` is the Assist machine with the true time beside it: every step says how many milliseconds
passed before it, and `Deadlines` records for which true time each deadline was last set.  The
machine does not read the recorded times.  They determine its counters: there is one lemma for every
operation that sets a deadline (`Deadlines.counters_callback` and the lemmas before it).
-/

namespace HaPanel

namespace Assist

/-! ### The counter -/

theorem toNat_sub_ofNat (t T : ℕ) :
    ((UInt32.ofNat t - UInt32.ofNat T).toNat : ℤ) = ((t : ℤ) - T) % 2 ^ 32 := by
  rw [UInt32.toNat_sub]
  simp only [UInt32.toNat_ofNat']
  omega

theorem reached_ofNat (t T : ℕ) :
    reached (UInt32.ofNat t) (UInt32.ofNat T) = true ↔ ((t : ℤ) - T) % 2 ^ 32 < 2 ^ 31 := by
  have hhalf : (2 ^ 31 : UInt32).toNat = 2 ^ 31 := by decide
  rw [← toNat_sub_ofNat, reached, decide_eq_true_eq, UInt32.lt_iff_toNat_lt, hhalf]
  exact_mod_cast Iff.rfl

theorem ofNat_eq_zero_iff (T : ℕ) : UInt32.ofNat T = 0 ↔ 2 ^ 32 ∣ T := by
  rw [← UInt32.toNat_inj, UInt32.toNat_ofNat']
  exact Nat.dvd_iff_mod_eq_zero.symm

theorem deadline_ofNat (t ms : ℕ) :
    deadline (UInt32.ofNat t) (UInt32.ofNat ms) = UInt32.ofNat (t + ms) := by
  unfold deadline
  exact (UInt32.ofNat_add t ms).symm

/-! ### The true times -/

/-- The true times for which the deadlines of the machine were last set. -/
structure Deadlines where
  /-- `assist_conversation_expires_at`. -/
  expires : Option ℕ := none
  /-- `assist_wake_restart_after`. -/
  restart : ℕ
  /-- `assist_overlay_hide_at`. -/
  hide : Option ℕ := none
  deriving DecidableEq

namespace Deadlines

variable (d : Deadlines) (s : State) (w : World) (t : ℕ)

/-- An error on the overlay, which is hidden after ten seconds. -/
def showError : Deadlines := { d with hide := some (t + 10000) }

/-- Another text on the overlay, if there is one. -/
def showText : Deadlines := if s.display.overlay then { d with hide := none } else d

def startAssistPipeline : Deadlines :=
  { d with
    expires :=
      if s.conversation.expiresAt ≠ 0 ∧ reached w.now s.conversation.expiresAt then none
      else d.expires
    hide := none }

def beginWakeCommandCapture : Deadlines :=
  if w.captureStarts then { d with hide := none }
  else { d.showError t with restart := t + 3000 }

def finishWakeCommandCapture (submit : Bool) : Deadlines :=
  let s := { s with wakeCaptureActive := false }.stopCapture w
  if submit ∧ 3200 ≤ s.pcmSamples.length then d.startAssistPipeline s w
  else { d.showError t with restart := t + 2500 }

/-- The context of the conversation is kept for a while after a successful result. -/
def remember (data : AssistPipelineUiResult) : Deadlines :=
  if data.finalResult ∧ data.result.transcript ≠ [] then
    { d with expires := some (t + if data.conversational then 45000 else 15000) }
  else d

def applySuccess (data : AssistPipelineUiResult) : Deadlines :=
  if data.finalResult ∧ data.askFollowup then (d.remember t data).beginWakeCommandCapture w t
  else { d.remember t data with hide := some (t + 10000) }

def applyFailure (data : AssistPipelineUiResult) : Deadlines :=
  { d with hide := if data.finalResult then some (t + 10000) else none }

def applyAssistPipelineResult (data : AssistPipelineUiResult) : Deadlines :=
  if data.generation = s.generation then
    match data.branch with
    | .ttsLevel => d
    | .transcript => d.showText s
    | .playback => d.showText s
    | .success => d.applySuccess w t data
    | .failure => d.applyFailure t data
  else d

def applyNextAssistPipelineResult : Deadlines :=
  match s.pendingResults with
  | [] => d
  | r :: _ => d.applyAssistPipelineResult s w t r

def pttPressed : Deadlines :=
  if s.pipelineRunning then d
  else
    let d := { d with restart := t + 1000, hide := none }
    if w.captureStarts then d else if s.assistScreen then d.showError t else d

def pttReleased : Deadlines :=
  let s := s.stopCapture w
  if s.pcmSamples.length < 3200 then d.showError t else d.startAssistPipeline s w

def cancel : Deadlines := { d with restart := t + 1000, hide := none }

def newConversation : Deadlines := if s.pipelineRunning then d else { d with expires := none }

/-- `close_assist_screen`, which `close_settings` calls too. -/
def closeAssistScreen : Deadlines := if s.assistScreen then { d with hide := none } else d

def assistLevelTimer : Deadlines :=
  if s.assistScreen then d.applyNextAssistPipelineResult s w t else d

def assistOverlayTimer : Deadlines :=
  if s.display.overlay ∧ s.display.hideAt ≠ 0 ∧ reached w.now s.display.hideAt then
    { d with hide := none }
  else d

def callback : Callback → Deadlines
  | .pttPressed => d.pttPressed s w t
  | .pttReleased => d.pttReleased s w t
  | .cancel => d.cancel t
  | .newConversation => d.newConversation s
  | .closeAssistScreen => d.closeAssistScreen s
  | .closeSettings => d.closeAssistScreen s
  | .levelTimer => d.assistLevelTimer s w t
  | .overlayTimer => d.assistOverlayTimer s w
  | .createAssistScreen => d
  | .createMicrophoneScreen _ _ => d
  | .closeMicrophoneScreen => d
  | .toggleWake _ => d
  | .toggleMuteOnBlank _ => d

def tickWake : Deadlines := if s.wakeReady then d.beginWakeCommandCapture w t else d

def tickCapture (now : UInt32) : Deadlines :=
  if s.wakeCaptureActive then
    let elapsed := now - s.wakeCaptureStartedAt
    let speech := s.wakeSpeechDetected
    let silence := now - s.wakeLastVoiceAt
    let s := { s with tick := .idle }
    if (speech ∧ 1200 ≤ elapsed ∧ 1100 ≤ silence) ∨ 10000 ≤ elapsed then
      d.finishWakeCommandCapture s w t speech
    else if !speech ∧ 5000 ≤ elapsed then d.finishWakeCommandCapture s w t false
    else d
  else d

end Deadlines

/-- Does the last part of the runtime timer call `start_wake_word_listener`? -/
def State.callsStartWakeWordListener (s : State) (now : UInt32) : Bool :=
  !s.pipelineRunning && s.audio.isNone && !s.listener && reached now s.wakeRestartAfter

theorem State.tickListener_eq (s : State) (w : World) (now : UInt32) :
    s.tickListener w now =
      if s.callsStartWakeWordListener now then
        if ({ s with tick := .idle }.startWakeWordListener w).2 then
          ({ s with tick := .idle }.startWakeWordListener w).1
        else
          { ({ s with tick := .idle }.startWakeWordListener w).1 with
            wakeRestartAfter := deadline now 5000 }
      else { s with tick := .idle } := by
  simp only [tickListener, callsStartWakeWordListener, Bool.and_eq_true, and_assoc]

namespace Deadlines

variable (d : Deadlines) (s : State) (w : World) (t : ℕ)

/-- The last part of the runtime timer; `t` is the time that its first part has read. -/
def tickListener (now : UInt32) : Deadlines :=
  if s.callsStartWakeWordListener now ∧ ({ s with tick := .idle }.startWakeWordListener w).2 = false
  then { d with restart := t + 5000 }
  else d

/-- The next part of the runtime timer at time `t`; `t₀` is the time that its first part has
read. -/
def runtimeTimer (t₀ : ℕ) : Deadlines :=
  match s.tick with
  | .idle => d.applyNextAssistPipelineResult s w t
  | .wake _ => d.tickWake s w t
  | .capture now => d.tickCapture s w t now
  | .listener now => d.tickListener s w t₀ now

def next (t₀ : ℕ) : Step → Deadlines
  | .callback c w => if s.tick = .idle then d.callback s w t c else d
  | .runtimeTimer w => d.runtimeTimer s w t t₀
  | .outside _ => d

end Deadlines

/-- The machine, the true time, and the true time that the runtime timer has read. -/
structure Timed where
  state : State
  clock : ℕ
  tickTime : ℕ
  due : Deadlines

/-- A step, and the milliseconds that pass before it. -/
structure TimedStep where
  elapsed : ℕ
  step : Step

/-- `custom_tick_get` at the true time `t`. -/
def World.at (w : World) (t : ℕ) : World := { w with now := UInt32.ofNat t }

/-- The step, taken at the true time `t`. -/
def Step.at (t : ℕ) : Step → Step
  | .callback c w => .callback c (w.at t)
  | .runtimeTimer w => .runtimeTimer (w.at t)
  | .outside (.frame _ f) => .outside (.frame (UInt32.ofNat t) f)
  | .outside o => .outside o

namespace Timed

/-- The timers are created at the true time `t`. -/
def initial (t : ℕ) : Timed := ⟨State.initial (UInt32.ofNat t), t, t, { restart := t + 1000 }⟩

def next (σ : Timed) (a : TimedStep) : Timed :=
  let t := σ.clock + a.elapsed
  { state := Assist.next σ.state (a.step.at t)
    clock := t
    -- the first part of the runtime timer reads the time
    tickTime := if σ.state.tick = .idle then t else σ.tickTime
    due := σ.due.next σ.state t σ.tickTime (a.step.at t) }

end Timed

/-! ### The counters follow the true times -/

/-- The counters of the three deadlines. -/
structure Counters where
  expiresAt : UInt32
  restartAfter : UInt32
  hideAt : UInt32

def State.counters (s : State) : Counters :=
  ⟨s.conversation.expiresAt, s.wakeRestartAfter, s.display.hideAt⟩

/-- The counter of a deadline that may not be set. -/
def counter : Option ℕ → UInt32
  | none => 0
  | some T => UInt32.ofNat T

def Deadlines.counters (d : Deadlines) : Counters :=
  ⟨counter d.expires, UInt32.ofNat d.restart, counter d.hide⟩

namespace Display

variable (d : Display) (now : UInt32)

@[simp] theorem setState_hideAt (state : OverlayState) : (d.setState state).hideAt = 0 := rfl

@[simp] theorem setText_hideAt : d.setText.hideAt = d.hideAt := by
  unfold setText
  split_ifs <;> rfl

@[simp] theorem showOverlay_hideAt (state : OverlayState) : (d.showOverlay state).hideAt = 0 := by
  simp [showOverlay]

@[simp] theorem showError_hideAt : (d.showError now).hideAt = deadline now 10000 := rfl

@[simp] theorem showTranscript_hideAt :
    d.showTranscript.hideAt = if d.overlay then 0 else d.hideAt := by
  unfold showTranscript
  split_ifs <;> rfl

@[simp] theorem showResponse_hideAt :
    (d.showResponse now).hideAt = if d.overlay then 0 else d.hideAt := by
  unfold showResponse
  split_ifs <;> rfl

end Display

namespace State

variable (s : State) (w : World)

theorem counters_stopCapture : (s.stopCapture w).counters = s.counters := by
  obtain ⟨p, b, t, hs, -⟩ := s.stopCapture_eq w
  rw [hs]
  rfl

theorem counters_startCapture (handler : FrameHandler) :
    (s.startCapture w handler).counters = s.counters := by
  obtain ⟨p, b, t, hs, -⟩ := s.startCapture_eq w handler
  rw [hs]
  rfl

theorem counters_startWakeWordListener : (s.startWakeWordListener w).1.counters = s.counters := by
  obtain ⟨p, l, hs, -⟩ := s.startWakeWordListener_eq w
  rw [hs]
  rfl

end State

section

variable {d : Deadlines} {s : State} {w : World} {t : ℕ}

theorem counters_eq_iff :
    d.counters = s.counters ↔ counter d.expires = s.conversation.expiresAt ∧
      UInt32.ofNat d.restart = s.wakeRestartAfter ∧ counter d.hide = s.display.hideAt := by
  simp only [Deadlines.counters, State.counters, Counters.mk.injEq]

theorem counter_deadline (t ms : ℕ) :
    counter (some (t + ms)) = deadline (UInt32.ofNat t) (UInt32.ofNat ms) :=
  (deadline_ofNat t ms).symm

namespace Deadlines

theorem counters_startAssistPipeline (h : d.counters = s.counters) :
    (d.startAssistPipeline s w).counters = (s.startAssistPipeline w).counters := by
  obtain ⟨he, hr, -⟩ := counters_eq_iff.mp h
  refine counters_eq_iff.mpr ⟨?_, hr, ?_⟩
  · simp only [startAssistPipeline, State.startAssistPipeline, State.expireConversation]
    split_ifs
    · rfl
    · exact he
  · simp [startAssistPipeline, State.startAssistPipeline, counter]

/-- The capture shows an overlay of its own, whatever was to be hidden before. -/
theorem counters_beginWakeCommandCapture (he : counter d.expires = s.conversation.expiresAt)
    (hr : UInt32.ofNat d.restart = s.wakeRestartAfter) :
    (d.beginWakeCommandCapture (w.at t) t).counters =
      (s.beginWakeCommandCapture (w.at t)).counters := by
  obtain ⟨p, b, u, hs, -⟩ := (s.armWakeCommand (w.at t)).startCapture_eq (w.at t) .wakeCommand
  rw [beginWakeCommandCapture, State.beginWakeCommandCapture, hs]
  split_ifs
  · exact counters_eq_iff.mpr ⟨he, hr, by simp [State.armWakeCommand, counter]⟩
  · exact counters_eq_iff.mpr ⟨he, (deadline_ofNat t 3000).symm, counter_deadline t 10000⟩

theorem counters_finishWakeCommandCapture (h : d.counters = s.counters) (submit : Bool) :
    (d.finishWakeCommandCapture s (w.at t) t submit).counters =
      (s.finishWakeCommandCapture (w.at t) submit).counters := by
  have hs : d.counters = ({ s with wakeCaptureActive := false }.stopCapture (w.at t)).counters := by
    rw [State.counters_stopCapture]
    exact h
  simp only [finishWakeCommandCapture, State.finishWakeCommandCapture]
  split_ifs
  · exact counters_startAssistPipeline hs
  · exact counters_eq_iff.mpr ⟨(counters_eq_iff.mp hs).1, (deadline_ofNat t 2500).symm,
      counter_deadline t 10000⟩

theorem counter_remember (data : AssistPipelineUiResult) {c : Conversation}
    (h : counter d.expires = c.expiresAt) :
    counter (d.remember t data).expires = (data.remember (UInt32.ofNat t) c).expiresAt := by
  unfold remember AssistPipelineUiResult.remember
  split_ifs
  · exact counter_deadline t 45000
  · exact counter_deadline t 15000
  · exact h

theorem remember_restart (data : AssistPipelineUiResult) :
    (d.remember t data).restart = d.restart := by
  unfold remember
  split_ifs <;> rfl

theorem counters_applySuccess (h : d.counters = s.counters) (data : AssistPipelineUiResult) :
    (d.applySuccess (w.at t) t data).counters = (s.applySuccess (w.at t) data).counters := by
  obtain ⟨he, hr, -⟩ := counters_eq_iff.mp h
  have he' := counter_remember (t := t) data he
  have hr' : UInt32.ofNat (d.remember t data).restart = s.wakeRestartAfter := by
    rw [remember_restart, hr]
  simp only [applySuccess, State.applySuccess]
  split_ifs
  all_goals first
    | exact counters_beginWakeCommandCapture he' hr'
    | exact counters_eq_iff.mpr ⟨he', hr', counter_deadline t 10000⟩

theorem counters_applyFailure (h : d.counters = s.counters) (data : AssistPipelineUiResult) :
    (d.applyFailure t data).counters = (s.applyFailure (w.at t) data).counters := by
  obtain ⟨he, hr, -⟩ := counters_eq_iff.mp h
  refine counters_eq_iff.mpr ⟨he, hr, ?_⟩
  simp only [applyFailure, State.applyFailure]
  split_ifs
  · exact counter_deadline t 10000
  · simp [counter]

theorem counters_applyAssistPipelineResult (h : d.counters = s.counters)
    (data : AssistPipelineUiResult) :
    (d.applyAssistPipelineResult s (w.at t) t data).counters =
      (s.applyAssistPipelineResult (w.at t) data).counters := by
  -- the name of the conversation says nothing about when it expires
  have hadopt : d.counters = { s with conversation := data.adopt s.conversation : State }.counters := by
    rw [h, State.counters, State.counters, AssistPipelineUiResult.adopt]
    split_ifs <;> rfl
  obtain ⟨he, hr, hh⟩ := counters_eq_iff.mp hadopt
  unfold applyAssistPipelineResult State.applyAssistPipelineResult
  by_cases hg : data.generation = s.generation
  · simp only [hg, if_true]
    cases hb : data.branch with
    | ttsLevel => exact hadopt
    | transcript =>
      refine counters_eq_iff.mpr ?_
      simp only [showText, Display.showTranscript_hideAt]
      split_ifs
      · exact ⟨he, hr, rfl⟩
      · exact ⟨he, hr, hh⟩
    | playback =>
      refine counters_eq_iff.mpr ?_
      simp only [showText, Display.showResponse_hideAt]
      split_ifs
      · exact ⟨he, hr, rfl⟩
      · exact ⟨he, hr, hh⟩
    | success => exact counters_applySuccess hadopt data
    | failure => exact counters_applyFailure hadopt data
  · simp only [hg, if_false]
    exact h

theorem counters_applyNextAssistPipelineResult (h : d.counters = s.counters) :
    (d.applyNextAssistPipelineResult s (w.at t) t).counters =
      (s.applyNextAssistPipelineResult (w.at t)).counters := by
  unfold applyNextAssistPipelineResult State.applyNextAssistPipelineResult
  cases s.pendingResults with
  | nil => exact h
  | cons r rest =>
    exact counters_applyAssistPipelineResult (s := { s with
      pendingResults := rest, trace := .dequeued r s.generation :: s.trace }) h r

theorem counters_pttPressed (h : d.counters = s.counters) :
    (d.pttPressed s (w.at t) t).counters = (s.pttPressed (w.at t)).counters := by
  have he := (counters_eq_iff.mp h).1
  obtain ⟨p, b, u, hs, -⟩ := (s.armPtt (w.at t)).startCapture_eq (w.at t) .ptt
  simp only [pttPressed, State.pttPressed, hs]
  have hr : UInt32.ofNat (t + 1000) = (s.armPtt (w.at t)).wakeRestartAfter :=
    (deadline_ofNat t 1000).symm
  have hh : counter none = (s.armPtt (w.at t)).display.hideAt := by simp [State.armPtt, counter]
  have hscreen : (s.armPtt (w.at t)).assistScreen = s.assistScreen := rfl
  rw [hscreen]
  split_ifs
  · exact h
  · exact counters_eq_iff.mpr ⟨he, hr, hh⟩
  · exact counters_eq_iff.mpr ⟨he, hr, counter_deadline t 10000⟩
  · exact counters_eq_iff.mpr ⟨he, hr, hh⟩

theorem counters_pttReleased (h : d.counters = s.counters) :
    (d.pttReleased s (w.at t) t).counters = (s.pttReleased (w.at t)).counters := by
  have hs : d.counters = (s.stopCapture (w.at t)).counters := by
    rw [State.counters_stopCapture, h]
  obtain ⟨he, hr, -⟩ := counters_eq_iff.mp hs
  simp only [pttReleased, State.pttReleased]
  split_ifs
  · exact counters_eq_iff.mpr ⟨he, hr, counter_deadline t 10000⟩
  · exact counters_startAssistPipeline hs

theorem counters_cancel (h : d.counters = s.counters) :
    (d.cancel t).counters = (s.cancel (w.at t)).counters := by
  obtain ⟨p, b, u, hs, -⟩ := { s with
    generation := s.generation + 1, wakeCaptureActive := false : State }.stopCapture_eq (w.at t)
  rw [State.cancel, hs]
  exact counters_eq_iff.mpr ⟨(counters_eq_iff.mp h).1, (deadline_ofNat t 1000).symm, rfl⟩

theorem counters_closeAssistScreen (h : d.counters = s.counters) :
    (d.closeAssistScreen s).counters = (s.closeAssistScreen w).counters := by
  obtain ⟨he, hr, -⟩ := counters_eq_iff.mp h
  unfold closeAssistScreen State.closeAssistScreen
  split_ifs
  · obtain ⟨p, b, u, hs, -⟩ := { s with
      generation := s.generation + 1
      display := s.display.hideOverlay
      pendingResults := [] : State }.stopCapture_eq w
    simp only [hs]
    exact counters_eq_iff.mpr ⟨he, hr, rfl⟩
  · exact h

theorem counters_closeMicrophoneScreen :
    (s.closeMicrophoneScreen w).counters = s.counters := by
  rw [State.closeMicrophoneScreen, State.counters_startWakeWordListener]
  exact s.counters_stopCapture w

theorem assistScreen_closeMicrophoneScreen :
    (s.closeMicrophoneScreen w).assistScreen = s.assistScreen := by
  obtain ⟨p, b, u, hs, -⟩ := s.stopCapture_eq w
  obtain ⟨p, l, hl, -⟩ := { s.stopCapture w with
    microphoneScreen := false : State }.startWakeWordListener_eq w
  rw [State.closeMicrophoneScreen, hl, hs]

theorem counters_createMicrophoneScreen (wakeEnabled muteOnBlank : Bool) :
    (s.createMicrophoneScreen w wakeEnabled muteOnBlank).counters = s.counters := by
  unfold State.createMicrophoneScreen
  split_ifs
  · rfl
  · exact State.counters_startCapture _ w .microphoneTest

theorem counters_assistOverlayTimer (h : d.counters = s.counters) :
    (d.assistOverlayTimer s w).counters = (s.assistOverlayTimer w).counters := by
  obtain ⟨he, hr, -⟩ := counters_eq_iff.mp h
  unfold assistOverlayTimer State.assistOverlayTimer
  split_ifs
  · exact counters_eq_iff.mpr ⟨he, hr, rfl⟩
  · exact h

theorem counters_callback (h : d.counters = s.counters) (c : Callback) :
    (d.callback s (w.at t) t c).counters = (s.callback (w.at t) c).counters := by
  cases c with
  | pttPressed => exact counters_pttPressed h
  | pttReleased => exact counters_pttReleased h
  | cancel => exact counters_cancel h
  | newConversation =>
    obtain ⟨-, hr, hh⟩ := counters_eq_iff.mp h
    simp only [callback, State.callback, newConversation, State.newConversation]
    split_ifs
    · exact h
    · exact counters_eq_iff.mpr ⟨rfl, hr, hh⟩
  | createAssistScreen => exact h
  | closeAssistScreen => exact counters_closeAssistScreen h
  | createMicrophoneScreen wakeEnabled muteOnBlank =>
    exact h.trans (counters_createMicrophoneScreen wakeEnabled muteOnBlank).symm
  | closeMicrophoneScreen => exact h.trans counters_closeMicrophoneScreen.symm
  | closeSettings =>
    have hclose := counters_closeAssistScreen (w := w.at t)
      (h.trans (counters_closeMicrophoneScreen (w := w.at t)).symm)
    rw [closeAssistScreen, assistScreen_closeMicrophoneScreen] at hclose
    exact hclose
  | toggleWake enabled =>
    simp only [callback, State.callback, State.toggleWake]
    split_ifs
    · exact h
    · exact h
  | toggleMuteOnBlank enabled => exact h
  | levelTimer =>
    simp only [callback, State.callback, assistLevelTimer, State.assistLevelTimer]
    split_ifs
    · exact counters_applyNextAssistPipelineResult h
    · exact h
  | overlayTimer => exact counters_assistOverlayTimer h

theorem counters_tickWake (h : d.counters = s.counters) (now : UInt32) :
    (d.tickWake s (w.at t) t).counters = (s.tickWake (w.at t) now).counters := by
  obtain ⟨he, hr, -⟩ := counters_eq_iff.mp h
  unfold tickWake State.tickWake
  split_ifs
  · exact counters_beginWakeCommandCapture he hr
  · exact h

theorem counters_tickCapture (h : d.counters = s.counters) (now : UInt32) :
    (d.tickCapture s (w.at t) t now).counters = (s.tickCapture (w.at t) now).counters := by
  have hidle : d.counters = { s with tick := .idle : State }.counters := h
  simp only [tickCapture, State.tickCapture]
  split_ifs
  · exact counters_finishWakeCommandCapture hidle _
  · exact counters_finishWakeCommandCapture hidle _
  · exact h
  · exact h

theorem counters_tickListener (h : d.counters = s.counters) {t₀ : ℕ} :
    (d.tickListener s w t₀ (UInt32.ofNat t₀)).counters =
      (s.tickListener w (UInt32.ofNat t₀)).counters := by
  have hstart : d.counters = ({ s with tick := .idle }.startWakeWordListener w).1.counters := by
    rw [State.counters_startWakeWordListener]
    exact h
  obtain ⟨he, -, hh⟩ := counters_eq_iff.mp hstart
  rw [tickListener, State.tickListener_eq]
  by_cases hcalls : s.callsStartWakeWordListener (UInt32.ofNat t₀) = true
  · by_cases hs : ({ s with tick := .idle }.startWakeWordListener w).2 = true
    · rw [if_neg (by simp [hs]), if_pos hcalls, if_pos hs]
      exact hstart
    · rw [if_pos ⟨hcalls, by simpa using hs⟩, if_pos hcalls, if_neg hs]
      exact counters_eq_iff.mpr ⟨he, (deadline_ofNat t₀ 5000).symm, hh⟩
  · rw [if_neg (by simp [hcalls]), if_neg hcalls]
    exact h

theorem counters_outside (h : d.counters = s.counters) (o : Outside) :
    d.counters = (s.outside o).counters := by
  rw [h]
  cases o with
  | frame now f =>
    obtain ⟨p, b, u, hs, -⟩ := s.frame_eq now f
    rw [State.outside, hs]
    rfl
  | captureEnds => rfl
  | listenerEnds => rfl
  | wakeDetected =>
    simp only [State.outside]
    split_ifs <;> rfl
  | progress i result =>
    simp only [State.outside, State.progress]
    repeat' split
    all_goals rfl
  | clearRunning i result =>
    simp only [State.outside, State.clearRunning]
    repeat' split
    all_goals rfl
  | queueFinal i =>
    simp only [State.outside, State.queueFinal]
    repeat' split
    all_goals rfl
  | setBlanked blanked => rfl

end Deadlines

end

/-! ### Where the runtime timer is -/

namespace State

variable (s : State) (w : World)

@[simp] theorem stopCapture_tick : (s.stopCapture w).tick = s.tick := by
  obtain ⟨p, b, t, hs, -⟩ := s.stopCapture_eq w
  rw [hs]

@[simp] theorem startCapture_tick (handler : FrameHandler) :
    (s.startCapture w handler).tick = s.tick := by
  obtain ⟨p, b, t, hs, -⟩ := s.startCapture_eq w handler
  rw [hs]

@[simp] theorem startWakeWordListener_tick : (s.startWakeWordListener w).1.tick = s.tick := by
  obtain ⟨p, l, hs, -⟩ := s.startWakeWordListener_eq w
  rw [hs]

@[simp] theorem beginWakeCommandCapture_tick : (s.beginWakeCommandCapture w).tick = s.tick := by
  obtain ⟨p, b, t, d, r, hs⟩ := s.beginWakeCommandCapture_eq w
  rw [hs]

@[simp] theorem finishWakeCommandCapture_tick (submit : Bool) :
    (s.finishWakeCommandCapture w submit).tick = s.tick := by
  simp only [finishWakeCommandCapture]
  split_ifs <;> simp [startAssistPipeline]

@[simp] theorem applyNextAssistPipelineResult_tick :
    (s.applyNextAssistPipelineResult w).tick = s.tick := by
  cases hp : s.pendingResults with
  | nil => rw [applyNextAssistPipelineResult_nil w hp]
  | cons r rest =>
    obtain ⟨c, d, hs⟩ := applyNextAssistPipelineResult_cons w hp
    rw [hs]
    split_ifs <;> simp [shown]

theorem closeAssistScreen_tick : (s.closeAssistScreen w).tick = s.tick := by
  unfold closeAssistScreen
  split_ifs <;> simp

theorem closeMicrophoneScreen_tick : (s.closeMicrophoneScreen w).tick = s.tick := by
  simp [closeMicrophoneScreen]

theorem callback_tick (c : Callback) : (s.callback w c).tick = s.tick := by
  cases c with
  | pttPressed =>
    simp only [callback, pttPressed]
    split_ifs <;> simp [armPtt, stopListener]
  | pttReleased =>
    simp only [callback, pttReleased]
    split_ifs <;> simp [startAssistPipeline]
  | cancel => simp [callback, cancel]
  | newConversation =>
    simp only [callback, newConversation]
    split_ifs <;> rfl
  | createAssistScreen => rfl
  | closeAssistScreen => exact s.closeAssistScreen_tick w
  | createMicrophoneScreen wakeEnabled muteOnBlank =>
    simp only [callback, createMicrophoneScreen]
    split_ifs <;> simp [stopListener]
  | closeMicrophoneScreen => exact s.closeMicrophoneScreen_tick w
  | closeSettings =>
    exact (closeAssistScreen_tick _ w).trans (s.closeMicrophoneScreen_tick w)
  | toggleWake enabled =>
    simp only [callback, toggleWake]
    split_ifs <;> rfl
  | toggleMuteOnBlank enabled => rfl
  | levelTimer =>
    simp only [callback, assistLevelTimer]
    split_ifs <;> simp
  | overlayTimer =>
    simp only [callback, assistOverlayTimer]
    split_ifs <;> rfl

theorem outside_tick (o : Outside) : (s.outside o).tick = s.tick := by
  cases o with
  | frame now f =>
    obtain ⟨p, b, t, hs, -⟩ := s.frame_eq now f
    rw [outside, hs]
  | captureEnds => rfl
  | listenerEnds => rfl
  | wakeDetected =>
    simp only [outside]
    split_ifs <;> rfl
  | progress i result =>
    simp only [outside, progress]
    repeat' split
    all_goals rfl
  | clearRunning i result =>
    simp only [outside, clearRunning]
    repeat' split
    all_goals rfl
  | queueFinal i =>
    simp only [outside, queueFinal]
    repeat' split
    all_goals rfl
  | setBlanked blanked => rfl

end State

/-! ### How far ahead a deadline is set -/

namespace Deadlines

/-- No deadline is further ahead of `m` than the code sets it. -/
structure Within (d : Deadlines) (m : ℕ) : Prop where
  expires : ∀ T ∈ d.expires, T ≤ m + 45000
  restart : d.restart ≤ m + 5000
  hide : ∀ T ∈ d.hide, T ≤ m + 10000

variable {d : Deadlines} {s : State} {w : World} {t : ℕ}

theorem Within.mono {m n : ℕ} (h : d.Within m) (hmn : m ≤ n) : d.Within n := by
  refine ⟨fun T hT => ?_, ?_, fun T hT => ?_⟩
  · have := h.expires T hT
    omega
  · have := h.restart
    omega
  · have := h.hide T hT
    omega

theorem Within.noHide (h : d.Within t) : { d with hide := none }.Within t :=
  ⟨h.expires, h.restart, nofun⟩

theorem Within.showError (h : d.Within t) : (d.showError t).Within t :=
  ⟨h.expires, h.restart, by rintro _ ⟨⟩; omega⟩

theorem Within.restartAt (h : d.Within t) {r : ℕ} (hr : r ≤ t + 5000) :
    { d with restart := r }.Within t :=
  ⟨h.expires, hr, h.hide⟩

theorem Within.startAssistPipeline (h : d.Within t) : (d.startAssistPipeline s w).Within t := by
  refine ⟨?_, h.restart, nofun⟩
  unfold Deadlines.startAssistPipeline
  split_ifs
  · nofun
  · exact h.expires

theorem Within.beginWakeCommandCapture (h : d.Within t) :
    (d.beginWakeCommandCapture w t).Within t := by
  unfold Deadlines.beginWakeCommandCapture
  split_ifs
  · exact h.noHide
  · exact h.showError.restartAt (by omega)

theorem Within.finishWakeCommandCapture (h : d.Within t) (submit : Bool) :
    (d.finishWakeCommandCapture s w t submit).Within t := by
  simp only [Deadlines.finishWakeCommandCapture]
  split_ifs
  · exact h.startAssistPipeline
  · exact h.showError.restartAt (by omega)

theorem Within.remember (h : d.Within t) (data : AssistPipelineUiResult) :
    (d.remember t data).Within t := by
  unfold Deadlines.remember
  split_ifs
  · exact ⟨by rintro _ ⟨⟩; omega, h.restart, h.hide⟩
  · exact ⟨by rintro _ ⟨⟩; omega, h.restart, h.hide⟩
  · exact h

theorem Within.showText (h : d.Within t) : (d.showText s).Within t := by
  unfold Deadlines.showText
  split_ifs
  · exact h.noHide
  · exact h

theorem Within.applyNextAssistPipelineResult (h : d.Within t) :
    (d.applyNextAssistPipelineResult s w t).Within t := by
  unfold Deadlines.applyNextAssistPipelineResult
  split
  · exact h
  unfold Deadlines.applyAssistPipelineResult
  split_ifs
  · split
    · exact h
    · exact h.showText
    · exact h.showText
    · unfold applySuccess
      split_ifs
      · exact (h.remember _).beginWakeCommandCapture
      · exact (h.remember _).showError
    · unfold applyFailure
      split_ifs
      · exact h.showError
      · exact h.noHide
  · exact h

theorem Within.callback (h : d.Within t) (c : Callback) : (d.callback s w t c).Within t := by
  cases c with
  | pttPressed =>
    simp only [Deadlines.callback, Deadlines.pttPressed]
    split_ifs
    · exact h
    · exact h.noHide.restartAt (by omega)
    · exact (h.noHide.restartAt (by omega)).showError
    · exact h.noHide.restartAt (by omega)
  | pttReleased =>
    simp only [Deadlines.callback, Deadlines.pttReleased]
    split_ifs
    · exact h.showError
    · exact h.startAssistPipeline
  | cancel => exact h.noHide.restartAt (by omega)
  | newConversation =>
    simp only [Deadlines.callback, Deadlines.newConversation]
    split_ifs
    · exact h
    · exact ⟨nofun, h.restart, h.hide⟩
  | createAssistScreen => exact h
  | closeAssistScreen =>
    simp only [Deadlines.callback, Deadlines.closeAssistScreen]
    split_ifs
    · exact h.noHide
    · exact h
  | createMicrophoneScreen wakeEnabled muteOnBlank => exact h
  | closeMicrophoneScreen => exact h
  | closeSettings =>
    simp only [Deadlines.callback, Deadlines.closeAssistScreen]
    split_ifs
    · exact h.noHide
    · exact h
  | toggleWake enabled => exact h
  | toggleMuteOnBlank enabled => exact h
  | levelTimer =>
    simp only [Deadlines.callback, Deadlines.assistLevelTimer]
    split_ifs
    · exact h.applyNextAssistPipelineResult
    · exact h
  | overlayTimer =>
    simp only [Deadlines.callback, Deadlines.assistOverlayTimer]
    split_ifs
    · exact h.noHide
    · exact h

end Deadlines

end Assist

end HaPanel
