import HaPanel.Assist.Pipeline

/-!
# Who has the microphone

The capture and the wake word listener both record from the one microphone, and neither should be
started while a pipeline runs, which records nothing and may be playing the answer.  The runtime
timer and the push-to-talk button see to this, and three other places do not (`Intrudes`): leaving
the settings starts the listener whatever runs, the microphone screen starts its test, and an answer
that asks back begins a capture although the listener may have been started between the end of the
pipeline and the answer.  `microphoneExclusive_iff` says that there is no fourth.
-/

namespace HaPanel

namespace Assist

open Transition

/-- The event does not open the microphone while a pipeline runs. -/
def Event.discreet : Event → Bool
  | pipelineStarted _ _ => true
  | captureStarted _ running => !running
  | listenerStarted running => !running
  | dequeued _ _ => true

structure MicrophoneExclusive (s : State) : Prop where
  /-- Capture and listener do not run at the same time. -/
  alone : s.audio.isSome = true → s.listener = false
  /-- Neither was started while a pipeline ran. -/
  discreet : ∀ e ∈ s.trace, e.discreet = true

/-- The next result is a final one of this generation that asks back, and a capture begins. -/
def State.followsUp (s : State) (w : World) : Bool :=
  match s.pendingResults with
  | [] => false
  | r :: _ => r.generation = s.generation && r.reopens && w.captureStarts

/-- The steps that break the exclusion. -/
def Intrudes (s : State) : Step → Prop
  | .callback c w =>
    s.tick = .idle ∧
      match c with
      | .closeMicrophoneScreen => s.pipelineRunning = true ∧ s.listenerStarts w = true
      | .closeSettings => s.pipelineRunning = true ∧ s.listenerStarts w = true
      | .createMicrophoneScreen _ _ =>
        s.pipelineRunning = true ∧ s.microphoneScreen = false ∧ w.captureStarts = true
      | .levelTimer => s.listener = true ∧ s.assistScreen = true ∧ s.followsUp w = true
      | _ => False
  | .runtimeTimer w => s.tick = .idle ∧ s.listener = true ∧ s.followsUp w = true
  | .outside _ => False

namespace MicrophoneExclusive

variable {s : State} {w : World}

theorem initial (now : UInt32) : MicrophoneExclusive (State.initial now) where
  alone := fun h => nomatch h
  discreet := fun _ h => nomatch h

/-! ### Operations -/

theorem log (h : MicrophoneExclusive s) {e : Event} (he : e.discreet = true) :
    MicrophoneExclusive { s with trace := e :: s.trace } := by
  refine { h with discreet := ?_ }
  intro e' hmem
  rcases List.mem_cons.mp hmem with rfl | hmem
  · exact he
  · exact h.discreet e' hmem

theorem stopCapture (h : MicrophoneExclusive s) : MicrophoneExclusive (s.stopCapture w) := by
  obtain ⟨p, b, t, he, -⟩ := s.stopCapture_eq w
  rw [he]
  exact { h with alone := fun ha => nomatch ha }

theorem startCapture (h : MicrophoneExclusive s) (handler : FrameHandler)
    (hrun : w.captureStarts = true → s.pipelineRunning = false)
    (hlistener : w.captureStarts = true → s.listener = false) :
    MicrophoneExclusive (s.startCapture w handler) := by
  obtain ⟨p, b, t, he, -⟩ := s.startCapture_eq w handler
  rw [he]
  cases hw : w.captureStarts with
  | false => exact { h with alone := fun ha => nomatch ha }
  | true =>
    have hlog := h.log (e := .captureStarted handler s.pipelineRunning)
      (by simp [Event.discreet, hrun hw])
    exact { hlog with alone := fun _ => hlistener hw }

theorem beginWakeCommandCapture (h : MicrophoneExclusive s) (hrun : s.pipelineRunning = false)
    (hlistener : w.captureStarts = true → s.listener = false) :
    MicrophoneExclusive (s.beginWakeCommandCapture w) := by
  have harm : MicrophoneExclusive (s.armWakeCommand w) := { h with }
  have hstart := harm.startCapture (w := w) .wakeCommand (fun _ => hrun) hlistener
  unfold State.beginWakeCommandCapture
  split
  · exact hstart
  · exact { hstart with }

theorem startAssistPipeline (h : MicrophoneExclusive s) :
    MicrophoneExclusive (s.startAssistPipeline w) := by
  have hlog := h.log (e := .pipelineStarted s.pipelineRunning s.generation) rfl
  exact { hlog with }

theorem finishWakeCommandCapture (h : MicrophoneExclusive s) {submit : Bool} :
    MicrophoneExclusive (s.finishWakeCommandCapture w submit) := by
  have hover : MicrophoneExclusive { s with wakeCaptureActive := false } := { h with }
  have hstop := hover.stopCapture (w := w)
  unfold State.finishWakeCommandCapture
  dsimp only
  split
  · exact hstop.startAssistPipeline
  · exact { hstop with }

theorem startWakeWordListener (h : MicrophoneExclusive s) (haudio : s.audio = none)
    (hrun : s.listenerStarts w = true → s.pipelineRunning = false) :
    MicrophoneExclusive (s.startWakeWordListener w).1 := by
  obtain ⟨p, l, he, hl⟩ := s.startWakeWordListener_eq w
  rw [he]
  cases hs : s.listenerStarts w with
  | true =>
    have hlog := h.log (e := .listenerStarted s.pipelineRunning)
      (by simp [Event.discreet, hrun hs])
    refine { hlog with alone := fun ha => ?_ }
    rw [haudio] at ha
    cases ha
  | false => exact { h with alone := fun ha => hl hs (h.alone ha) }

theorem applyNextAssistPipelineResult (hinv : Inv s) (h : MicrophoneExclusive s)
    (hfollow : s.followsUp w = true → s.listener = false) :
    MicrophoneExclusive (s.applyNextAssistPipelineResult w) := by
  cases hr : s.pendingResults with
  | nil =>
    rw [State.applyNextAssistPipelineResult_nil w hr]
    exact h
  | cons r rest =>
    obtain ⟨c, d, he⟩ := State.applyNextAssistPipelineResult_cons w hr
    have hlog := h.log (e := .dequeued r s.generation) rfl
    have hshown : MicrophoneExclusive (s.shown r rest c d) := { hlog with }
    rw [he]
    split
    · rename_i hopen
      have hfinal := AssistPipelineUiResult.final_of_reopens hopen.2
      have hrun := hinv.finals r (hr ▸ List.mem_cons_self) hfinal hopen.1
      refine hshown.beginWakeCommandCapture hrun ?_
      intro hw
      refine hfollow ?_
      simp only [State.followsUp, hr, hw, hopen.1, hopen.2, decide_true, Bool.and_true]
    · exact hshown

theorem pttPressed (h : MicrophoneExclusive s) : MicrophoneExclusive (s.pttPressed w) := by
  unfold State.pttPressed
  split
  · exact h
  · rename_i hrun
    rw [Bool.not_eq_true] at hrun
    have harm : MicrophoneExclusive (s.armPtt w) := { h with alone := fun _ => rfl }
    have hstart := harm.startCapture (w := w) .ptt (fun _ => hrun) (fun _ => rfl)
    dsimp only
    split
    · exact hstart
    · split
      · exact { hstart with }
      · exact hstart

theorem pttReleased (h : MicrophoneExclusive s) : MicrophoneExclusive (s.pttReleased w) := by
  have hstop := h.stopCapture (w := w)
  unfold State.pttReleased
  dsimp only
  split
  · exact { hstop with }
  · exact hstop.startAssistPipeline

theorem closeAssistScreen (h : MicrophoneExclusive s) :
    MicrophoneExclusive (s.closeAssistScreen w) := by
  unfold State.closeAssistScreen
  split
  · have hover : MicrophoneExclusive { s with
        generation := s.generation + 1
        display := s.display.hideOverlay
        pendingResults := [] } := { h with }
    exact { hover.stopCapture with }
  · exact h

theorem createMicrophoneScreen (h : MicrophoneExclusive s) {wakeEnabled muteOnBlank : Bool}
    (hrun : s.microphoneScreen = false → w.captureStarts = true → s.pipelineRunning = false) :
    MicrophoneExclusive (s.createMicrophoneScreen w wakeEnabled muteOnBlank) := by
  unfold State.createMicrophoneScreen
  split
  · exact h
  · rename_i hscreen
    rw [Bool.not_eq_true] at hscreen
    have hstop : MicrophoneExclusive ({ s with
        micWakeEnabled := wakeEnabled, micMuteOnBlank := muteOnBlank }.stopListener w) :=
      { h with alone := fun _ => rfl }
    have hstart := hstop.startCapture (w := w) .microphoneTest (hrun hscreen)
      (fun _ => rfl)
    exact { hstart with }

theorem closeMicrophoneScreen (h : MicrophoneExclusive s)
    (hrun : s.listenerStarts w = true → s.pipelineRunning = false) :
    MicrophoneExclusive (s.closeMicrophoneScreen w) := by
  have hclosed : MicrophoneExclusive { s.stopCapture w with microphoneScreen := false } :=
    { h.stopCapture with }
  obtain ⟨p, b, t, he, -⟩ := s.stopCapture_eq w
  refine hclosed.startWakeWordListener rfl ?_
  rw [he]
  exact hrun

/-! ### Steps -/

theorem callback (hinv : Inv s) (h : MicrophoneExclusive s) (c : Callback)
    (htick : s.tick = .idle) (hc : ¬ Intrudes s (.callback c w)) :
    MicrophoneExclusive (s.callback w c) := by
  simp only [Intrudes, htick, true_and] at hc
  cases c with
  | pttPressed => exact h.pttPressed
  | pttReleased => exact h.pttReleased
  | cancel =>
    have hover : MicrophoneExclusive
        { s with generation := s.generation + 1, wakeCaptureActive := false } := { h with }
    exact { hover.stopCapture with }
  | newConversation =>
    simp only [State.callback, State.newConversation]
    split
    · exact h
    · exact { h with }
  | createAssistScreen => exact { h with }
  | closeAssistScreen => exact h.closeAssistScreen
  | createMicrophoneScreen =>
    refine h.createMicrophoneScreen ?_
    intro hscreen hw
    exact Bool.eq_false_iff.mpr fun hrun => hc ⟨hrun, hscreen, hw⟩
  | closeMicrophoneScreen =>
    refine h.closeMicrophoneScreen ?_
    intro hstarts
    exact Bool.eq_false_iff.mpr fun hrun => hc ⟨hrun, hstarts⟩
  | closeSettings =>
    refine (h.closeMicrophoneScreen ?_).closeAssistScreen
    intro hstarts
    exact Bool.eq_false_iff.mpr fun hrun => hc ⟨hrun, hstarts⟩
  | toggleWake enabled =>
    cases enabled
    · exact { h with alone := fun _ => rfl }
    · exact { h with }
  | toggleMuteOnBlank => exact { h with }
  | levelTimer =>
    simp only [State.callback, State.assistLevelTimer]
    split
    · rename_i hscreen
      refine applyNextAssistPipelineResult hinv h ?_
      intro hfollow
      exact Bool.eq_false_iff.mpr fun hlistener => hc ⟨hlistener, hscreen, hfollow⟩
    · exact h
  | overlayTimer =>
    simp only [State.callback, State.assistOverlayTimer]
    split
    · exact { h with }
    · exact h

theorem runtimeTimer (hinv : Inv s) (h : MicrophoneExclusive s)
    (hc : ¬ Intrudes s (.runtimeTimer w)) : MicrophoneExclusive (s.runtimeTimer w) := by
  unfold State.runtimeTimer
  split
  · rename_i htick
    have happly : MicrophoneExclusive (s.applyNextAssistPipelineResult w) := by
      refine applyNextAssistPipelineResult hinv h ?_
      intro hfollow
      exact Bool.eq_false_iff.mpr fun hlistener => hc ⟨htick, hlistener, hfollow⟩
    exact { happly with }
  · unfold State.tickWake
    split
    · rename_i hready
      have hstop : MicrophoneExclusive ({ s with wakePending := false }.stopListener w) :=
        { h with alone := fun _ => rfl }
      have hrun : s.pipelineRunning = false := State.not_running_of_wakeReady hready
      have hbegin := hstop.beginWakeCommandCapture (w := w) hrun (fun _ => rfl)
      exact { hbegin with }
    · exact { h with }
  · have hidle : MicrophoneExclusive { s with tick := .idle } := { h with }
    unfold State.tickCapture
    split
    · dsimp only
      split
      · exact hidle.finishWakeCommandCapture
      · split
        · exact hidle.finishWakeCommandCapture
        · exact hidle
    · exact { h with }
  · have hidle : MicrophoneExclusive { s with tick := .idle } := { h with }
    unfold State.tickListener
    dsimp only
    split
    · rename_i hready
      simp only [Bool.not_eq_true', Option.isNone_iff_eq_none] at hready
      have hstart := hidle.startWakeWordListener (w := w) hready.2.1 (fun _ => hready.1)
      split
      · exact hstart
      · exact { hstart with }
    · exact hidle

theorem outside (h : MicrophoneExclusive s) (o : Outside) :
    MicrophoneExclusive (s.outside o) := by
  cases o with
  | frame now f =>
    obtain ⟨p, b, t, he, -⟩ := s.frame_eq now f
    simp only [State.outside, he]
    exact { h with }
  | captureEnds => exact { h with alone := fun ha => absurd ha Bool.false_ne_true }
  | listenerEnds => exact { h with alone := fun _ => rfl }
  | wakeDetected =>
    simp only [State.outside]
    split
    · exact { h with }
    · exact h
  | progress i result =>
    simp only [State.outside, State.progress]
    split
    · split
      · exact { h with }
      · exact h
    · exact h
  | clearRunning i result =>
    simp only [State.outside, State.clearRunning]
    split
    · split
      · exact { h with }
      · exact h
    · exact h
  | queueFinal i =>
    simp only [State.outside, State.queueFinal]
    split
    · split
      · exact { h with }
      · exact h
    · exact h
  | setBlanked => exact { h with }

theorem next (h : MicrophoneExclusive s) (hinv : Inv s) {a : Step} (ha : ¬ Intrudes s a) :
    MicrophoneExclusive (next s a) := by
  cases a with
  | callback c w =>
    simp only [Assist.next]
    split
    · rename_i htick
      exact callback hinv h c htick ha
    · exact h
  | runtimeTimer w => exact runtimeTimer hinv h ha
  | outside o => exact h.outside o

end MicrophoneExclusive

/-! ### Intrusions -/

namespace State

variable {s : State} {w : World}

theorem closeMicrophoneScreen_trace (hstarts : s.listenerStarts w = true) :
    (s.closeMicrophoneScreen w).trace = .listenerStarted s.pipelineRunning :: s.trace := by
  obtain ⟨p, b, t, he, -⟩ := s.stopCapture_eq w
  have hclosed : listenerStarts { s.stopCapture w with microphoneScreen := false } w = true := by
    rw [he]
    exact hstarts
  obtain ⟨p', l, he', -⟩ := startWakeWordListener_eq
    { s.stopCapture w with microphoneScreen := false } w
  rw [closeMicrophoneScreen, he', hclosed, he]
  rfl

theorem closeAssistScreen_trace : (s.closeAssistScreen w).trace = s.trace := by
  unfold closeAssistScreen
  split
  · obtain ⟨p, b, t, he, -⟩ := stopCapture_eq { s with
      generation := s.generation + 1
      display := s.display.hideOverlay
      pendingResults := [] } w
    rw [he]
  · rfl

theorem startCapture_trace (s : State) {handler : FrameHandler} (hw : w.captureStarts = true) :
    (s.startCapture w handler).trace = .captureStarted handler s.pipelineRunning :: s.trace := by
  obtain ⟨p, b, t, he, -⟩ := s.startCapture_eq w handler
  rw [he]
  exact if_pos hw

theorem createMicrophoneScreen_trace (hscreen : s.microphoneScreen = false)
    (hw : w.captureStarts = true) (wakeEnabled muteOnBlank : Bool) :
    (s.createMicrophoneScreen w wakeEnabled muteOnBlank).trace =
      .captureStarted .microphoneTest s.pipelineRunning :: s.trace := by
  rw [createMicrophoneScreen, if_neg (by rw [hscreen]; exact Bool.false_ne_true)]
  exact startCapture_trace _ hw

/-- A follow-up capture leaves the listener as it is. -/
theorem applyNextAssistPipelineResult_of_followsUp (h : s.followsUp w = true) :
    (s.applyNextAssistPipelineResult w).audio.isSome = true ∧
      (s.applyNextAssistPipelineResult w).listener = s.listener := by
  cases hr : s.pendingResults with
  | nil => simp [followsUp, hr] at h
  | cons r rest =>
    simp only [followsUp, hr, Bool.and_eq_true, decide_eq_true_eq] at h
    obtain ⟨⟨hgen, hopen⟩, hw⟩ := h
    obtain ⟨c, d, he⟩ := applyNextAssistPipelineResult_cons w hr
    obtain ⟨p, b, t, d', r', hbegin⟩ := (s.shown r rest c d).beginWakeCommandCapture_eq w
    rw [he, if_pos ⟨hgen, hopen⟩, hbegin, hw]
    exact ⟨rfl, rfl⟩

end State

/-- An intrusion breaks the exclusion. -/
theorem not_exclusive_of_intrudes {s : State} {a : Step} (ha : Intrudes s a) :
    ¬ MicrophoneExclusive (next s a) := by
  intro h
  cases a with
  | callback c w =>
    obtain ⟨htick, hc⟩ := ha
    simp only [next, htick, if_true] at h
    cases c with
    | closeMicrophoneScreen =>
      have hmem : .listenerStarted true ∈ (s.closeMicrophoneScreen w).trace := by
        rw [State.closeMicrophoneScreen_trace hc.2, hc.1]
        exact List.mem_cons_self
      cases h.discreet _ hmem
    | closeSettings =>
      have hmem : .listenerStarted true ∈ (s.closeSettings w).trace := by
        rw [State.closeSettings, State.closeAssistScreen_trace,
          State.closeMicrophoneScreen_trace hc.2, hc.1]
        exact List.mem_cons_self
      cases h.discreet _ hmem
    | createMicrophoneScreen wakeEnabled muteOnBlank =>
      have hmem : .captureStarted .microphoneTest true ∈
          (s.createMicrophoneScreen w wakeEnabled muteOnBlank).trace := by
        rw [State.createMicrophoneScreen_trace hc.2.1 hc.2.2, hc.1]
        exact List.mem_cons_self
      cases h.discreet _ hmem
    | levelTimer =>
      obtain ⟨hlistener, hscreen, hfollow⟩ := hc
      obtain ⟨haudio, hsame⟩ := State.applyNextAssistPipelineResult_of_followsUp hfollow
      simp only [State.callback, State.assistLevelTimer, hscreen, if_true] at h
      have hoff := h.alone haudio
      rw [hsame, hlistener] at hoff
      cases hoff
    | _ => exact hc
  | runtimeTimer w =>
    obtain ⟨htick, hlistener, hfollow⟩ := ha
    obtain ⟨haudio, hsame⟩ := State.applyNextAssistPipelineResult_of_followsUp hfollow
    simp only [next, State.runtimeTimer, htick, State.tickResult] at h
    have hoff := h.alone haudio
    rw [hsame, hlistener] at hoff
    cases hoff
  | outside o => exact ha

/-- **Microphone exclusivity.**  All states of a run have it exactly when no step of the run is an
intrusion. -/
theorem microphoneExclusive_iff (now : UInt32) (l : List Step) :
    Along next (fun s a => MicrophoneExclusive (next s a)) (State.initial now) l ↔
      Along next (fun s a => ¬ Intrudes s a) (State.initial now) l := by
  refine along_congr (I := fun s => Inv s ∧ MicrophoneExclusive s) ?_ ?_
    ⟨.initial now, .initial now⟩ l
  · intro s a hs
    exact ⟨fun h ha => not_exclusive_of_intrudes ha h, fun ha => hs.2.next hs.1 ha⟩
  · intro s a hs h
    exact ⟨hs.1.next a, h⟩

/-! ### Two intrusions -/

/-- The user leaves the settings while the pipeline works on a spoken command. -/
def leftSettings : List Step :=
  spokenCommand ++ ticks 2400 1 ++ [.callback .closeSettings { now := 2500 }]

/-- The runtime timer starts the listener before the answer is queued, and the answer asks back. -/
def askedBack : List Step :=
  spokenCommand ++ ticks 2400 1 ++ [.outside (.clearRunning 0 question)] ++ ticks 2500 4 ++
    [.outside (.queueFinal 0)] ++ ticks 2600 1

/-- The listener is started while a pipeline runs, and capture and listener run at once. -/
theorem microphone_is_shared :
    ¬ MicrophoneExclusive (run next (State.initial 0) leftSettings) ∧
      ¬ MicrophoneExclusive (run next (State.initial 0) askedBack) := by
  refine ⟨fun h => ?_, fun h => ?_⟩
  · have hmem : .listenerStarted true ∈ (run next (State.initial 0) leftSettings).trace := by
      decide +kernel
    cases h.discreet _ hmem
  · have haudio : (run next (State.initial 0) askedBack).audio.isSome = true := by decide +kernel
    have hlistener : (run next (State.initial 0) askedBack).listener = true := by decide +kernel
    exact Bool.false_ne_true ((h.alone haudio).symm.trans hlistener)

end Assist

end HaPanel
