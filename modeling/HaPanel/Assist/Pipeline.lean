import HaPanel.Assist.Machine
import Mathlib.Data.List.Nodup

/-!
# At most one pipeline

`start_assist_pipeline` does not test `assist_pipeline_running`, and neither do its two callers.  It
is safe all the same (`pipelines_exclude_each_other`): a caller needs 3200 samples, samples come
only from a capture, a capture that records is only begun with the flag down and in a new
generation, and starting a pipeline takes the samples away.  `Inv` is this argument as an invariant.
-/

namespace HaPanel

namespace Assist

open Transition

/-- The entry of the trace for the start of a pipeline: the flag `assist_pipeline_running` that
`start_assist_pipeline` found, and the generation it read. -/
def Event.start? : Event → Option (Bool × ℕ)
  | pipelineStarted running generation => some (running, generation)
  | captureStarted _ _ => none
  | listenerStarted _ => none
  | dequeued _ _ => none

/-- The pipelines started so far, the last first. -/
def State.starts (s : State) : List (Bool × ℕ) := s.trace.filterMap Event.start?

/-- The generations of the pipelines started so far. -/
def State.started (s : State) : List ℕ := s.starts.map Prod.snd

structure Inv (s : State) : Prop where
  /-- While a pipeline runs there are no samples, and nothing records any. -/
  quiet : s.pipelineRunning = true → s.pcmSamples = [] ∧ s.recording = false
  /-- Samples belong to a generation in which no pipeline was started. -/
  fresh : s.pcmSamples ≠ [] ∨ s.recording = true → ∀ g ∈ s.started, g < s.generation
  bounded : ∀ g ∈ s.started, g ≤ s.generation
  distinct : s.started.Nodup
  threads : ∀ t ∈ s.threads, t.generation ∈ s.started
  results : ∀ r ∈ s.pendingResults, r.generation ∈ s.started
  /-- A pipeline of this generation that has returned was the last to hold the flag. -/
  returned : ∀ t ∈ s.threads, t.outcome.isSome = true → t.generation = s.generation →
    s.pipelineRunning = false
  finals : ∀ r ∈ s.pendingResults, r.finalResult = true → r.generation = s.generation →
    s.pipelineRunning = false
  entered : ∀ e ∈ s.starts, e.1 = false

namespace Inv

variable {s : State} {w : World}

theorem initial (now : UInt32) : Inv (State.initial now) where
  quiet := by simp [State.initial]
  fresh := by simp [State.initial, State.started, State.starts]
  bounded := by simp [State.initial, State.started, State.starts]
  distinct := by simp [State.initial, State.started, State.starts]
  threads := by simp [State.initial]
  results := by simp [State.initial]
  returned := by simp [State.initial]
  finals := by simp [State.initial]
  entered := by simp [State.initial, State.starts]

theorem lt_succ (h : Inv s) : ∀ g ∈ s.started, g < s.generation + 1 :=
  fun g hg => Nat.lt_succ_of_le (h.bounded g hg)

/-- A new generation makes all results stale. -/
theorem newGeneration (h : Inv s) : Inv { s with generation := s.generation + 1 } :=
  { h with
    fresh := fun _ => h.lt_succ
    bounded := fun g hg => (h.lt_succ g hg).le
    returned := fun t ht _ hgen => absurd (h.lt_succ _ (h.threads t ht)) (by rw [hgen]; simp)
    finals := fun r hr _ hgen => absurd (h.lt_succ _ (h.results r hr)) (by rw [hgen]; simp) }

theorem frames (h : Inv s) {p b t} (hp : s.recording = false → p = s.pcmSamples) :
    Inv { s with pcmSamples := p, wakeSpeechDetected := b, wakeLastVoiceAt := t } := by
  refine { h with quiet := ?_, fresh := ?_ }
  · intro hrun
    obtain ⟨hnil, hrec⟩ := h.quiet hrun
    exact ⟨(hp hrec).trans hnil, hrec⟩
  · intro hor
    cases hrec : s.recording with
    | true => exact h.fresh (.inr hrec)
    | false =>
      rw [hp hrec] at hor
      exact h.fresh hor

theorem silence (h : Inv s) : Inv { s with audio := none } := by
  refine { h with quiet := ?_, fresh := ?_ }
  · exact fun hrun => ⟨(h.quiet hrun).1, rfl⟩
  · rintro (hne | hrec)
    · exact h.fresh (.inl hne)
    · cases hrec

theorem stopCapture (h : Inv s) : Inv (s.stopCapture w) := by
  obtain ⟨p, b, t, he, hp⟩ := s.stopCapture_eq w
  rw [he]
  exact (h.frames hp).silence

theorem clearSamples (h : Inv s) : Inv { s with pcmSamples := [] } := by
  refine { h with quiet := ?_, fresh := ?_ }
  · exact fun hrun => ⟨rfl, (h.quiet hrun).2⟩
  · rintro (hne | hrec)
    · exact absurd rfl hne
    · exact h.fresh (.inr hrec)

theorem dropResults (h : Inv s) {rest} (hrest : rest ⊆ s.pendingResults) :
    Inv { s with pendingResults := rest } :=
  { h with
    results := fun r hr => h.results r (hrest hr)
    finals := fun r hr => h.finals r (hrest hr) }

/-- Samples are only there while no pipeline runs. -/
theorem not_running (h : Inv s) (hne : s.pcmSamples ≠ []) : s.pipelineRunning = false := by
  by_contra hrun
  rw [Bool.not_eq_false] at hrun
  exact hne (h.quiet hrun).1

/-- Samples belong to a generation that has no pipeline yet. -/
theorem new_of_samples (h : Inv s) (hlen : 3200 ≤ s.pcmSamples.length) :
    s.generation ∉ s.started := by
  have hne : s.pcmSamples ≠ [] := by
    rintro hnil
    simp [hnil] at hlen
  exact fun hmem => (h.fresh (.inl hne) _ hmem).false

theorem startAssistPipeline (h : Inv s) (hne : s.pcmSamples ≠ []) (haudio : s.audio = none) :
    Inv (s.startAssistPipeline w) := by
  have hfresh := h.fresh (.inl hne)
  have hnot : ∀ g ∈ s.started, g ≠ s.generation := fun g hg => (hfresh g hg).ne
  have hstarted : (s.startAssistPipeline w).started = s.generation :: s.started := rfl
  constructor
  case quiet => exact fun _ => ⟨rfl, by simp [State.startAssistPipeline, State.recording, haudio]⟩
  case fresh =>
    rintro (hnil | hrec)
    · exact absurd rfl hnil
    · simp [State.startAssistPipeline, State.recording, haudio] at hrec
  case bounded =>
    rw [hstarted]
    intro g hg
    rcases List.mem_cons.mp hg with rfl | hg
    · exact le_rfl
    · exact (hfresh g hg).le
  case distinct =>
    rw [hstarted]
    exact List.nodup_cons.mpr ⟨fun hmem => hnot _ hmem rfl, h.distinct⟩
  case threads =>
    rw [hstarted]
    intro t ht
    rcases List.mem_append.mp ht with ht | ht
    · exact List.mem_cons_of_mem _ (h.threads t ht)
    · rw [List.mem_singleton.mp ht]
      exact List.mem_cons_self
  case results =>
    rw [hstarted]
    exact fun r hr => List.mem_cons_of_mem _ (h.results r hr)
  case returned =>
    intro t ht hout hgen
    rcases List.mem_append.mp ht with ht | ht
    · exact absurd hgen (hnot _ (h.threads t ht))
    · rw [List.mem_singleton.mp ht] at hout
      cases hout
  case finals => exact fun r hr _ hgen => absurd hgen (hnot _ (h.results r hr))
  case entered =>
    intro e he
    rcases List.mem_cons.mp he with rfl | he
    · exact h.not_running hne
    · exact h.entered e he

/-! ### Every step keeps the invariant -/

theorem startCapture (h : Inv s) (handler : FrameHandler)
    (hrec : handler.records = true →
      s.pipelineRunning = false ∧ ∀ g ∈ s.started, g < s.generation) :
    Inv (s.startCapture w handler) := by
  obtain ⟨p, b, t, he, -⟩ := s.stopCapture_eq w
  have hstop := h.stopCapture (w := w)
  unfold State.startCapture
  split
  · rw [he] at hstop ⊢
    refine { hstop with quiet := ?_, fresh := ?_ }
    · intro hrun
      refine ⟨(hstop.quiet hrun).1, ?_⟩
      -- a handler that records would need the flag down
      by_contra hr
      rw [Bool.not_eq_false] at hr
      exact Bool.false_ne_true ((hrec hr).1.symm.trans hrun)
    · rintro (hne | hr)
      · exact hstop.fresh (.inl hne)
      · exact (hrec hr).2
  · exact hstop

theorem beginWakeCommandCapture (h : Inv s) (hrun : s.pipelineRunning = false) :
    Inv (s.beginWakeCommandCapture w) := by
  have harm : Inv (s.armWakeCommand w) := { h.newGeneration.clearSamples with }
  have hnew : Inv ((s.armWakeCommand w).startCapture w .wakeCommand) :=
    harm.startCapture _ fun _ => ⟨hrun, h.lt_succ⟩
  unfold State.beginWakeCommandCapture
  split
  · exact hnew
  · exact { hnew with }

theorem finishWakeCommandCapture (h : Inv s) {submit : Bool} :
    Inv (s.finishWakeCommandCapture w submit) := by
  have hover : Inv { s with wakeCaptureActive := false } := { h with }
  have hstop := hover.stopCapture (w := w)
  unfold State.finishWakeCommandCapture
  dsimp only
  split
  · rename_i hsubmit
    refine hstop.startAssistPipeline ?_ rfl
    rintro hnil
    simp [hnil] at hsubmit
  · exact { hstop.clearSamples with }

theorem startWakeWordListener (h : Inv s) : Inv (s.startWakeWordListener w).1 := by
  obtain ⟨p, l, he, -⟩ := s.startWakeWordListener_eq w
  rw [he]
  cases s.listenerStarts w
  · exact { h with }
  · exact { h with }

theorem applyNextAssistPipelineResult (h : Inv s) :
    Inv (s.applyNextAssistPipelineResult w) := by
  cases hr : s.pendingResults with
  | nil =>
    rw [State.applyNextAssistPipelineResult_nil w hr]
    exact h
  | cons r rest =>
    obtain ⟨c, d, he⟩ := State.applyNextAssistPipelineResult_cons w hr
    have hsub : rest ⊆ s.pendingResults := hr ▸ List.subset_cons_self r rest
    have hshown : Inv (s.shown r rest c d) := { h.dropResults hsub with }
    rw [he]
    split
    · -- the result is a final one of this generation, so its thread has cleared the flag
      rename_i hopen
      have hfinal := AssistPipelineUiResult.final_of_reopens hopen.2
      have hrun := h.finals r (hr ▸ List.mem_cons_self) hfinal hopen.1
      exact hshown.beginWakeCommandCapture hrun
    · exact hshown

theorem pttPressed (h : Inv s) : Inv (s.pttPressed w) := by
  unfold State.pttPressed
  split
  · exact h
  · rename_i hrun
    rw [Bool.not_eq_true] at hrun
    have harm : Inv (s.armPtt w) := { h.newGeneration.clearSamples with }
    have hnew : Inv ((s.armPtt w).startCapture w .ptt) :=
      harm.startCapture _ fun _ => ⟨hrun, h.lt_succ⟩
    dsimp only
    split
    · exact hnew
    · split
      · exact { hnew with }
      · exact hnew

theorem pttReleased (h : Inv s) : Inv (s.pttReleased w) := by
  have hstop := h.stopCapture (w := w)
  unfold State.pttReleased
  dsimp only
  split
  · exact { hstop with }
  · rename_i hlen
    refine hstop.startAssistPipeline ?_ rfl
    intro hnil
    simp [hnil] at hlen

theorem cancel (h : Inv s) : Inv (s.cancel w) := by
  have hover : Inv { s with generation := s.generation + 1, wakeCaptureActive := false } :=
    { h.newGeneration with }
  exact { hover.stopCapture with }

theorem closeAssistScreen (h : Inv s) : Inv (s.closeAssistScreen w) := by
  unfold State.closeAssistScreen
  split
  · have hover : Inv { s with
        generation := s.generation + 1
        display := s.display.hideOverlay
        pendingResults := [] } :=
      { h.newGeneration.dropResults (List.nil_subset _) with }
    exact { hover.stopCapture with }
  · exact h

theorem createMicrophoneScreen (h : Inv s) {wakeEnabled muteOnBlank : Bool} :
    Inv (s.createMicrophoneScreen w wakeEnabled muteOnBlank) := by
  unfold State.createMicrophoneScreen
  split
  · exact h
  · have hstop : Inv ({ s with
        micWakeEnabled := wakeEnabled, micMuteOnBlank := muteOnBlank }.stopListener w) :=
      { h with }
    have hstart := hstop.startCapture (w := w) .microphoneTest fun hrec => nomatch hrec
    exact { hstart with }

theorem closeMicrophoneScreen (h : Inv s) : Inv (s.closeMicrophoneScreen w) := by
  have hclosed : Inv { s.stopCapture w with microphoneScreen := false } :=
    { h.stopCapture with }
  exact hclosed.startWakeWordListener

theorem callback (h : Inv s) (c : Callback) : Inv (s.callback w c) := by
  cases c with
  | pttPressed => exact h.pttPressed
  | pttReleased => exact h.pttReleased
  | cancel => exact h.cancel
  | newConversation =>
    simp only [State.callback, State.newConversation]
    split
    · exact h
    · exact { h with }
  | createAssistScreen => exact { h with }
  | closeAssistScreen => exact h.closeAssistScreen
  | createMicrophoneScreen => exact h.createMicrophoneScreen
  | closeMicrophoneScreen => exact h.closeMicrophoneScreen
  | closeSettings => exact h.closeMicrophoneScreen.closeAssistScreen
  | toggleWake enabled =>
    cases enabled
    · exact { h with }
    · exact { h with }
  | toggleMuteOnBlank => exact { h with }
  | levelTimer =>
    simp only [State.callback, State.assistLevelTimer]
    split
    · exact h.applyNextAssistPipelineResult
    · exact h
  | overlayTimer =>
    simp only [State.callback, State.assistOverlayTimer]
    split
    · exact { h with }
    · exact h

theorem tickWake (h : Inv s) {now : UInt32} : Inv (s.tickWake w now) := by
  unfold State.tickWake
  split
  · rename_i hready
    have hstop : Inv ({ s with wakePending := false }.stopListener w) := { h with }
    have hrun : s.pipelineRunning = false := State.not_running_of_wakeReady hready
    exact { hstop.beginWakeCommandCapture hrun with }
  · exact { h with }

theorem tickCapture (h : Inv s) {now : UInt32} : Inv (s.tickCapture w now) := by
  have hidle : Inv { s with tick := .idle } := { h with }
  unfold State.tickCapture
  split
  · dsimp only
    split
    · exact hidle.finishWakeCommandCapture
    · split
      · exact hidle.finishWakeCommandCapture
      · exact hidle
  · exact { h with }

theorem tickListener (h : Inv s) {now : UInt32} : Inv (s.tickListener w now) := by
  have hidle : Inv { s with tick := .idle } := { h with }
  have hstart := hidle.startWakeWordListener (w := w)
  unfold State.tickListener
  dsimp only
  split
  · split
    · exact hstart
    · exact { hstart with }
  · exact hidle

theorem runtimeTimer (h : Inv s) : Inv (s.runtimeTimer w) := by
  unfold State.runtimeTimer
  split
  · have happly := h.applyNextAssistPipelineResult (w := w)
    exact { happly with }
  · exact h.tickWake
  · exact h.tickCapture
  · exact h.tickListener

theorem progress (h : Inv s) {i : ℕ} {result : AssistPipelineResult} :
    Inv (s.progress i result) := by
  unfold State.progress
  split
  · rename_i t ht
    have hmem : t ∈ s.threads := List.mem_of_getElem? ht
    split
    · refine { h with results := ?_, finals := ?_ }
      · intro r hr
        rcases List.mem_append.mp hr with hr | hr
        · exact h.results r hr
        · rw [List.mem_singleton.mp hr]
          exact h.threads t hmem
      · intro r hr hfinal
        rcases List.mem_append.mp hr with hr | hr
        · exact h.finals r hr hfinal
        · rw [List.mem_singleton.mp hr] at hfinal
          cases hfinal
    · exact h
  · exact h

theorem clearRunning (h : Inv s) {i : ℕ} {result : AssistPipelineResult} :
    Inv (s.clearRunning i result) := by
  unfold State.clearRunning
  split
  · rename_i t ht
    split
    · refine { h with quiet := ?_, threads := ?_, returned := ?_, finals := ?_ }
      · intro hrun
        cases hrun
      · intro t' ht'
        rcases List.mem_or_eq_of_mem_set ht' with ht' | rfl
        · exact h.threads t' ht'
        · exact h.threads t (List.mem_of_getElem? ht)
      · exact fun _ _ _ _ => rfl
      · exact fun _ _ _ _ => rfl
    · exact h
  · exact h

theorem queueFinal (h : Inv s) {i : ℕ} : Inv (s.queueFinal i) := by
  unfold State.queueFinal
  split
  · rename_i t ht
    have hmem : t ∈ s.threads := List.mem_of_getElem? ht
    split
    · rename_i result hout
      refine { h with threads := ?_, results := ?_, returned := ?_, finals := ?_ }
      · exact fun t' ht' => h.threads t' (List.mem_of_mem_eraseIdx ht')
      · intro r hr
        rcases List.mem_append.mp hr with hr | hr
        · exact h.results r hr
        · rw [List.mem_singleton.mp hr]
          exact h.threads t hmem
      · exact fun t' ht' => h.returned t' (List.mem_of_mem_eraseIdx ht')
      · intro r hr hfinal
        rcases List.mem_append.mp hr with hr | hr
        · exact h.finals r hr hfinal
        · rw [List.mem_singleton.mp hr]
          exact h.returned t hmem (by rw [hout]; rfl)
    · exact h
  · exact h

theorem outside (h : Inv s) (o : Outside) : Inv (s.outside o) := by
  cases o with
  | frame now f =>
    obtain ⟨p, b, t, he, hp⟩ := s.frame_eq now f
    simp only [State.outside, he]
    exact h.frames hp
  | captureEnds => exact h.silence
  | listenerEnds => exact { h with }
  | wakeDetected =>
    simp only [State.outside]
    split
    · exact { h with }
    · exact h
  | progress => exact h.progress
  | clearRunning => exact h.clearRunning
  | queueFinal => exact h.queueFinal
  | setBlanked => exact { h with }

theorem next (h : Inv s) (a : Step) : Inv (next s a) := by
  cases a with
  | callback c w =>
    simp only [Assist.next]
    split
    · exact h.callback c
    · exact h
  | runtimeTimer w => exact h.runtimeTimer
  | outside o => exact h.outside o

theorem run (now : UInt32) (l : List Step) : Inv (run Assist.next (State.initial now) l) :=
  run_invariant (fun _ a h => h.next a) (initial now) l

end Inv

/-- **At most one pipeline.**  In every run `start_assist_pipeline` finds the flag
`assist_pipeline_running` down whenever it is entered, and no generation has two pipelines. -/
theorem pipelines_exclude_each_other (now : UInt32) (l : List Step) :
    (∀ running generation,
      .pipelineStarted running generation ∈ (run next (State.initial now) l).trace →
        running = false) ∧
      (run next (State.initial now) l).started.Nodup := by
  have h := Inv.run now l
  refine ⟨?_, h.distinct⟩
  intro running generation hmem
  exact h.entered (running, generation) (List.mem_filterMap.mpr ⟨_, hmem, rfl⟩)

/-! ### A spoken command -/

/-- Parts of the runtime timer, at one time. -/
def ticks (now : UInt32) (parts : ℕ) : List Step := List.replicate parts (.runtimeTimer { now })

/-- A frame with speech. -/
def loudFrame : Frame := ⟨List.replicate monoSamplesPerFrame 1000, List.length_replicate⟩

/-- The listener is started, hears the wake word, and the command after it is recorded.  The next
part of the runtime timer starts the pipeline. -/
def spokenCommand : List Step :=
  ticks 1000 4 ++ [.outside .wakeDetected] ++ ticks 1100 2 ++
    List.replicate 10 (.outside (.frame 1200 loudFrame)) ++ ticks 2400 2

/-- A final result that answers a command with a question. -/
def question : AssistPipelineResult where
  success := true
  stage := Text.str "playback"
  transcript := Text.str "światło"
  response := Text.str "Które?"
  continueConversation := true

example : (run next (State.initial 0) (spokenCommand ++ ticks 2400 1)).trace =
    [.pipelineStarted false 1, .captureStarted .wakeCommand false, .listenerStarted false] := by
  decide +kernel

end Assist

end HaPanel
