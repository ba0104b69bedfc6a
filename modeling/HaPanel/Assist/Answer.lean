import HaPanel.Assist.Pipeline
import HaPanel.Transition.Mailbox
import Mathlib.Data.List.InsertIdx

/-!
# Answers and wake words

A pipeline thread clears `assist_pipeline_running` before it queues its final result, and one tick
of the runtime timer takes one result out of the queue.  In between, a pending wake word begins a
new capture, which opens a new generation, and the answer is dropped as stale
(`wakeWord_drops_answer`).  Nothing else drops it: `answer_is_applied` holds for every run in which
the runtime timer does not find a wake word ready while the answer is outstanding.

The results are a mailbox (`State.mail`), on which `Delivery` says what a step can do.
-/

namespace HaPanel

namespace Assist

open Transition

/-! ### The mailbox -/

def AssistPipelineUiResult.letter (r : AssistPipelineUiResult) : Letter :=
  ⟨r.generation, r.finalResult⟩

/-- The entry of the trace for a result that was dequeued. -/
def Event.taken? : Event → Option (Letter × ℕ)
  | pipelineStarted _ _ => none
  | captureStarted _ _ => none
  | listenerStarted _ => none
  | dequeued result generation => some (result.letter, generation)

/-- The panel's thread as the owner of a mailbox. -/
def State.mail (s : State) : Mailbox where
  generation := s.generation
  started := s.started
  workers := s.threads.map (·.generation)
  letters := s.pendingResults.map AssistPipelineUiResult.letter
  taken := s.trace.filterMap Event.taken?

/-- The user cancels, presses the push-to-talk button, or closes the Assist screen. -/
def UserAborts (s : State) : Step → Prop
  | .callback c _ =>
    c = .cancel ∨ c = .pttPressed ∨
      (c = .closeAssistScreen ∨ c = .closeSettings) ∧ s.assistScreen = true
  | .runtimeTimer _ => False
  | .outside _ => False

/-- The runtime timer finds a wake word for which it begins a capture. -/
def WakePreempts (s : State) : Step → Prop
  | .callback _ _ => False
  | .runtimeTimer _ =>
    match s.tick with
    | .wake _ => s.wakeReady = true
    | _ => False
  | .outside _ => False

/-- What a step can do to the mailbox. -/
inductive Delivery (s : State) (a : Step) : Mailbox → Prop where
  | stay : Delivery s a s.mail
  | advance (h : UserAborts s a ∨ WakePreempts s a) : Delivery s a s.mail.advance
  | close (h : UserAborts s a) : Delivery s a s.mail.advance.discard
  | start (h : s.generation ∉ s.started) : Delivery s a s.mail.start
  | take : Delivery s a s.mail.take
  /-- The final result of this generation is taken, and the panel listens again. -/
  | reopen (rest : List Letter) (h : s.mail.letters = ⟨s.generation, true⟩ :: rest) :
    Delivery s a s.mail.take.advance
  | post (g : ℕ) : Delivery s a (s.mail.post g)
  | finish (i g : ℕ) (h : s.mail.workers[i]? = some g) : Delivery s a (s.mail.finish i g)

namespace State

variable (s : State) (w : World)

theorem stopCapture_mail : (s.stopCapture w).mail = s.mail := by
  obtain ⟨p, b, t, he, -⟩ := s.stopCapture_eq w
  rw [he]
  rfl

theorem startCapture_mail (handler : FrameHandler) : (s.startCapture w handler).mail = s.mail := by
  obtain ⟨p, b, t, he, -⟩ := s.startCapture_eq w handler
  rw [he]
  cases w.captureStarts <;> rfl

theorem startWakeWordListener_mail : (s.startWakeWordListener w).1.mail = s.mail := by
  obtain ⟨p, l, he, -⟩ := s.startWakeWordListener_eq w
  rw [he]
  cases s.listenerStarts w <;> rfl

theorem beginWakeCommandCapture_mail : (s.beginWakeCommandCapture w).mail = s.mail.advance := by
  obtain ⟨p, b, t, d, r, he⟩ := s.beginWakeCommandCapture_eq w
  rw [he]
  cases w.captureStarts <;> rfl

theorem startAssistPipeline_mail : (s.startAssistPipeline w).mail = s.mail.start := by
  have hworkers : (s.threads ++ [s.newThread w]).map (·.generation) =
      s.threads.map (·.generation) ++ [s.generation] := List.map_append
  rw [mail, startAssistPipeline]
  simp only [hworkers]
  rfl

/-- A result is taken, and the final one of this generation may begin a capture. -/
theorem applyNextAssistPipelineResult_mail :
    (s.applyNextAssistPipelineResult w).mail = s.mail.take ∨
      ∃ rest, s.mail.letters = ⟨s.generation, true⟩ :: rest ∧
        (s.applyNextAssistPipelineResult w).mail = s.mail.take.advance := by
  cases hr : s.pendingResults with
  | nil =>
    refine .inl ?_
    rw [applyNextAssistPipelineResult_nil w hr]
    simp only [Mailbox.take, mail, hr, List.map_nil]
  | cons r rest =>
    obtain ⟨c, d, he⟩ := applyNextAssistPipelineResult_cons w hr
    have htake : (s.shown r rest c d).mail = s.mail.take := by
      simp only [Mailbox.take, mail, hr, List.map_cons]
      rfl
    rw [he]
    split
    · rename_i hopen
      have hfinal := AssistPipelineUiResult.final_of_reopens hopen.2
      refine .inr ⟨rest.map AssistPipelineUiResult.letter, ?_, ?_⟩
      · simp only [mail, hr, List.map_cons, AssistPipelineUiResult.letter, hopen.1, hfinal]
      · rw [beginWakeCommandCapture_mail, htake]
    · exact .inl htake

theorem progress_mail (i : ℕ) (result : AssistPipelineResult) :
    (s.progress i result).mail = s.mail ∨ ∃ g, (s.progress i result).mail = s.mail.post g := by
  unfold progress
  split
  · rename_i t ht
    split
    · refine .inr ⟨t.generation, ?_⟩
      simp only [mail, List.map_append]
      rfl
    · exact .inl rfl
  · exact .inl rfl

theorem clearRunning_mail (i : ℕ) (result : AssistPipelineResult) :
    (s.clearRunning i result).mail = s.mail := by
  unfold clearRunning
  split
  · rename_i t ht
    split
    · have hworkers : (s.threads.set i { t with outcome := some result }).map (·.generation) =
          s.threads.map (·.generation) := by
        apply List.ext_getElem?
        intro j
        rw [List.getElem?_map, List.getElem?_map, List.getElem?_set]
        by_cases hij : i = j
        · subst hij
          obtain ⟨hlt, hti⟩ := List.getElem?_eq_some_iff.mp ht
          simp [hlt, hti]
        · simp [hij]
      simp only [mail, hworkers]
      rfl
    · rfl
  · rfl

theorem queueFinal_mail (i : ℕ) :
    (s.queueFinal i).mail = s.mail ∨
      ∃ g, s.mail.workers[i]? = some g ∧ (s.queueFinal i).mail = s.mail.finish i g := by
  unfold queueFinal
  split
  · rename_i t ht
    split
    · refine .inr ⟨t.generation, ?_, ?_⟩
      · simp only [mail, List.getElem?_map, ht, Option.map_some]
      · simp only [mail, List.map_append, ← List.eraseIdx_map]
        rfl
    · exact .inl rfl
  · exact .inl rfl

variable {s w}

theorem new_of_stopCapture (h : Inv s) (hlen : 3200 ≤ (s.stopCapture w).pcmSamples.length) :
    s.generation ∉ s.started := by
  have hnew : (s.stopCapture w).mail.generation ∉ (s.stopCapture w).mail.started :=
    h.stopCapture.new_of_samples hlen
  rw [stopCapture_mail] at hnew
  exact hnew

theorem finishWakeCommandCapture_mail (h : Inv s) (submit : Bool) :
    (s.finishWakeCommandCapture w submit).mail = s.mail ∨
      s.generation ∉ s.started ∧ (s.finishWakeCommandCapture w submit).mail = s.mail.start := by
  have hover : Inv { s with wakeCaptureActive := false } := { h with }
  have hmail := stopCapture_mail { s with wakeCaptureActive := false } w
  unfold finishWakeCommandCapture
  dsimp only
  split
  · rename_i hsubmit
    have hnew := new_of_stopCapture (s := { s with wakeCaptureActive := false }) hover hsubmit.2
    refine .inr ⟨hnew, ?_⟩
    · rw [startAssistPipeline_mail, hmail]
      rfl
  · exact .inl hmail

theorem pttReleased_mail (h : Inv s) :
    (s.pttReleased w).mail = s.mail ∨
      s.generation ∉ s.started ∧ (s.pttReleased w).mail = s.mail.start := by
  have hmail := s.stopCapture_mail w
  unfold pttReleased
  dsimp only
  split
  · exact .inl hmail
  · rename_i hlen
    refine .inr ⟨?_, ?_⟩
    · exact new_of_stopCapture h (not_lt.mp hlen)
    · rw [startAssistPipeline_mail, hmail]

theorem pttPressed_mail (hrun : s.pipelineRunning = false) :
    (s.pttPressed w).mail = s.mail.advance := by
  have hmail := (s.armPtt w).startCapture_mail w .ptt
  unfold pttPressed
  rw [hrun]
  dsimp only
  split
  · exact absurd ‹_› Bool.false_ne_true
  · split
    · exact hmail
    · split
      · exact hmail
      · exact hmail

theorem closeMicrophoneScreen_mail (s : State) (w : World) :
    (s.closeMicrophoneScreen w).mail = s.mail :=
  (startWakeWordListener_mail _ w).trans (s.stopCapture_mail w)

theorem closeAssistScreen_mail (h : s.assistScreen = true) :
    (s.closeAssistScreen w).mail = s.mail.advance.discard := by
  have hmail := stopCapture_mail { s with
    generation := s.generation + 1
    display := s.display.hideOverlay
    pendingResults := [] } w
  rw [closeAssistScreen, if_pos h]
  exact hmail

theorem startWakeWordListener_assistScreen (s : State) (w : World) :
    (s.startWakeWordListener w).1.assistScreen = s.assistScreen := by
  obtain ⟨p, l, he, -⟩ := s.startWakeWordListener_eq w
  rw [he]

theorem closeMicrophoneScreen_assistScreen (s : State) (w : World) :
    (s.closeMicrophoneScreen w).assistScreen = s.assistScreen := by
  obtain ⟨p, b, t, he, -⟩ := s.stopCapture_eq w
  have hstop : (s.stopCapture w).assistScreen = s.assistScreen := by rw [he]
  exact (startWakeWordListener_assistScreen _ w).trans hstop

end State

/-! ### What a step can do -/

namespace Delivery

variable {s : State} {a : Step}

theorem of_eq {m : Mailbox} (h : m = s.mail) : Delivery s a m := h ▸ .stay

theorem of_start {m : Mailbox}
    (h : m = s.mail ∨ s.generation ∉ s.started ∧ m = s.mail.start) : Delivery s a m := by
  rcases h with rfl | ⟨hnew, rfl⟩
  · exact .stay
  · exact .start hnew

theorem of_take {m : Mailbox}
    (h : m = s.mail.take ∨ ∃ rest, s.mail.letters = ⟨s.generation, true⟩ :: rest ∧
      m = s.mail.take.advance) : Delivery s a m := by
  rcases h with rfl | ⟨rest, hl, rfl⟩
  · exact .take
  · exact .reopen rest hl

theorem pttPressed (s : State) (w : World) :
    Delivery s (.callback .pttPressed w) (s.callback w .pttPressed).mail := by
  cases hrun : s.pipelineRunning with
  | true => exact of_eq (by rw [State.callback, State.pttPressed, if_pos hrun])
  | false =>
    rw [State.callback, State.pttPressed_mail hrun]
    exact .advance (.inl (.inr (.inl rfl)))

theorem closeAssistScreen (s : State) (w : World) :
    Delivery s (.callback .closeAssistScreen w) (s.callback w .closeAssistScreen).mail := by
  cases hs : s.assistScreen with
  | true =>
    rw [State.callback, State.closeAssistScreen_mail hs]
    exact .close (.inr (.inr ⟨.inl rfl, hs⟩))
  | false => exact of_eq (by rw [State.callback, State.closeAssistScreen, hs]; rfl)

/-- Closing the settings closes the microphone screen first, which leaves the answers alone. -/
theorem closeSettings (s : State) (w : World) :
    Delivery s (.callback .closeSettings w) (s.callback w .closeSettings).mail := by
  have hmic := s.closeMicrophoneScreen_mail w
  have hscreen := s.closeMicrophoneScreen_assistScreen w
  rw [State.callback, State.closeSettings]
  cases hs : s.assistScreen with
  | true =>
    rw [State.closeAssistScreen_mail (hscreen.trans hs), hmic]
    exact .close (.inr (.inr ⟨.inr rfl, hs⟩))
  | false =>
    rw [State.closeAssistScreen, hscreen, hs]
    exact of_eq hmic

theorem callback (h : Inv s) (c : Callback) (w : World) :
    Delivery s (.callback c w) (s.callback w c).mail := by
  cases c with
  | pttPressed => exact pttPressed s w
  | pttReleased => exact of_start (State.pttReleased_mail h)
  | cancel =>
    have hmail := State.stopCapture_mail
      { s with generation := s.generation + 1, wakeCaptureActive := false } w
    have hcancel : (s.callback w .cancel).mail = s.mail.advance := hmail
    rw [hcancel]
    exact .advance (.inl (.inl rfl))
  | newConversation =>
    rw [State.callback, State.newConversation]
    split
    · exact .stay
    · exact .stay
  | createAssistScreen => exact .stay
  | closeAssistScreen => exact closeAssistScreen s w
  | createMicrophoneScreen wakeEnabled muteOnBlank =>
    rw [State.callback, State.createMicrophoneScreen]
    split
    · exact .stay
    · exact of_eq (State.startCapture_mail _ w .microphoneTest)
  | closeMicrophoneScreen => exact of_eq (s.closeMicrophoneScreen_mail w)
  | closeSettings => exact closeSettings s w
  | toggleWake enabled =>
    cases enabled
    · exact .stay
    · exact .stay
  | toggleMuteOnBlank => exact .stay
  | levelTimer =>
    rw [State.callback, State.assistLevelTimer]
    split
    · exact of_take (s.applyNextAssistPipelineResult_mail w)
    · exact .stay
  | overlayTimer =>
    rw [State.callback, State.assistOverlayTimer]
    split
    · exact .stay
    · exact .stay

theorem runtimeTimer (h : Inv s) (w : World) :
    Delivery s (.runtimeTimer w) (s.runtimeTimer w).mail := by
  unfold State.runtimeTimer
  split
  · exact of_take (s.applyNextAssistPipelineResult_mail w)
  · rename_i now htick
    unfold State.tickWake
    split
    · rename_i hready
      have hmail := State.beginWakeCommandCapture_mail
        ({ s with wakePending := false }.stopListener w) w
      have hbegin : ({ ({ s with wakePending := false }.stopListener w).beginWakeCommandCapture w
          with tick := .idle }).mail = s.mail.advance := hmail
      rw [hbegin]
      exact .advance (.inr (by simpa only [WakePreempts, htick] using hready))
    · exact .stay
  · have hidle : Inv { s with tick := .idle } := { h with }
    unfold State.tickCapture
    split
    · dsimp only
      split
      · exact of_start (State.finishWakeCommandCapture_mail hidle _)
      · split
        · exact of_start (State.finishWakeCommandCapture_mail hidle _)
        · exact .stay
    · exact .stay
  · have hmail := State.startWakeWordListener_mail { s with tick := .idle } w
    unfold State.tickListener
    dsimp only
    split
    · split
      · exact of_eq hmail
      · exact of_eq hmail
    · exact .stay

theorem outside (s : State) (o : Outside) : Delivery s (.outside o) (s.outside o).mail := by
  cases o with
  | frame now f =>
    obtain ⟨p, b, t, he, -⟩ := s.frame_eq now f
    rw [State.outside, he]
    exact .stay
  | captureEnds => exact .stay
  | listenerEnds => exact .stay
  | wakeDetected =>
    rw [State.outside]
    split
    · exact .stay
    · exact .stay
  | progress i result =>
    rcases s.progress_mail i result with h | ⟨g, h⟩
    · exact of_eq h
    · rw [State.outside, h]
      exact .post g
  | clearRunning i result => exact of_eq (s.clearRunning_mail i result)
  | queueFinal i =>
    rcases s.queueFinal_mail i with h | ⟨g, hi, h⟩
    · exact of_eq h
    · rw [State.outside, h]
      exact .finish i g hi
  | setBlanked => exact .stay

theorem next (h : Inv s) (a : Step) : Delivery s a (next s a).mail := by
  cases a with
  | callback c w =>
    simp only [Assist.next]
    split
    · exact callback h c w
    · exact .stay
  | runtimeTimer w => exact runtimeTimer h w
  | outside o => exact outside s o

end Delivery

/-! ### The answer -/

/-- The pipeline of generation `g` has not returned, or its final result is not dequeued. -/
def State.Awaits (s : State) (g : ℕ) : Prop :=
  (∃ t ∈ s.threads, t.generation = g) ∨
    ∃ r ∈ s.pendingResults, r.generation = g ∧ r.finalResult = true

theorem State.awaits_iff (s : State) (g : ℕ) : s.Awaits g ↔ g ∈ s.mail.outstanding := by
  rw [State.Awaits, Mailbox.outstanding, List.mem_append]
  refine or_congr List.mem_map.symm ⟨?_, ?_⟩
  · rintro ⟨r, hr, hgen, hfinal⟩
    exact List.mem_map.mpr
      ⟨r.letter, List.mem_filter.mpr ⟨List.mem_map_of_mem hr, hfinal⟩, hgen⟩
  · intro hmem
    obtain ⟨l, hl, hgen⟩ := List.mem_map.mp hmem
    obtain ⟨hl, hfinal⟩ := List.mem_filter.mp hl
    obtain ⟨r, hr, rfl⟩ := List.mem_map.mp hl
    exact ⟨r, hr, hgen, hfinal⟩

theorem mail_wf_next {s : State} (h : Inv s) (hwf : s.mail.WF) (a : Step) :
    (next s a).mail.WF := by
  have hd := Delivery.next h a
  generalize (next s a).mail = m at hd
  cases hd with
  | stay => exact hwf
  | advance => exact hwf.advance
  | close => exact hwf.advance.discard
  | start hnew => exact hwf.start hnew
  | take => exact hwf.take
  | reopen => exact hwf.take.advance
  | post => exact hwf.post
  | finish i g hi => exact hwf.finish hi

/-- The user leaves the answer of generation `g` alone as long as it is awaited, and no wake word
gets in its way. -/
def Undisturbed (g : ℕ) (s : State) (a : Step) : Prop :=
  s.Awaits g → ¬ UserAborts s a ∧ ¬ WakePreempts s a

theorem settled_next {s : State} {g : ℕ} (h : Inv s) (hwf : s.mail.WF)
    (hset : Mailbox.Settled g s.mail) {a : Step} (ha : Undisturbed g s a) :
    Mailbox.Settled g (next s a).mail := by
  rw [Undisturbed, s.awaits_iff g] at ha
  have hd := Delivery.next h a
  generalize (next s a).mail = m at hd
  cases hd with
  | stay => exact hset
  | advance hcause =>
    refine hset.advance ?_
    intro hmem
    obtain ⟨hu, hw⟩ := ha hmem
    exact hcause.elim hu hw
  | close hu =>
    have hmem : g ∉ s.mail.outstanding := fun hmem => (ha hmem).1 hu
    exact (hset.advance hmem).discard hmem
  | start hnew => exact hset.start hwf hnew
  | take => exact hset.take hwf
  | reopen rest hl => exact (hset.take hwf).advance (hset.notMem_of_take hwf hl)
  | post => exact hset.post
  | finish i g' hi => exact hset.finish hi

/-- The step starts the pipeline of generation `g`. -/
def StartsPipeline (s : State) (a : Step) (g : ℕ) : Prop := (next s a).started = g :: s.started

theorem settled_of_start {s : State} {a : Step} {g : ℕ} (h : Inv s) (hwf : s.mail.WF)
    (hstart : StartsPipeline s a g) : Mailbox.Settled g (next s a).mail := by
  have hd := Delivery.next h a
  have hstarted : (next s a).mail.started = g :: s.mail.started := hstart
  have hlonger : s.mail.started ≠ g :: s.mail.started := (List.cons_ne_self _ _).symm
  generalize (next s a).mail = m at hd hstarted
  -- no other delivery adds to the pipelines that were started
  cases hd with
  | start hnew =>
    obtain ⟨rfl, -⟩ := List.cons.inj hstarted
    exact .inl (hwf.waiting_start hnew)
  | stay => exact absurd hstarted hlonger
  | advance => exact absurd hstarted hlonger
  | close => exact absurd hstarted hlonger
  | take => exact absurd (Mailbox.take_started.symm.trans hstarted) hlonger
  | reopen => exact absurd (Mailbox.take_started.symm.trans hstarted) hlonger
  | post => exact absurd hstarted hlonger
  | finish => exact absurd hstarted hlonger

theorem mail_wf_run (now : UInt32) (l : List Step) : (run next (State.initial now) l).mail.WF := by
  have hinit : (State.initial now).mail.WF :=
    ⟨List.nodup_nil, fun _ hg => (List.not_mem_nil hg).elim,
      fun _ hp => (List.not_mem_nil hp).elim⟩
  exact (run_invariant (I := fun s => Inv s ∧ s.mail.WF)
    (fun s a h => ⟨h.1.next a, mail_wf_next h.1 h.2 a⟩) ⟨.initial now, hinit⟩ l).2

/-- The final result of generation `g` was dequeued in no other generation, and it is not lost. -/
structure AnswerApplied (g : ℕ) (s : State) : Prop where
  current : ∀ r n, .dequeued r n ∈ s.trace → r.generation = g → r.finalResult = true → n = g
  kept : s.Awaits g ∨ ∃ r, .dequeued r g ∈ s.trace ∧ r.generation = g ∧ r.finalResult = true

theorem answerApplied_of_settled {s : State} {g : ℕ} (h : Mailbox.Settled g s.mail) :
    AnswerApplied g s := by
  refine ⟨?_, ?_⟩
  · intro r n hmem hgen hfinal
    have hletter : r.letter = ⟨g, true⟩ := by rw [AssistPipelineUiResult.letter, hgen, hfinal]
    exact h.current (r.letter, n) (List.mem_filterMap.mpr ⟨_, hmem, rfl⟩) hletter
  · rcases h.outstanding_or_taken with hout | htaken
    · exact .inl ((s.awaits_iff g).mpr hout)
    · obtain ⟨e, he, htake⟩ := List.mem_filterMap.mp htaken
      cases e with
      | dequeued r n =>
        obtain ⟨hletter, rfl⟩ := Prod.mk.inj (Option.some.inj htake)
        obtain ⟨hgen, hfinal⟩ := Letter.mk.inj hletter
        exact .inr ⟨r, he, hgen, hfinal⟩
      | pipelineStarted => cases htake
      | captureStarted => cases htake
      | listenerStarted => cases htake

/-- **No answer is dropped** unless the user or a wake word that the runtime timer finds ready gets
in its way: in every run from the start of the pipeline of generation `g`, its final result is
dequeued in generation `g`. -/
theorem answer_is_applied (now : UInt32) (before after : List Step) (a : Step) (g : ℕ)
    (hstart : StartsPipeline (run next (State.initial now) before) a g)
    (hafter : Along next (Undisturbed g) (next (run next (State.initial now) before) a) after) :
    AnswerApplied g (run next (State.initial now) (before ++ a :: after)) := by
  have hinv := Inv.run now before
  have hwf := mail_wf_run now before
  have hrun := Along.invariant (I := fun s => Inv s ∧ s.mail.WF ∧ Mailbox.Settled g s.mail)
    (fun s a h ha => ⟨h.1.next a, mail_wf_next h.1 h.2.1 a, settled_next h.1 h.2.1 h.2.2 ha⟩)
    ⟨hinv.next a, mail_wf_next hinv hwf a, settled_of_start hinv hwf hstart⟩ hafter
  rw [run_append, run_cons]
  exact answerApplied_of_settled hrun.2.2

/-! ### Two runs -/

instance (s : State) (g : ℕ) : Decidable (s.Awaits g) :=
  inferInstanceAs (Decidable ((∃ t ∈ s.threads, t.generation = g) ∨
    ∃ r ∈ s.pendingResults, r.generation = g ∧ r.finalResult = true))

instance (s : State) : ∀ a, Decidable (UserAborts s a)
  | .callback c _ =>
    inferInstanceAs (Decidable (c = .cancel ∨ c = .pttPressed ∨
      (c = .closeAssistScreen ∨ c = .closeSettings) ∧ s.assistScreen = true))
  | .runtimeTimer _ => .isFalse id
  | .outside _ => .isFalse id

instance (s : State) : ∀ a, Decidable (WakePreempts s a)
  | .callback _ _ => .isFalse id
  | .runtimeTimer _ =>
    match h : s.tick with
    | .wake _ => decidable_of_iff (s.wakeReady = true) (by simp only [WakePreempts, h])
    | .idle => .isFalse (by simp only [WakePreempts, h, not_false_eq_true])
    | .capture _ => .isFalse (by simp only [WakePreempts, h, not_false_eq_true])
    | .listener _ => .isFalse (by simp only [WakePreempts, h, not_false_eq_true])
  | .outside _ => .isFalse id

instance (g : ℕ) (s : State) (a : Step) : Decidable (Undisturbed g s a) :=
  inferInstanceAs (Decidable (s.Awaits g → ¬ UserAborts s a ∧ ¬ WakePreempts s a))

instance (s : State) (a : Step) (g : ℕ) : Decidable (StartsPipeline s a g) :=
  inferInstanceAs (Decidable ((next s a).started = g :: s.started))

def ttsLevel : AssistPipelineResult := { stage := Text.str "tts_level" }

/-- The pipeline reports a level and its answer, and the answer is dequeued. -/
def heardAnswer : List Step :=
  [.outside (.progress 0 ttsLevel), .outside (.clearRunning 0 question)] ++ ticks 2500 4 ++
    [.outside (.queueFinal 0)] ++ ticks 2600 1

theorem heardAnswer_is_applied :
    .dequeued ⟨1, question, true⟩ 1 ∈
        (run next (State.initial 0) (spokenCommand ++ .runtimeTimer { now := 2400 } ::
          heardAnswer)).trace ∧
      AnswerApplied 1 (run next (State.initial 0)
        (spokenCommand ++ .runtimeTimer { now := 2400 } :: heardAnswer)) :=
  ⟨by decide +kernel,
    answer_is_applied 0 spokenCommand heardAnswer _ 1 (by decide +kernel) (by decide +kernel)⟩

/-- Two reports and the answer are queued when the flag is down.  The runtime timer takes one report
and starts the listener, which hears the wake word; it takes the other report and begins a capture;
then it comes to the answer. -/
def interruptedAnswer : List Step :=
  [.outside (.progress 0 ttsLevel), .outside (.progress 0 ttsLevel),
    .outside (.clearRunning 0 question), .outside (.queueFinal 0)] ++ ticks 2500 4 ++
    [.outside .wakeDetected] ++ ticks 2600 2 ++ ticks 2700 1

/-- A wake word makes the panel drop an answer that the user did nothing against. -/
theorem wakeWord_drops_answer :
    StartsPipeline (run next (State.initial 0) spokenCommand) (.runtimeTimer { now := 2400 }) 1 ∧
      Along next (fun s a => ¬ UserAborts s a)
        (next (run next (State.initial 0) spokenCommand) (.runtimeTimer { now := 2400 }))
        interruptedAnswer ∧
      ¬ AnswerApplied 1 (run next (State.initial 0)
        (spokenCommand ++ .runtimeTimer { now := 2400 } :: interruptedAnswer)) := by
  refine ⟨by decide +kernel, by decide +kernel, ?_⟩
  intro h
  have hstale : .dequeued ⟨1, question, true⟩ 2 ∈ (run next (State.initial 0)
      (spokenCommand ++ .runtimeTimer { now := 2400 } :: interruptedAnswer)).trace := by
    decide +kernel
  exact absurd (h.current _ 2 hstale rfl rfl) (by decide)

end Assist

end HaPanel
