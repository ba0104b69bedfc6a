import HaPanel.Assist.Deadlines

/-!
# Tests of deadlines

The conversation is kept until it expires, the wake word listener is started and the overlay is
hidden when their time has come.  The code decides this by the signed difference of two counters.

`deadlines_correct_iff` : in every state of every run the three tests decide by the true time exactly
if the deadlines they read are timely: a deadline that has passed did so less than `2 ^ 31`
milliseconds ago, modulo `2 ^ 32`, and its counter is not the value that stands for "not set".
The listener is not started again if it has run for 25 days: `listener_stays_off`.
-/

namespace HaPanel

namespace Assist

open Transition

/-! ### The invariant -/

/-- The time the runtime timer has read, while it runs. -/
def Tick.now : Tick → Option UInt32
  | .idle => none
  | .wake now => some now
  | .capture now => some now
  | .listener now => some now

namespace Timed

/-- The true times determine the counters. -/
structure Coherent (σ : Timed) : Prop where
  counters : σ.due.counters = σ.state.counters
  within : σ.due.Within σ.clock
  tickTime : σ.tickTime ≤ σ.clock
  /-- While the runtime timer runs, no other callback sets a deadline. -/
  tick : ∀ now ∈ σ.state.tick.now,
    now = UInt32.ofNat σ.tickTime ∧ σ.due.restart ≤ σ.tickTime + 5000

theorem Coherent.initial (t : ℕ) : (Timed.initial t).Coherent := by
  refine ⟨?_, ⟨nofun, ?_, nofun⟩, le_rfl, nofun⟩
  · exact counters_eq_iff.mpr ⟨rfl, (deadline_ofNat t 1000).symm, rfl⟩
  · show t + 1000 ≤ t + 5000
    omega

theorem Coherent.later {σ : Timed} (h : σ.Coherent) (elapsed : ℕ) :
    σ.due.Within (σ.clock + elapsed) :=
  h.within.mono (Nat.le_add_right _ _)

theorem Coherent.callback {σ : Timed} (h : σ.Coherent) (elapsed : ℕ) (c : Callback) (w : World) :
    (σ.next ⟨elapsed, .callback c w⟩).Coherent := by
  by_cases htick : σ.state.tick = .idle
  · have hstep : σ.next ⟨elapsed, .callback c w⟩ =
        ⟨σ.state.callback (w.at (σ.clock + elapsed)) c, σ.clock + elapsed, σ.clock + elapsed,
          σ.due.callback σ.state (w.at (σ.clock + elapsed)) (σ.clock + elapsed) c⟩ := by
      simp only [Timed.next, Step.at, Assist.next, Deadlines.next, htick, if_true]
    rw [hstep]
    refine ⟨Deadlines.counters_callback h.counters c, (h.later elapsed).callback c, le_rfl, ?_⟩
    simp only [State.callback_tick, htick]
    intro _ hidle
    cases hidle
  · have hstep : σ.next ⟨elapsed, .callback c w⟩ =
        ⟨σ.state, σ.clock + elapsed, σ.tickTime, σ.due⟩ := by
      simp only [Timed.next, Step.at, Assist.next, Deadlines.next, htick, if_false]
    rw [hstep]
    exact ⟨h.counters, h.later elapsed, h.tickTime.trans (Nat.le_add_right _ _), h.tick⟩

theorem Coherent.outside {σ : Timed} (h : σ.Coherent) (elapsed : ℕ) (o : Outside) :
    (σ.next ⟨elapsed, .outside o⟩).Coherent := by
  obtain ⟨o', ho⟩ : ∃ o', Step.at (σ.clock + elapsed) (.outside o) = .outside o' := by
    cases o <;> exact ⟨_, rfl⟩
  have hstep : σ.next ⟨elapsed, .outside o⟩ =
      ⟨σ.state.outside o', σ.clock + elapsed,
        if σ.state.tick = .idle then σ.clock + elapsed else σ.tickTime, σ.due⟩ := by
    simp only [Timed.next, ho, Assist.next, Deadlines.next]
  rw [hstep]
  refine ⟨Deadlines.counters_outside h.counters o', h.later elapsed, ?_, ?_⟩
  · have := h.tickTime
    show (if σ.state.tick = .idle then σ.clock + elapsed else σ.tickTime) ≤ σ.clock + elapsed
    split_ifs <;> omega
  · simp only [State.outside_tick]
    intro now hnow
    have hne : σ.state.tick ≠ .idle := fun hidle => by simp [hidle, Tick.now] at hnow
    rw [if_neg hne]
    exact h.tick now hnow

theorem Coherent.tickTime_le {σ : Timed} (h : σ.Coherent) (elapsed : ℕ) :
    σ.tickTime ≤ σ.clock + elapsed :=
  h.tickTime.trans (Nat.le_add_right _ _)

/-- The first part of the runtime timer reads the time. -/
theorem Coherent.tickResult {σ : Timed} (h : σ.Coherent) (elapsed : ℕ) (w : World)
    (htick : σ.state.tick = .idle) : (σ.next ⟨elapsed, .runtimeTimer w⟩).Coherent := by
  have hstep : σ.next ⟨elapsed, .runtimeTimer w⟩ =
      ⟨σ.state.tickResult (w.at (σ.clock + elapsed)), σ.clock + elapsed, σ.clock + elapsed,
        σ.due.applyNextAssistPipelineResult σ.state (w.at (σ.clock + elapsed))
          (σ.clock + elapsed)⟩ := by
    simp only [Timed.next, Step.at, Assist.next, Deadlines.next, State.runtimeTimer,
      Deadlines.runtimeTimer, htick, if_true]
  have hwithin := (h.later elapsed).applyNextAssistPipelineResult (s := σ.state)
    (w := w.at (σ.clock + elapsed))
  rw [hstep]
  refine ⟨Deadlines.counters_applyNextAssistPipelineResult h.counters, hwithin, le_rfl, ?_⟩
  rintro now ⟨⟩
  exact ⟨rfl, hwithin.restart⟩

/-- The other parts use the time that the first one has read. -/
theorem next_runtimeTimer {σ : Timed} (elapsed : ℕ) (w : World) (htick : σ.state.tick ≠ .idle) :
    σ.next ⟨elapsed, .runtimeTimer w⟩ =
      ⟨σ.state.runtimeTimer (w.at (σ.clock + elapsed)), σ.clock + elapsed, σ.tickTime,
        σ.due.runtimeTimer σ.state (w.at (σ.clock + elapsed)) (σ.clock + elapsed) σ.tickTime⟩ := by
  simp only [Timed.next, Step.at, Assist.next, Deadlines.next, htick, if_false]

theorem Coherent.tickWake {σ : Timed} (h : σ.Coherent) (elapsed : ℕ) (w : World) {now : UInt32}
    (htick : σ.state.tick = .wake now) : (σ.next ⟨elapsed, .runtimeTimer w⟩).Coherent := by
  have hnow := h.tick now (by rw [htick]; rfl)
  rw [next_runtimeTimer elapsed w (by rw [htick]; exact Tick.noConfusion)]
  simp only [State.runtimeTimer, Deadlines.runtimeTimer, htick]
  refine ⟨Deadlines.counters_tickWake h.counters now, ?_, h.tickTime_le elapsed, ?_⟩
  · unfold Deadlines.tickWake
    split_ifs
    · exact (h.later elapsed).beginWakeCommandCapture
    · exact h.later elapsed
  · simp only [State.tickWake, Deadlines.tickWake]
    split_ifs
    · rintro _ ⟨⟩
    · rintro _ ⟨⟩
      exact hnow

theorem Coherent.tickCapture {σ : Timed} (h : σ.Coherent) (elapsed : ℕ) (w : World) {now : UInt32}
    (htick : σ.state.tick = .capture now) : (σ.next ⟨elapsed, .runtimeTimer w⟩).Coherent := by
  have hnow := h.tick now (by rw [htick]; rfl)
  rw [next_runtimeTimer elapsed w (by rw [htick]; exact Tick.noConfusion)]
  simp only [State.runtimeTimer, Deadlines.runtimeTimer, htick]
  refine ⟨Deadlines.counters_tickCapture h.counters now, ?_, h.tickTime_le elapsed, ?_⟩
  · simp only [Deadlines.tickCapture]
    split_ifs
    · exact (h.later elapsed).finishWakeCommandCapture _
    · exact (h.later elapsed).finishWakeCommandCapture _
    · exact h.later elapsed
    · exact h.later elapsed
  · -- the timer goes on only if the capture does not end here
    simp only [State.tickCapture, Deadlines.tickCapture]
    split_ifs
    · simp only [State.finishWakeCommandCapture_tick]
      rintro _ ⟨⟩
    · simp only [State.finishWakeCommandCapture_tick]
      rintro _ ⟨⟩
    · rintro _ ⟨⟩
    · rintro _ ⟨⟩
      exact hnow

theorem Coherent.tickListener {σ : Timed} (h : σ.Coherent) (elapsed : ℕ) (w : World) {now : UInt32}
    (htick : σ.state.tick = .listener now) : (σ.next ⟨elapsed, .runtimeTimer w⟩).Coherent := by
  have hnow := h.tick now (by rw [htick]; rfl)
  have hle := h.tickTime_le elapsed
  rw [next_runtimeTimer elapsed w (by rw [htick]; exact Tick.noConfusion)]
  simp only [State.runtimeTimer, Deadlines.runtimeTimer, htick, hnow.1]
  refine ⟨Deadlines.counters_tickListener h.counters, ?_, hle, ?_⟩
  · -- a start that fails is tried again five seconds after the time the timer has read
    unfold Deadlines.tickListener
    split_ifs
    · exact (h.later elapsed).restartAt (by omega)
    · exact h.later elapsed
  · rw [State.tickListener_eq]
    split_ifs
    · simp only [State.startWakeWordListener_tick]
      rintro _ ⟨⟩
    · simp only [State.startWakeWordListener_tick]
      rintro _ ⟨⟩
    · rintro _ ⟨⟩

theorem Coherent.runtimeTimer {σ : Timed} (h : σ.Coherent) (elapsed : ℕ) (w : World) :
    (σ.next ⟨elapsed, .runtimeTimer w⟩).Coherent := by
  cases htick : σ.state.tick with
  | idle => exact h.tickResult elapsed w htick
  | wake now => exact h.tickWake elapsed w htick
  | capture now => exact h.tickCapture elapsed w htick
  | listener now => exact h.tickListener elapsed w htick

theorem Coherent.next {σ : Timed} (h : σ.Coherent) (a : TimedStep) : (σ.next a).Coherent := by
  obtain ⟨elapsed, step⟩ := a
  cases step with
  | callback c w => exact h.callback elapsed c w
  | runtimeTimer w => exact h.runtimeTimer elapsed w
  | outside o => exact h.outside elapsed o

theorem Coherent.run {σ : Timed} (h : σ.Coherent) (l : List TimedStep) :
    (run Timed.next σ l).Coherent :=
  run_invariant (fun _ a h => h.next a) h l

end Timed

/-! ### The three tests -/

/-- Nothing keeps the runtime timer from starting the wake word listener. -/
def State.Quiet (s : State) : Prop :=
  s.pipelineRunning = false ∧ s.audio = none ∧ s.listener = false

instance (s : State) : Decidable s.Quiet := inferInstanceAs (Decidable (_ ∧ _))

/-- The three tests decide by the true time, if the first and the last are made at time `t`. -/
structure Timed.Correct (σ : Timed) (t : ℕ) : Prop where
  /-- `start_assist_pipeline` keeps the conversation until it expires. -/
  conversation : ∀ w : World,
    (σ.state.startAssistPipeline (w.at t)).conversation = σ.state.conversation ↔
      ∀ T ∈ σ.due.expires, t < T
  /-- The runtime timer starts the listener once the time for it has come. -/
  listener : ∀ now, σ.state.tick = .listener now → σ.state.Quiet →
    (σ.state.callsStartWakeWordListener now = true ↔ σ.due.restart ≤ σ.tickTime)
  /-- The overlay timer hides the overlay once the time for it has come. -/
  overlay : ∀ w : World, σ.state.display.overlay = true →
    ((σ.state.assistOverlayTimer (w.at t)).display.overlay = false ↔ ∃ T ∈ σ.due.hide, T ≤ t)

/-- If the deadline `T` has passed at time `t`, the signed difference of the counters shows it. -/
def Recent (t T : ℕ) : Prop := T ≤ t → (t - T) % 2 ^ 32 < 2 ^ 31

/-- If the deadline `T` has passed at time `t`, its counter is not `0`. -/
def Visible (t T : ℕ) : Prop := T ≤ t → ¬ 2 ^ 32 ∣ T

instance (t T : ℕ) : Decidable (Recent t T) := inferInstanceAs (Decidable (_ → _))

instance (t T : ℕ) : Decidable (Visible t T) := inferInstanceAs (Decidable (_ → _))

/-- The deadlines that the three tests read are recent and visible. -/
structure Timed.Timely (σ : Timed) (t : ℕ) : Prop where
  conversation : ∀ T ∈ σ.due.expires, Recent t T ∧ Visible t T
  listener : ∀ now, σ.state.tick = .listener now → σ.state.Quiet →
    Recent σ.tickTime σ.due.restart
  overlay : σ.state.display.overlay = true → ∀ T ∈ σ.due.hide, Recent t T ∧ Visible t T

/-- What the signed difference says about a deadline that is not far ahead. -/
theorem reached_iff {t T : ℕ} (h : T ≤ t + 2 ^ 31) :
    reached (UInt32.ofNat t) (UInt32.ofNat T) = true ↔ T ≤ t ∧ (t - T) % 2 ^ 32 < 2 ^ 31 := by
  rw [reached_ofNat]
  omega

theorem recent_iff {t T : ℕ} (h : T ≤ t + 2 ^ 31) :
    (reached (UInt32.ofNat t) (UInt32.ofNat T) = true ↔ T ≤ t) ↔ Recent t T := by
  rw [reached_iff h, Recent]
  tauto

/-- The test of a deadline for which `0` stands for "not set". -/
theorem timely_iff {t : ℕ} {o : Option ℕ} (h : ∀ T ∈ o, T ≤ t + 2 ^ 31) :
    ((counter o ≠ 0 ∧ reached (UInt32.ofNat t) (counter o) = true) ↔ ∃ T ∈ o, T ≤ t) ↔
      ∀ T ∈ o, Recent t T ∧ Visible t T := by
  cases o with
  | none => simp [counter]
  | some T =>
    have hT := reached_iff (h T rfl)
    simp only [counter, ne_eq, ofNat_eq_zero_iff, hT, Option.mem_def, Option.some.injEq,
      exists_eq_left', forall_eq', Recent, Visible]
    tauto

theorem State.startAssistPipeline_keeps_iff (s : State) (w : World) :
    (s.startAssistPipeline w).conversation = s.conversation ↔
      ¬ (s.conversation.expiresAt ≠ 0 ∧ reached w.now s.conversation.expiresAt = true) := by
  have hconv : (s.startAssistPipeline w).conversation = (s.expireConversation w).conversation := rfl
  rw [hconv, expireConversation]
  split_ifs with hexp
  · have hne : s.resetConversation.conversation ≠ s.conversation := fun he =>
      hexp.1 (congrArg Conversation.expiresAt he).symm
    simp [hne, hexp]
  · simp [hexp]

theorem State.assistOverlayTimer_hides_iff {s : State} (h : s.display.overlay = true) (w : World) :
    (s.assistOverlayTimer w).display.overlay = false ↔
      s.display.hideAt ≠ 0 ∧ reached w.now s.display.hideAt = true := by
  simp only [assistOverlayTimer, h, true_and]
  split_ifs with hhide
  · simp [hhide, Display.hideOverlay]
  · simp [hhide, h]

theorem Timed.Coherent.correct_iff {σ : Timed} (h : σ.Coherent) (elapsed : ℕ) :
    σ.Correct (σ.clock + elapsed) ↔ σ.Timely (σ.clock + elapsed) := by
  obtain ⟨he, hr, hh⟩ := counters_eq_iff.mp h.counters
  have hconv : (∀ w : World, (σ.state.startAssistPipeline (w.at (σ.clock + elapsed))).conversation =
      σ.state.conversation ↔ ∀ T ∈ σ.due.expires, σ.clock + elapsed < T) ↔
      ∀ T ∈ σ.due.expires, Recent (σ.clock + elapsed) T ∧ Visible (σ.clock + elapsed) T := by
    rw [← timely_iff fun T hT => by have := h.within.expires T hT; omega]
    have hlt : (∀ T ∈ σ.due.expires, σ.clock + elapsed < T) ↔
        ¬ ∃ T ∈ σ.due.expires, T ≤ σ.clock + elapsed := by
      push Not
      rfl
    simp only [State.startAssistPipeline_keeps_iff, World.at, hlt, he, not_iff_not]
    exact ⟨fun h => h {}, fun h _ => h⟩
  have hlisten : ∀ now, σ.state.tick = .listener now → σ.state.Quiet →
      ((σ.state.callsStartWakeWordListener now = true ↔ σ.due.restart ≤ σ.tickTime) ↔
        Recent σ.tickTime σ.due.restart) := by
    rintro now htick ⟨hp, ha, hl⟩
    obtain ⟨hnow, hle⟩ := h.tick now (by rw [htick]; rfl)
    rw [← recent_iff (by omega)]
    simp [State.callsStartWakeWordListener, hp, ha, hl, hnow, hr]
  have hover : σ.state.display.overlay = true → ((∀ w : World,
      (σ.state.assistOverlayTimer (w.at (σ.clock + elapsed))).display.overlay = false ↔
        ∃ T ∈ σ.due.hide, T ≤ σ.clock + elapsed) ↔
      ∀ T ∈ σ.due.hide, Recent (σ.clock + elapsed) T ∧ Visible (σ.clock + elapsed) T) := by
    intro hoverlay
    rw [← timely_iff fun T hT => by have := h.within.hide T hT; omega]
    simp only [State.assistOverlayTimer_hides_iff hoverlay, World.at, hh]
    exact ⟨fun h => h {}, fun h _ => h⟩
  constructor
  · rintro ⟨h₁, h₂, h₃⟩
    exact ⟨hconv.mp h₁, fun now ht hq => (hlisten now ht hq).mp (h₂ now ht hq),
      fun ho => (hover ho).mp fun w => h₃ w ho⟩
  · rintro ⟨h₁, h₂, h₃⟩
    exact ⟨hconv.mpr h₁, fun now ht hq => (hlisten now ht hq).mpr (h₂ now ht hq),
      fun w ho => (hover ho).mpr (h₃ ho) w⟩

/-- **The tests decide by the true time exactly if the deadlines are timely**, in every state of
every run, and however long after its last step the test is made. -/
theorem deadlines_correct_iff (t : ℕ) (l : List TimedStep) (elapsed : ℕ) :
    (run Timed.next (.initial t) l).Correct ((run Timed.next (.initial t) l).clock + elapsed) ↔
      (run Timed.next (.initial t) l).Timely ((run Timed.next (.initial t) l).clock + elapsed) :=
  ((Timed.Coherent.initial t).run l).correct_iff elapsed

/-- The four parts of the runtime timer, after `elapsed` milliseconds. -/
def timerAfter (elapsed : ℕ) : List TimedStep :=
  ⟨elapsed, .runtimeTimer {}⟩ :: List.replicate 3 ⟨0, .runtimeTimer {}⟩

/-- The listener is started after two seconds, and its worker dies 25 days later.  The runtime timer
has come to its last part. -/
def longRun : List TimedStep :=
  timerAfter 2000 ++ [⟨2160000000, .outside .listenerEnds⟩] ++ (timerAfter 100).take 3

/-- **The listener is not started again** after 25 days, although its time has come. -/
theorem listener_stays_off :
    ¬ (run Timed.next (.initial 0) longRun).Correct (run Timed.next (.initial 0) longRun).clock := by
  have hrun : (run Timed.next (.initial 0) longRun).state.tick = .listener 2160002100 ∧
      (run Timed.next (.initial 0) longRun).state.Quiet ∧
      (run Timed.next (.initial 0) longRun).state.callsStartWakeWordListener 2160002100 = false ∧
      (run Timed.next (.initial 0) longRun).due.restart ≤
        (run Timed.next (.initial 0) longRun).tickTime := by
    decide +kernel
  obtain ⟨htick, hquiet, hcalls, hle⟩ := hrun
  intro h
  have hcalls' := (h.listener _ htick hquiet).mpr hle
  rw [hcalls] at hcalls'
  cases hcalls'

end Assist

end HaPanel
