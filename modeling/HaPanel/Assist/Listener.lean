import HaPanel.Transition.Run
import Mathlib.Data.Finset.Basic

/-!
# The processes of the wake word listener

`WakeWordListener::start` forks a recorder and a worker and starts a thread, `monitor_loop`, that
reads what the worker says.  The thread ends when `running_` is reset, when the worker is gone or
when something fails; then it sends both processes a signal and waits for them.  `stop` sends them a
signal too, and waits for the thread.  Here the caller of `start` and `stop` and the thread take one
step at a time, in any order.  `children` are the processes that have been forked and not been waited
for; the number of any other process may belong to anybody.

The IDs of the processes stay in the object until `stop` is through, also when the thread has waited
for them.  `signals_reach_children_iff` : all signals go to children exactly if `stop` always comes
before the thread has waited for the process in question (`State.Timely`).
-/

namespace HaPanel

namespace Assist

namespace Listener

open Transition

/-- Where the thread is in `monitor_loop`. -/
inductive Place where
  | reading
  /-- Before `kill(capture_pid, SIGTERM)`. -/
  | signalCapture
  | signalWorker
  /-- Before `waitpid(capture_pid, NULL, 0)`. -/
  | waitCapture
  | waitWorker
  | ended
  deriving DecidableEq

/-- The thread, with its arguments. -/
structure Monitor where
  capture : ℕ
  worker : ℕ
  place : Place
  deriving DecidableEq

/-- Where the caller is in `start` or `stop`, with the local variables that matter there. -/
inductive Caller where
  | idle
  /-- In `stop`: before the IDs are read, and before the two signals. -/
  | readPids
  | stopCapture (pids : Option (ℕ × ℕ))
  | stopWorker (pids : Option (ℕ × ℕ))
  | join
  | reset
  /-- In `start`: before the pipes, and before the two forks. -/
  | pipes
  | forkCapture
  | forkWorker (capture : ℕ)
  /-- The second fork has failed: before the signal, and before `waitpid`. -/
  | giveUp (capture : ℕ)
  | reap (capture : ℕ)
  /-- Before the IDs are stored, and before the thread is started. -/
  | store (capture worker : ℕ)
  | launch (capture worker : ℕ)
  deriving DecidableEq

structure State where
  running : Bool := false
  /-- `capture_pid_` and `worker_pid_`, which are set and reset together. -/
  pids : Option (ℕ × ℕ) := none
  caller : Caller := .idle
  /-- The `stop` in progress was called by `start`. -/
  restart : Bool := false
  monitor : Option Monitor := none
  /-- Forked, and not yet waited for. -/
  children : Finset ℕ := ∅

inductive Step where
  | callStart
  | callStop
  /-- The caller goes on.  A system call of `start` fails, or has the given result. -/
  | caller (result : Option ℕ)
  /-- The thread leaves its reading loop. -/
  | leave
  /-- The thread goes on. -/
  | monitor
  deriving DecidableEq

namespace State

variable (s : State)

/-- The caller goes on.  The operating system gives no child the number 0 or that of another one. -/
def callerStep (result : Option ℕ) : State :=
  match s.caller with
  | .idle => s
  | .readPids => { s with caller := .stopCapture s.pids }
  | .stopCapture pids => { s with caller := .stopWorker pids }
  | .stopWorker _ => { s with caller := .join }
  | .join =>
    match s.monitor with
    | none => { s with caller := .reset }
    | some m => if m.place = .ended then { s with caller := .reset, monitor := none } else s
  | .reset => { s with pids := none, caller := if s.restart then .pipes else .idle }
  | .pipes => { s with caller := if result.isSome then .forkCapture else .idle }
  | .forkCapture =>
    match result with
    | none => { s with caller := .idle }
    | some pid =>
      if pid = 0 ∨ pid ∈ s.children then s
      else { s with caller := .forkWorker pid, children := insert pid s.children }
  | .forkWorker capture =>
    match result with
    | none => { s with caller := .giveUp capture }
    | some pid =>
      if pid = 0 ∨ pid ∈ s.children then s
      else { s with caller := .store capture pid, children := insert pid s.children }
  | .giveUp capture => { s with caller := .reap capture }
  | .reap capture => { s with caller := .idle, children := s.children.erase capture }
  | .store capture worker => { s with pids := some (capture, worker), caller := .launch capture worker }
  | .launch capture worker =>
    { s with running := true, caller := .idle, monitor := some ⟨capture, worker, .reading⟩ }

/-- The thread goes on after its reading loop. -/
def monitorStep (m : Monitor) : State :=
  match m.place with
  | .reading | .ended => s
  | .signalCapture => { s with monitor := some { m with place := .signalWorker } }
  | .signalWorker => { s with monitor := some { m with place := .waitCapture } }
  | .waitCapture =>
    { s with monitor := some { m with place := .waitWorker }, children := s.children.erase m.capture }
  | .waitWorker =>
    { s with monitor := some { m with place := .ended }, children := s.children.erase m.worker }

def next : Step → State
  | .callStart =>
    if s.caller = .idle then { s with running := false, caller := .readPids, restart := true } else s
  | .callStop =>
    if s.caller = .idle then { s with running := false, caller := .readPids, restart := false } else s
  | .caller result => s.callerStep result
  | .leave =>
    match s.monitor with
    | some m =>
      if m.place = .reading then
        { s with running := false, monitor := some { m with place := .signalCapture } }
      else s
    | none => s
  | .monitor =>
    match s.monitor with
    | some m => s.monitorStep m
    | none => s

/-- The process that `stop` or `monitor_loop` sends a signal in this step. -/
def signalled : Step → Option ℕ
  | .caller _ =>
    match s.caller with
    | .stopCapture (some (capture, _)) => some capture
    | .stopWorker (some (_, worker)) => some worker
    | _ => none
  | .monitor =>
    match s.monitor with
    | some ⟨capture, _, .signalCapture⟩ => some capture
    | some ⟨_, worker, .signalWorker⟩ => some worker
    | _ => none
  | _ => none

/-- The process that gets the signal is a child. -/
def ReachesChild (t : Step) : Prop := ∀ pid ∈ s.signalled t, pid ∈ s.children

instance (t : Step) : Decidable (s.ReachesChild t) :=
  match h : s.signalled t with
  | none => .isTrue (by simp [ReachesChild, h])
  | some pid => decidable_of_iff (pid ∈ s.children) (by simp [ReachesChild, h])

/-- When `stop` sends its signals, the thread has not yet waited for the process. -/
def Timely : Step → Prop
  | .caller _ =>
    match s.caller with
    | .stopCapture (some _) => ∃ m ∈ s.monitor, m.place ≠ .waitWorker ∧ m.place ≠ .ended
    | .stopWorker (some _) => ∃ m ∈ s.monitor, m.place ≠ .ended
    | _ => True
  | _ => True

end State

/-! ### The invariant -/

/-- The processes that the thread has not waited for. -/
def Monitor.alive (m : Monitor) : Finset ℕ :=
  match m.place with
  | .waitWorker => {m.worker}
  | .ended => ∅
  | _ => {m.capture, m.worker}

/-- While the thread exists, its arguments are the stored IDs, and the caller is in `stop` or
outside. -/
structure Monitored (s : State) (m : Monitor) : Prop where
  ne : m.capture ≠ m.worker
  children : s.children = m.alive
  pids : s.pids = some (m.capture, m.worker)
  caller : s.caller = .idle ∨ s.caller = .readPids ∨ s.caller = .stopCapture s.pids ∨
    s.caller = .stopWorker s.pids ∨ s.caller = .join

/-- What there is without a thread. -/
inductive Unmonitored : Option (ℕ × ℕ) → Caller → Finset ℕ → Prop where
  | idle : Unmonitored none .idle ∅
  | readPids : Unmonitored none .readPids ∅
  | stopCapture : Unmonitored none (.stopCapture none) ∅
  | stopWorker : Unmonitored none (.stopWorker none) ∅
  | join : Unmonitored none .join ∅
  | reset (pids : Option (ℕ × ℕ)) : Unmonitored pids .reset ∅
  | pipes : Unmonitored none .pipes ∅
  | forkCapture : Unmonitored none .forkCapture ∅
  | forkWorker (capture : ℕ) : Unmonitored none (.forkWorker capture) {capture}
  | giveUp (capture : ℕ) : Unmonitored none (.giveUp capture) {capture}
  | reap (capture : ℕ) : Unmonitored none (.reap capture) {capture}
  | store {capture worker : ℕ} (h : capture ≠ worker) :
    Unmonitored none (.store capture worker) {capture, worker}
  | launch {capture worker : ℕ} (h : capture ≠ worker) :
    Unmonitored (some (capture, worker)) (.launch capture worker) {capture, worker}

def Inv (s : State) : Prop :=
  match s.monitor with
  | some m => Monitored s m
  | none => Unmonitored s.pids s.caller s.children

theorem inv_initial : Inv {} := .idle

/-- The caller goes on without a thread. -/
theorem Unmonitored.callerStep {s : State} (hm : s.monitor = none)
    (h : Unmonitored s.pids s.caller s.children) (result : Option ℕ) :
    Inv (s.callerStep result) := by
  obtain ⟨running, pids, caller, restart, monitor, children⟩ := s
  simp only at hm h
  subst hm
  cases h with
  | idle => exact .idle
  | readPids => exact .stopCapture
  | stopCapture => exact .stopWorker
  | stopWorker => exact .join
  | join => exact .reset none
  | reset =>
    cases restart with
    | true => exact .pipes
    | false => exact .idle
  | pipes =>
    cases result with
    | none => exact .idle
    | some r => exact .forkCapture
  | forkCapture =>
    cases result with
    | none => exact .idle
    | some pid =>
      simp only [State.callerStep]
      split_ifs
      · exact .forkCapture
      · exact .forkWorker pid
  | forkWorker capture =>
    cases result with
    | none => exact .giveUp capture
    | some pid =>
      simp only [State.callerStep]
      split_ifs with hused
      · exact .forkWorker capture
      · have hne : capture ≠ pid := fun h => hused (.inr (by simp [h]))
        have hpair : insert pid ({capture} : Finset ℕ) = {capture, pid} := Finset.pair_comm _ _
        simp only [Inv, hpair]
        exact .store hne
  | giveUp capture => exact .reap capture
  | reap capture =>
    have hgone : ({capture} : Finset ℕ).erase capture = ∅ := by simp
    simp only [State.callerStep, Inv, hgone]
    exact .idle
  | store hne => exact .launch hne
  | launch hne => exact ⟨hne, rfl, rfl, .inl rfl⟩

/-- The caller goes on while the thread exists. -/
theorem Monitored.callerStep {s : State} {m : Monitor} (hm : s.monitor = some m)
    (h : Monitored s m) (result : Option ℕ) : Inv (s.callerStep result) := by
  obtain ⟨running, pids, caller, restart, monitor, children⟩ := s
  obtain ⟨hne, hchildren, hpids, hcaller⟩ := h
  simp only at hm hchildren hpids hcaller
  subst hm hchildren hpids
  rcases hcaller with rfl | rfl | rfl | rfl | rfl
  · exact ⟨hne, rfl, rfl, .inl rfl⟩
  · exact ⟨hne, rfl, rfl, .inr (.inr (.inl rfl))⟩
  · exact ⟨hne, rfl, rfl, .inr (.inr (.inr (.inl rfl)))⟩
  · exact ⟨hne, rfl, rfl, .inr (.inr (.inr (.inr rfl)))⟩
  · simp only [State.callerStep]
    split_ifs with hended
    · have hnone : m.alive = ∅ := by rw [Monitor.alive, hended]
      simp only [Inv, hnone]
      exact .reset _
    · exact ⟨hne, rfl, rfl, .inr (.inr (.inr (.inr rfl)))⟩

theorem Monitored.monitorStep {s : State} {m : Monitor} (hm : s.monitor = some m)
    (h : Monitored s m) : Inv (s.monitorStep m) := by
  obtain ⟨running, pids, caller, restart, monitor, children⟩ := s
  obtain ⟨hne, hchildren, hpids, hcaller⟩ := h
  obtain ⟨capture, worker, place⟩ := m
  simp only at hm hchildren hpids hcaller hne
  subst hm hchildren hpids
  cases place with
  | reading => exact ⟨hne, rfl, rfl, hcaller⟩
  | signalCapture => exact ⟨hne, rfl, rfl, hcaller⟩
  | signalWorker => exact ⟨hne, rfl, rfl, hcaller⟩
  | waitCapture =>
    refine ⟨hne, ?_, rfl, hcaller⟩
    show ({capture, worker} : Finset ℕ).erase capture = {worker}
    rw [Finset.erase_insert (by simpa using hne)]
  | waitWorker =>
    refine ⟨hne, ?_, rfl, hcaller⟩
    show ({worker} : Finset ℕ).erase worker = ∅
    simp
  | ended => exact ⟨hne, rfl, rfl, hcaller⟩

/-- A call of `start` or `stop` begins. -/
theorem Inv.call {s : State} (h : Inv s) (restart : Bool) :
    Inv (if s.caller = .idle then { s with running := false, caller := .readPids, restart := restart }
      else s) := by
  split_ifs with hidle
  · obtain ⟨running, pids, caller, restart', monitor, children⟩ := s
    simp only at hidle
    subst hidle
    cases monitor with
    | some m => exact ⟨h.ne, h.children, h.pids, .inr (.inl rfl)⟩
    | none =>
      cases h
      exact .readPids
  · exact h

/-- **Every step keeps the invariant.** -/
theorem Inv.next {s : State} (h : Inv s) (t : Step) : Inv (s.next t) := by
  cases t with
  | callStart => exact h.call true
  | callStop => exact h.call false
  | caller result =>
    cases hm : s.monitor with
    | none =>
      simp only [Inv, hm] at h
      exact h.callerStep hm result
    | some m =>
      simp only [Inv, hm] at h
      exact h.callerStep hm result
  | leave =>
    cases hm : s.monitor with
    | none => simpa only [State.next, hm] using h
    | some m =>
      simp only [State.next, hm]
      split_ifs with hreading
      · simp only [Inv, hm] at h
        refine ⟨h.ne, ?_, h.pids, h.caller⟩
        rw [h.children, Monitor.alive, hreading, Monitor.alive]
      · exact h
  | monitor =>
    cases hm : s.monitor with
    | none => simpa only [State.next, hm] using h
    | some m =>
      simp only [State.next, hm]
      simp only [Inv, hm] at h
      exact h.monitorStep hm

/-! ### Signals -/

/-- The signals of `stop`, as long as the thread exists. -/
theorem Monitored.reachesChild_iff {s : State} {m : Monitor} (hm : s.monitor = some m)
    (h : Monitored s m) (result : Option ℕ) :
    s.ReachesChild (.caller result) ↔ s.Timely (.caller result) := by
  obtain ⟨running, pids, caller, restart, monitor, children⟩ := s
  obtain ⟨hne, hchildren, hpids, hcaller⟩ := h
  obtain ⟨capture, worker, place⟩ := m
  simp only at hm hchildren hpids hcaller hne
  subst hm hchildren hpids
  rcases hcaller with rfl | rfl | rfl | rfl | rfl
  · simp [State.ReachesChild, State.signalled, State.Timely]
  · simp [State.ReachesChild, State.signalled, State.Timely]
  · cases place <;> simp [State.ReachesChild, State.signalled, State.Timely, Monitor.alive, hne]
  · cases place <;> simp [State.ReachesChild, State.signalled, State.Timely, Monitor.alive]
  · simp [State.ReachesChild, State.signalled, State.Timely]

/-- The thread sends its signals before it waits. -/
theorem Monitored.reachesChild_monitor {s : State} {m : Monitor} (hm : s.monitor = some m)
    (h : Monitored s m) : s.ReachesChild .monitor := by
  obtain ⟨capture, worker, place⟩ := m
  intro pid hpid
  rw [h.children]
  cases place <;> simp_all [State.signalled, Monitor.alive]

theorem Inv.reachesChild_iff {s : State} (h : Inv s) (t : Step) :
    s.ReachesChild t ↔ s.Timely t := by
  cases t with
  | callStart => simp [State.ReachesChild, State.signalled, State.Timely]
  | callStop => simp [State.ReachesChild, State.signalled, State.Timely]
  | leave => simp [State.ReachesChild, State.signalled, State.Timely]
  | caller result =>
    cases hm : s.monitor with
    | some m =>
      simp only [Inv, hm] at h
      exact h.reachesChild_iff hm result
    | none =>
      simp only [Inv, hm] at h
      -- without a thread `stop` finds no IDs
      obtain ⟨running, pids, caller, restart, monitor, children⟩ := s
      simp only at h
      cases h <;> simp [State.ReachesChild, State.signalled, State.Timely]
  | monitor =>
    refine iff_of_true ?_ trivial
    cases hm : s.monitor with
    | some m =>
      simp only [Inv, hm] at h
      exact h.reachesChild_monitor hm
    | none => simp [State.ReachesChild, State.signalled, hm]

/-- **All signals of a run go to children** exactly if `stop` never comes too late. -/
theorem signals_reach_children_iff (steps : List Step) :
    Along State.next State.ReachesChild {} steps ↔ Along State.next State.Timely {} steps :=
  along_congr (fun _ t h => h.reachesChild_iff t) (fun _ t h _ => h.next t) inv_initial steps

/-- The listener is started with the processes 10 and 11, the worker ends, and so does the
thread. -/
def selfExit : List Step :=
  [.callStart, .caller none, .caller none, .caller none, .caller none, .caller none,
    .caller (some 0), .caller (some 10), .caller (some 11), .caller none, .caller none,
    .leave, .monitor, .monitor, .monitor, .monitor]

/-- **A process of somebody else gets the signal**: when `stop` is called after the thread has ended
by itself, it still sends a signal to the process ID 10, which is free again. -/
theorem stop_signals_stranger :
    (run State.next {} (selfExit ++ [.callStop, .caller none])).signalled (.caller none) = some 10 ∧
      (run State.next {} (selfExit ++ [.callStop, .caller none])).children = ∅ ∧
      ¬ Along State.next State.ReachesChild {}
        (selfExit ++ [.callStop, .caller none, .caller none]) := by
  decide +kernel

end Listener

end Assist

end HaPanel
