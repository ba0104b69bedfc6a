import HaPanel.Transition.Run
import HaPanel.WebSocket.Dispatch

/-!
# A control and the state of its entity

A control is kept in step with its entity on two ways: the WebSocket thread queues an update for
every event with the state `on` or `off`, and a timer polls the state every five seconds and sets
the control to whether it is `on`.  Both ways end in the queue of the UI thread (`lv_async_call`).
`Sync` has what is on its way, and `Sync.settled` is the value the control gets to when everything
that is on its way, a poll apart, has arrived.

Two steps can spoil it: an event with any other state is dropped, although the state is no longer
`on`, and a poll may queue an answer that is older than an update queued before it
(`control_disagrees`).  `control_agrees_when_idle` : without these two, a control on which nothing is
on its way agrees with its entity.
-/

namespace HaPanel

namespace Panel

open Text Transition WebSocket

/-- A call queued for the UI thread. -/
inductive Callback where
  /-- `update_control_state_async`. -/
  | event (isOn : Bool)
  /-- The result of a poll; `none` if the request failed. -/
  | poll (state : Option Bytes)
deriving DecidableEq

/-- The control after a call. -/
def Callback.apply (checked : Bool) : Callback → Bool
  | event isOn => isOn
  | poll none => checked
  | poll (some state) => state == str "on"

/-- The thread of a poll. -/
inductive Poll where
  | idle
  | requested
  /-- The request is answered, and the call not queued yet. -/
  | answered (state : Option Bytes)
deriving DecidableEq

/-- An entity, its control, and what is on its way between them. -/
structure Sync where
  /-- The state of the entity in Home Assistant. -/
  haState : Bytes
  /-- The events the WebSocket thread has not read yet. -/
  undelivered : List Bytes := []
  poll : Poll := .idle
  /-- `g_ha_poll_in_progress` -/
  pollInProgress : Bool := false
  /-- The calls the UI thread has not made yet. -/
  queue : List Callback := []
  /-- `LV_STATE_CHECKED` -/
  checked : Bool
deriving DecidableEq

inductive Step where
  /-- The entity gets a state, and an event is sent. -/
  | change (state : Bytes)
  /-- The WebSocket thread reads an event. -/
  | deliver
  /-- `state_poll_timer_cb` -/
  | pollTimer
  /-- Home Assistant answers a poll, or the request fails. -/
  | pollAnswer (ok : Bool)
  /-- The thread of the poll queues its call. -/
  | pollQueue
  /-- The UI thread makes the call that was queued first. -/
  | callback
deriving DecidableEq

namespace Sync

def next (s : Sync) : Step → Sync
  | .change state => { s with haState := state, undelivered := s.undelivered ++ [state] }
  | .deliver =>
    match s.undelivered with
    | [] => s
    | state :: rest =>
      { s with
        undelivered := rest
        queue := s.queue ++ ((stateWord state).map Callback.event).toList }
  | .pollTimer =>
    if s.pollInProgress then s else { s with pollInProgress := true, poll := .requested }
  | .pollAnswer ok =>
    if s.poll = .requested then
      { s with poll := .answered (if ok then some s.haState else none) }
    else s
  | .pollQueue =>
    match s.poll with
    | .answered state => { s with poll := .idle, queue := s.queue ++ [.poll state] }
    | _ => s
  | .callback =>
    match s.queue with
    | [] => s
    | c :: rest =>
      { s with
        queue := rest
        checked := c.apply s.checked
        pollInProgress := match c with
          | .event _ => s.pollInProgress
          | .poll _ => false }

/-- No event, poll or call is on its way. -/
structure Idle (s : Sync) : Prop where
  undelivered : s.undelivered = []
  poll : s.poll = .idle
  queue : s.queue = []

/-- The control shows whether the entity is on. -/
def Agrees (s : Sync) : Prop := s.checked = true ↔ s.haState = str "on"

instance (s : Sync) : Decidable s.Agrees := inferInstanceAs (Decidable (_ ↔ _))

/-! ### When everything has arrived -/

/-- The control after an event, as far as the event is not dropped. -/
def onEvent (checked : Bool) (state : Bytes) : Bool := (stateWord state).getD checked

/-- The control when the queued calls are made and the events are read. -/
def settled (s : Sync) : Bool := s.undelivered.foldl onEvent (s.queue.foldl Callback.apply s.checked)

/-- The entity is on. -/
def isOn (s : Sync) : Bool := s.haState == str "on"

theorem Idle.settled_eq {s : Sync} (h : s.Idle) : s.settled = s.checked := by
  rw [settled, h.undelivered, h.queue]
  rfl

theorem stateWord_eq_of_ne_none {state : Bytes} (h : stateWord state ≠ none) :
    stateWord state = some (state == str "on") := by
  unfold stateWord at h ⊢
  split_ifs at h ⊢ with hon hoff
  · rw [hon]
    rfl
  · rw [hoff]
    rfl
  · exact absurd rfl h

/-- Events that are not all dropped decide the control, whatever it was before. -/
theorem foldl_onEvent_congr {states : List Bytes} (h : ∃ st ∈ states, stateWord st ≠ none)
    (a b : Bool) : states.foldl onEvent a = states.foldl onEvent b := by
  induction states generalizing a b with
  | nil =>
    obtain ⟨st, hst, -⟩ := h
    cases hst
  | cons state states ih =>
    rw [List.foldl_cons, List.foldl_cons]
    by_cases hword : stateWord state = none
    · obtain ⟨st, hst, hne⟩ := h
      rcases List.mem_cons.mp hst with rfl | hst
      · exact absurd hword hne
      · exact ih ⟨st, hst, hne⟩ _ _
    · rw [onEvent, onEvent, stateWord_eq_of_ne_none hword]
      rfl

/-- Events that are all dropped leave the control as it is. -/
theorem foldl_onEvent_dropped {states : List Bytes} (h : ∀ st ∈ states, stateWord st = none)
    (a : Bool) : states.foldl onEvent a = a := by
  induction states with
  | nil => rfl
  | cons state states ih =>
    have hstate : onEvent a state = a := by
      rw [onEvent, h state List.mem_cons_self, Option.getD_none]
    rw [List.foldl_cons, hstate]
    exact ih fun st hst => h st (List.mem_cons_of_mem state hst)

/-! ### One step -/

/-- The answer of a poll is still right, or will be followed by an event that is not dropped. -/
def Timely (s : Sync) : Poll → Prop
  | .answered (some state) =>
    (state = str "on" ↔ s.haState = str "on") ∨ ∃ e ∈ s.undelivered, stateWord e ≠ none
  | _ => True

instance (s : Sync) : DecidablePred s.Timely
  | .answered (some _) => inferInstanceAs (Decidable (_ ∨ _))
  | .answered none | .idle | .requested => inferInstanceAs (Decidable True)

/-- A step that does not spoil the control: the entity leaves `on` for `off` only, and a poll queues
a timely answer. -/
def Allowed (s : Sync) : Step → Prop
  | .change state => stateWord state ≠ none ∨ s.haState ≠ str "on"
  | .pollQueue => s.Timely s.poll
  | _ => True

instance (s : Sync) : DecidablePred s.Allowed
  | .change _ => inferInstanceAs (Decidable (_ ∨ _))
  | .pollQueue => inferInstanceAs (Decidable (s.Timely s.poll))
  | .deliver | .pollTimer | .pollAnswer _ | .callback => inferInstanceAs (Decidable True)

section

variable {s : Sync}

/-- A change that is allowed is settled when its event has arrived. -/
theorem settled_change (h : s.settled = s.isOn) {state : Bytes}
    (hallowed : s.Allowed (.change state)) :
    (s.next (.change state)).settled = (s.next (.change state)).isOn := by
  have hsettled : (s.next (.change state)).settled = onEvent s.settled state :=
    List.foldl_append
  have hon : (s.next (.change state)).isOn = (state == str "on") := rfl
  rw [hsettled, hon, onEvent]
  by_cases hword : stateWord state = none
  · -- the event is dropped: neither the old nor the new state is `on`
    have hold : s.haState ≠ str "on" := hallowed.resolve_left (not_not.mpr hword)
    have hnew : state ≠ str "on" := by
      rintro rfl
      exact absurd hword (by decide)
    rw [hword, Option.getD_none, h, isOn, beq_false_of_ne hold, beq_false_of_ne hnew]
  · rw [stateWord_eq_of_ne_none hword, Option.getD_some]

/-- Reading an event only moves it into the queue. -/
theorem settled_deliver : (s.next .deliver).settled = s.settled := by
  unfold next settled
  cases hundelivered : s.undelivered with
  | nil => simp only [hundelivered]
  | cons state rest =>
    simp only [List.foldl_append, List.foldl_cons]
    congr 1
    -- an event that is dropped queues nothing
    unfold onEvent
    cases stateWord state <;> rfl

/-- Making a call only takes it off the queue. -/
theorem settled_callback : (s.next .callback).settled = s.settled := by
  unfold next settled
  cases hqueue : s.queue with
  | nil => simp only [hqueue]
  | cons c rest => simp only [List.foldl_cons]

/-- A poll that is allowed to queue its answer does not change what is settled. -/
theorem settled_pollQueue (h : s.settled = s.isOn) (hallowed : s.Allowed .pollQueue) :
    (s.next .pollQueue).settled = s.settled := by
  unfold next
  cases hpoll : s.poll with
  | idle => rfl
  | requested => rfl
  | answered state =>
    have hsettled : settled { s with poll := .idle, queue := s.queue ++ [.poll state] } =
        s.undelivered.foldl onEvent
          (Callback.apply (s.queue.foldl Callback.apply s.checked) (.poll state)) := by
      rw [settled, List.foldl_append]
      rfl
    refine hsettled.trans ?_
    cases state with
    | none => rfl
    | some state =>
      rw [Allowed, hpoll] at hallowed
      by_cases hevent : ∃ e ∈ s.undelivered, stateWord e ≠ none
      · exact foldl_onEvent_congr hevent _ _
      · -- every event that is still to come is dropped, so the answer itself has to be right
        have hdropped : ∀ a, s.undelivered.foldl onEvent a = a := by
          intro a
          refine foldl_onEvent_dropped (fun e he => ?_) a
          by_contra hne
          exact hevent ⟨e, he, hne⟩
        have hanswer : (state == str "on") = s.isOn := by
          rw [isOn, Bool.eq_iff_iff, beq_iff_eq, beq_iff_eq]
          exact hallowed.resolve_right hevent
        rw [hdropped, h, ← hanswer]
        rfl

/-- **The invariant**: what is settled is right. -/
theorem settled_next (h : s.settled = s.isOn) {step : Step} (hallowed : s.Allowed step) :
    (s.next step).settled = (s.next step).isOn := by
  cases step with
  | change state => exact settled_change h hallowed
  | deliver =>
    have hon : (s.next .deliver).isOn = s.isOn := by
      unfold next
      cases s.undelivered <;> rfl
    rw [settled_deliver, h, hon]
  | pollTimer =>
    unfold next
    split_ifs <;> exact h
  | pollAnswer ok =>
    unfold next
    split_ifs <;> exact h
  | pollQueue =>
    have hon : (s.next .pollQueue).isOn = s.isOn := by
      unfold next
      cases s.poll <;> rfl
    rw [settled_pollQueue h hallowed, h, hon]
  | callback =>
    have hon : (s.next .callback).isOn = s.isOn := by
      unfold next
      cases s.queue <;> rfl
    rw [settled_callback, h, hon]

end

/-! ### Whole runs -/

/-- **The control agrees with its entity when nothing is on its way**, after every run from an idle
state with agreement in which the entity leaves `on` for `off` only, and every poll that queues its
answer queues one that is still right or will be followed by an event. -/
theorem control_agrees_when_idle (s : Sync) (hidle : s.Idle) (hagrees : s.Agrees)
    (steps : List Step) (hallowed : Along next Allowed s steps)
    (hend : (run next s steps).Idle) : (run next s steps).Agrees := by
  have hstart : s.settled = s.isOn := by
    rw [hidle.settled_eq, isOn, Bool.eq_iff_iff, beq_iff_eq]
    exact hagrees
  have hsettled : (run next s steps).settled = (run next s steps).isOn :=
    hallowed.invariant (I := fun s => s.settled = s.isOn)
      (fun _ _ h hstep => settled_next h hstep) hstart
  rw [hend.settled_eq] at hsettled
  rw [Agrees, hsettled, isOn, beq_iff_eq]

/-- A control that is off. -/
def off : Sync where
  haState := str "off"
  checked := false

/-- A control that is on. -/
def on : Sync where
  haState := str "on"
  checked := true

/-- The entity is turned on while a poll is under way, and becomes unavailable after it is turned
off again. -/
theorem control_agrees_after_poll :
    (run next off [.pollTimer, .change (str "on"), .deliver, .pollAnswer true, .pollQueue, .callback,
      .callback, .change (str "off"), .deliver, .callback, .change (str "unavailable"),
      .deliver]).Agrees := by
  refine control_agrees_when_idle off ⟨rfl, rfl, rfl⟩ (by decide) _ ?_ ⟨?_, ?_, ?_⟩
  · decide +kernel
  · decide +kernel
  · decide +kernel
  · decide +kernel

/-- The state becomes `unavailable`. -/
def becomesUnavailable : List Step := [.change (str "unavailable"), .deliver]

/-- A poll is answered before the entity is turned off, and queues its answer after the update. -/
def overtakenPoll : List Step :=
  [.pollTimer, .pollAnswer true, .change (str "off"), .deliver, .pollQueue, .callback, .callback]

/-- In both runs the control stays checked. -/
theorem control_disagrees :
    on.Idle ∧ on.Agrees ∧
    (run next on becomesUnavailable).Idle ∧ ¬ (run next on becomesUnavailable).Agrees ∧
    (run next on overtakenPoll).Idle ∧ ¬ (run next on overtakenPoll).Agrees := by
  refine ⟨⟨rfl, rfl, rfl⟩, by decide, ⟨?_, ?_, ?_⟩, by decide +kernel, ⟨?_, ?_, ?_⟩,
    by decide +kernel⟩
  all_goals decide +kernel

end Sync

end Panel

end HaPanel
