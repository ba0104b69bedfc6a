import HaPanel.Panel.Backlight

/-!
# The touch that wakes the screen

A touch of a blanked screen wakes it and should do nothing else: until the finger is lifted
`touch_read_cb` reports that nothing is pressed.  Between two calls the screen may be woken and
blanked in other ways, also while the finger is down.

`wake_touch_never_clicks` : a call reports a touch if and only if there is one and it is not the one
that woke the screen.
-/

namespace HaPanel

namespace Panel

namespace Backlight

/-! ### Calls -/

/-- What happens to the screen: `touch_read_cb` is called when there are some events, or the screen
is woken or blanked. -/
inductive TouchStep where
  | call (now : UInt32) (evs : List InputEvent)
  | wake (now : UInt32)
  | blank

/-- A call of `touch_read_cb`. -/
structure TouchCall where
  /-- It finds the screen blanked, and the panel touched or a press in its events. -/
  wakes : Bool
  /-- Its events leave `touch_pressed` at a value other than 0. -/
  touched : Bool
  /-- It reports `LV_INDEV_STATE_PRESSED`. -/
  pressed : Bool

def touchCall (now : UInt32) (evs : List InputEvent) (s : Backlight) : TouchCall where
  wakes :=
    s.screenBlanked && ((readEvents evs s false).1.touchPressed || (readEvents evs s false).2)
  touched := (readEvents evs s false).1.touchPressed
  pressed := (touchReadCb now evs s).2.pressed

/-- The calls of a run. -/
def touchCalls (s : Backlight) : List TouchStep → List TouchCall
  | [] => []
  | .call now evs :: steps => touchCall now evs s :: touchCalls (touchReadCb now evs s).1 steps
  | .wake now :: steps => touchCalls (halWakeScreen now s) steps
  | .blank :: steps => touchCalls (halBlankScreen s) steps

/-- The call `c`, which comes after the calls in `before`, belongs to a touch that woke the screen:
no call between the waking one and `c` has left `touch_pressed` at 0. -/
def InWakeTouch (before : List TouchCall) (c : TouchCall) : Prop :=
  ∃ earlier w later, before ++ [c] = earlier ++ w :: later ∧ w.wakes = true ∧
    ∀ d ∈ (w :: later).dropLast, d.touched = true

/-! ### One call -/

/-- What `wake_touch_consumed` is in terms of the calls alone. -/
def consumes (consumed : Bool) (c : TouchCall) : Bool := (consumed || c.wakes) && c.touched

theorem wakeTouchConsumed_halWakeScreen (now : UInt32) (s : Backlight) :
    (halWakeScreen now s).wakeTouchConsumed = s.wakeTouchConsumed := by
  cases h : s.screenBlanked with
  | true => rw [halWakeScreen_eq h]
  | false => rw [halWakeScreen_lit h]

theorem touchPressed_halWakeScreen (now : UInt32) (s : Backlight) :
    (halWakeScreen now s).touchPressed = s.touchPressed := by
  cases h : s.screenBlanked with
  | true => rw [halWakeScreen_eq h]
  | false => rw [halWakeScreen_lit h]

theorem wakeTouchConsumed_halBlankScreen (s : Backlight) :
    (halBlankScreen s).wakeTouchConsumed = s.wakeTouchConsumed := by
  cases h : s.screenBlanked with
  | true => rw [halBlankScreen_blanked h]
  | false => rw [halBlankScreen_eq h]

/-- **One call**: what it reports, and what it leaves in `wake_touch_consumed`. -/
theorem touchReadCb_spec (now : UInt32) (evs : List InputEvent) (s : Backlight) :
    (touchCall now evs s).pressed =
        ((touchCall now evs s).touched &&
          !(s.wakeTouchConsumed || (touchCall now evs s).wakes)) ∧
      (touchReadCb now evs s).1.wakeTouchConsumed =
        consumes s.wakeTouchConsumed (touchCall now evs s) := by
  obtain ⟨x, y, pressed, press, hread⟩ := readEvents_eq evs s false
  simp only [touchCall, touchReadCb, consumes, hread]
  cases hblanked : s.screenBlanked with
  | false => cases hconsumed : s.wakeTouchConsumed <;> cases pressed <;> simp
  | true =>
    have htouch := touchPressed_halWakeScreen now
      { s with touchX := x, touchY := y, touchPressed := pressed }
    rw [hblanked] at htouch
    cases hconsumed : s.wakeTouchConsumed <;> cases pressed <;> cases press <;>
      simp_all

/-! ### Runs -/

/-- What a call reports depends on the calls before it. -/
theorem pressed_of_touchCalls {steps : List TouchStep} {s : Backlight}
    {before after : List TouchCall} {c : TouchCall}
    (h : touchCalls s steps = before ++ c :: after) :
    c.pressed = (c.touched && !(before.foldl consumes s.wakeTouchConsumed || c.wakes)) := by
  induction steps generalizing s before with
  | nil => cases before <;> cases h
  | cons step steps ih =>
    cases step with
    | call now evs =>
      obtain ⟨hpressed, hconsumed⟩ := touchReadCb_spec now evs s
      cases before with
      | nil =>
        obtain ⟨rfl, -⟩ := List.cons.inj h
        exact hpressed
      | cons d before =>
        obtain ⟨rfl, htail⟩ := List.cons.inj h
        rw [ih htail, hconsumed, List.foldl_cons]
    | wake now => rw [ih h, wakeTouchConsumed_halWakeScreen]
    | blank => rw [ih h, wakeTouchConsumed_halBlankScreen]

/-- The flag is set after the calls exactly if the screen was woken in one of them and the finger
has been down from then on. -/
theorem foldl_consumes (calls : List TouchCall) :
    calls.foldl consumes false = true ↔
      ∃ earlier w later, calls = earlier ++ w :: later ∧ w.wakes = true ∧
        ∀ d ∈ w :: later, d.touched = true := by
  induction calls using List.reverseRecOn with
  | nil =>
    constructor
    · intro h
      cases h
    · rintro ⟨earlier, w, later, h, -⟩
      exact absurd h.symm (by simp)
  | append_singleton calls c ih =>
    rw [List.foldl_concat, consumes, Bool.and_eq_true, Bool.or_eq_true, ih]
    constructor
    · rintro ⟨⟨earlier, w, later, rfl, hwakes, hdown⟩ | hwakes, htouched⟩
      · refine ⟨earlier, w, later ++ [c], by simp, hwakes, ?_⟩
        intro d hd
        rw [← List.cons_append, List.mem_append, List.mem_singleton] at hd
        rcases hd with hd | rfl
        · exact hdown d hd
        · exact htouched
      · exact ⟨calls, c, [], rfl, hwakes, by simpa using htouched⟩
    · rintro ⟨earlier, w, later, heq, hwakes, hdown⟩
      -- the waking call is the last one, or it is among the earlier ones
      cases later using List.reverseRecOn with
      | nil =>
        obtain ⟨-, rfl⟩ := List.append_singleton_inj.1 heq
        exact ⟨.inr hwakes, hdown c List.mem_cons_self⟩
      | append_singleton later d =>
        rw [← List.cons_append, ← List.append_assoc] at heq
        obtain ⟨rfl, rfl⟩ := List.append_singleton_inj.1 heq
        refine ⟨.inl ⟨earlier, w, later, rfl, hwakes, ?_⟩, hdown c (by simp)⟩
        intro d hd
        exact hdown d (List.mem_append_left _ hd)

theorem inWakeTouch_iff (before : List TouchCall) (c : TouchCall) :
    InWakeTouch before c ↔ before.foldl consumes false = true ∨ c.wakes = true := by
  rw [foldl_consumes]
  constructor
  · rintro ⟨earlier, w, later, heq, hwakes, hdown⟩
    cases later using List.reverseRecOn with
    | nil =>
      obtain ⟨-, rfl⟩ := List.append_singleton_inj.1 heq
      exact .inr hwakes
    | append_singleton later d =>
      rw [← List.cons_append, List.dropLast_concat] at hdown
      rw [← List.cons_append, ← List.append_assoc] at heq
      obtain ⟨rfl, rfl⟩ := List.append_singleton_inj.1 heq
      exact .inl ⟨earlier, w, later, rfl, hwakes, hdown⟩
  · rintro (⟨earlier, w, later, rfl, hwakes, hdown⟩ | hwakes)
    · refine ⟨earlier, w, later ++ [c], by simp, hwakes, ?_⟩
      rw [← List.cons_append, List.dropLast_concat]
      exact hdown
    · exact ⟨before, c, [], rfl, hwakes, by simp⟩

/-- **The touch that wakes the screen never clicks**, and no other touch is lost. -/
theorem wake_touch_never_clicks {s : Backlight} (hs : s.wakeTouchConsumed = false)
    (steps : List TouchStep) {before after : List TouchCall} {c : TouchCall}
    (h : touchCalls s steps = before ++ c :: after) :
    (InWakeTouch before c → c.pressed = false) ∧
      (¬ InWakeTouch before c → (c.pressed = true ↔ c.touched = true)) := by
  have hpressed := pressed_of_touchCalls h
  rw [hs] at hpressed
  rw [inWakeTouch_iff, ← Bool.or_eq_true]
  constructor
  · intro htouch
    rw [hpressed, htouch, Bool.not_true, Bool.and_false]
  · intro htouch
    rw [hpressed, Bool.eq_false_of_not_eq_true htouch, Bool.not_false, Bool.and_true]

/-- A screen that has been blanked. -/
def darkScreen : Backlight where
  sysfs := 0
  screenBlanked := true
  activeBacklightRaw := 200
  lastWakeTime := 0
  touchX := 0
  touchY := 0
  touchPressed := false
  wakeTouchConsumed := false
  autoBrightnessEnabled := false
  manualBrightnessPercent := 80
  autoBrightnessPercent := 80
  requested := 200

/-- The screen is touched while it is dark, blanked again, and the finger is lifted later. -/
def darkTouch : List TouchStep :=
  [.call 100 [⟨3, 57, 7⟩, ⟨1, 330, 1⟩], .blank, .call 130 [], .call 160 [⟨3, 57, -1⟩]]

theorem dark_touch_never_clicks :
    ∃ first second third, touchCalls darkScreen darkTouch = [first, second, third] ∧
      third.touched = false ∧ second.pressed = false := by
  refine ⟨_, _, _, rfl, rfl, ?_⟩
  have hcalls : touchCalls darkScreen darkTouch = [_] ++ _ :: [_] := rfl
  refine (wake_touch_never_clicks rfl darkTouch hcalls).1 ⟨[], _, [_], rfl, rfl, ?_⟩
  rintro d (_ | ⟨_, ⟨⟩⟩)
  rfl

end Backlight

end Panel

end HaPanel
