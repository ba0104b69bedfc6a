import HaPanel.Text.Bytes
import HaPanel.Transition.Run
import Mathlib.Tactic.Linarith
import Mathlib.Tactic.NormNum

/-!
# The backlight

The level of the backlight is written from five places: the screensaver and the touch screen blank
and wake the screen, the MQTT commands do that and set levels, the automatic brightness follows the
light sensor, and there are two sliders.  The operations are those of the panel, each run to
completion; the light sensor enters with the brightness `ambient_lux_to_brightness` gives, which
lies between 10 and 100 percent.  A level that another program has stored is not checked.

The levels are `int`s, and a percentage is multiplied with the maximum of the backlight before it is
divided.  The operations compute with integers; what they give is what the program does as long as
the products are `int`s, and after a product that is none the program may do anything.

`backlight_coherent_iff` : no product overflows, a blanked screen is dark, a screen that is not
blanked is lit, and waking the screen brings back the level asked for last, exactly as long as the
products of the percentages do not overflow and the two callers that do not look whether the screen
is blanked are not used in the wrong state.
-/

namespace HaPanel

namespace Panel

open Text Transition

/-! ### State -/

/-- The percentages the sliders, the stored brightness and the web page are limited to. -/
abbrev Percent := {p : ℤ // 5 ≤ p ∧ p ≤ 100}

/-- The percentages `ambient_lux_to_brightness` gives. -/
abbrev AmbientPercent := {p : ℤ // 10 ≤ p ∧ p ≤ 100}

/-- The display as the program sees it. -/
structure Backlight where
  /-- The last value written to the brightness file. -/
  sysfs : ℤ
  /-- `g_screen_blanked` -/
  screenBlanked : Bool
  /-- `g_active_backlight_raw` -/
  activeBacklightRaw : ℤ
  /-- `g_last_wake_time` -/
  lastWakeTime : UInt32
  touchX : ℤ
  touchY : ℤ
  touchPressed : Bool
  wakeTouchConsumed : Bool
  autoBrightnessEnabled : Bool
  manualBrightnessPercent : ℤ
  autoBrightnessPercent : ℤ
  /-- The level other than zero that was asked for last.  The program does not keep this. -/
  requested : ℤ
deriving DecidableEq

/-- An event of the touch screen. -/
structure InputEvent where
  type : ℕ
  code : ℕ
  value : ℤ

/-- What `touch_read_cb` reports. -/
structure TouchData where
  x : ℤ
  y : ℤ
  pressed : Bool

namespace Backlight

/-- A write to the brightness file. -/
def write (s : Backlight) (v : ℤ) : Backlight := { s with sysfs := v }

/-- A source asks for a level. -/
def request (s : Backlight) (raw : ℤ) : Backlight :=
  { s with requested := if raw = 0 then s.requested else raw }

/-! ### The hardware layer -/

def halSetBacklight (s : Backlight) (raw : ℤ) : Backlight :=
  { s with
    activeBacklightRaw := if ¬ s.screenBlanked ∧ 0 < raw then raw else s.activeBacklightRaw }.write
    raw

/-- The values of the fade when the screen wakes, if the products are `int`s. -/
def fadeUp (target : ℤ) : List ℤ :=
  (List.range 15).map fun i : ℕ =>
    let val := (target * (i + 1)).tdiv 15
    if val > target then target else val

/-- The values of the fade when the screen is blanked, if the products are `int`s, with the final
zero. -/
def fadeDown (start : ℤ) : List ℤ :=
  (List.range 20).map (fun i : ℕ =>
    let val := start - (start * (i + 1)).tdiv 20
    if val < 0 then 0 else val) ++ [0]

def halWakeScreen (now : UInt32) (s : Backlight) : Backlight :=
  if s.screenBlanked then
    (fadeUp s.activeBacklightRaw).foldl write
      { s with screenBlanked := false, lastWakeTime := now }
  else s

def halBlankScreen (s : Backlight) : Backlight :=
  if ¬ s.screenBlanked then
    (fadeDown s.activeBacklightRaw).foldl write { s with screenBlanked := true }
  else s

/-- The loop of `touch_read_cb` over the events: the state, and whether a press was among them. -/
def readEvents : List InputEvent → Backlight → Bool → Backlight × Bool
  | [], s, press => (s, press)
  | ev :: evs, s, press =>
    if ev.type = 3 then
      if ev.code = 53 then readEvents evs { s with touchX := ev.value } press
      else if ev.code = 54 then readEvents evs { s with touchY := ev.value } press
      else if ev.code = 57 then
        let nowPressed := ev.value ≠ -1
        readEvents evs { s with touchPressed := nowPressed } (press || nowPressed)
      else readEvents evs s press
    else if ev.type = 1 ∧ ev.code = 330 then
      readEvents evs { s with touchPressed := ev.value ≠ 0 } (press || ev.value ≠ 0)
    else readEvents evs s press

def touchReadCb (now : UInt32) (evs : List InputEvent) (s : Backlight) : Backlight × TouchData :=
  let (s, press) := readEvents evs s false
  let s := if s.screenBlanked ∧ (s.touchPressed ∨ press) then
      { halWakeScreen now s with wakeTouchConsumed := true }
    else s
  if s.wakeTouchConsumed then
    (if ¬ s.touchPressed then { s with wakeTouchConsumed := false } else s,
      ⟨s.touchX, s.touchY, false⟩)
  else (s, ⟨s.touchX, s.touchY, s.touchPressed⟩)

/-! ### The callers -/

/-- `screensaver_timer_cb`: `timeout` is `screen_timeout_ms`, `assist` says that the assistant is on
the screen, and `inactive` is the time since the last input. -/
def screensaverTimerCb (timeout now inactive : UInt32) (assist : Bool) (s : Backlight) :
    Backlight :=
  if timeout = 0 then s
  else if assist then s
  else if ¬ s.screenBlanked then
    if 0 < s.lastWakeTime ∧ now - s.lastWakeTime < 5000 then s
    else if timeout ≤ inactive then halBlankScreen s
    else s
  else s

section

variable (backlightMax : ℤ)

/-- `percent * backlight_max / 100`, if the product is an `int`. -/
def raw (percent : ℤ) : ℤ := (percent * backlightMax).tdiv 100

/-- The level of an MQTT brightness command: percent from 0 to 100, raw values above. -/
def brightnessCommand (payload : Bytes) : Option ℤ :=
  let percent := atoi payload
  if 0 ≤ percent ∧ percent ≤ 100 then some (raw backlightMax percent)
  else if 0 ≤ percent ∧ percent ≤ 255 then some percent
  else none

/-- The MQTT command callback; rebooting and the buzzer do not concern the display. -/
def mqttCommandCallback (now : UInt32) (cmd payload : Bytes) (s : Backlight) : Backlight :=
  if cmd = str "screen" then
    if payload = str "ON" then halWakeScreen now s
    else if payload = str "OFF" then halBlankScreen s
    else if payload = str "TOGGLE" then
      if s.screenBlanked then halWakeScreen now s else halBlankScreen s
    else s
  else if cmd = str "brightness" then
    match brightnessCommand backlightMax payload with
    | some raw => halSetBacklight (s.request raw) raw
    | none => s
  else s

/-- Ask for a level, but do not light a blanked screen. -/
def applyLevel (s : Backlight) (raw : ℤ) : Backlight :=
  if s.screenBlanked then { s.request raw with activeBacklightRaw := raw }
  else halSetBacklight (s.request raw) raw

def setAutoBrightnessEnabled (enabled : Bool) (s : Backlight) : Backlight :=
  let s := { s with autoBrightnessEnabled := enabled }
  if ¬ enabled then
    { s with autoBrightnessPercent := s.manualBrightnessPercent }.applyLevel
      (raw backlightMax s.manualBrightnessPercent)
  else s

/-- `read_int_file`. -/
def readIntFile (file : Option ℤ) (fallback : ℤ) : ℤ := file.getD fallback

/-- The first half of `auto_brightness_timer_cb`: a mode that was set through the file is taken
over, with whatever number is in the file of the level. -/
def takeOverMode (flagFile brightnessFile : Option ℤ) (s : Backlight) : Backlight :=
  let persistedEnabled : Bool :=
    readIntFile flagFile (if s.autoBrightnessEnabled then 1 else 0) ≠ 0
  if persistedEnabled ≠ s.autoBrightnessEnabled then
    setAutoBrightnessEnabled backlightMax persistedEnabled
      (if ¬ persistedEnabled then
        { s with manualBrightnessPercent :=
            readIntFile brightnessFile s.manualBrightnessPercent }
      else s)
  else s

/-- Its second half: the brightness moves by two percent towards that of the ambient light. -/
def followAmbient (target : ℤ) (s : Backlight) : Backlight :=
  if ¬ s.autoBrightnessEnabled then s
  else
    let difference := target - s.autoBrightnessPercent
    if difference ≥ -2 ∧ difference ≤ 2 then s
    else
      let step : ℤ := if difference > 0 then 2 else -2
      let step := if (difference > 0 ∧ difference < step) ∨ (difference < 0 ∧ difference > step)
        then difference else step
      let percent := s.autoBrightnessPercent + step
      { s with autoBrightnessPercent := percent }.applyLevel (raw backlightMax percent)

/-- `auto_brightness_timer_cb`: the contents of the two files, and the brightness for the filtered
light, if the sensor can be read. -/
def autoBrightnessTimerCb (flagFile brightnessFile : Option ℤ) (ambient : Option AmbientPercent)
    (s : Backlight) : Backlight :=
  let s := takeOverMode backlightMax flagFile brightnessFile s
  match ambient with
  | none => s
  | some target => followAmbient backlightMax target.val s

/-- The slider of the control centre. -/
def brightnessEventCb (percent : Percent) (s : Backlight) : Backlight :=
  let s := if s.autoBrightnessEnabled then setAutoBrightnessEnabled backlightMax false s else s
  halSetBacklight ({ s with manualBrightnessPercent := percent.val }.request
    (raw backlightMax percent.val)) (raw backlightMax percent.val)

/-- The slider of the display settings. -/
def displayBrightnessEventCb (percent : Percent) (s : Backlight) : Backlight :=
  if s.autoBrightnessEnabled then s
  else
    halSetBacklight ({ s with manualBrightnessPercent := percent.val }.request
      (raw backlightMax percent.val)) (raw backlightMax percent.val)

/-! ### The operations together -/

/-- An operation. -/
inductive Operation where
  | touchRead (now : UInt32) (evs : List InputEvent)
  | screensaverTick (timeout now inactive : UInt32) (assist : Bool)
  | mqttCommand (now : UInt32) (cmd payload : Bytes)
  | autoBrightnessTick (flagFile brightnessFile : Option ℤ) (ambient : Option AmbientPercent)
  | setAutoBrightness (enabled : Bool)
  | slider (percent : Percent)
  | displaySlider (percent : Percent)

def next (s : Backlight) : Operation → Backlight
  | .touchRead now evs => (touchReadCb now evs s).1
  | .screensaverTick timeout now inactive assist => screensaverTimerCb timeout now inactive assist s
  | .mqttCommand now cmd payload => mqttCommandCallback backlightMax now cmd payload s
  | .autoBrightnessTick flagFile brightnessFile ambient =>
    autoBrightnessTimerCb backlightMax flagFile brightnessFile ambient s
  | .setAutoBrightness enabled => setAutoBrightnessEnabled backlightMax enabled s
  | .slider percent => brightnessEventCb backlightMax percent s
  | .displaySlider percent => displayBrightnessEventCb backlightMax percent s

/-- After start-up: the control centre has set the stored brightness. -/
def start (manual : Percent) (auto : Bool) : Backlight :=
  halSetBacklight
    { sysfs := 0
      screenBlanked := false
      activeBacklightRaw := 200
      lastWakeTime := 0
      touchX := 0
      touchY := 0
      touchPressed := false
      wakeTouchConsumed := false
      autoBrightnessEnabled := auto
      manualBrightnessPercent := manual.val
      autoBrightnessPercent := manual.val
      requested := raw backlightMax manual.val }
    (raw backlightMax manual.val)

/-! ### The products -/

/-- The products `percent * backlight_max` an operation computes. -/
def percentProducts (s : Backlight) : Operation → List ℤ
  | .touchRead _ _ => []
  | .screensaverTick _ _ _ _ => []
  | .mqttCommand _ cmd payload =>
    if cmd = str "brightness" ∧ 0 ≤ atoi payload ∧ atoi payload ≤ 100 then
      [atoi payload * backlightMax]
    else []
  | .autoBrightnessTick flagFile brightnessFile ambient =>
    -- one if the mode becomes manual, and one if the brightness moves
    let taken := takeOverMode backlightMax flagFile brightnessFile s
    let followed := autoBrightnessTimerCb backlightMax flagFile brightnessFile ambient s
    (if s.autoBrightnessEnabled ∧ ¬ taken.autoBrightnessEnabled then
      [taken.manualBrightnessPercent * backlightMax]
    else []) ++
      if followed.autoBrightnessPercent = taken.autoBrightnessPercent then []
      else [followed.autoBrightnessPercent * backlightMax]
  | .setAutoBrightness enabled =>
    if enabled then [] else [s.manualBrightnessPercent * backlightMax]
  | .slider percent =>
    (if s.autoBrightnessEnabled then [s.manualBrightnessPercent * backlightMax] else []) ++
      [percent.val * backlightMax]
  | .displaySlider percent =>
    if s.autoBrightnessEnabled then [] else [percent.val * backlightMax]

end

/-- The products of the fade, if an operation from `s` to `s'` wakes or blanks the screen. -/
def fadeProducts (s s' : Backlight) : List ℤ :=
  if s'.screenBlanked = s.screenBlanked then []
  else (List.range (if s.screenBlanked then 15 else 20)).map fun i : ℕ =>
    s.activeBacklightRaw * (i + 1)

/-! ### What waking and blanking do -/

theorem foldl_write (l : List ℤ) (v : ℤ) (s : Backlight) :
    (l ++ [v]).foldl write s = s.write v := by
  induction l generalizing s with
  | nil => rfl
  | cons a l ih => exact ih (s.write a)

theorem fadeUp_eq (target : ℤ) : ∃ l, fadeUp target = l ++ [target] := by
  have hlast : (target * ((14 : ℕ) + 1)).tdiv 15 = target := by norm_num
  rw [fadeUp, List.range_succ, List.map_append, List.map_singleton]
  simp only [hlast, gt_iff_lt, lt_self_iff_false, if_false]
  exact ⟨_, rfl⟩

theorem halWakeScreen_eq {s : Backlight} (h : s.screenBlanked = true) (now : UInt32) :
    halWakeScreen now s =
      { s with screenBlanked := false, lastWakeTime := now, sysfs := s.activeBacklightRaw } := by
  obtain ⟨l, hl⟩ := fadeUp_eq s.activeBacklightRaw
  rw [halWakeScreen, if_pos h, hl, foldl_write]
  rfl

theorem halWakeScreen_lit {s : Backlight} (h : s.screenBlanked = false) (now : UInt32) :
    halWakeScreen now s = s := by
  rw [halWakeScreen, if_neg (by simp [h])]

theorem halBlankScreen_eq {s : Backlight} (h : s.screenBlanked = false) :
    halBlankScreen s = { s with screenBlanked := true, sysfs := 0 } := by
  rw [halBlankScreen, if_pos (by simp [h]), fadeDown, foldl_write]
  rfl

theorem halBlankScreen_blanked {s : Backlight} (h : s.screenBlanked = true) :
    halBlankScreen s = s := by
  rw [halBlankScreen, if_neg (by simp [h])]

/-- Reading events changes only what is known about the finger. -/
theorem readEvents_eq (evs : List InputEvent) (s : Backlight) (press : Bool) :
    ∃ x y pressed press', readEvents evs s press =
      ({ s with touchX := x, touchY := y, touchPressed := pressed }, press') := by
  induction evs generalizing s press with
  | nil => exact ⟨_, _, _, press, rfl⟩
  | cons ev evs ih =>
    rw [readEvents]
    split_ifs
    · exact ih { s with touchX := ev.value } press
    · exact ih { s with touchY := ev.value } press
    · exact ih { s with touchPressed := ev.value ≠ -1 } _
    · exact ih s press
    · exact ih { s with touchPressed := ev.value ≠ 0 } _
    · exact ih s press

/-- Switching the automatic brightness neither blanks nor wakes the screen. -/
theorem screenBlanked_setAutoBrightnessEnabled (backlightMax : ℤ) (enabled : Bool) (s : Backlight) :
    (setAutoBrightnessEnabled backlightMax enabled s).screenBlanked = s.screenBlanked := by
  simp only [setAutoBrightnessEnabled, applyLevel]
  split_ifs <;> rfl

/-! ### Coherence -/

/-- The screen is dark if and only if it is blanked. -/
def Coherent (s : Backlight) : Prop := s.sysfs = 0 ↔ s.screenBlanked = true

/-- If the screen has been woken, it has the level asked for last. -/
def WakesToRequested (s s' : Backlight) : Prop :=
  s.screenBlanked = true → s'.screenBlanked = false → s'.sysfs = s'.requested

/-- The value can be kept in an `int`. -/
def IsInt (v : ℤ) : Prop := -2 ^ 31 ≤ v ∧ v < 2 ^ 31

instance (v : ℤ) : Decidable (IsInt v) := inferInstanceAs (Decidable (_ ∧ _))

/-- The products of the fade are `int`s. -/
def FadeFits (s s' : Backlight) : Prop := ∀ v ∈ fadeProducts s s', IsInt v

section

variable (backlightMax : ℤ)

/-- The products for the percentages are `int`s. -/
def PercentsFit (s : Backlight) (op : Operation) : Prop :=
  ∀ v ∈ percentProducts backlightMax s op, IsInt v

instance (s : Backlight) (op : Operation) : Decidable (PercentsFit backlightMax s op) :=
  inferInstanceAs (Decidable (∀ v ∈ percentProducts backlightMax s op, IsInt v))

/-- The levels the callers ask for without looking fit the state of the screen: an MQTT brightness
command asks for zero just when the screen is blanked, and a slider that is listened to is moved only
when it is not. -/
def Allowed (s : Backlight) : Operation → Prop
  | .mqttCommand _ cmd payload => cmd = str "brightness" →
    ∀ raw ∈ brightnessCommand backlightMax payload, (raw = 0 ↔ s.screenBlanked = true)
  | .slider _ => s.screenBlanked = false
  | .displaySlider _ => s.autoBrightnessEnabled = true ∨ s.screenBlanked = false
  | _ => True

/-- If the timer takes over the manual mode with a percentage from the file, that gives a level above
zero. -/
def LitByFile (s : Backlight) : Operation → Prop
  | .autoBrightnessTick flagFile brightnessFile _ => flagFile = some 0 →
    s.autoBrightnessEnabled = true → ∀ percent ∈ brightnessFile, 0 < raw backlightMax percent
  | _ => True

/-- No product of the start-up and of the operations overflows, and after every operation the screen
is dark if and only if it is blanked, and if the operation has woken it, it has the level asked for
last. -/
def StaysCoherent (manual : Percent) (auto : Bool) (ops : List Operation) : Prop :=
  IsInt (manual.val * backlightMax) ∧
    Along (next backlightMax) (fun s op =>
      (PercentsFit backlightMax s op ∧ FadeFits s (next backlightMax s op)) ∧
        Coherent (next backlightMax s op) ∧ WakesToRequested s (next backlightMax s op))
      (start backlightMax manual auto) ops

end

/-! ### Levels that fit -/

/-- A level above zero, with which no fade overflows. -/
def Showable (level : ℤ) : Prop := 0 < level ∧ level * 100 < 2 ^ 31

/-- A percentage that gives a level above zero, by a product that is an `int`. -/
structure Usable (backlightMax percent : ℤ) : Prop where
  lit : 100 ≤ percent * backlightMax
  lt : percent * backlightMax < 2 ^ 31

variable {backlightMax : ℤ}

theorem raw_pos_iff {percent : ℤ} : 0 < raw backlightMax percent ↔ 100 ≤ percent * backlightMax := by
  rw [raw]
  rcases le_or_gt 0 (percent * backlightMax) with hnonneg | hneg
  · rw [Int.tdiv_eq_ediv_of_nonneg hnonneg]
    omega
  · -- the quotient of a negative product is not above zero
    have hquot := Int.tdiv_nonneg (show 0 ≤ -(percent * backlightMax) by omega)
      (show (0 : ℤ) ≤ 100 by decide)
    rw [Int.neg_tdiv] at hquot
    omega

theorem Usable.showable {percent : ℤ} (h : Usable backlightMax percent) :
    Showable (raw backlightMax percent) := by
  have hlit := h.lit
  have hlt := h.lt
  refine ⟨raw_pos_iff.mpr hlit, ?_⟩
  rw [raw, Int.tdiv_eq_ediv_of_nonneg (by omega)]
  omega

/-- The product of five percent or more is large enough. -/
theorem usable_of_le (hmax : 20 ≤ backlightMax) {percent : ℤ} (hp : 5 ≤ percent)
    (hint : IsInt (percent * backlightMax)) : Usable backlightMax percent :=
  ⟨by nlinarith, hint.2⟩

theorem Percent.usable (hmax : 20 ≤ backlightMax) {percent : Percent}
    (hint : IsInt (percent.val * backlightMax)) : Usable backlightMax percent.val :=
  usable_of_le hmax percent.property.1 hint

/-- The level of an MQTT command is zero, or it fits. -/
theorem brightnessCommand_eq_zero_or_showable (hmax : 20 ≤ backlightMax) {payload : Bytes}
    (hint : 0 ≤ atoi payload → atoi payload ≤ 100 → IsInt (atoi payload * backlightMax)) {level : ℤ}
    (h : level ∈ brightnessCommand backlightMax payload) : level = 0 ∨ Showable level := by
  unfold brightnessCommand at h
  simp only at h
  split_ifs at h with hpercent hraw
  · -- a percentage
    obtain rfl := Option.some.inj h
    have hnonneg : 0 ≤ atoi payload * backlightMax := mul_nonneg hpercent.1 (by omega)
    rcases lt_or_ge (atoi payload * backlightMax) 100 with hlt | hlit
    · left
      rw [raw, Int.tdiv_eq_ediv_of_nonneg hnonneg]
      omega
    · exact .inr (Usable.showable ⟨hlit, (hint hpercent.1 hpercent.2).2⟩)
  · -- a raw value, which is above a hundred
    obtain rfl := Option.some.inj h
    unfold Showable
    omega
  · cases h

/-! ### The invariant -/

/-- The hardware has the level that is remembered, and this is the one asked for last. -/
structure Tracks (backlightMax : ℤ) (s : Backlight) : Prop where
  sysfs : s.sysfs = if s.screenBlanked then 0 else s.activeBacklightRaw
  active : s.activeBacklightRaw = s.requested
  showable : Showable s.requested
  manual : Usable backlightMax s.manualBrightnessPercent
  auto : Usable backlightMax s.autoBrightnessPercent

theorem Tracks.coherent {s : Backlight} (h : Tracks backlightMax s) : Coherent s := by
  have hpos := h.active ▸ h.showable.1
  unfold Coherent
  rw [h.sysfs]
  cases s.screenBlanked
  · simp only [Bool.false_eq_true, if_false, iff_false]
    omega
  · simp

theorem Tracks.wakesToRequested {s s' : Backlight} (h : Tracks backlightMax s') :
    WakesToRequested s s' := by
  intro _ hlit
  rw [h.sysfs, hlit, if_neg (by decide), h.active]

/-- A fade multiplies the level with at most twenty. -/
theorem Tracks.fadeFits {s : Backlight} (h : Tracks backlightMax s) (s' : Backlight) :
    FadeFits s s' := by
  intro v hv
  obtain ⟨hpos, hlt⟩ := h.showable
  rw [← h.active] at hpos hlt
  unfold fadeProducts at hv
  split_ifs at hv
  · cases hv
  -- fifteen steps up, or twenty down
  all_goals
    obtain ⟨i, hi, rfl⟩ := List.mem_map.mp hv
    have hi : i < 20 := (List.mem_range.mp hi).trans_le (by decide)
    have hi : (i : ℤ) + 1 ≤ 20 := by omega
    exact ⟨by nlinarith, by nlinarith⟩

theorem Tracks.halWakeScreen {s : Backlight} (h : Tracks backlightMax s) (now : UInt32) :
    Tracks backlightMax (halWakeScreen now s) := by
  cases hb : s.screenBlanked with
  | false => rwa [halWakeScreen_lit hb]
  | true =>
    rw [halWakeScreen_eq hb]
    exact { h with sysfs := rfl }

theorem Tracks.halBlankScreen {s : Backlight} (h : Tracks backlightMax s) :
    Tracks backlightMax (halBlankScreen s) := by
  cases hb : s.screenBlanked with
  | false =>
    rw [halBlankScreen_eq hb]
    exact { h with sysfs := rfl }
  | true => rwa [halBlankScreen_blanked hb]

/-- A level other than zero for a lit screen. -/
theorem Tracks.halSetBacklight {s : Backlight} (h : Tracks backlightMax s)
    (hb : s.screenBlanked = false) {level : ℤ} (hlevel : Showable level) :
    Tracks backlightMax (halSetBacklight (s.request level) level) := by
  have hpos := hlevel.1
  have hset : (Backlight.halSetBacklight (s.request level) level) =
      { s with sysfs := level, activeBacklightRaw := level, requested := level } := by
    simp only [Backlight.halSetBacklight, request, write, hb, hpos, hpos.ne', if_false]
    simp
  rw [hset]
  exact { h with sysfs := by simp only [hb]; rfl, active := rfl, showable := hlevel }

/-- The guarded callers remember the level of a blanked screen. -/
theorem Tracks.applyLevel {s : Backlight} (h : Tracks backlightMax s) {level : ℤ}
    (hlevel : Showable level) : Tracks backlightMax (s.applyLevel level) := by
  unfold Backlight.applyLevel
  cases hb : s.screenBlanked with
  | false =>
    rw [if_neg (by decide)]
    exact h.halSetBacklight hb hlevel
  | true =>
    have hreq : (s.request level).requested = level := if_neg hlevel.1.ne'
    have hdark := h.sysfs
    rw [hb, if_pos rfl] at hdark
    rw [if_pos rfl]
    refine { h with sysfs := ?_, active := hreq.symm, showable := by simpa only [hreq] using hlevel }
    simpa only [request, hb, if_true] using hdark

theorem Tracks.touchReadCb {s : Backlight} (h : Tracks backlightMax s) (now : UInt32)
    (evs : List InputEvent) : Tracks backlightMax (touchReadCb now evs s).1 := by
  obtain ⟨x, y, pressed, press, hread⟩ := readEvents_eq evs s false
  have hs : Tracks backlightMax { s with touchX := x, touchY := y, touchPressed := pressed } :=
    { h with }
  unfold Backlight.touchReadCb
  rw [hread]
  generalize { s with touchX := x, touchY := y, touchPressed := pressed } = t at hs
  simp only
  -- the finger wakes the screen, or it does not
  have hwoken : Tracks backlightMax (if t.screenBlanked ∧ (t.touchPressed ∨ press) then
      { Backlight.halWakeScreen now t with wakeTouchConsumed := true } else t) := by
    split_ifs
    · exact { hs.halWakeScreen now with }
    · exact hs
  generalize (if t.screenBlanked ∧ (t.touchPressed ∨ press) then
      { Backlight.halWakeScreen now t with wakeTouchConsumed := true } else t) = u at hwoken
  split_ifs
  · exact hwoken
  · exact { hwoken with }
  · exact hwoken

theorem Tracks.screensaverTimerCb {s : Backlight} (h : Tracks backlightMax s)
    (timeout now inactive : UInt32) (assist : Bool) :
    Tracks backlightMax (screensaverTimerCb timeout now inactive assist s) := by
  unfold Backlight.screensaverTimerCb
  split_ifs
  all_goals first
    | exact h
    | exact h.halBlankScreen

/-! ### The modes -/

theorem Tracks.setAutoBrightnessEnabled {s : Backlight} (h : Tracks backlightMax s)
    (enabled : Bool) : Tracks backlightMax (setAutoBrightnessEnabled backlightMax enabled s) := by
  cases enabled with
  | true => exact { h with }
  | false =>
    have hs : Tracks backlightMax { s with
        autoBrightnessEnabled := false
        autoBrightnessPercent := s.manualBrightnessPercent } := { h with auto := h.manual }
    exact hs.applyLevel h.manual.showable

/-- Switching the automatic brightness off multiplies the manual percentage. -/
theorem setAutoBrightnessEnabled_false (backlightMax : ℤ) (s : Backlight) :
    (setAutoBrightnessEnabled backlightMax false s).autoBrightnessEnabled = false ∧
      (setAutoBrightnessEnabled backlightMax false s).manualBrightnessPercent =
        s.manualBrightnessPercent := by
  simp only [Backlight.setAutoBrightnessEnabled, Backlight.applyLevel]
  split_ifs <;> exact ⟨rfl, rfl⟩

/-- What taking over a mode does: nothing, or it switches the automatic brightness on, or it switches
it off with the percentage of the file. -/
theorem takeOverMode_cases (backlightMax : ℤ) (flagFile brightnessFile : Option ℤ) (s : Backlight) :
    takeOverMode backlightMax flagFile brightnessFile s = s ∨
    takeOverMode backlightMax flagFile brightnessFile s =
      setAutoBrightnessEnabled backlightMax true s ∨
    (flagFile = some 0 ∧ s.autoBrightnessEnabled = true ∧
      takeOverMode backlightMax flagFile brightnessFile s =
        setAutoBrightnessEnabled backlightMax false
          { s with manualBrightnessPercent :=
              readIntFile brightnessFile s.manualBrightnessPercent }) := by
  unfold takeOverMode readIntFile
  cases hs : s.autoBrightnessEnabled with
  | false =>
    simp only [Bool.false_eq_true, if_false]
    cases decide (flagFile.getD 0 ≠ 0)
    · exact .inl rfl
    · exact .inr (.inl rfl)
  | true =>
    simp only [if_true]
    cases hflag : decide (flagFile.getD 1 ≠ 0)
    · refine .inr (.inr ⟨?_, trivial, rfl⟩)
      rw [decide_eq_false_iff_not, not_not] at hflag
      cases flagFile with
      | none => cases hflag
      | some v => exact congrArg some hflag
    · exact .inl rfl

theorem Tracks.takeOverMode {s : Backlight} (h : Tracks backlightMax s)
    {flagFile brightnessFile : Option ℤ}
    (hlit : flagFile = some 0 → s.autoBrightnessEnabled = true →
      ∀ percent ∈ brightnessFile, 0 < raw backlightMax percent)
    (hfits : s.autoBrightnessEnabled = true →
      (takeOverMode backlightMax flagFile brightnessFile s).autoBrightnessEnabled = false →
        IsInt ((takeOverMode backlightMax flagFile brightnessFile s).manualBrightnessPercent *
          backlightMax)) :
    Tracks backlightMax (takeOverMode backlightMax flagFile brightnessFile s) := by
  rcases takeOverMode_cases backlightMax flagFile brightnessFile s with
    heq | heq | ⟨hflag, hauto, heq⟩
  · rwa [heq]
  · rw [heq]
    exact h.setAutoBrightnessEnabled true
  · rw [heq] at hfits ⊢
    -- without a number in the file the manual percentage stays
    have hmanual : Usable backlightMax (readIntFile brightnessFile s.manualBrightnessPercent) := by
      cases brightnessFile with
      | none => exact h.manual
      | some percent =>
        obtain ⟨hoff, hpercent⟩ := setAutoBrightnessEnabled_false backlightMax
          { s with manualBrightnessPercent := percent }
        have hint := hfits hauto hoff
        rw [readIntFile, Option.getD_some, hpercent] at hint
        exact ⟨raw_pos_iff.mp (hlit hflag hauto percent rfl), hint.2⟩
    have hs (percent : ℤ) (husable : Usable backlightMax percent) :
        Tracks backlightMax { s with manualBrightnessPercent := percent } :=
      { h with manual := husable }
    exact (hs _ hmanual).setAutoBrightnessEnabled false

/-- What following the ambient light does: nothing, or it moves the percentage up, or it moves it
down and stays above the target. -/
theorem followAmbient_cases (backlightMax target : ℤ) (s : Backlight) :
    followAmbient backlightMax target s = s ∨
    ∃ percent, (s.autoBrightnessPercent < percent ∨
        percent < s.autoBrightnessPercent ∧ target < percent) ∧
      followAmbient backlightMax target s =
        { s with autoBrightnessPercent := percent }.applyLevel (raw backlightMax percent) := by
  simp only [followAmbient]
  by_cases henabled : s.autoBrightnessEnabled = true
  · rw [if_neg (not_not.mpr henabled)]
    split_ifs
    · exact .inl rfl
    all_goals exact .inr ⟨_, by omega, rfl⟩
  · rw [if_pos henabled]
    exact .inl rfl

theorem autoBrightnessPercent_applyLevel (s : Backlight) (level : ℤ) :
    (s.applyLevel level).autoBrightnessPercent = s.autoBrightnessPercent := by
  unfold applyLevel
  split_ifs <;> rfl

theorem Tracks.followAmbient (hmax : 20 ≤ backlightMax) {s : Backlight}
    (h : Tracks backlightMax s) {target : ℤ} (htarget : 10 ≤ target)
    (hfits : (followAmbient backlightMax target s).autoBrightnessPercent ≠ s.autoBrightnessPercent →
      IsInt ((followAmbient backlightMax target s).autoBrightnessPercent * backlightMax)) :
    Tracks backlightMax (followAmbient backlightMax target s) := by
  obtain heq | ⟨percent, hmove, heq⟩ := followAmbient_cases backlightMax target s
  · rwa [heq]
  · rw [heq] at hfits ⊢
    rw [autoBrightnessPercent_applyLevel] at hfits
    have hint := hfits (show percent ≠ s.autoBrightnessPercent by omega)
    have hauto : Usable backlightMax percent := by
      rcases hmove with hup | ⟨-, hdown⟩
      · -- more than before
        have hlit := h.auto.lit
        exact ⟨by nlinarith, hint.2⟩
      · -- less than before, but more than the target
        exact usable_of_le hmax (by omega) hint
    have hs : Tracks backlightMax { s with autoBrightnessPercent := percent } :=
      { h with auto := hauto }
    exact hs.applyLevel hauto.showable

/-- The two products of the timer. -/
theorem PercentsFit.tick {s : Backlight} {flagFile brightnessFile : Option ℤ}
    {ambient : Option AmbientPercent}
    (h : PercentsFit backlightMax s (.autoBrightnessTick flagFile brightnessFile ambient)) :
    let taken := takeOverMode backlightMax flagFile brightnessFile s
    let followed := autoBrightnessTimerCb backlightMax flagFile brightnessFile ambient s
    (s.autoBrightnessEnabled = true → taken.autoBrightnessEnabled = false →
      IsInt (taken.manualBrightnessPercent * backlightMax)) ∧
      (followed.autoBrightnessPercent ≠ taken.autoBrightnessPercent →
        IsInt (followed.autoBrightnessPercent * backlightMax)) := by
  obtain ⟨hmode, hmove⟩ := List.forall_mem_append.mp h
  refine ⟨fun hauto hoff => hmode _ ?_, fun hne => hmove _ ?_⟩
  · rw [if_pos ⟨hauto, by simp [hoff]⟩]
    exact List.mem_singleton_self _
  · rw [if_neg hne]
    exact List.mem_singleton_self _

theorem Tracks.autoBrightnessTimerCb (hmax : 20 ≤ backlightMax) {s : Backlight}
    (h : Tracks backlightMax s) {flagFile brightnessFile : Option ℤ}
    {ambient : Option AmbientPercent}
    (hlit : LitByFile backlightMax s (.autoBrightnessTick flagFile brightnessFile ambient))
    (hfits : PercentsFit backlightMax s (.autoBrightnessTick flagFile brightnessFile ambient)) :
    Tracks backlightMax (autoBrightnessTimerCb backlightMax flagFile brightnessFile ambient s) := by
  obtain ⟨hmode, hmove⟩ := hfits.tick
  have htaken := h.takeOverMode hlit hmode
  cases ambient with
  | none => exact htaken
  | some target => exact htaken.followAmbient hmax target.property.1 hmove

/-! ### The operations keep track -/

/-- A slider asks for its percentage on a lit screen. -/
theorem Tracks.slide (hmax : 20 ≤ backlightMax) {s : Backlight} (h : Tracks backlightMax s)
    (hb : s.screenBlanked = false) {percent : Percent}
    (hint : IsInt (percent.val * backlightMax)) :
    Tracks backlightMax (Backlight.halSetBacklight ({ s with
      manualBrightnessPercent := percent.val }.request (raw backlightMax percent.val))
        (raw backlightMax percent.val)) := by
  have husable := Percent.usable hmax hint
  have hs : Tracks backlightMax { s with manualBrightnessPercent := percent.val } :=
    { h with manual := husable }
  exact hs.halSetBacklight hb husable.showable

/-- The slider of the control centre, on a lit screen. -/
theorem Tracks.brightnessEventCb (hmax : 20 ≤ backlightMax) {s : Backlight}
    (h : Tracks backlightMax s) (hb : s.screenBlanked = false) {percent : Percent}
    (hfits : PercentsFit backlightMax s (.slider percent)) :
    Tracks backlightMax (brightnessEventCb backlightMax percent s) := by
  have hint : IsInt (percent.val * backlightMax) :=
    (List.forall_mem_append.mp hfits).2 _ (List.mem_singleton_self _)
  simp only [Backlight.brightnessEventCb]
  split_ifs
  · refine (h.setAutoBrightnessEnabled false).slide hmax ?_ hint
    rw [screenBlanked_setAutoBrightnessEnabled, hb]
  · exact h.slide hmax hb hint

/-- The slider of the display settings, on a lit screen or when it is ignored. -/
theorem Tracks.displayBrightnessEventCb (hmax : 20 ≤ backlightMax) {s : Backlight}
    (h : Tracks backlightMax s) (hb : s.autoBrightnessEnabled = true ∨ s.screenBlanked = false)
    {percent : Percent} (hfits : PercentsFit backlightMax s (.displaySlider percent)) :
    Tracks backlightMax (displayBrightnessEventCb backlightMax percent s) := by
  unfold Backlight.displayBrightnessEventCb
  split_ifs with hauto
  · exact h
  · refine h.slide hmax (hb.resolve_left hauto) (hfits _ ?_)
    simp only [percentProducts, if_neg hauto, List.mem_singleton]

/-- An MQTT brightness command whose level fits the state of the screen. -/
theorem Tracks.brightnessCommand (hmax : 20 ≤ backlightMax) {s : Backlight}
    (h : Tracks backlightMax s) {payload : Bytes}
    (hint : 0 ≤ atoi payload → atoi payload ≤ 100 → IsInt (atoi payload * backlightMax)) {level : ℤ}
    (hlevel : level ∈ brightnessCommand backlightMax payload)
    (hiff : level = 0 ↔ s.screenBlanked = true) :
    Tracks backlightMax (Backlight.halSetBacklight (s.request level) level) := by
  rcases brightnessCommand_eq_zero_or_showable hmax hint hlevel with rfl | hshowable
  · -- zero for a screen that is dark already
    have hset : Backlight.halSetBacklight (s.request 0) 0 = { s with sysfs := 0 } := by
      simp [Backlight.halSetBacklight, request, write]
    rw [hset]
    exact { h with sysfs := by simp only [hiff.mp rfl]; rfl }
  · have hb : s.screenBlanked = false :=
      Bool.eq_false_iff.mpr fun hb => hshowable.1.ne' (hiff.mpr hb)
    exact h.halSetBacklight hb hshowable

theorem Tracks.mqttCommandCallback (hmax : 20 ≤ backlightMax) {s : Backlight}
    (h : Tracks backlightMax s) {now : UInt32} {cmd payload : Bytes}
    (hfits : PercentsFit backlightMax s (.mqttCommand now cmd payload))
    (hop : Allowed backlightMax s (.mqttCommand now cmd payload)) :
    Tracks backlightMax (mqttCommandCallback backlightMax now cmd payload s) := by
  simp only [Backlight.mqttCommandCallback]
  split_ifs with hscreen _ _ _ _ hbright
  · exact h.halWakeScreen now
  · exact h.halBlankScreen
  · exact h.halWakeScreen now
  · exact h.halBlankScreen
  · exact h
  · cases hlevel : Backlight.brightnessCommand backlightMax payload with
    | none => exact h
    | some level =>
      refine h.brightnessCommand hmax (fun hlow hhigh => hfits _ ?_) hlevel (hop hbright level hlevel)
      simp only [percentProducts, if_pos (And.intro hbright (And.intro hlow hhigh)),
        List.mem_singleton]
  · exact h

/-- **Every allowed operation keeps track.** -/
theorem Tracks.next (hmax : 20 ≤ backlightMax) {s : Backlight} (h : Tracks backlightMax s)
    {op : Operation} (hlit : LitByFile backlightMax s op) (hfits : PercentsFit backlightMax s op)
    (hop : Allowed backlightMax s op) : Tracks backlightMax (next backlightMax s op) := by
  cases op with
  | touchRead now evs => exact h.touchReadCb now evs
  | screensaverTick timeout now inactive assist =>
    exact h.screensaverTimerCb timeout now inactive assist
  | mqttCommand now cmd payload => exact h.mqttCommandCallback hmax hfits hop
  | autoBrightnessTick flagFile brightnessFile ambient =>
    exact h.autoBrightnessTimerCb hmax hlit hfits
  | setAutoBrightness enabled => exact h.setAutoBrightnessEnabled enabled
  | slider percent => exact h.brightnessEventCb hmax hop hfits
  | displaySlider percent => exact h.displayBrightnessEventCb hmax hop hfits

/-- A slider that has set its level on a blanked screen. -/
theorem lit_of_coherent_slide (hmax : 20 ≤ backlightMax) {s : Backlight} {percent : Percent}
    (h : Coherent (halSetBacklight s (raw backlightMax percent.val))) : s.screenBlanked = false := by
  have hpercent := percent.property.1
  have hlit : 100 ≤ percent.val * backlightMax := by nlinarith
  exact Bool.eq_false_iff.mpr fun hb => (raw_pos_iff.mpr hlit).ne' (h.mpr hb)

/-- An operation that is not allowed breaks coherence at once. -/
theorem allowed_of_coherent (hmax : 20 ≤ backlightMax) {s : Backlight} {op : Operation}
    (h : Coherent (next backlightMax s op)) : Allowed backlightMax s op := by
  cases op with
  | touchRead now evs => trivial
  | screensaverTick timeout now inactive assist => trivial
  | autoBrightnessTick flagFile brightnessFile ambient => trivial
  | setAutoBrightness enabled => trivial
  | mqttCommand now cmd payload =>
    rintro rfl level hlevel
    have hnext : next backlightMax s (.mqttCommand now (str "brightness") payload) =
        halSetBacklight (s.request level) level := by
      have hne : str "brightness" ≠ str "screen" := by decide
      simp only [Backlight.next, mqttCommandCallback, if_neg hne, if_pos, Option.mem_def.mp hlevel]
    rw [hnext] at h
    exact h
  | slider percent =>
    have hb := lit_of_coherent_slide hmax h
    simp only [request] at hb
    split_ifs at hb
    · rwa [screenBlanked_setAutoBrightnessEnabled] at hb
    · exact hb
  | displaySlider percent =>
    simp only [Backlight.next, displayBrightnessEventCb] at h
    split_ifs at h with hauto
    · exact .inl hauto
    · exact .inr (lit_of_coherent_slide hmax h)

theorem tracks_start (hmax : 20 ≤ backlightMax) {manual : Percent}
    (hint : IsInt (manual.val * backlightMax)) (auto : Bool) :
    Tracks backlightMax (start backlightMax manual auto) := by
  have husable := Percent.usable hmax hint
  have hactive : (start backlightMax manual auto).activeBacklightRaw =
      raw backlightMax manual.val := if_pos ⟨Bool.false_ne_true, husable.showable.1⟩
  refine ⟨?_, hactive, husable.showable, husable, husable⟩
  rw [hactive]
  rfl

/-- **The backlight stays coherent** in a run from start-up in which every percentage that is taken
over from the file gives a level above zero, if and only if the products of the percentages are
`int`s, no MQTT brightness command lights a blanked screen or darkens one that is not blanked, and no
slider is moved while the screen is blanked. -/
theorem backlight_coherent_iff (hmax : 20 ≤ backlightMax) (manual : Percent) (auto : Bool)
    {ops : List Operation}
    (hfiles : Along (next backlightMax) (LitByFile backlightMax)
      (start backlightMax manual auto) ops) :
    StaysCoherent backlightMax manual auto ops ↔
      IsInt (manual.val * backlightMax) ∧
        Along (next backlightMax) (fun s op => PercentsFit backlightMax s op ∧
          Allowed backlightMax s op) (start backlightMax manual auto) ops := by
  refine and_congr_right fun hint => ?_
  refine along_congr_of (I := Tracks backlightMax) (fun s op h hlit => ?_)
    (fun s op h hlit hP => ?_) (tracks_start hmax hint auto) hfiles
  · constructor
    · rintro ⟨⟨hfits, -⟩, hcoherent, -⟩
      exact ⟨hfits, allowed_of_coherent hmax hcoherent⟩
    · rintro ⟨hfits, hop⟩
      have hnext := h.next hmax hlit hfits hop
      exact ⟨⟨hfits, h.fadeFits _⟩, hnext.coherent, hnext.wakesToRequested⟩
  · exact h.next hmax hlit hP.1.1 (allowed_of_coherent hmax hP.2.1)

/-- Blanking, taking over a manual level of thirty percent, and waking the screen with a touch. -/
theorem backlight_coherent_wake :
    StaysCoherent 255 ⟨80, by decide⟩ true
      [.mqttCommand 0 (str "screen") (str "OFF"), .autoBrightnessTick (some 0) (some 30) none,
        .touchRead 1 [⟨1, 330, 1⟩], .mqttCommand 2 (str "brightness") (str "50")] :=
  (backlight_coherent_iff (by decide) ⟨80, by decide⟩ true (by
    refine ⟨trivial, fun _ _ percent hpercent => ?_, trivial, trivial, trivial⟩
    obtain rfl := Option.some.inj hpercent
    decide)).mpr (by
    refine ⟨by decide, ⟨by decide +kernel, fun h => absurd h (by decide)⟩,
      ⟨by decide +kernel, trivial⟩, ⟨by decide +kernel, trivial⟩,
      ⟨by decide +kernel, fun _ level hlevel => ?_⟩, trivial⟩
    obtain rfl : level = 127 := Option.some.inj (hlevel.symm.trans (by decide +kernel))
    decide +kernel)

/-- A brightness command lights the blanked screen, and when the screen is woken its level is
forgotten. -/
theorem brightness_lights_blanked_screen :
    let s := run (next 255) (start 255 ⟨80, by decide⟩ false)
      [.mqttCommand 0 (str "screen") (str "OFF"), .mqttCommand 1 (str "brightness") (str "50")]
    (s.screenBlanked = true ∧ s.sysfs = 127) ∧
      ((next 255 s (.mqttCommand 2 (str "screen") (str "ON"))).sysfs = 204 ∧
        (next 255 s (.mqttCommand 2 (str "screen") (str "ON"))).requested = 127) ∧
      ¬ StaysCoherent 255 ⟨80, by decide⟩ false
        [.mqttCommand 0 (str "screen") (str "OFF"),
          .mqttCommand 1 (str "brightness") (str "50")] := by
  refine ⟨by decide +kernel, by decide +kernel, fun h => ?_⟩
  obtain ⟨-, -, ⟨-, hcoherent, -⟩, -⟩ := h
  exact absurd hcoherent (by unfold Coherent; decide +kernel)

end Backlight

end Panel

end HaPanel
