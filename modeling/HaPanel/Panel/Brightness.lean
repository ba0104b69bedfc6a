import HaPanel.Panel.Backlight

/-!
# The brightness scale

Home Assistant is told that the brightness of the screen goes up to 255.  The brightness command
takes a number up to 100 for a percentage and one above for a level, and the telemetry publishes the
level.

`brightness_scale_iff` : for which commands the levels are in the order of the numbers and within
the maximum, and which numbers come back.
-/

namespace HaPanel

namespace Panel

open Text

namespace Backlight

/-! ### Commands and telemetry -/

/-- The level that is in the brightness file after a brightness command.  It is `none` if the
product `percent * backlight_max` is no `int`: then the program may do anything. -/
def commandedLevel (backlightMax : ℤ) (now : UInt32) (payload : Bytes) (s : Backlight) : Option ℤ :=
  if 0 ≤ atoi payload ∧ atoi payload ≤ 100 ∧ 2 ^ 31 ≤ atoi payload * backlightMax then none
  else some (mqttCommandCallback backlightMax now (str "brightness") payload s).sysfs

/-- `publish_state`: the topic and the payload. -/
def publishState (baseTopic subtopic payload : Bytes) : Bytes × Bytes :=
  (baseTopic ++ str "/state/" ++ subtopic, payload)

/-- What `mqtt_telemetry_timer_cb` publishes, where `ip` is the result of `get_wlan0_ip`. -/
def mqttTelemetryTimerCb (baseTopic : Bytes) (connected : Bool) (ip : Bytes) (wsConnected : Bool)
    (s : Backlight) : List (Bytes × Bytes) :=
  if connected then
    [publishState baseTopic (str "screen") (if s.screenBlanked then str "OFF" else str "ON"),
      publishState baseTopic (str "brightness") (decimalInt s.activeBacklightRaw),
      publishState baseTopic (str "ip") ip,
      publishState baseTopic (str "ha_connected") (if wsConnected then str "true" else str "false")]
  else []

/-- In every state, the command `a` sets a level that is at most the one the command `b` sets, and
both are at most the maximum. -/
def Ordered (backlightMax : ℤ) (a b : ℕ) : Prop :=
  ∀ now now' s s', ∃ ra ∈ commandedLevel backlightMax now (decimal a) s,
    ∃ rb ∈ commandedLevel backlightMax now' (decimal b) s',
      ra ≤ rb ∧ ra ≤ backlightMax ∧ rb ≤ backlightMax

/-- After the command `a` for a lit screen with 255 levels, `a` is published. -/
def Reported (a : ℕ) : Prop :=
  ∀ now s baseTopic ip wsConnected, s.screenBlanked = false → ∀ v,
    (baseTopic ++ str "/state/brightness", v) ∈ mqttTelemetryTimerCb baseTopic true ip wsConnected
      (mqttCommandCallback 255 now (str "brightness") (decimal a) s) ↔ v = decimal a

/-! ### The level of a number -/

/-- The level of a number up to 255. -/
def levelOf (backlightMax : ℤ) (a : ℕ) : ℤ := if a ≤ 100 then raw backlightMax a else a

theorem mqttCommandCallback_brightness {a : ℕ} (ha : a ≤ 255) (backlightMax : ℤ) (now : UInt32)
    (s : Backlight) :
    mqttCommandCallback backlightMax now (str "brightness") (decimal a) s =
      halSetBacklight (s.request (levelOf backlightMax a)) (levelOf backlightMax a) := by
  have hne : str "brightness" ≠ str "screen" := by decide
  have hcommand : brightnessCommand backlightMax (decimal a) = some (levelOf backlightMax a) := by
    simp only [brightnessCommand, levelOf, atoi_decimal (show a < 2 ^ 31 by omega)]
    split_ifs
    all_goals first
      | rfl
      | omega
  simp only [mqttCommandCallback, if_neg hne, if_pos, hcommand]

theorem commandedLevel_decimal {a : ℕ} (ha : a ≤ 255) (backlightMax : ℤ) (now : UInt32)
    (s : Backlight) :
    commandedLevel backlightMax now (decimal a) s =
      if a ≤ 100 ∧ 2 ^ 31 ≤ a * backlightMax then none else some (levelOf backlightMax a) := by
  rw [commandedLevel, mqttCommandCallback_brightness ha, atoi_decimal (by omega)]
  refine if_congr ?_ rfl rfl
  omega

/-- The product for a percentage is an `int`. -/
def Fits (backlightMax : ℤ) (a : ℕ) : Prop := a ≤ 100 → a * backlightMax < 2 ^ 31

theorem mem_commandedLevel_iff {a : ℕ} (ha : a ≤ 255) {backlightMax : ℤ} {now : UInt32}
    {s : Backlight} {level : ℤ} :
    level ∈ commandedLevel backlightMax now (decimal a) s ↔
      Fits backlightMax a ∧ levelOf backlightMax a = level := by
  have hfits : ¬ (a ≤ 100 ∧ 2 ^ 31 ≤ a * backlightMax) ↔ Fits backlightMax a := by
    rw [not_and, Fits]
    exact forall_congr' fun _ => not_le
  rw [commandedLevel_decimal ha, Option.mem_def, Option.ite_none_left_eq_some, hfits,
    Option.some.injEq]

theorem ordered_iff_levelOf {backlightMax : ℤ} {a b : ℕ} (ha : a ≤ 255) (hb : b ≤ 255) :
    Ordered backlightMax a b ↔ Fits backlightMax a ∧ Fits backlightMax b ∧
      levelOf backlightMax a ≤ levelOf backlightMax b ∧ levelOf backlightMax a ≤ backlightMax ∧
        levelOf backlightMax b ≤ backlightMax := by
  simp only [Ordered, mem_commandedLevel_iff ha, mem_commandedLevel_iff hb]
  constructor
  · intro h
    have s : Backlight := start backlightMax ⟨80, by decide⟩ false
    obtain ⟨_, ⟨hfa, rfl⟩, _, ⟨hfb, rfl⟩, hle⟩ := h 0 0 s s
    exact ⟨hfa, hfb, hle⟩
  · rintro ⟨hfa, hfb, hle⟩ _ _ _ _
    exact ⟨_, ⟨hfa, rfl⟩, _, ⟨hfb, rfl⟩, hle⟩

/-! ### Which commands keep the scale -/

section

variable {backlightMax : ℤ} (hmax : 1 ≤ backlightMax)

include hmax

theorem mul_max_mono {a b : ℕ} (hab : a ≤ b) : a * backlightMax ≤ b * backlightMax :=
  mul_le_mul_of_nonneg_right (Int.ofNat_le.2 hab) (by omega)

theorem levelOf_percent {a : ℕ} (ha : a ≤ 100) :
    levelOf backlightMax a = a * backlightMax / 100 := by
  have hnonneg := mul_max_mono hmax (Nat.zero_le a)
  rw [levelOf, if_pos ha, raw, Int.tdiv_eq_ediv_of_nonneg (by simpa using hnonneg)]

/-- A percentage is not above the maximum. -/
theorem levelOf_le {a : ℕ} (ha : a ≤ 100) : levelOf backlightMax a ≤ backlightMax := by
  have hprod := mul_max_mono hmax ha
  rw [levelOf_percent hmax ha]
  omega

/-- **When two levels are in order** and within the maximum.  Two percentages are, as long as the
products do not overflow; a number above 100 has to be below the maximum, and must not be behind the
level of a percentage. -/
theorem ordered_iff {a b : ℕ} (hab : a ≤ b) (hb : b ≤ 255) :
    Ordered backlightMax a b ↔
      if b ≤ 100 then b * backlightMax < 2 ^ 31
      else b ≤ backlightMax ∧ (a ≤ 100 → a * backlightMax < 100 * (b + 1)) := by
  have hprod := mul_max_mono hmax hab
  rw [ordered_iff_levelOf (hab.trans hb) hb, Fits, Fits]
  by_cases hbp : b ≤ 100
  · -- two percentages: the products are in order, and the greater one decides about the overflow
    have hap : a ≤ 100 := hab.trans hbp
    have hla := levelOf_le hmax hap
    have hlb := levelOf_le hmax hbp
    rw [if_pos hbp]
    rw [levelOf_percent hmax hap] at hla ⊢
    rw [levelOf_percent hmax hbp] at hlb ⊢
    refine ⟨fun h => h.2.1 hbp, fun h => ⟨fun _ => by omega, fun _ => h, ?_, hla, hlb⟩⟩
    exact Int.ediv_le_ediv (by decide) hprod
  · have hlb : levelOf backlightMax b = b := if_neg hbp
    rw [if_neg hbp, hlb]
    by_cases hap : a ≤ 100
    · -- a percentage and a level: this is where the order is lost
      have hla := levelOf_le hmax hap
      rw [levelOf_percent hmax hap] at hla ⊢
      constructor
      · rintro ⟨-, -, hle, -, hbmax⟩
        exact ⟨hbmax, fun _ => by omega⟩
      · rintro ⟨hbmax, hlt⟩
        have hlt := hlt hap
        exact ⟨fun _ => by omega, fun h => absurd h hbp, by omega, hla, hbmax⟩
    · -- two levels: nothing compares them with the maximum
      have hla : levelOf backlightMax a = a := if_neg hap
      rw [hla]
      constructor
      · rintro ⟨-, -, -, -, hbmax⟩
        exact ⟨hbmax, fun h => absurd h hap⟩
      · rintro ⟨hbmax, -⟩
        exact ⟨fun h => absurd h hap, fun h => absurd h hbp, by omega, by omega, hbmax⟩

end

/-- The level of a number on the scale of 255. -/
theorem levelOf_pos {a : ℕ} (hpos : 1 ≤ a) : 0 < levelOf 255 a := by
  by_cases ha : a ≤ 100
  · rw [levelOf_percent (by decide) ha]
    omega
  · rw [levelOf, if_neg ha]
    omega

/-- A lit screen publishes the level of the command. -/
theorem mem_telemetry_iff {a : ℕ} (hpos : 1 ≤ a) (ha : a ≤ 255) {s : Backlight}
    (hs : s.screenBlanked = false) {now : UInt32} {baseTopic ip v : Bytes} {wsConnected : Bool} :
    (baseTopic ++ str "/state/brightness", v) ∈ mqttTelemetryTimerCb baseTopic true ip wsConnected
        (mqttCommandCallback 255 now (str "brightness") (decimal a) s) ↔
      v = decimalInt (levelOf 255 a) := by
  have hactive : (halSetBacklight (s.request (levelOf 255 a)) (levelOf 255 a)).activeBacklightRaw =
      levelOf 255 a := if_pos ⟨by simp [request, hs], levelOf_pos hpos⟩
  have htopic (subtopic : Bytes) : baseTopic ++ str "/state/brightness" =
      baseTopic ++ str "/state/" ++ subtopic ↔ str "brightness" = subtopic := by
    have hsplit : str "/state/brightness" = str "/state/" ++ str "brightness" := by decide
    rw [hsplit, List.append_assoc, List.append_right_inj, List.append_right_inj]
  have hscreen : str "brightness" ≠ str "screen" := by decide
  have hip : str "brightness" ≠ str "ip" := by decide
  have hha : str "brightness" ≠ str "ha_connected" := by decide
  rw [mqttCommandCallback_brightness ha, mqttTelemetryTimerCb, if_pos rfl, hactive]
  simp only [publishState, List.mem_cons, Prod.mk.injEq, htopic, hscreen, hip, hha, false_and,
    true_and, List.not_mem_nil, or_false, false_or]

theorem reported_iff_decimalInt {a : ℕ} (hpos : 1 ≤ a) (ha : a ≤ 255) :
    Reported a ↔ decimalInt (levelOf 255 a) = decimal a := by
  constructor
  · intro h
    have hlit : (start 255 ⟨80, by decide⟩ false).screenBlanked = false := rfl
    exact (h 0 _ [] [] false hlit _).1 ((mem_telemetry_iff hpos ha hlit).2 rfl)
  · intro h now s baseTopic ip wsConnected hs v
    rw [mem_telemetry_iff hpos ha hs, h]

/-- **Which numbers are published**: those that are taken for levels. -/
theorem reported_iff {a : ℕ} (hpos : 1 ≤ a) (ha : a ≤ 255) : Reported a ↔ 100 < a := by
  rw [reported_iff_decimalInt hpos ha]
  by_cases hap : a ≤ 100
  · -- a percentage stands for a level above its number
    have hlevel : levelOf 255 a = ((a * 255 / 100 : ℕ) : ℤ) := by
      rw [levelOf_percent (by decide) hap]
      norm_cast
    rw [hlevel, decimalInt_natCast, decimal_injective.eq_iff]
    omega
  · rw [levelOf, if_neg hap, decimalInt_natCast]
    simp only [true_iff]
    omega

/-- **The brightness scale.**  For every maximum, two commands set levels in the order of their
numbers and within the maximum if and only if both are percentages whose products do not overflow, or
the greater one is a level up to the maximum and the other one, if it is a percentage, does not stand
for a higher level.  On the scale of 255 the telemetry publishes the number of a command if and only
if that is a level. -/
theorem brightness_scale_iff {backlightMax : ℤ} (hmax : 1 ≤ backlightMax) {a b : ℕ} (hab : a ≤ b)
    (hb : b ≤ 255) {c : ℕ} (hpos : 1 ≤ c) (hc : c ≤ 255) :
    (Ordered backlightMax a b ↔
      if b ≤ 100 then b * backlightMax < 2 ^ 31
      else b ≤ backlightMax ∧ (a ≤ 100 → a * backlightMax < 100 * (b + 1))) ∧
    (Reported c ↔ 100 < c) :=
  ⟨ordered_iff hmax hab hb, reported_iff hpos hc⟩

/-- Two levels are in order, and the second one is published. -/
theorem brightness_scale_levels : Ordered 255 150 200 ∧ Reported 200 := by
  have h := brightness_scale_iff (show (1 : ℤ) ≤ 255 by decide) (show 150 ≤ 200 by decide)
    (show 200 ≤ 255 by decide) (show 1 ≤ 200 by decide) (show 200 ≤ 255 by decide)
  exact ⟨h.1.2 (by decide), h.2.2 (by decide)⟩

/-- One hundred is full brightness and one hundred and one is less than half of it, and fifty is
published as 127. -/
theorem brighter_command_is_darker :
    let s := start 255 ⟨80, by decide⟩ false
    (commandedLevel 255 0 (str "100") s = some 255 ∧ commandedLevel 255 0 (str "101") s = some 101 ∧
      (str "p/state/brightness", str "127") ∈ mqttTelemetryTimerCb (str "p") true [] true
        (mqttCommandCallback 255 0 (str "brightness") (str "50") s)) ∧
      ¬ Ordered 255 100 101 ∧ ¬ Reported 50 := by
  refine ⟨by decide +kernel, ?_, ?_⟩
  · rw [ordered_iff (by decide) (by decide) (by decide)]
    decide
  · rw [reported_iff (by decide) (by decide)]
    decide

end Backlight

end Panel

end HaPanel
