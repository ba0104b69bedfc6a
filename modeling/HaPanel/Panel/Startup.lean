import HaPanel.Panel.Store

/-!
# The start-up of the panel

`main` decides by `load_configuration` whether it shows the dashboard or starts the onboarding,
and deletes a file that is no good to it.  A file is no good to it as soon as URL or token are
empty, although `cgi_config_main` writes such files: a disconnect empties both, and the other
sections can be saved first.  `startUp_keeps_settings_iff` says which sequences of acknowledged
requests lose their MQTT and autostart settings at the next start.
-/

namespace HaPanel

namespace Panel

open Text

/-- The panel process once it has started. -/
structure PanelProcess where
  /-- The configuration variables. -/
  config : Config
  /-- `onboarding_active`. -/
  onboarding : Bool
  deriving DecidableEq

/-- The configuration file and the process after the start-up of `main`.  A file that
`load_configuration` rejects is deleted, and the process executes itself anew; if `execv`
fails, it goes on with the variables it has read. -/
def startUp (ops : FileOps) (execv : Bool) : Option Bytes → Option Bytes × PanelProcess
  | none => (none, ⟨Config.builtin, true⟩)
  | some json =>
    let loaded := loadConfiguration ops Config.builtin (some json)
    if loaded.1 then (some json, ⟨loaded.2, false⟩)
    else (none, if execv then ⟨Config.builtin, true⟩ else ⟨loaded.2, false⟩)

/-- The MQTT and autostart settings of the first file can be read from the second one. -/
def SettingsKept (file file' : Option Bytes) : Prop :=
  ∀ json ∈ file, ∃ json' ∈ file',
    (readConfig Config.builtin json').mqtt = (readConfig Config.builtin json).mqtt ∧
    (readConfig Config.builtin json').webAutostart =
      (readConfig Config.builtin json).webAutostart ∧
    (readConfig Config.builtin json').haAutostart = (readConfig Config.builtin json).haAutostart

theorem settingsKept_startUp_iff (execv : Bool) (file : Option Bytes) :
    SettingsKept file (startUp .ok execv file).1 ↔
      file = none ∨ (currentConfig .ok file).haConfigured = true := by
  cases file with
  | none => simp [SettingsKept]
  | some json =>
    have hload : loadConfiguration .ok Config.builtin (some json) =
      ((readConfig Config.builtin json).haConfigured, readConfig Config.builtin json) := rfl
    cases hc : (readConfig Config.builtin json).haConfigured <;>
      simp [SettingsKept, startUp, hload, hc, currentConfig_some]

/-! ### The updates of a run -/

/-- The updates the store accepts in a run. -/
def acceptedUpdates : Config → List CgiRequest → List Update
  | _, [] => []
  | a, req :: reqs => (req.update a).toList ++ acceptedUpdates (abstractStep a req) reqs

namespace Update

/-- An update of the `ha` section. -/
def isHa : Update → Bool
  | connect .. => true
  | disconnect => true
  | _ => false

def isConnect : Update → Bool
  | connect .. => true
  | _ => false

end Update

/-- The last update of the `ha` section. -/
def lastHa (us : List Update) : Option Update := (us.filter Update.isHa).getLast?

theorem acceptedUpdates_concat (a : Config) (reqs : List CgiRequest) (req : CgiRequest) :
    acceptedUpdates a (reqs ++ [req]) =
      acceptedUpdates a reqs ++ (req.update (reqs.foldl abstractStep a)).toList := by
  induction reqs generalizing a with
  | nil => simp [acceptedUpdates]
  | cons r reqs ih => simp [acceptedUpdates, ih]

theorem lastHa_concat (us : List Update) (u : Update) :
    lastHa (us ++ [u]) = if u.isHa then some u else lastHa us := by
  cases h : u.isHa <;> simp [lastHa, h]

theorem abstractRun_concat (reqs : List CgiRequest) (req : CgiRequest) :
    abstractRun (reqs ++ [req]) = abstractStep (abstractRun reqs) req := by
  simp [abstractRun]

theorem cgiRun_concat (file : Option Bytes) (reqs : List CgiRequest) (req : CgiRequest) :
    cgiRun file (reqs ++ [req]) = (cgiConfigMain .ok req (cgiRun file reqs)).2 := by
  simp [cgiRun]

/-! ### URL and token along a run -/

/-- The file gives back URL and token of the store.  In contrast to `Represents` this holds along
every run. -/
structure Tracks (a : Config) (file : Option Bytes) : Prop where
  haUrl : (currentConfig .ok file).haUrl = a.haUrl
  haToken : (currentConfig .ok file).haToken = a.haToken
  urlTrimmed : a.haUrl.rdropWhile isTrailing = a.haUrl
  tokenTrimmed : a.haToken.rdropWhile isTrailing = a.haToken

/-- An update sets URL and token to the same values in records with the same URL and token. -/
theorem Update.apply_congr {a b : Config} (u : Update) (hurl : a.haUrl = b.haUrl)
    (htoken : a.haToken = b.haToken) :
    (u.apply a).haUrl = (u.apply b).haUrl ∧ (u.apply a).haToken = (u.apply b).haToken := by
  cases u <;> simp [Update.apply, hurl, htoken]

theorem Update.Trimmed.apply {a : Config} {u : Update} (hu : u.Trimmed)
    (hurl : a.haUrl.rdropWhile isTrailing = a.haUrl)
    (htoken : a.haToken.rdropWhile isTrailing = a.haToken) :
    (u.apply a).haUrl.rdropWhile isTrailing = (u.apply a).haUrl ∧
      (u.apply a).haToken.rdropWhile isTrailing = (u.apply a).haToken := by
  cases u with
  | connect url token _ _ _ _ =>
    refine ⟨hu.1, ?_⟩
    simp only [Update.apply]
    split_ifs
    · exact htoken
    · exact hu.2
  | disconnect => exact ⟨rfl, rfl⟩
  | mqtt _ _ _ _ _ _ _ => exact ⟨hurl, htoken⟩
  | system _ _ => exact ⟨hurl, htoken⟩

/-- A valid update leaves the store configured exactly if it connects, or is not of the `ha`
section and finds the store configured. -/
theorem Update.haConfigured_apply {a : Config} {u : Update} (h : u.Valid a) :
    (u.apply a).haConfigured = if u.isHa then u.isConnect else a.haConfigured := by
  cases u with
  | connect url token _ _ _ _ =>
    have hurl : url ≠ [] := by
      rintro rfl
      exact absurd h.1 (by decide)
    have htoken := h.2.2.1
    simp only [Update.apply, Config.haConfigured, isHa, isConnect]
    split_ifs <;> simp_all
  | disconnect => rfl
  | mqtt _ _ _ _ _ _ _ => rfl
  | system _ _ => rfl

theorem Tracks.step {a : Config} {file : Option Bytes} (h : Tracks a file) (req : CgiRequest) :
    Tracks (abstractStep a req) (cgiConfigMain .ok req file).2 ∧
      ((cgiConfigMain .ok req file).2 = none ↔ file = none ∧ req.update a = none) := by
  have hcong := req.update_congr h.haToken
  rcases cgiConfigMain_ok req file with ⟨u, hu, -, hfile⟩ | ⟨hu, -, hfile⟩
  · have htrim := (CgiRequest.update_eq_some hu).2
    rw [hcong] at hu
    have hstep : abstractStep a req = u.apply a := by rw [abstractStep, hu]
    obtain ⟨hurl, htoken⟩ := u.apply_congr h.haUrl h.haToken
    obtain ⟨hurl', htoken'⟩ := htrim.apply h.urlTrimmed h.tokenTrimmed
    rw [hstep, hfile]
    refine ⟨⟨?_, ?_, hurl', htoken'⟩, by simp [hu]⟩
    · rw [currentConfig_some, readConfig_haUrl, hurl, hurl']
    · rw [currentConfig_some, readConfig_haToken, htoken, htoken']
  · rw [hcong] at hu
    have hstep : abstractStep a req = a := by rw [abstractStep, hu]
    rw [hstep, hfile]
    exact ⟨h, by simp [hu]⟩

theorem tracks_run (reqs : List CgiRequest) :
    Tracks (abstractRun reqs) (cgiRun none reqs) ∧
      (cgiRun none reqs = none ↔ acceptedUpdates Config.builtin reqs = []) := by
  induction reqs using List.reverseRecOn with
  | nil => exact ⟨⟨rfl, rfl, rfl, rfl⟩, by simp [cgiRun, acceptedUpdates]⟩
  | append_singleton reqs req ih =>
    obtain ⟨htracks, hnone⟩ := ih
    obtain ⟨htracks', hnone'⟩ := htracks.step req
    rw [abstractRun_concat, cgiRun_concat, acceptedUpdates_concat]
    refine ⟨htracks', hnone'.trans ?_⟩
    rw [List.append_eq_nil_iff, hnone, Option.toList_eq_nil_iff]
    rfl

/-- The store is configured exactly if the last update of the `ha` section is a connect. -/
theorem haConfigured_abstractRun (reqs : List CgiRequest) :
    (abstractRun reqs).haConfigured =
      (lastHa (acceptedUpdates Config.builtin reqs)).any Update.isConnect := by
  induction reqs using List.reverseRecOn with
  | nil => rfl
  | append_singleton reqs req ih =>
    rw [abstractRun_concat, acceptedUpdates_concat]
    change _ = (lastHa (_ ++ (req.update (abstractRun reqs)).toList)).any _
    cases hu : req.update (abstractRun reqs) with
    | none => rw [abstractStep, hu, ih]; simp
    | some u =>
      rw [abstractStep, hu, Option.toList_some, lastHa_concat,
        Update.haConfigured_apply (CgiRequest.update_eq_some hu).1, ih]
      split_ifs <;> rfl

theorem settingsKept_run_iff (execv : Bool) (reqs : List CgiRequest) :
    SettingsKept (cgiRun none reqs) (startUp .ok execv (cgiRun none reqs)).1 ↔
      acceptedUpdates Config.builtin reqs = [] ∨ (abstractRun reqs).haConfigured = true := by
  obtain ⟨htracks, hnone⟩ := tracks_run reqs
  have hconf : (currentConfig .ok (cgiRun none reqs)).haConfigured =
      (abstractRun reqs).haConfigured := by
    rw [Config.haConfigured, htracks.haUrl, htracks.haToken]
    rfl
  rw [settingsKept_startUp_iff, hnone, hconf]

/-- **When saved settings survive a restart**: if nothing was saved, or the last update of the
`ha` section is a connect. -/
theorem startUp_keeps_settings_iff (execv : Bool) (reqs : List CgiRequest) :
    SettingsKept (cgiRun none reqs) (startUp .ok execv (cgiRun none reqs)).1 ↔
      acceptedUpdates Config.builtin reqs = [] ∨
        (lastHa (acceptedUpdates Config.builtin reqs)).any Update.isConnect = true := by
  rw [settingsKept_run_iff, haConfigured_abstractRun]

/-- A request that sets up MQTT. -/
def mqttRequest : CgiRequest :=
  .post (str "section=mqtt&mqtt_enabled=on&mqtt_host=broker&mqtt_port=1883" ++
    str "&mqtt_user=&mqtt_pass=&mqtt_topic=panel")

/-- The update it asks for. -/
def mqttUpdate : Update := .mqtt true (str "broker") ⟨1883, mqttPort_mem⟩ [] [] (str "panel") false

theorem mqttRequest_update (a : Config) : mqttRequest.update a = some mqttUpdate :=
  CgiRequest.update_post (by decide) (by decide +kernel) (by decide +kernel)
    (by simp only [mqttUpdate, Update.Valid]; decide)

/-- **Acknowledged settings are lost at the next start** if MQTT is set up before Home
Assistant. -/
theorem early_mqtt_settings_are_lost :
    Acknowledged none mqttRequest ∧
      ¬ SettingsKept (cgiRun none [mqttRequest])
        (startUp .ok true (cgiRun none [mqttRequest])).1 := by
  constructor
  · rcases cgiConfigMain_ok mqttRequest none with ⟨u, -, hack, -⟩ | ⟨hu, -⟩
    · exact hack
    · rw [mqttRequest_update] at hu
      cases hu
  · have hrun : abstractRun [mqttRequest] = mqttUpdate.apply Config.builtin := by
      rw [abstractRun, List.foldl_cons, abstractStep, mqttRequest_update, List.foldl_nil]
    rw [settingsKept_run_iff, acceptedUpdates, mqttRequest_update, hrun]
    decide

end Panel

end HaPanel
