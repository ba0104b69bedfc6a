import HaPanel.Panel.Startup

/-!
# The two writers of the configuration file

The CGI processes read, change and write the file under a lock.  The panel process writes its own
variables, which it has read at its start, without reading the file again.  Between an acknowledged
request and the restart that follows it the variables are stale, and a save of the panel then
undoes the request (`stale_save_undoes_request`).

`Ledger` records what every setting was last set to, and which parts of the panel's variables are
stale.  `careful_run_loses_no_update` says that nothing is lost in any interleaving in which the
panel writes no stale part, no value looks like a distant key, and no restart meets a file that
start-up deletes.
-/

namespace HaPanel

namespace Panel

open Text

/-! ### The system -/

/-- What the MQTT screen shows when its save button is clicked. -/
structure MqttForm where
  enabled : Bool
  host : Bytes
  port : Bytes
  username : Bytes
  password : Bytes
  topic : Bytes
  discovery : Bool
  deriving DecidableEq

/-- The variables after `save_mqtt_btn_cb`. -/
def saveMqttBtn (form : MqttForm) (c : Config) : Config :=
  { c with mqtt := { c.mqtt with
    enabled := form.enabled
    host := form.host
    port := toPort (atoi form.port)
    username := form.username
    password := form.password
    baseTopic := form.topic
    discovery := form.discovery } }

/-- The variables after `web_portal_autostart_sw_cb`. -/
def webPortalAutostartSw (checked : Bool) (c : Config) : Config :=
  { c with webAutostart := checked }

/-- The configuration file and the panel process. -/
structure System where
  file : Option Bytes
  process : PanelProcess
  deriving DecidableEq

/-- The system once the panel has started. -/
def System.boot (file : Option Bytes) : System :=
  ⟨(startUp .ok true file).1, (startUp .ok true file).2⟩

/-- The panel assigns its variables and calls `save_configuration`. -/
def System.save (s : System) (c : Config) : System :=
  ⟨(saveConfiguration .ok c s.file).2, { s.process with config := c }⟩

/-- `config_poll_timer`, which runs as long as the onboarding is active. -/
def System.configPollTimer (s : System) : System :=
  if s.process.onboarding && s.file.isSome then
    let loaded := loadConfiguration .ok s.process.config s.file
    { s with process := ⟨loaded.2, !loaded.1⟩ }
  else s

inductive Action where
  /-- A request to `cgi_config_main`. -/
  | cgi (req : CgiRequest)
  /-- `save_mqtt_btn_cb`. -/
  | saveMqtt (form : MqttForm)
  /-- `web_portal_autostart_sw_cb`. -/
  | saveAutostart (checked : Bool)
  /-- `save_config.sh` kills the panel and starts it again. -/
  | restart
  /-- `config_poll_timer`. -/
  | poll
  deriving DecidableEq

def System.step (s : System) : Action → System
  | .cgi req => { s with file := (cgiConfigMain .ok req s.file).2 }
  | .saveMqtt form => s.save (saveMqttBtn form s.process.config)
  | .saveAutostart checked => s.save (webPortalAutostartSw checked s.process.config)
  | .restart => System.boot s.file
  | .poll => s.configPollTimer

/-! ### What was last set, and what is stale -/

/-- The parts of the configuration, one for each section of the portal. -/
inductive Part where
  | ha
  | mqtt
  | system
  deriving DecidableEq

/-- The part an update sets. -/
def Update.part : Update → Part
  | connect .. => .ha
  | disconnect => .ha
  | mqtt .. => .mqtt
  | system .. => .system

structure Ledger where
  /-- What every setting was last set to. -/
  record : Config
  /-- Something has been set. -/
  stored : Bool
  /-- The panel is in the onboarding. -/
  onboarding : Bool
  /-- The parts that were set by a request since the panel last read the file, or wrote them. -/
  stale : List Part
  deriving DecidableEq

namespace Ledger

/-- The ledger of a panel that starts without a file. -/
def initial : Ledger := ⟨Config.builtin, false, true, []⟩

def next (l : Ledger) : Action → Ledger
  | .cgi req =>
    match req.update l.record with
    | some u => { l with record := u.apply l.record, stored := true, stale := u.part :: l.stale }
    | none => l
  | .saveMqtt form =>
    { l with
      record := saveMqttBtn form l.record
      stored := true
      stale := l.stale.filter (· ≠ Part.mqtt) }
  | .saveAutostart checked =>
    { l with record := webPortalAutostartSw checked l.record, stored := true }
  | .restart => { l with onboarding := !l.stored, stale := [] }
  | .poll =>
    if l.onboarding && l.stored then
      { l with onboarding := !l.record.haConfigured, stale := [] }
    else l

/-- The action loses nothing: no value looks like a distant key, the panel writes a stale part only
if the save sets that part itself, and a restart finds URL and token if it finds a file. -/
def Allows (l : Ledger) : Action → Prop
  | .cgi req => ∀ u ∈ req.update l.record, u.Clear
  | .saveMqtt form =>
    (ClearFor (str "mqtt_host") form.host ∧ ClearFor (str "mqtt_user") form.username ∧
      ClearFor (str "mqtt_pass") form.password ∧ ClearFor (str "mqtt_topic") form.topic) ∧
      ∀ p ∈ l.stale, p = Part.mqtt
  | .saveAutostart _ => l.stale = []
  | .restart => l.stored = true → l.record.haConfigured = true
  | .poll => True

end Ledger

theorem Ledger.next_cgi {l : Ledger} {req : CgiRequest} {u : Update}
    (hu : req.update l.record = some u) :
    l.next (.cgi req) =
      { l with record := u.apply l.record, stored := true, stale := u.part :: l.stale } := by
  simp only [Ledger.next, hu]

/-- Every action of the run loses nothing. -/
def Careful : Ledger → List Action → Prop
  | _, [] => True
  | l, a :: as => l.Allows a ∧ Careful (l.next a) as

/-! ### Agreement part by part -/

/-- Two records read back with the same settings in one part. -/
def Config.Agrees (c a : Config) : Part → Prop
  | .ha => c.haUrl = a.haUrl ∧ c.haToken = a.haToken ∧
    c.withDefaults.haEntity1 = a.withDefaults.haEntity1 ∧
    c.withDefaults.haEntity1Name = a.withDefaults.haEntity1Name ∧
    c.withDefaults.haEntity2 = a.withDefaults.haEntity2 ∧
    c.withDefaults.haEntity2Name = a.withDefaults.haEntity2Name
  | .mqtt => c.withDefaults.mqtt = a.withDefaults.mqtt
  | .system => c.webAutostart = a.webAutostart ∧ c.haAutostart = a.haAutostart

namespace Config

theorem Agrees.of_withDefaults_eq {c a : Config} (h : c.withDefaults = a.withDefaults) (p : Part) :
    c.Agrees a p := by
  have hurl : c.withDefaults.haUrl = a.withDefaults.haUrl := by rw [h]
  have htoken : c.withDefaults.haToken = a.withDefaults.haToken := by rw [h]
  have hweb : c.withDefaults.webAutostart = a.withDefaults.webAutostart := by rw [h]
  have hauto : c.withDefaults.haAutostart = a.withDefaults.haAutostart := by rw [h]
  cases p with
  | ha => exact ⟨hurl, htoken, by rw [h], by rw [h], by rw [h], by rw [h]⟩
  | mqtt => exact congrArg Config.mqtt h
  | system => exact ⟨hweb, hauto⟩

theorem withDefaults_eq_of_agrees {c a : Config} (h : ∀ p, c.Agrees a p) :
    c.withDefaults = a.withDefaults := by
  obtain ⟨hurl, htoken, he1, hn1, he2, hn2⟩ := h .ha
  obtain ⟨hweb, hauto⟩ := h .system
  have hm : c.withDefaults.mqtt = a.withDefaults.mqtt := h .mqtt
  cases c
  cases a
  simp_all [withDefaults]

theorem withDefaults_withDefaults (a : Config) : a.withDefaults.withDefaults = a.withDefaults := by
  simp only [withDefaults]
  grind

theorem Agrees.trans {a b c : Config} {p : Part} (hab : a.Agrees b p) (hbc : b.Agrees c p) :
    a.Agrees c p := by
  cases p <;> simp_all [Agrees]

end Config

/-- An update leaves the other parts alone. -/
theorem Update.agrees_apply (a : Config) {u : Update} {p : Part} (h : p ≠ u.part) :
    a.Agrees (u.apply a) p := by
  cases u <;> cases p <;>
    first
    | exact absurd rfl h
    | exact rfl
    | exact ⟨rfl, rfl⟩
    | exact ⟨rfl, rfl, rfl, rfl, rfl, rfl⟩

/-! ### The invariant -/

/-- The file is the text of a settled record that stands for the record of the ledger. -/
def Stored (a : Config) : Option Bytes → Prop
  | none => a = Config.builtin
  | some json => ∃ c : Config, json = configText c ∧ c.Settled ∧ c.withDefaults = a.withDefaults

theorem Stored.represents {a : Config} {file : Option Bytes} (h : Stored a file) :
    Represents a file := by
  cases file with
  | none => exact .absent h
  | some json =>
    obtain ⟨c, rfl, hc, hca⟩ := h
    exact .present (by rw [hc.readConfig rfl, hca])

/-- What holds of the system and its ledger along a careful run. -/
structure Consistent (s : System) (l : Ledger) : Prop where
  file : Stored l.record s.file
  stored : s.file.isSome = l.stored
  record : l.record.Settled
  config : s.process.config.Settled
  fresh : ∀ p, p ∉ l.stale → s.process.config.Agrees l.record p
  onboarding : s.process.onboarding = l.onboarding

theorem Consistent.initial : Consistent (System.boot none) Ledger.initial :=
  ⟨rfl, rfl, .builtin, .builtin, fun p _ => .of_withDefaults_eq rfl p, rfl⟩

/-- Reading the file makes the variables agree with the record. -/
theorem Stored.load {a g : Config} {json : Bytes} (h : Stored a (some json))
    (hg : g.mqtt.clientId = Config.builtin.mqtt.clientId) :
    loadConfiguration .ok g (some json) = (a.haConfigured, a.withDefaults) := by
  obtain ⟨c, rfl, hc, hca⟩ := h
  have hread : readConfig g (configText c) = a.withDefaults := by rw [hc.readConfig hg, hca]
  have hload : loadConfiguration .ok g (some (configText c)) =
      ((readConfig g (configText c)).haConfigured, readConfig g (configText c)) := rfl
  rw [hload, hread]
  rfl

theorem Consistent.cgi {s : System} {l : Ledger} (h : Consistent s l) {req : CgiRequest}
    (hallow : l.Allows (.cgi req)) : Consistent (s.step (.cgi req)) (l.next (.cgi req)) := by
  have hrep := h.file.represents
  have hcong := req.update_congr (hrep.current h.record).2.1
  rcases cgiConfigMain_ok req s.file with ⟨u, hu, -, hfile⟩ | ⟨hu, -, hfile⟩
  · rw [hcong] at hu
    obtain ⟨hset, hsame⟩ := hrep.written h.record hu (hallow u hu)
    obtain ⟨hvalid, htrim⟩ := CgiRequest.update_eq_some hu
    rw [Ledger.next_cgi hu, System.step, hfile]
    refine ⟨⟨_, rfl, hset, hsame⟩, rfl,
      Update.settled_apply h.record (hallow u hu) hvalid htrim, h.config, ?_, h.onboarding⟩
    intro p hp
    simp only [List.mem_cons, not_or] at hp
    exact (h.fresh p hp.2).trans (Update.agrees_apply _ hp.1)
  · rw [hcong] at hu
    have hnext : l.next (.cgi req) = l := by simp only [Ledger.next, hu]
    rw [hnext, System.step, hfile]
    exact h

/-- A save of the panel, when all parts agree afterwards. -/
theorem Consistent.save {s : System} {l l' : Ledger} (h : Consistent s l) {c : Config}
    (hc : c.Settled) (hl' : l'.record.Settled) (hagree : ∀ p, c.Agrees l'.record p)
    (hstored : l'.stored = true) (honb : l'.onboarding = l.onboarding) :
    Consistent (s.save c) l' := by
  refine ⟨⟨c, rfl, hc, Config.withDefaults_eq_of_agrees hagree⟩, ?_, hl', hc, fun p _ => hagree p,
    h.onboarding.trans honb.symm⟩
  rw [hstored]
  rfl

theorem Consistent.saveMqtt {s : System} {l : Ledger} (h : Consistent s l) {form : MqttForm}
    (hallow : l.Allows (.saveMqtt form)) :
    Consistent (s.step (.saveMqtt form)) (l.next (.saveMqtt form)) := by
  obtain ⟨⟨hhost, huser, hpass, htopic⟩, hstale⟩ := hallow
  have hsettled : ∀ {c : Config}, c.Settled → (saveMqttBtn form c).Settled := by
    rintro c ⟨hc, hurl, htoken, hn1, hn2, hid⟩
    exact ⟨⟨hc.haUrl, hc.haToken, hc.haEntity1, hc.haEntity1Name, hc.haEntity2, hc.haEntity2Name,
      hhost, huser, hpass, htopic⟩, hurl, htoken, hn1, hn2, hid⟩
  have hnot : ∀ p ≠ Part.mqtt, p ∉ l.stale := fun p hp hmem => hp (hstale p hmem)
  refine h.save (hsettled h.config) (hsettled h.record) ?_ rfl rfl
  intro p
  cases p with
  | ha => exact h.fresh .ha (hnot _ (by decide))
  | mqtt =>
    have hid : s.process.config.mqtt.clientId = l.record.mqtt.clientId := by
      rw [h.config.clientId, h.record.clientId]
    simp only [Config.Agrees, Config.withDefaults, Ledger.next, saveMqttBtn, hid]
    rfl
  | system => exact h.fresh .system (hnot _ (by decide))

theorem Config.Settled.webPortalAutostartSw {c : Config} (h : c.Settled) (checked : Bool) :
    (webPortalAutostartSw checked c).Settled := by
  obtain ⟨hc, hurl, htoken, hn1, hn2, hid⟩ := h
  exact ⟨⟨hc.haUrl, hc.haToken, hc.haEntity1, hc.haEntity1Name, hc.haEntity2, hc.haEntity2Name,
    hc.mqttHost, hc.mqttUser, hc.mqttPass, hc.mqttTopic⟩, hurl, htoken, hn1, hn2, hid⟩

theorem Consistent.saveAutostart {s : System} {l : Ledger} (h : Consistent s l) {checked : Bool}
    (hallow : l.Allows (.saveAutostart checked)) :
    Consistent (s.step (.saveAutostart checked)) (l.next (.saveAutostart checked)) := by
  have hfresh : ∀ p, s.process.config.Agrees l.record p := by
    intro p
    refine h.fresh p ?_
    rw [show l.stale = [] from hallow]
    exact List.not_mem_nil
  refine h.save (h.config.webPortalAutostartSw _) (h.record.webPortalAutostartSw _) ?_ rfl rfl
  intro p
  cases p with
  | ha => exact hfresh .ha
  | mqtt => exact hfresh .mqtt
  | system => exact ⟨rfl, (hfresh .system).2⟩

theorem Consistent.restart {s : System} {l : Ledger} (h : Consistent s l)
    (hallow : l.Allows .restart) : Consistent (s.step .restart) (l.next .restart) := by
  obtain ⟨file, process⟩ := s
  cases file with
  | none =>
    have hrecord : l.record = Config.builtin := h.file
    have hstored : l.stored = false := h.stored.symm
    refine ⟨h.file, h.stored, h.record, .builtin, ?_, by simp [Ledger.next, hstored]; rfl⟩
    intro p _
    refine .of_withDefaults_eq ?_ p
    rw [Ledger.next, hrecord]
    rfl
  | some json =>
    have hstored : l.stored = true := h.stored.symm
    have hload := h.file.load (g := Config.builtin) rfl
    have hboot : System.boot (some json) = ⟨some json, ⟨l.record.withDefaults, false⟩⟩ := by
      simp [System.boot, startUp, hload, hallow hstored]
    rw [System.step, hboot]
    refine ⟨h.file, h.stored, h.record, h.record.withDefaults, ?_, by simp [Ledger.next, hstored]⟩
    intro p _
    exact .of_withDefaults_eq (Config.withDefaults_withDefaults _) p

theorem Consistent.poll {s : System} {l : Ledger} (h : Consistent s l) :
    Consistent (s.step .poll) (l.next .poll) := by
  by_cases hc : l.onboarding && l.stored
  · obtain ⟨file, process⟩ := s
    cases file with
    | none => simp [← h.stored] at hc
    | some json =>
      have hload := h.file.load h.config.clientId
      have honb : process.onboarding = true := by
        rw [h.onboarding]
        exact (Bool.and_eq_true_iff.mp hc).1
      have hpoll : System.configPollTimer ⟨some json, process⟩ =
          ⟨some json, ⟨l.record.withDefaults, !l.record.haConfigured⟩⟩ := by
        simp [System.configPollTimer, honb, hload]
      rw [System.step, hpoll, Ledger.next, if_pos hc]
      refine ⟨h.file, h.stored, h.record, h.record.withDefaults, ?_, rfl⟩
      intro p _
      exact .of_withDefaults_eq (Config.withDefaults_withDefaults _) p
  · rw [System.step, System.configPollTimer, h.onboarding, h.stored, if_neg hc, Ledger.next,
      if_neg hc]
    exact h

theorem Consistent.step {s : System} {l : Ledger} (h : Consistent s l) {a : Action}
    (hallow : l.Allows a) : Consistent (s.step a) (l.next a) := by
  cases a with
  | cgi req => exact h.cgi hallow
  | saveMqtt form => exact h.saveMqtt hallow
  | saveAutostart checked => exact h.saveAutostart hallow
  | restart => exact h.restart hallow
  | poll => exact h.poll

theorem Consistent.run {s : System} {l : Ledger} (h : Consistent s l) {as : List Action}
    (hrun : Careful l as) : Consistent (as.foldl System.step s) (as.foldl Ledger.next l) := by
  induction as generalizing s l with
  | nil => exact h
  | cons a as ih => exact ih (h.step hrun.1) hrun.2

/-- **No update is lost in a careful run**: the file reads back as what was last set, whoever
set it. -/
theorem careful_run_loses_no_update (as : List Action) (hrun : Careful Ledger.initial as) :
    Represents (as.foldl Ledger.next Ledger.initial).record
      (as.foldl System.step (System.boot none)).file :=
  (Consistent.initial.run hrun).file.represents

/-- A request that changes the MQTT host is undone by a save of the autostart switch, if the panel
has not restarted in between. -/
theorem Consistent.stale_save {s : System} {l : Ledger} (h : Consistent s l)
    (hfresh : Part.mqtt ∉ l.stale) {req : CgiRequest} {u : Update}
    (hu : req.update l.record = some u)
    (hhost : (u.apply l.record).mqtt.host ≠ l.record.mqtt.host) (checked : Bool) :
    ¬ Represents ((l.next (.cgi req)).next (.saveAutostart checked)).record
        ((s.step (.cgi req)).step (.saveAutostart checked)).file := by
  intro hrep
  rw [Ledger.next_cgi hu] at hrep
  cases hrep with
  | present hrep =>
    have hproc : (s.step (.cgi req)).process = s.process := rfl
    rw [hproc, (h.config.webPortalAutostartSw checked).readConfig rfl] at hrep
    have hagree : s.process.config.withDefaults.mqtt = l.record.withDefaults.mqtt :=
      h.fresh .mqtt hfresh
    have hold : s.process.config.mqtt.host = l.record.mqtt.host := congrArg (·.host) hagree
    have hnew : s.process.config.mqtt.host = (u.apply l.record).mqtt.host :=
      congrArg (fun c => c.mqtt.host) hrep
    exact hhost (hnew.symm.trans hold)

/-- The MQTT screen with the settings of a fresh panel and a host. -/
def freshForm : MqttForm := ⟨false, str "broker", str "1883", [], [], str "panel/tpp01", true⟩

/-- The request that connects the panel. -/
def connectRequest : CgiRequest := .post (connectBody "A")

theorem connectRequest_update (a : Config) : connectRequest.update a = some (connectUpdate "A") :=
  connectRequest_accepted (by simp) a

/-- A request that finds the panel connected, and the restart after it, are careful. -/
theorem careful_connect_restart {as : List Action}
    (h : Careful ⟨(connectUpdate "A").apply Config.builtin, true, false, []⟩ as) :
    Careful Ledger.initial (.cgi connectRequest :: .restart :: as) := by
  refine ⟨?_, ?_⟩
  · intro u hu
    rw [connectRequest_update] at hu
    cases hu
    decide +kernel
  · rw [Ledger.next_cgi (connectRequest_update _)]
    exact ⟨fun _ => by decide, h⟩

/-- After the connection the panel saves its MQTT screen, and the portal sets MQTT up. -/
def carefulRun : List Action :=
  [.cgi connectRequest, .restart, .saveMqtt freshForm, .cgi mqttRequest]

theorem carefulRun_loses_no_update :
    Careful Ledger.initial carefulRun ∧
      Represents (carefulRun.foldl Ledger.next Ledger.initial).record
        (carefulRun.foldl System.step (System.boot none)).file := by
  have hrun : Careful Ledger.initial carefulRun := by
    refine careful_connect_restart ⟨⟨by decide +kernel, by simp⟩, ?_, trivial⟩
    intro u hu
    rw [mqttRequest_update] at hu
    cases hu
    decide +kernel
  exact ⟨hrun, careful_run_loses_no_update carefulRun hrun⟩

/-- After the connection the portal sets MQTT up, and the panel saves its autostart switch before
it restarts. -/
def staleRun : List Action :=
  [.cgi connectRequest, .restart, .cgi mqttRequest, .saveAutostart true]

/-- **A stale save undoes an acknowledged request**: the MQTT host of the portal is lost. -/
theorem stale_save_undoes_request :
    ¬ Represents (staleRun.foldl Ledger.next Ledger.initial).record
        (staleRun.foldl System.step (System.boot none)).file := by
  have hrun : Careful Ledger.initial [.cgi connectRequest, .restart] :=
    careful_connect_restart trivial
  have hcons := Consistent.initial.run hrun
  simp only [List.foldl_cons, List.foldl_nil, Ledger.next_cgi (connectRequest_update _)] at hcons
  simp only [staleRun, List.foldl_cons, List.foldl_nil,
    Ledger.next_cgi (connectRequest_update _)]
  exact hcons.stale_save List.not_mem_nil (mqttRequest_update _) (by decide) true

end Panel

end HaPanel
