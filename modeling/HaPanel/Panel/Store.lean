import HaPanel.Panel.Cgi

/-!
# The configuration store

The abstract store is a record of type `Config`, and an accepted request is an `Update` of the
fields of its own section.  `cgi_config_main` implements it with a file that every request reads
and rewrites.

The implementation is not faithful for every request: the file is read by first-occurrence
search, so a submitted value that looks like a later key (`LooksLike`) is taken for it
(`colliding_name_is_misread`).  On runs without such values (`ClearRun`) the file refines
the abstract store (`cgi_refines_store`).
-/

namespace HaPanel

namespace Panel

open Text

/-! ### The abstract store -/

/-- A change of the configuration. -/
inductive Update where
  /-- Connect to Home Assistant; an empty token keeps the stored one. -/
  | connect (url token entity1 name1 entity2 name2 : Bytes)
  /-- Forget URL, token and entities. -/
  | disconnect
  /-- Set the MQTT parameters; an empty password keeps the stored one. -/
  | mqtt (enabled : Bool) (host : Bytes) (port : Port) (username password topic : Bytes)
      (discovery : Bool)
  /-- Set the autostart flags. -/
  | system (webAutostart haAutostart : Bool)
  deriving DecidableEq

namespace Update

/-- The record after an update. -/
def apply (a : Config) : Update → Config
  | connect url token entity1 name1 entity2 name2 =>
    { a with
      haUrl := url
      haToken := if token = [] then a.haToken else token
      haEntity1 := entity1
      haEntity1Name := name1
      haEntity2 := entity2
      haEntity2Name := name2 }
  | disconnect => { a with haUrl := [], haToken := [], haEntity1 := [], haEntity2 := [] }
  | mqtt enabled host port username password topic discovery =>
    { a with mqtt := { a.mqtt with
      enabled := enabled
      host := host
      port := port
      username := username
      password := if password = [] then a.mqtt.password else password
      baseTopic := topic
      discovery := discovery } }
  | system webAutostart haAutostart =>
    { a with webAutostart := webAutostart, haAutostart := haAutostart }

/-- The conditions a section imposes on its update. -/
def Valid (a : Config) : Update → Prop
  | connect url token entity1 name1 entity2 name2 =>
    hasHttpScheme url = true ∧ url.length ≤ 512 ∧ (token ≠ [] ∨ a.haToken ≠ []) ∧
      validEntityId entity1 = true ∧ validEntityId entity2 = true ∧
      name1 ≠ [] ∧ name1.length ≤ 64 ∧ name2 ≠ [] ∧ name2.length ≤ 64
  | disconnect => True
  | mqtt enabled host _ username password topic _ =>
    (enabled = true → host ≠ [] ∧ host.length ≤ 255) ∧ username.length ≤ 255 ∧
      password.length ≤ 512 ∧ topic ≠ [] ∧ topic.length ≤ 255
  | system _ _ => True

instance (a : Config) : DecidablePred (Valid a)
  | connect .. => inferInstanceAs (Decidable (_ ∧ _))
  | disconnect => instDecidableTrue
  | mqtt .. => inferInstanceAs (Decidable (_ ∧ _))
  | system .. => instDecidableTrue

/-- The update a request body asks for, if its section exists and its port is a port. -/
def ofBody (body : Bytes) : Option Update :=
  let field key := formValue body (str key)
  let trimmed key := trimCopy (field key)
  let flag key := formBool body (str key)
  if field "section" = str "ha" then
    if flag "disconnect" then some .disconnect
    else some (.connect (trimmed "ha_url") (trimmed "ha_token") (trimmed "entity_1")
      (trimmed "entity_1_name") (trimmed "entity_2") (trimmed "entity_2_name"))
  else if field "section" = str "mqtt" then
    (portOf (trimmed "mqtt_port")).map fun port =>
      .mqtt (flag "mqtt_enabled") (trimmed "mqtt_host") port (field "mqtt_user")
        (field "mqtt_pass") (trimmed "mqtt_topic") (flag "mqtt_discovery")
  else if field "section" = str "system" then
    some (.system (flag "web_autostart") (flag "ha_autostart"))
  else none

end Update

/-- The update a request makes to the abstract store, if it is accepted. -/
def CgiRequest.update (req : CgiRequest) (a : Config) : Option Update :=
  match readBody req with
  | .error _ => none
  | .ok body => (Update.ofBody body).filter fun u => decide (u.Valid a)

/-- The abstract store after a request: a rejected request changes nothing. -/
def abstractStep (a : Config) (req : CgiRequest) : Config :=
  match req.update a with
  | some u => u.apply a
  | none => a

/-- The abstract store after a sequence of requests. -/
def abstractRun (reqs : List CgiRequest) : Config := reqs.foldl abstractStep Config.builtin

/-- How a record reads back: empty entity IDs, names and topic become the defaults. -/
def Config.withDefaults (a : Config) : Config :=
  { a with
    haEntity1 := if a.haEntity1 = [] then str "light.living_room" else a.haEntity1
    haEntity2 := if a.haEntity2 = [] then str "switch.fan" else a.haEntity2
    haEntity1Name := if a.haEntity1Name = [] then Config.builtin.haEntity1Name else a.haEntity1Name
    haEntity2Name := if a.haEntity2Name = [] then Config.builtin.haEntity2Name else a.haEntity2Name
    mqtt := { a.mqtt with
      baseTopic := if a.mqtt.baseTopic = [] then str "panel/tpp01" else a.mqtt.baseTopic } }

/-- The configuration file stands for the abstract store. -/
inductive Represents (a : Config) : Option Bytes → Prop where
  /-- There is no file as long as nothing was stored. -/
  | absent (h : a = Config.builtin) : Represents a none
  /-- `load_configuration` reads the stored record from the file. -/
  | present {json : Bytes} (h : readConfig Config.builtin json = a.withDefaults) :
    Represents a (some json)

/-! ### The implementation -/

theorem currentConfig_none : currentConfig .ok none = Config.builtin := rfl

theorem currentConfig_some (json : Bytes) :
    currentConfig .ok (some json) = readConfig Config.builtin json := rfl

/-- The configuration file after a sequence of requests, all file operations succeeding. -/
def cgiRun (file : Option Bytes) (reqs : List CgiRequest) : Option Bytes :=
  reqs.foldl (fun file req => (cgiConfigMain .ok req file).2) file

/-- The request is answered with `ok:true`. -/
def Acknowledged (file : Option Bytes) (req : CgiRequest) : Prop :=
  (cgiConfigMain .ok req file).1.status = 200

instance (file : Option Bytes) (req : CgiRequest) : Decidable (Acknowledged file req) :=
  inferInstanceAs (Decidable (_ = _))

theorem haSection_toOption {body : Bytes} (hdis : formBool body (str "disconnect") = false)
    (c : Config) {u : Update}
    (hu : u = .connect (trimCopy (formValue body (str "ha_url")))
      (trimCopy (formValue body (str "ha_token"))) (trimCopy (formValue body (str "entity_1")))
      (trimCopy (formValue body (str "entity_1_name")))
      (trimCopy (formValue body (str "entity_2")))
      (trimCopy (formValue body (str "entity_2_name")))) :
    (haSection body c).toOption = if u.Valid c then some (u.apply c) else none := by
  subst hu
  simp only [haSection, hdis, Update.Valid, Update.apply, List.isEmpty_iff]
  grind [Except.toOption]

theorem mqttSection_toOption_none {body : Bytes} (c : Config)
    (hport : portOf (trimCopy (formValue body (str "mqtt_port"))) = none) :
    (mqttSection body c).toOption = none := by
  simp only [mqttSection, hport]
  split_ifs <;> rfl

theorem mqttSection_toOption_some {body : Bytes} {port : Port} (c : Config) {u : Update}
    (hport : portOf (trimCopy (formValue body (str "mqtt_port"))) = some port)
    (hu : u = .mqtt (formBool body (str "mqtt_enabled"))
      (trimCopy (formValue body (str "mqtt_host"))) port (formValue body (str "mqtt_user"))
      (formValue body (str "mqtt_pass")) (trimCopy (formValue body (str "mqtt_topic")))
      (formBool body (str "mqtt_discovery"))) :
    (mqttSection body c).toOption = if u.Valid c then some (u.apply c) else none := by
  subst hu
  simp only [mqttSection, hport, Update.Valid, Update.apply, List.isEmpty_iff]
  grind [Except.toOption]

/-- The sections accept exactly the valid updates and apply them. -/
theorem applyBody_toOption (body : Bytes) (c : Config) :
    (applyBody body c).toOption =
      ((Update.ofBody body).filter fun u => decide (u.Valid c)).map (Update.apply c) := by
  have hsome : ∀ u : Update, ((some u).filter fun u => decide (u.Valid c)).map (Update.apply c) =
      if u.Valid c then some (u.apply c) else none := by
    intro u
    by_cases hv : u.Valid c <;> simp [Option.filter, hv]
  unfold applyBody Update.ofBody
  simp only
  split_ifs with hha hdis hmqtt hsys
  · rw [hsome, if_pos (show Update.Valid c .disconnect from trivial)]
    simp [haSection, hdis, Update.apply, Except.toOption]
  · rw [hsome]
    exact haSection_toOption (by simpa using hdis) c rfl
  · cases hport : portOf (trimCopy (formValue body (str "mqtt_port"))) with
    | none => exact mqttSection_toOption_none c hport
    | some port =>
      rw [Option.map_some, hsome]
      exact mqttSection_toOption_some c hport rfl
  · rw [hsome, if_pos (show Update.Valid c (.system _ _) from trivial)]
    rfl
  · rfl

/-! ### What a request does to the file -/

theorem readBody_error_status {req : CgiRequest} {r : CgiResponse} (h : readBody req = .error r) :
    r.status ≠ 200 := by
  unfold readBody at h
  split_ifs at h
  · cases h; decide
  · cases h; decide
  · split at h
    · cases h; decide
    · split_ifs at h
      cases h; decide

/-- A request is acknowledged exactly if it is a valid update of the record in the file, and then
it writes the updated record; otherwise it leaves the file alone. -/
theorem cgiConfigMain_ok (req : CgiRequest) (file : Option Bytes) :
    (∃ u, req.update (currentConfig .ok file) = some u ∧ Acknowledged file req ∧
      (cgiConfigMain .ok req file).2 = some (configText (u.apply (currentConfig .ok file)))) ∨
    (req.update (currentConfig .ok file) = none ∧ ¬ Acknowledged file req ∧
      (cgiConfigMain .ok req file).2 = file) := by
  have hlock : FileOps.ok.lock = true := rfl
  unfold Acknowledged cgiConfigMain CgiRequest.update
  cases hbody : readBody req with
  | error r => exact .inr ⟨rfl, readBody_error_status hbody, rfl⟩
  | ok body =>
    have h := applyBody_toOption body (currentConfig .ok file)
    cases happ : applyBody body (currentConfig .ok file) with
    | error e =>
      rw [happ] at h
      exact .inr ⟨Option.map_eq_none_iff.mp h.symm, by simp [hlock, happ, fieldError], by simp [hlock, happ]⟩
    | ok c =>
      rw [happ] at h
      obtain ⟨u, hu, rfl⟩ := Option.map_eq_some_iff.mp h.symm
      exact .inl ⟨u, hu, by simp [hlock, happ, accepted], by simp [hlock, happ]⟩

/-! ### Updates without misleading values -/

/-- The update submits no value that looks like a distant key.  Entity IDs never do. -/
def Update.Clear : Update → Prop
  | connect url token _ name1 _ name2 =>
    ClearFor (str "ha_url") url ∧ ClearFor (str "ha_token") token ∧
      ClearFor (str "entity_1_name") name1 ∧ ClearFor (str "entity_2_name") name2
  | disconnect => True
  | mqtt _ host _ username password topic _ =>
    ClearFor (str "mqtt_host") host ∧ ClearFor (str "mqtt_user") username ∧
      ClearFor (str "mqtt_pass") password ∧ ClearFor (str "mqtt_topic") topic
  | system _ _ => True

instance : DecidablePred Update.Clear
  | .connect .. => inferInstanceAs (Decidable (_ ∧ _))
  | .disconnect => instDecidableTrue
  | .mqtt .. => inferInstanceAs (Decidable (_ ∧ _))
  | .system .. => instDecidableTrue

theorem clearFor_of_validEntityId {v : Bytes} (h : validEntityId v = true) (key : Bytes) :
    ClearFor key v := by
  have hdot : ∀ k ∈ configKeys, byte '.' ∉ k := by decide
  unfold validEntityId at h
  split at h
  · cases h
  · rename_i dot hfind
    obtain ⟨hlt, hd, -⟩ := List.findIdx?_eq_some_iff_getElem.mp hfind
    have hmem : byte '.' ∈ v := by
      rw [beq_iff_eq] at hd
      exact hd ▸ List.getElem_mem hlt
    rintro k hk (rfl | hsuf)
    · exact hdot _ (Layout.mem_of_mem_distant hk) hmem
    · have hq := List.all_eq_true.mp (Bool.and_eq_true_iff.mp h).2 (byte '"')
        (hsuf.subset (by simp))
      exact absurd hq (by decide)

theorem ClearFor.ifEmpty {key v fallback : Bytes} (hf : ClearFor key fallback)
    (hv : ClearFor key v) : ClearFor key (if v = [] then fallback else v) := by
  split_ifs
  · exact hf
  · exact hv

/-- A record that `load_configuration` reads back as it is, up to its defaults. -/
structure Config.Settled (a : Config) : Prop where
  clear : a.Clear
  haUrl : a.haUrl.rdropWhile isTrailing = a.haUrl
  haToken : a.haToken.rdropWhile isTrailing = a.haToken
  haEntity1Name : a.haEntity1Name ≠ []
  haEntity2Name : a.haEntity2Name ≠ []
  clientId : a.mqtt.clientId = Config.builtin.mqtt.clientId

theorem Config.Settled.builtin : Config.builtin.Settled := by
  refine ⟨⟨?_, ?_, ?_, ?_, ?_, ?_, ?_, ?_, ?_, ?_⟩, rfl, rfl, ?_, ?_, rfl⟩ <;> decide

theorem Config.Settled.withDefaults {a : Config} (h : a.Settled) : a.withDefaults.Settled := by
  obtain ⟨h, hu, ht, hn1, hn2, hc⟩ := h
  refine ⟨⟨h.haUrl, h.haToken, .ifEmpty (by decide) h.haEntity1,
    .ifEmpty (by decide) h.haEntity1Name, .ifEmpty (by decide) h.haEntity2,
    .ifEmpty (by decide) h.haEntity2Name, h.mqttHost, h.mqttUser, h.mqttPass,
    .ifEmpty (by decide) h.mqttTopic⟩, hu, ht, ?_, ?_, hc⟩
  · simpa only [Config.withDefaults, if_neg hn1] using hn1
  · simpa only [Config.withDefaults, if_neg hn2] using hn2

/-- A settled record written to the file reads back as it is, up to the defaults, whatever the
variables were. -/
theorem Config.Settled.readConfig {a g : Config} (h : a.Settled)
    (hg : g.mqtt.clientId = Config.builtin.mqtt.clientId) :
    readConfig g (configText a) = a.withDefaults := by
  rw [readConfig_configText h.clear.unambiguous]
  simp only [Config.readBack, Config.withDefaults, h.haUrl, h.haToken, if_neg h.haEntity1Name,
    if_neg h.haEntity2Name, hg, ← h.clientId]

/-! ### One request -/

/-- `trim_copy` leaves nothing for `load_configuration` to strip. -/
theorem rdropWhile_trimCopy (v : Bytes) : (trimCopy v).rdropWhile isTrailing = trimCopy v := by
  have hspace : ∀ c, isTrailing c = true → isSpace c = true := forall_byte (by decide +kernel)
  rw [List.rdropWhile_eq_self_iff]
  intro hne ht
  exact List.rdropWhile_last_not isSpace _ hne (hspace _ ht)

/-- URL and token of an update end without blanks. -/
def Update.Trimmed : Update → Prop
  | connect url token .. =>
    url.rdropWhile isTrailing = url ∧ token.rdropWhile isTrailing = token
  | _ => True

theorem Update.trimmed_of_ofBody {body : Bytes} {u : Update} (h : Update.ofBody body = some u) :
    u.Trimmed := by
  unfold Update.ofBody at h
  simp only at h
  split_ifs at h
  · cases h; trivial
  · cases h; exact ⟨rdropWhile_trimCopy _, rdropWhile_trimCopy _⟩
  · obtain ⟨port, -, rfl⟩ := Option.map_eq_some_iff.mp h
    trivial
  · cases h; trivial

/-- What an accepted update satisfies. -/
theorem CgiRequest.update_eq_some {req : CgiRequest} {a : Config} {u : Update}
    (h : req.update a = some u) : u.Valid a ∧ u.Trimmed := by
  unfold CgiRequest.update at h
  split at h
  · cases h
  · obtain ⟨hbody, hvalid⟩ := Option.filter_eq_some_iff.mp h
    exact ⟨of_decide_eq_true hvalid, Update.trimmed_of_ofBody hbody⟩

theorem CgiRequest.update_post {body : Bytes} {a : Config} {u : Update} (hne : body ≠ [])
    (hlen : body.length ≤ 16384) (hu : Update.ofBody body = some u) (hvalid : u.Valid a) :
    (CgiRequest.post body).update a = some u := by
  rw [CgiRequest.update, readBody_post hne hlen]
  simp [hu, hvalid]

/-- Whether a request is accepted depends on the stored token only. -/
theorem CgiRequest.update_congr (req : CgiRequest) {a b : Config} (h : a.haToken = b.haToken) :
    req.update a = req.update b := by
  have hvalid : ∀ u : Update, u.Valid a ↔ u.Valid b := by
    intro u
    cases u <;> simp only [Update.Valid, h]
  unfold CgiRequest.update
  simp only [hvalid]

/-- Updates keep a record settled. -/
theorem Update.settled_apply {a : Config} {u : Update} (ha : a.Settled) (hclear : u.Clear)
    (hvalid : u.Valid a) (htrim : u.Trimmed) : (u.apply a).Settled := by
  obtain ⟨ha, hurl, htoken, hname1, hname2, hid⟩ := ha
  cases u with
  | connect url token entity1 name1 entity2 name2 =>
    obtain ⟨hcu, hct, hn1, hn2⟩ := hclear
    obtain ⟨-, -, -, he1, he2, hne1, -, hne2, -⟩ := hvalid
    refine ⟨⟨hcu, .ifEmpty ha.haToken hct, clearFor_of_validEntityId he1 _, hn1,
      clearFor_of_validEntityId he2 _, hn2, ha.mqttHost, ha.mqttUser, ha.mqttPass, ha.mqttTopic⟩,
      htrim.1, ?_, hne1, hne2, hid⟩
    simp only [Update.apply]
    split_ifs
    · exact htoken
    · exact htrim.2
  | disconnect =>
    exact ⟨⟨clearFor_nil _, clearFor_nil _, clearFor_nil _, ha.haEntity1Name, clearFor_nil _,
      ha.haEntity2Name, ha.mqttHost, ha.mqttUser, ha.mqttPass, ha.mqttTopic⟩, rfl, rfl,
      hname1, hname2, hid⟩
  | mqtt enabled host port username password topic discovery =>
    obtain ⟨hh, hu, hp, ht⟩ := hclear
    exact ⟨⟨ha.haUrl, ha.haToken, ha.haEntity1, ha.haEntity1Name, ha.haEntity2, ha.haEntity2Name,
      hh, hu, .ifEmpty ha.mqttPass hp, ht⟩, hurl, htoken, hname1, hname2, hid⟩
  | system webAutostart haAutostart =>
    exact ⟨⟨ha.haUrl, ha.haToken, ha.haEntity1, ha.haEntity1Name, ha.haEntity2, ha.haEntity2Name,
      ha.mqttHost, ha.mqttUser, ha.mqttPass, ha.mqttTopic⟩, hurl, htoken, hname1, hname2, hid⟩

/-- An update cannot tell a record from its defaults. -/
theorem Update.withDefaults_apply_withDefaults (a : Config) (u : Update) :
    (u.apply a.withDefaults).withDefaults = (u.apply a).withDefaults := by
  cases u <;> simp only [Update.apply, Config.withDefaults] <;> grind

/-- The process of a request starts from a record that stands for the abstract store. -/
theorem Represents.current {a : Config} {file : Option Bytes} (h : Represents a file)
    (ha : a.Settled) :
    (currentConfig .ok file).Settled ∧ (currentConfig .ok file).haToken = a.haToken ∧
      ∀ u : Update, (u.apply (currentConfig .ok file)).withDefaults = (u.apply a).withDefaults := by
  cases h with
  | absent h =>
    subst h
    exact ⟨ha, rfl, fun _ => rfl⟩
  | @present json h =>
    have hcur : currentConfig .ok (some json) = a.withDefaults := h
    rw [hcur]
    exact ⟨ha.withDefaults, rfl, Update.withDefaults_apply_withDefaults a⟩

/-- The record that an accepted request writes is settled, and stands for the updated store. -/
theorem Represents.written {a : Config} {file : Option Bytes} (h : Represents a file)
    (ha : a.Settled) {req : CgiRequest} {u : Update} (hu : req.update a = some u)
    (hclear : u.Clear) :
    (u.apply (currentConfig .ok file)).Settled ∧
      (u.apply (currentConfig .ok file)).withDefaults = (u.apply a).withDefaults := by
  obtain ⟨hset, htoken, hsame⟩ := h.current ha
  rw [← req.update_congr htoken] at hu
  obtain ⟨hvalid, htrim⟩ := CgiRequest.update_eq_some hu
  exact ⟨Update.settled_apply hset hclear hvalid htrim, hsame u⟩

/-- **One request**: the file goes on to represent the abstract store, and the request is
acknowledged exactly if the abstract store accepts it. -/
theorem Represents.step {a : Config} {file : Option Bytes} (h : Represents a file)
    (ha : a.Settled) {req : CgiRequest} (hclear : ∀ u ∈ req.update a, u.Clear) :
    Represents (abstractStep a req) (cgiConfigMain .ok req file).2 ∧
      (abstractStep a req).Settled ∧ (Acknowledged file req ↔ (req.update a).isSome) := by
  have hcong := req.update_congr (h.current ha).2.1
  rcases cgiConfigMain_ok req file with ⟨u, hu, hack, hfile⟩ | ⟨hu, hack, hfile⟩
  · rw [hcong] at hu
    obtain ⟨hset, hsame⟩ := h.written ha hu (hclear u hu)
    obtain ⟨hvalid, htrim⟩ := CgiRequest.update_eq_some hu
    have hstep : abstractStep a req = u.apply a := by rw [abstractStep, hu]
    rw [hstep, hfile]
    refine ⟨?_, Update.settled_apply ha (hclear u hu) hvalid htrim, by simp [hack, hu]⟩
    exact .present (by rw [hset.readConfig rfl, hsame])
  · rw [hcong] at hu
    have hstep : abstractStep a req = a := by rw [abstractStep, hu]
    rw [hstep, hfile]
    exact ⟨h, ha, by simp [hack, hu]⟩

/-! ### Runs -/

/-- No request that the store accepts submits a value that looks like a distant key. -/
def ClearRun : Config → List CgiRequest → Prop
  | _, [] => True
  | a, req :: reqs => (∀ u ∈ req.update a, u.Clear) ∧ ClearRun (abstractStep a req) reqs

theorem Represents.run {a : Config} {file : Option Bytes} (h : Represents a file)
    (ha : a.Settled) {reqs : List CgiRequest} (hrun : ClearRun a reqs) (n : ℕ) :
    Represents ((reqs.take n).foldl abstractStep a) (cgiRun file (reqs.take n)) ∧
      ∀ req ∈ reqs[n]?, Acknowledged (cgiRun file (reqs.take n)) req ↔
        (req.update ((reqs.take n).foldl abstractStep a)).isSome := by
  induction reqs generalizing a file n with
  | nil => simpa [cgiRun] using h
  | cons req reqs ih =>
    obtain ⟨hrep, hset, hack⟩ := h.step ha hrun.1
    cases n with
    | zero => exact ⟨h, by simpa [cgiRun] using hack⟩
    | succ n => exact ih hrep hset hrun.2 n

/-- **The configuration file refines the abstract store**, on every run in which no accepted
value looks like a distant key: after every prefix of the run the file reads back as the abstract
store, and the next request is acknowledged exactly if the abstract store accepts it. -/
theorem cgi_refines_store (reqs : List CgiRequest) (hrun : ClearRun Config.builtin reqs) (n : ℕ) :
    Represents (abstractRun (reqs.take n)) (cgiRun none (reqs.take n)) ∧
      ∀ req ∈ reqs[n]?, Acknowledged (cgiRun none (reqs.take n)) req ↔
        (req.update (abstractRun (reqs.take n))).isSome :=
  Represents.run (.absent rfl) Config.Settled.builtin hrun n

theorem ClearRun.cons {a : Config} {req : CgiRequest} {u : Update} {reqs : List CgiRequest}
    (hu : req.update a = some u) (hclear : u.Clear) (hrun : ClearRun (u.apply a) reqs) :
    ClearRun a (req :: reqs) := by
  have hstep : abstractStep a req = u.apply a := by rw [abstractStep, hu]
  refine ⟨?_, hstep ▸ hrun⟩
  rw [hu]
  rintro _ ⟨⟩
  exact hclear

/-- The body of a request that sets up the connection to Home Assistant. -/
def connectBody (name1 : String) : Bytes :=
  str "section=ha&ha_url=http://ha.local&ha_token=t0k&entity_1=light.a&entity_1_name=" ++
    str name1 ++ str "&entity_2=fan.b&entity_2_name=B"

/-- The update such a request asks for. -/
def connectUpdate (name1 : String) : Update :=
  .connect (str "http://ha.local") (str "t0k") (str "light.a") (str name1) (str "fan.b") (str "B")

/-- Such requests are accepted, also for names that look like keys. -/
theorem connectRequest_accepted {name1 : String} (h : name1 ∈ ["A", "entity_2", "mqtt_host"])
    (a : Config) : (CgiRequest.post (connectBody name1)).update a = some (connectUpdate name1) := by
  have hbody : ∀ name ∈ ["A", "entity_2", "mqtt_host"], connectBody name ≠ [] ∧
      (connectBody name).length ≤ 16384 ∧
      Update.ofBody (connectBody name) = some (connectUpdate name) ∧
      (connectUpdate name).Valid Config.builtin := by
    decide +kernel
  obtain ⟨hne, hlen, hu, h₁, h₂, -, hrest⟩ := hbody name1 h
  -- there is a token in the request, so it does not matter which one is stored
  exact CgiRequest.update_post hne hlen hu ⟨h₁, h₂, .inl (by decide), hrest⟩

/-- A run in which a name looks like the directly following key, which does no harm. -/
def portalRun : List CgiRequest :=
  [.post (connectBody "entity_2"), .post (str "section=system&ha_autostart=on"),
    .post (str "section=ha&disconnect=1")]

theorem portalRun_refines : ClearRun Config.builtin portalRun ∧
    ∀ n, Represents (abstractRun (portalRun.take n)) (cgiRun none (portalRun.take n)) :=
  have hrun : ClearRun Config.builtin portalRun :=
    .cons (connectRequest_accepted (by simp) _) (by decide +kernel)
      (.cons (u := .system false true)
        (CgiRequest.update_post (by decide) (by decide +kernel) (by decide +kernel) trivial) trivial
        (.cons (u := .disconnect)
          (CgiRequest.update_post (by decide) (by decide +kernel) (by decide +kernel) trivial) trivial
          trivial))
  ⟨hrun, fun n => (cgi_refines_store portalRun hrun n).1⟩

/-- A request whose first name is the key of the MQTT host. -/
def collidingRequest : CgiRequest := .post (connectBody "mqtt_host")

theorem collidingRequest_update :
    collidingRequest.update Config.builtin = some (connectUpdate "mqtt_host") :=
  connectRequest_accepted (by simp) _

/-- **A value submitted for one field is read back as another**: after the colliding request the
second entity is the MQTT host. -/
theorem colliding_name_is_misread :
    Acknowledged none collidingRequest ∧
      (currentConfig .ok (cgiRun none [collidingRequest])).mqtt.host = str "fan.b" ∧
      ¬ Represents (abstractRun [collidingRequest]) (cgiRun none [collidingRequest]) := by
  have hhost : (readConfig Config.builtin (configText ((connectUpdate "mqtt_host").apply
      Config.builtin))).mqtt.host = str "fan.b" := by
    decide +kernel
  have habs : abstractRun [collidingRequest] = (connectUpdate "mqtt_host").apply Config.builtin := by
    rw [abstractRun, List.foldl_cons, abstractStep, collidingRequest_update, List.foldl_nil]
  have hrun : cgiRun none [collidingRequest] = (cgiConfigMain .ok collidingRequest none).2 := by
    rw [cgiRun, List.foldl_cons, List.foldl_nil]
  rcases cgiConfigMain_ok collidingRequest none with ⟨u, hu, hack, hfile⟩ | ⟨hu, -⟩
  · rw [currentConfig_none, collidingRequest_update, Option.some.injEq] at hu
    rw [hrun, hfile, habs, currentConfig_some, currentConfig_none, ← hu]
    refine ⟨hack, hhost, fun h => ?_⟩
    cases h with
    | present h =>
      rw [h] at hhost
      exact absurd hhost (by decide)
  · rw [currentConfig_none, collidingRequest_update] at hu
    cases hu

end Panel

end HaPanel
