import HaPanel.Panel.Portal
import Mathlib.Logic.Relation

/-!
# A session of the settings page

The page and the panel exchange requests and responses while the user goes on editing.  A request is
carried out when it reaches the panel; its response arrives later, or never, and statuses may arrive
in any order.  Other programs may store settings in the meantime.

The page does not know what has become of the file, so a state keeps track of it: `stale` names the
sections whose captured values may not be those of the record, and a response on its way is `fresh`
where nothing has been changed behind its back.  A response that is fresh when it arrives makes its
section up to date again.

* `session_agrees` : in every state of a session, whatever the order of the steps,
  - if the save bar is hidden, the inputs of every section that is not stale mean what is stored;
  - if it is visible, it names a section with a changed input;
  - the status is a JSON text that the page shows as the record is;
  - a save is acknowledged and stores what the inputs mean, or changes nothing;
  - a save of what is stored already changes nothing.

The password inputs are not part of this: they never show what is stored, and an empty one leaves
it alone.

The texts that the user types in and those that other programs store are lines of UTF-8 text, and
none of them looks like a key of the configuration file; the file can be read when a request is
carried out.  With an entity named like a key the page would not show what was saved.
-/

namespace HaPanel

namespace Panel

namespace Portal

open Text Json

/-! ### The page and the panel -/

/-- The response to a save, on its way to the page. -/
structure SaveReply where
  savedSection : Section
  response : CgiResponse
  /-- Neither the inputs of the section nor its record have been changed since. -/
  fresh : Bool

/-- A status on its way to the page. -/
structure LoadReply where
  output : Bytes
  /-- The sections whose record has not been changed since. -/
  fresh : Section → Bool

/-- The page, the configuration file, and the responses on their way. -/
structure State where
  page : Page
  file : Option Bytes
  saving : Option SaveReply
  loading : List LoadReply
  /-- The sections whose captured values may not be those of the record. -/
  stale : Section → Bool

/-- The sections `ks` are changed, before the response arrives. -/
def SaveReply.touch (r : SaveReply) (ks : Section → Bool) : SaveReply :=
  { r with fresh := r.fresh && !ks r.savedSection }

@[simp] theorem SaveReply.touch_savedSection (r : SaveReply) (ks : Section → Bool) :
    (r.touch ks).savedSection = r.savedSection := rfl

def LoadReply.touch (r : LoadReply) (ks : Section → Bool) : LoadReply :=
  { r with fresh := fun k => r.fresh k && !ks k }

namespace State

variable (s : State)

/-- The record in the file. -/
def config : Config := currentConfig .ok s.file

/-- The response to the request of `saveCurrentSection`, and the configuration file after it. -/
def saveResponse (ops : FileOps) (k : Section) : CgiResponse × Option Bytes :=
  cgiConfigMain ops (post (s.page.inputs.sectionRequest k)) s.file

/-- The response to the request that disconnects Home Assistant. -/
def disconnectResponse (ops : FileOps) : CgiResponse × Option Bytes :=
  cgiConfigMain ops (post [(str "section", str "ha"), (str "disconnect", str "true")]) s.file

/-- A file is stored that may differ from the one before in the sections `ks`. -/
def store (file : Option Bytes) (ks : Section → Bool) : State :=
  { s with
    file := file
    saving := s.saving.map (·.touch ks)
    loading := s.loading.map (·.touch ks)
    stale := fun k => s.stale k || ks k }

@[simp] theorem store_config (file : Option Bytes) (ks : Section → Bool) :
    (s.store file ks).config = currentConfig .ok file := rfl

@[simp] theorem store_page (file : Option Bytes) (ks : Section → Bool) :
    (s.store file ks).page = s.page := rfl

end State

/-- The section `k`, if the request was carried out. -/
def storedSection (response : CgiResponse) (k k' : Section) : Bool :=
  response.status = 200 && k' = k

variable (js : NumberText)

/-- What may happen, in any order. -/
inductive Step : State → State → Prop
  /-- The user changes inputs of a section. -/
  | edit {s : State} (k : Section) (i : Inputs) (hi : i.Typed) :
    Step s { s with page := s.page.changed k i, saving := s.saving.map (·.touch (· = k)) }
  | discard {s : State} :
    Step s { s with page := s.page.discard, saving := s.saving.map (·.touch fun _ => true) }
  /-- `saveCurrentSection`, up to the response. -/
  | save {s : State} {k : Section} (hk : s.page.currentSection = some k) (hsaving : s.saving = none)
    (ops : FileOps) (hread : ops.read = true) :
    Step s
      { s.store (s.saveResponse ops k).2 (storedSection (s.saveResponse ops k).1 k) with
        saving := some ⟨k, (s.saveResponse ops k).1, true⟩ }
  /-- `saveCurrentSection`, with the response. -/
  | saved {s : State} {r : SaveReply} (hsaving : s.saving = some r) :
    Step s
      (if succeeded js r.response then
        { s with
          page := s.page.saved r.savedSection
          saving := none
          stale := Function.update s.stale r.savedSection !r.fresh }
      else { s with saving := none })
  /-- The response to the save is lost. -/
  | saveLost {s : State} : Step s { s with saving := none }
  | disconnect {s : State} (ops : FileOps) (hread : ops.read = true) :
    Step s (s.store (s.disconnectResponse ops).2
      (storedSection (s.disconnectResponse ops).1 .homeAssistant))
  /-- `loadStatus`, up to the response. -/
  | load {s : State} (env : StatusEnv) (hip : IsUtf8 env.wlan0Ip) :
    Step s { s with loading := ⟨cgiStatusMain env s.file, fun _ => true⟩ :: s.loading }
  /-- `loadStatus`, with the response. -/
  | loaded {s : State} {before rest : List LoadReply} {r : LoadReply}
    (hloading : s.loading = before ++ r :: rest) {data : Json.Value}
    (hdata : decode (responseBody r.output) = some data) :
    Step s
      { s with
        page := s.page.populateStatus js data
        saving := s.saving.map (·.touch fun k => !r.fresh k)
        loading := before ++ rest
        stale := fun k => !r.fresh k }
  /-- A status is lost. -/
  | loadLost {s : State} {before rest : List LoadReply} {r : LoadReply}
    (hloading : s.loading = before ++ r :: rest) :
    Step s { s with loading := before ++ rest }
  /-- Another program stores a record. -/
  | other {s : State} {file : Option Bytes} (hfile : Kept (currentConfig .ok file)) :
    Step s (s.store file fun _ => true)

/-- The page with the status loaded, and nothing on its way. -/
def opened (file : Option Bytes) : State where
  page :=
    let i := shown (currentConfig .ok file) default
    ⟨i, i, none⟩
  file := file
  saving := none
  loading := []
  stale := fun _ => false

/-! ### What a state keeps -/

/-- The invariant. -/
structure Inv (s : State) : Prop where
  kept : Kept s.config
  inputs : s.page.inputs.Typed
  original : s.page.original.Typed
  captured : ∀ k, s.stale k = false → Means s.page.original s.config k
  saving : ∀ r ∈ s.saving, r.fresh = true → r.response.status < 400 →
    Means s.page.inputs s.config r.savedSection
  loading : ∀ r ∈ s.loading, ∃ env c, Kept c ∧
    Denotes (responseBody r.output) (.object (statusMembers env c)) ∧
    ∀ k, r.fresh k = true → ∀ j, Means j c k ↔ Means j s.config k
  hidden : s.page.currentSection = none → ∀ k, s.page.sectionIsDirty k = false
  visible : ∀ k ∈ s.page.currentSection, s.page.sectionIsDirty k = true

variable {s : State}

/-- A file is stored that is as before in the other sections. -/
theorem Inv.store (h : Inv s) {file : Option Bytes} {ks : Section → Bool}
    (hkept : Kept (currentConfig .ok file))
    (hsame : ∀ k, ks k = false → ∀ j, Means j s.config k ↔ Means j (currentConfig .ok file) k) :
    Inv (s.store file ks) where
  kept := hkept
  inputs := h.inputs
  original := h.original
  captured k hk := by
    obtain ⟨hstale, hks⟩ := Bool.or_eq_false_iff.mp hk
    exact (hsame k hks _).mp (h.captured k hstale)
  saving r hr hfresh hstatus := by
    obtain ⟨sent, hsent, rfl⟩ := Option.mem_map.mp hr
    obtain ⟨hfresh, hks⟩ := Bool.and_eq_true_iff.mp hfresh
    exact (hsame sent.savedSection (by simpa using hks) _).mp (h.saving sent hsent hfresh hstatus)
  loading r hr := by
    obtain ⟨sent, hsent, rfl⟩ := List.mem_map.mp hr
    obtain ⟨env, c, hc, hdenotes, hmeans⟩ := h.loading sent hsent
    refine ⟨env, c, hc, hdenotes, fun k hk j => ?_⟩
    obtain ⟨hfresh, hks⟩ := Bool.and_eq_true_iff.mp hk
    exact (hmeans k hfresh j).trans (hsame k (by simpa using hks) j)
  hidden := h.hidden
  visible := h.visible

/-- The page, with its save bar set anew. -/
theorem Inv.updateDirtyState (h : Inv s) {p : Page} {preferred : Option Section}
    {saving : Option SaveReply} {loading : List LoadReply} {stale : Section → Bool}
    (hinputs : p.inputs.Typed) (horiginal : p.original.Typed)
    (hcaptured : ∀ k, stale k = false → Means p.original s.config k)
    (hsaving : ∀ r ∈ saving, r.fresh = true → r.response.status < 400 →
      Means p.inputs s.config r.savedSection)
    (hloading : loading ⊆ s.loading) :
    Inv ⟨p.updateDirtyState preferred, s.file, saving, loading, stale⟩ where
  kept := h.kept
  inputs := hinputs
  original := horiginal
  captured := hcaptured
  saving := hsaving
  loading r hr := h.loading r (hloading hr)
  hidden := (currentSection_updateDirtyState p preferred).1
  visible := (currentSection_updateDirtyState p preferred).2

/-! ### Steps -/

theorem Inv.edit (h : Inv s) (k : Section) {i : Inputs} (hi : i.Typed) :
    Inv { s with page := s.page.changed k i, saving := s.saving.map (·.touch (· = k)) } := by
  refine h.updateDirtyState (h.inputs.withSection hi k) h.original h.captured ?_
    (List.Subset.refl _)
  intro r hr hfresh hstatus
  obtain ⟨sent, hsent, rfl⟩ := Option.mem_map.mp hr
  obtain ⟨hfresh, hother⟩ := Bool.and_eq_true_iff.mp hfresh
  have hne : sent.savedSection ≠ k := by simpa using hother
  have hmeans := h.saving sent hsent hfresh hstatus
  rw [SaveReply.touch_savedSection, means_withSection, if_neg hne]
  exact hmeans

theorem Inv.discard (h : Inv s) :
    Inv { s with page := s.page.discard, saving := s.saving.map (·.touch fun _ => true) } := by
  refine h.updateDirtyState h.original h.original h.captured ?_ (List.Subset.refl _)
  intro r hr hfresh
  obtain ⟨sent, -, rfl⟩ := Option.mem_map.mp hr
  simp [SaveReply.touch] at hfresh

/-- What a save does to the record. -/
theorem Inv.stored (h : Inv s) {ops : FileOps} (hread : ops.read = true) (k : Section) :
    (∃ u, s.page.inputs.update k = some u ∧ u.Valid s.config ∧ Kept (u.apply s.config) ∧
      s.saveResponse ops k = (accepted (sectionName k), some (configText (u.apply s.config)))) ∨
    (400 ≤ (s.saveResponse ops k).1.status ∧ (s.saveResponse ops k).2 = s.file) := by
  obtain ⟨u, hu, hvalid, heq⟩ | hfailed :=
    cgiConfigMain_post (c := s.config) rfl hread (s.page.inputs.sectionRequest k)
  · rw [ofBody_sectionRequest] at hu
    rw [formValue_section] at heq
    exact .inl ⟨u, hu, hvalid, h.kept.apply h.inputs hu hvalid, heq⟩
  · exact .inr hfailed

@[simp] theorem storedSection_accepted (name : Bytes) (k k' : Section) :
    storedSection (accepted name) k k' = decide (k' = k) := rfl

/-- A save is on its way back. -/
theorem Inv.sent (h : Inv s) {r : SaveReply}
    (hr : r.response.status < 400 → Means s.page.inputs s.config r.savedSection) :
    Inv { s with saving := some r } :=
  { h with
    saving := fun _ hr' _ hstatus => by
      obtain rfl := Option.some.inj hr'
      exact hr hstatus }

/-- No save is on its way. -/
theorem Inv.unsent (h : Inv s) : Inv { s with saving := none } :=
  { h with saving := fun r hr => absurd hr (Option.not_mem_none r) }

/-- The file is stored as it was. -/
theorem Inv.store_self (h : Inv s) (ks : Section → Bool) : Inv (s.store s.file ks) :=
  h.store h.kept fun _ _ _ => Iff.rfl

theorem Inv.save (h : Inv s) {k : Section} {ops : FileOps} (hread : ops.read = true) :
    Inv { s.store (s.saveResponse ops k).2 (storedSection (s.saveResponse ops k).1 k) with
      saving := some ⟨k, (s.saveResponse ops k).1, true⟩ } := by
  obtain ⟨u, hu, -, hkept, heq⟩ | ⟨hstatus, hfile⟩ := h.stored hread k
  · rw [heq]
    have hconfig := hkept.currentConfig_eq
    obtain ⟨hmeans, hothers⟩ := means_apply (c := s.config) hu
    refine (h.store ?_ fun k' hk' j => ?_).sent fun _ => ?_
    · rwa [hconfig]
    · rw [hconfig, hothers j k' (by simpa using hk')]
    · rw [State.store_page, State.store_config, hconfig]
      exact hmeans
  · rw [hfile]
    exact (h.store_self _).sent fun hlt => absurd hlt (Nat.not_lt.mpr hstatus)

theorem ofBody_disconnect :
    Update.ofBody (formEncode [(str "section", str "ha"), (str "disconnect", str "true")]) =
      some .disconnect := by
  simp only [Update.ofBody, formBool, formValue_formEncode]
  rfl

theorem Inv.disconnect (h : Inv s) {ops : FileOps} (hread : ops.read = true) :
    Inv (s.store (s.disconnectResponse ops).2
      (storedSection (s.disconnectResponse ops).1 .homeAssistant)) := by
  obtain ⟨u, hu, -, heq⟩ | ⟨-, hfile⟩ := cgiConfigMain_post (c := s.config) rfl hread
    [(str "section", str "ha"), (str "disconnect", str "true")]
  · obtain rfl := Option.some.inj (ofBody_disconnect.symm.trans hu)
    have hconfig := h.kept.currentConfig_disconnect
    unfold State.disconnectResponse
    rw [heq]
    refine h.store ?_ fun k hk j => ?_
    · rw [hconfig]
      exact h.kept.disconnected
    · have hother : k ≠ .homeAssistant := by simpa using hk
      rw [hconfig]
      cases k with
      | homeAssistant => exact absurd rfl hother
      | mqtt | system => rfl
  · unfold State.disconnectResponse
    rw [hfile]
    exact h.store_self _

theorem Inv.saved (h : Inv s) {r : SaveReply} (hsaving : s.saving = some r) :
    Inv (if succeeded js r.response then
        { s with
          page := s.page.saved r.savedSection
          saving := none
          stale := Function.update s.stale r.savedSection !r.fresh }
      else { s with saving := none }) := by
  have hnone : ∀ r' ∈ (none : Option SaveReply), r'.fresh = true → r'.response.status < 400 →
      Means (s.page.inputs.clearPassword r.savedSection) s.config r'.savedSection := fun r' hr' =>
    absurd hr' (Option.not_mem_none r')
  split_ifs with hsucceeded
  · have hsent := fun hfresh => h.saving r hsaving hfresh (lt_of_succeeded js hsucceeded)
    have hinputs := h.inputs.clearPassword r.savedSection
    refine h.updateDirtyState hinputs (h.original.withSection hinputs _) ?_ hnone
      (List.Subset.refl _)
    intro k hk
    rw [means_withSection]
    split_ifs with hkey
    · subst hkey
      rw [Function.update_self] at hk
      exact means_clearPassword.mpr (hsent (by simpa using hk))
    · rw [Function.update_of_ne hkey] at hk
      exact h.captured k hk
  · exact h.unsent

theorem Inv.load (h : Inv s) {env : StatusEnv} (hip : IsUtf8 env.wlan0Ip) :
    Inv { s with loading := ⟨cgiStatusMain env s.file, fun _ => true⟩ :: s.loading } :=
  { h with
    loading := by
      refine List.forall_mem_cons.mpr ⟨?_, h.loading⟩
      exact ⟨env, s.config, h.kept, h.kept.denotes_status rfl env hip, fun _ _ _ => Iff.rfl⟩ }

theorem arrived_subset {before rest : List LoadReply} {r : LoadReply}
    (hloading : s.loading = before ++ r :: rest) : before ++ rest ⊆ s.loading := by
  rw [hloading]
  exact ((List.sublist_cons_self r rest).append_left before).subset

theorem Inv.loaded (h : Inv s) {before rest : List LoadReply} {r : LoadReply}
    (hloading : s.loading = before ++ r :: rest) {data : Json.Value}
    (hdata : decode (responseBody r.output) = some data) :
    Inv { s with
      page := s.page.populateStatus js data
      saving := s.saving.map (·.touch fun k => !r.fresh k)
      loading := before ++ rest
      stale := fun k => !r.fresh k } := by
  obtain ⟨env, c, hkept, hdenotes, hsame⟩ := h.loading r (by simp [hloading])
  obtain rfl := (decode_eq_some_iff.mp hdata).unique hdenotes
  have hshown := hkept.populate_eq js env s.page.inputs
  have hmeans : ∀ k, r.fresh k = true → Means (shown c s.page.inputs) s.config k := fun k hk =>
    (hsame k hk _).mp (hkept.means_shown _ k)
  unfold Page.populateStatus
  rw [hshown]
  refine h.updateDirtyState (h.inputs.shown hkept) (h.inputs.shown hkept) ?_ ?_
    (arrived_subset hloading)
  · exact fun k hk => hmeans k (by simpa using hk)
  · intro r' hr' hfresh _
    obtain ⟨sent, -, rfl⟩ := Option.mem_map.mp hr'
    obtain ⟨-, hother⟩ := Bool.and_eq_true_iff.mp hfresh
    exact hmeans _ (by simpa using hother)

/-- **One step**, whichever it is. -/
theorem Inv.step (h : Inv s) {s' : State} (hstep : Step js s s') : Inv s' := by
  cases hstep with
  | edit k i hi => exact h.edit k hi
  | discard => exact h.discard
  | save hk hsaving ops hread => exact h.save hread
  | saved hsaving => exact h.saved js hsaving
  | saveLost => exact h.unsent
  | disconnect ops hread => exact h.disconnect hread
  | load env hip => exact h.load hip
  | loaded hloading hdata => exact h.loaded js hloading hdata
  | loadLost hloading =>
    exact { h with loading := fun r hr => h.loading r (arrived_subset hloading hr) }
  | other hfile => exact h.store hfile fun k hk => absurd hk (by simp)

theorem typed_default : (default : Inputs).Typed where
  lines v hv := by
    have hempty : (default : Inputs).lines = List.replicate 8 [] := rfl
    rw [hempty] at hv
    obtain rfl := List.eq_of_mem_replicate hv
    exact ⟨isUtf8_nil, rfl⟩
  clear := by decide +kernel

theorem inv_opened {file : Option Bytes} (h : Kept (currentConfig .ok file)) :
    Inv (opened file) := by
  have hshown := typed_default.shown h
  exact
    { kept := h
      inputs := hshown
      original := hshown
      captured := fun k _ => h.means_shown _ k
      saving := fun r hr => absurd hr (Option.not_mem_none r)
      loading := fun r hr => absurd hr List.not_mem_nil
      hidden := fun _ k => by simp [Page.sectionIsDirty, opened]
      visible := fun k hk => absurd hk (Option.not_mem_none k) }

/-- **A run.** -/
theorem inv_run {file : Option Bytes} (h : Kept (currentConfig .ok file)) {s : State}
    (hrun : Relation.ReflTransGen (Step js) (opened file) s) : Inv s := by
  induction hrun with
  | refl => exact inv_opened h
  | tail _ hstep ih => exact ih.step js hstep

/-! ### The page agrees with the panel -/

/-- What the user of the page can rely on. -/
structure Agrees (s : State) : Prop where
  /-- If the save bar is hidden, the inputs mean what is stored. -/
  hidden : s.page.currentSection = none → ∀ k, s.stale k = false →
    Means s.page.inputs s.config k
  /-- If it is visible, it names a section with a changed input. -/
  visible : ∀ k ∈ s.page.currentSection, s.page.sectionIsDirty k = true
  /-- The status shows what is stored. -/
  loads : ∀ env : StatusEnv, IsUtf8 env.wlan0Ip → ∃ data,
    decode (responseBody (cgiStatusMain env s.file)) = some data ∧
      s.page.inputs.populate js data = shown s.config s.page.inputs
  /-- A save stores what the inputs mean and says so, or changes nothing and says so. -/
  saves : ∀ (k : Section) (ops : FileOps), ops.read = true →
    (∃ u, s.page.inputs.update k = some u ∧ u.Valid s.config ∧
      succeeded js (s.saveResponse ops k).1 = true ∧
      currentConfig .ok (s.saveResponse ops k).2 = u.apply s.config ∧
      Means s.page.inputs (u.apply s.config) k) ∨
    (succeeded js (s.saveResponse ops k).1 = false ∧ (s.saveResponse ops k).2 = s.file)
  /-- A save of what is stored already, without passwords, changes nothing. -/
  unchanged : ∀ (k : Section) (ops : FileOps), ops.read = true → Means s.page.inputs s.config k →
    s.page.inputs.haToken = [] → s.page.inputs.mqttPass = [] →
    currentConfig .ok (s.saveResponse ops k).2 = s.config

/-- **A session.**  However edits, requests, responses and the settings of others come in turn, the
page and the panel agree. -/
theorem session_agrees {file : Option Bytes} (h : Kept (currentConfig .ok file)) {s : State}
    (hrun : Relation.ReflTransGen (Step js) (opened file) s) : Agrees js s := by
  have hs := inv_run js h hrun
  refine ⟨fun hnone k hk => ?_, hs.visible, fun env hip => ?_, fun k ops hread => ?_,
    fun k ops hread hmeans htoken hpass => ?_⟩
  · have hclean := hs.hidden hnone k
    have hsame : s.page.inputs.sectionInputs k = s.page.original.sectionInputs k := by
      simpa [Page.sectionIsDirty] using hclean
    exact (means_congr hsame).mpr (hs.captured k hk)
  · exact ⟨_, decode_eq_some_iff.mpr (hs.kept.denotes_status rfl env hip),
      hs.kept.populate_eq js env _⟩
  · obtain ⟨u, hu, hvalid, hkept, heq⟩ | ⟨hstatus, hfile⟩ := hs.stored hread k
    · rw [heq]
      exact .inl ⟨u, hu, hvalid, succeeded_accepted js k, hkept.currentConfig_eq,
        (means_apply hu).1⟩
    · refine .inr ⟨?_, hfile⟩
      by_contra hsucceeded
      have := lt_of_succeeded js (Bool.not_eq_false _ ▸ hsucceeded)
      omega
  · obtain ⟨u, hu, -, hkept, heq⟩ | ⟨-, hfile⟩ := hs.stored hread k
    · rw [heq, hkept.currentConfig_eq, apply_eq_self hu hmeans htoken hpass]
    · rw [hfile]
      rfl

/-- The record of a panel that has been disconnected. -/
def bareRecord : Config := disconnected Config.builtin

theorem kept_bareRecord : Kept bareRecord where
  normal := ⟨fun h => absurd rfl h, fun h => absurd rfl h, by decide⟩
  clear := by decide +kernel
  clientId := rfl
  lines := by
    simp only [shownTexts, bareRecord, disconnected, Config.builtin, List.forall_mem_cons]
    exact ⟨⟨isUtf8_nil, rfl⟩, ⟨isUtf8_str _, by decide⟩, ⟨isUtf8_str _, by decide⟩,
      ⟨isUtf8_str _, by decide⟩, ⟨isUtf8_str _, by decide⟩, ⟨isUtf8_nil, rfl⟩, ⟨isUtf8_nil, rfl⟩,
      ⟨isUtf8_str _, by decide⟩, List.forall_mem_nil _⟩
  trimmed := by decide +kernel
  port := by decide

/-- A whole number is shown as its numeral. -/
def plainNumbers : NumberText := ⟨fun n => n.1, fun _ _ => rfl⟩

/-- The user switches the web server off. -/
def State.switchWebOff (s : State) : State :=
  { s with
    page := s.page.changed .system { s.page.inputs with webAutostart := false }
    saving := s.saving.map (·.touch (· = .system)) }

theorem step_switchWebOff {s : State} (h : s.page.inputs.Typed) :
    Step plainNumbers s s.switchWebOff :=
  .edit .system _ ⟨h.lines, h.clear⟩

/-- The settings of that panel are opened, the web server is switched off, and the section is
saved. -/
theorem session_agrees_saving : ∃ s, s.saving.isSome ∧ Agrees plainNumbers s := by
  have hkept : Kept (currentConfig .ok (some (configText bareRecord))) := by
    rw [kept_bareRecord.currentConfig_eq]
    exact kept_bareRecord
  have hedit := step_switchWebOff (inv_opened hkept).inputs
  have hcurrent : (opened (some (configText bareRecord))).switchWebOff.page.currentSection =
      some .system := by
    unfold opened
    rw [kept_bareRecord.currentConfig_eq]
    rfl
  have hsave := @Step.save plainNumbers _ .system hcurrent rfl .ok rfl
  have hrun := (Relation.ReflTransGen.single hedit).tail hsave
  exact ⟨_, rfl, session_agrees plainNumbers hkept hrun⟩

end Portal

end Panel

end HaPanel
