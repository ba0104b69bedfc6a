import HaPanel.Panel.Cgi

/-!
# What the panel makes of a message

The dispatch of `ws_thread_loop`: it answers the authentication messages, and in every other message
it searches for the IDs of the two controls and for the state that follows.  The messages of Home
Assistant that matter are the `state_changed` events and the answer to `get_states`; `HaState` is a
state as they render it, with arbitrary text for its attributes.

A search finds an ID also where it is part of a longer one or stands in an attribute
(`longer_id_moves_control`).  `live_states_reach_controls` : if the search for an ID gets to the
state of its entity first, the control is updated to that state, and otherwise not at all.
-/

namespace HaPanel

namespace WebSocket

open Text Panel

/-! ### The dispatch -/

/-- What a message makes the thread do. -/
inductive Effect where
  /-- Send a text message. -/
  | send (message : Bytes)
  /-- Set `ws_connected`. -/
  | connected
  /-- Queue `update_control_state_async`. -/
  | schedule (control : Fin 2) (isOn : Bool)
deriving DecidableEq

/-- The states that are shown. -/
def stateWord (st : Bytes) : Option Bool :=
  if st = str "on" then some true else if st = str "off" then some false else none

/-- The text between the next two quotation marks. -/
def quotedWord (s : Bytes) : Option Bytes :=
  (find [byte '"'] s).bind fun q₁ =>
    (find [byte '"'] q₁.tail).map fun q₂ => q₁.tail.take (q₁.tail.length - q₂.length)

/-- The state behind the first occurrence of an ID. -/
def liveState (json id : Bytes) : Option Bool :=
  (find id json).bind fun pos =>
    (find (str "\"state\":") pos).bind fun st =>
      (quotedWord (st.drop 8)).bind stateWord

/-- `auth` -/
def authMessage (token : Bytes) : Bytes :=
  str "\x7b\"type\":\"auth\",\"access_token\":\"" ++ token ++ str "\"\x7d"

def subscribeMessage : Bytes :=
  str "\x7b\"id\":1,\"type\":\"subscribe_events\",\"event_type\":\"state_changed\"\x7d"

def getStatesMessage : Bytes := str "\x7b\"id\":2,\"type\":\"get_states\"\x7d"

/-- The part of a message that is searched for the controls. -/
def newStJson (msg : Bytes) : Bytes := (find (str "\"new_state\"") msg).getD msg

/-- The body of the reading loop of `ws_thread_loop`. -/
def dispatch (token : Bytes) (controls : Fin 2 → Bytes) (msg : Bytes) : List Effect :=
  if contains (str "auth_required") msg then [.send (authMessage token)]
  else if contains (str "auth_ok") msg then
    [.connected, .send subscribeMessage, .send getStatesMessage]
  else if contains (str "state_changed") msg || contains (str "entity_id") msg then
    -- the answer to `get_states` has no `"new_state"` and is searched from its beginning
    (List.finRange 2).filterMap fun i =>
      if controls i = [] then none else (liveState (newStJson msg) (controls i)).map (.schedule i)
  else []

/-- The updates of controls among the effects. -/
def updates (effects : List Effect) : List (Fin 2 × Bool) :=
  effects.filterMap fun
    | .schedule control isOn => some (control, isOn)
    | _ => none

/-! ### The messages of Home Assistant -/

/-- How Home Assistant writes JSON: an escaper that writes letters as themselves, and a number of
blanks after commas and colons. -/
structure Rendering where
  escaper : Escaper UInt8
  spaces : ℕ
  quote_eq : escaper.quote = byte '"'
  esc_eq : escaper.esc = byte '\\'
  letters : ∀ c ∈ str "onf", escaper.char c = [c]
  escaped : ∀ c, escaper.char c = [c] ∨ escaper.esc ∈ escaper.char c

/-- A state: the ID and the state of an entity, and the text that follows the state inside its
object, which has the attributes. -/
structure HaState where
  entityId : Bytes
  state : Bytes
  more : Bytes

namespace Rendering

variable (R : Rendering)

def blanks : Bytes := List.replicate R.spaces (byte ' ')

/-- What separates two elements of an array. -/
def comma : Bytes := byte ',' :: R.blanks

/-- The text of an object up to its entity ID. -/
def opening : Bytes := str "\x7b\"entity_id\":" ++ R.blanks

/-- The text from the quotation mark before the entity ID on. -/
def fromId (s : HaState) : Bytes :=
  byte '"' :: (s.entityId ++ byte '"' :: (R.comma ++ (str "\"state\":" ++ (R.blanks ++
    byte '"' :: (R.escaper.escape s.state ++ byte '"' :: (s.more ++ str "\x7d"))))))

/-- The text of a state. -/
def text (s : HaState) : Bytes := R.opening ++ R.fromId s

/-- The text of the elements of an array. -/
def elements : List HaState → Bytes
  | [] => []
  | s :: ss => R.text s ++ ss.flatMap fun t => R.comma ++ R.text t

end Rendering

/-- A text with states in it. -/
structure Listing where
  lead : Bytes
  states : List HaState
  tail : Bytes

namespace Listing

variable (R : Rendering) (l : Listing)

def text : Bytes := l.lead ++ (R.elements l.states ++ l.tail)

/-- The state a control should be updated to. -/
def expected (id : Bytes) : Option Bool :=
  (l.states.find? fun s => s.entityId == id).bind fun s => stateWord s.state

/-- The text before the element `s`, with the opening of its object. -/
def before (earlier : List HaState) : Bytes :=
  l.lead ++ (earlier.flatMap fun t => R.text t ++ R.comma) ++ R.opening

/-- The search for the ID gets to the state of its entity first; if there is none, no state follows
the ID. -/
structure LeadsTo (id : Bytes) : Prop where
  own : ∀ earlier s later, l.states = earlier ++ s :: later → s.entityId = id →
    (∀ t ∈ earlier, t.entityId ≠ id) → contains id (l.before R earlier) = false
  other : (∀ s ∈ l.states, s.entityId ≠ id) →
    (find id (l.text R)).bind (find (str "\"state\":")) = none

end Listing

/-- A `state_changed` event: what precedes the new state, the new state (`none` if the entity has
been removed), and what follows it. -/
structure StateChanged where
  lead : Bytes
  newState : Option HaState
  tail : Bytes

/-- The text that should be searched. -/
def StateChanged.listing (R : Rendering) (e : StateChanged) : Listing where
  lead := str "\"new_state\":" ++ R.blanks ++ if e.newState.isNone then str "null" else []
  states := e.newState.toList
  tail := e.tail

def StateChanged.text (R : Rendering) (e : StateChanged) : Bytes :=
  e.lead ++ (e.listing R).text R

/-- The answer to `get_states`. -/
structure StatesAnswer where
  lead : Bytes
  states : List HaState
  tail : Bytes

def StatesAnswer.listing (a : StatesAnswer) : Listing where
  lead := a.lead ++ str "["
  states := a.states
  tail := str "]" ++ a.tail

def StatesAnswer.text (R : Rendering) (a : StatesAnswer) : Bytes := a.listing.text R

/-! ### The state behind an ID -/

/-- A valid ID has no punctuation. -/
theorem notMem_of_validEntityId {id : Bytes} (h : validEntityId id = true) {d : UInt8}
    (hd : (isAlnum d || d == byte '_' || d == byte '.') = false) : d ∉ id := by
  intro hmem
  unfold validEntityId at h
  split at h
  · cases h
  · have hall := List.all_eq_true.mp (Bool.and_eq_true_iff.mp h).2 d hmem
    rw [hd] at hall
    cases hall

theorem ne_nil_of_validEntityId {id : Bytes} (h : validEntityId id = true) : id ≠ [] := by
  rintro rfl
  exact absurd h (by decide)

theorem quotedWord_eq {b w r : Bytes} (hb : byte '"' ∉ b) (hw : byte '"' ∉ w) :
    quotedWord (b ++ byte '"' :: (w ++ byte '"' :: r)) = some w := by
  have hlen : (w ++ byte '"' :: r).length - (byte '"' :: r).length = w.length := by
    rw [List.length_append]
    omega
  rw [quotedWord, find_singleton_append hb, Option.bind_some, List.tail_cons,
    find_singleton_append hw, Option.map_some, hlen, List.take_left]

theorem stateWord_of_mem {c : UInt8} (hc : c ∉ str "onf") {st : Bytes} (h : c ∈ st) :
    stateWord st = none := by
  have hon : st ≠ str "on" := by
    rintro rfl
    exact hc ((by decide : str "on" ⊆ str "onf") h)
  have hoff : st ≠ str "off" := by
    rintro rfl
    exact hc ((by decide : str "off" ⊆ str "onf") h)
  rw [stateWord, if_neg hon, if_neg hoff]

theorem blanks_eq (R : Rendering) {c : UInt8} (hc : c ≠ byte ' ') : c ∉ R.blanks := by
  intro h
  exact hc (List.eq_of_mem_replicate h)

/-- A rendered state is read as it is, as far as it is shown. -/
theorem stateWord_rendered (R : Rendering) (b st r : Bytes) (hb : byte '"' ∉ b) :
    (quotedWord (b ++ byte '"' :: (R.escaper.escape st ++ byte '"' :: r))).bind stateWord =
      stateWord st := by
  by_cases hq : byte '"' ∈ st
  · -- the word ends with the escape character of the first quotation mark
    obtain ⟨u, v, rfl, hu⟩ : ∃ u v, st = u ++ byte '"' :: v ∧ byte '"' ∉ u := by
      obtain ⟨l, l', rfl⟩ := List.append_of_mem hq
      obtain ⟨u, e, v, hu, he, hcut⟩ := exists_cut (fun c => c == byte '"') l (beq_self_eq_true _)
      obtain rfl := beq_iff_eq.mp he
      exact ⟨u, v ++ l', hcut l', fun hmem => by simpa using hu _ hmem⟩
    have hesc : R.escaper.escape (u ++ byte '"' :: v) ++ byte '"' :: r =
        (R.escaper.escape u ++ [byte '\\']) ++
          byte '"' :: (R.escaper.escape v ++ byte '"' :: r) := by
      rw [Escaper.escape, List.flatMap_append, List.flatMap_cons, ← R.quote_eq,
        R.escaper.char_quote, R.esc_eq]
      simp [Escaper.escape]
    have hword : byte '"' ∉ R.escaper.escape u ++ [byte '\\'] := by
      have hne : byte '"' ≠ byte '\\' := by decide
      simp only [List.mem_append, List.mem_singleton, not_or, Escaper.escape, List.mem_flatMap,
        not_exists, not_and]
      refine ⟨fun c hc hmem => ?_, hne⟩
      rw [← R.quote_eq] at hu hmem
      exact R.escaper.quote_notMem_char c (fun h => hu (h ▸ hc)) hmem
    rw [hesc, quotedWord_eq hb hword, Option.bind_some,
      stateWord_of_mem (c := byte '\\') (by decide) (by simp),
      stateWord_of_mem (c := byte '"') (by decide) hq]
  · have hword : byte '"' ∉ R.escaper.escape st := by
      simp only [Escaper.escape, List.mem_flatMap, not_exists, not_and]
      intro c hc hmem
      rw [← R.quote_eq] at hq hmem
      exact R.escaper.quote_notMem_char c (fun h => hq (h ▸ hc)) hmem
    have hletter : ∀ w, w ⊆ str "onf" → (R.escaper.escape st = w ↔ st = w) := by
      intro w hw
      refine Escaper.escape_eq_iff ?_ (fun c hc => R.letters c (hw hc)) fun c _ => R.escaped c
      rw [R.esc_eq]
      exact fun hmem => absurd (hw hmem) (by decide)
    rw [quotedWord_eq hb hword, Option.bind_some, stateWord, stateWord]
    simp only [hletter (str "on") (by decide), hletter (str "off") (by decide)]

/-- **The search reads the state of the entity it gets to.** -/
theorem liveState_fromId (R : Rendering) {s : HaState} (hid : validEntityId s.entityId = true)
    {a : Bytes} (ha : contains s.entityId a = false) (r : Bytes) :
    liveState (a ++ (R.fromId s ++ r)) s.entityId = stateWord s.state := by
  have hquote : byte '"' ∉ s.entityId := notMem_of_validEntityId hid (by decide)
  have hne := ne_nil_of_validEntityId hid
  -- the text behind the quotation mark before the ID
  set w := R.blanks ++ byte '"' :: (R.escaper.escape s.state ++ byte '"' ::
    (s.more ++ str "\x7d" ++ r)) with hw
  have hfrom : R.fromId s ++ r = byte '"' :: (s.entityId ++
      ([byte '"'] ++ (R.comma ++ (str "\"state\":" ++ w)))) := by
    simp [Rendering.fromId, hw]
  have hpos : find s.entityId (a ++ (R.fromId s ++ r)) =
      some (s.entityId ++ ([byte '"'] ++ (R.comma ++ (str "\"state\":" ++ w)))) := by
    rw [hfrom, find_append_cons_of_not_contains hne hquote ha]
    cases hc : s.entityId with
    | nil => exact absurd hc hne
    | cons c cs => exact find_cons_pos (List.prefix_append _ _)
  have hcomma : byte '"' ∉ R.comma := by
    have hblank := blanks_eq R (show byte '"' ≠ byte ' ' by decide)
    have hc : byte '"' ≠ byte ',' := by decide
    simp [Rendering.comma, hc, hblank]
  -- the quotation mark behind the ID is not the one of the key, since a comma follows it
  have hst : find (str "\"state\":")
      (s.entityId ++ ([byte '"'] ++ (R.comma ++ (str "\"state\":" ++ w)))) =
        some (str "\"state\":" ++ w) := by
    have hpat : str "\"state\":" = byte '"' :: str "state\":" := by decide
    have hskip : ¬ byte '"' :: str "state\":" <+:
        byte '"' :: (R.comma ++ (byte '"' :: str "state\":" ++ w)) := by
      intro h
      rw [List.cons_prefix_cons, Rendering.comma, List.cons_append] at h
      have := (List.cons_prefix_cons.mp (show byte 's' :: str "tate\":" <+: _ from h.2)).1
      exact absurd this (by decide)
    rw [hpat, find_append_of_notMem hquote, List.singleton_append, find_cons_neg hskip,
      find_append_of_notMem hcomma]
    exact find_cons_pos (List.prefix_append (byte '"' :: str "state\":") w)
  have hdrop : (str "\"state\":" ++ w).drop 8 = w :=
    List.drop_left' (show (str "\"state\":").length = 8 by decide)
  rw [liveState, hpos, Option.bind_some, hst, Option.bind_some, hdrop, hw]
  exact stateWord_rendered R _ _ _ (blanks_eq R (by decide))

/-! ### Listings -/

section

variable (R : Rendering)

theorem flatMap_comma (s : HaState) (ss : List HaState) :
    ((s :: ss).flatMap fun t => R.comma ++ R.text t) = R.comma ++ R.elements (s :: ss) := by
  rw [Rendering.elements, List.flatMap_cons, List.append_assoc]

theorem elements_append (earlier : List HaState) (s : HaState) (later : List HaState) :
    R.elements (earlier ++ s :: later) = (earlier.flatMap fun t => R.text t ++ R.comma) ++
      (R.text s ++ later.flatMap fun t => R.comma ++ R.text t) := by
  induction earlier with
  | nil => rfl
  | cons t earlier ih =>
    obtain ⟨u, us, hu⟩ : ∃ u us, earlier ++ s :: later = u :: us :=
      List.exists_cons_of_ne_nil (by simp)
    rw [List.cons_append, Rendering.elements, hu, flatMap_comma, ← hu, ih, List.flatMap_cons]
    simp

variable {R} {l : Listing}

/-- The text of a listing, cut at one of its states. -/
theorem Listing.text_eq {earlier later : List HaState} {s : HaState}
    (h : l.states = earlier ++ s :: later) :
    ∃ r, l.text R = l.before R earlier ++ (R.fromId s ++ r) := by
  refine ⟨(later.flatMap fun t => R.comma ++ R.text t) ++ l.tail, ?_⟩
  rw [Listing.text, h, elements_append, Listing.before, Rendering.text]
  simp only [List.append_assoc]

/-- **The search finds what is expected**, for every ID it leads to the state of. -/
theorem Listing.LeadsTo.liveState_eq {id : Bytes} (h : l.LeadsTo R id)
    (hid : validEntityId id = true) : liveState (l.text R) id = l.expected id := by
  -- the first state of the entity, as `expected` looks it up
  cases hfind : l.states.find? fun s => s.entityId == id with
  | none =>
    have hother : ∀ s ∈ l.states, s.entityId ≠ id := by
      intro s hs
      simpa using List.find?_eq_none.mp hfind s hs
    rw [Listing.expected, hfind, Option.bind_none, liveState, ← Option.bind_assoc, h.other hother,
      Option.bind_none]
  | some s =>
    obtain ⟨hs, earlier, later, hsplit, hearlier⟩ := List.find?_eq_some_iff_append.mp hfind
    obtain rfl : s.entityId = id := by simpa using hs
    have hown := h.own earlier s later hsplit rfl fun t ht => by simpa using hearlier t ht
    obtain ⟨r, hr⟩ := Listing.text_eq (R := R) hsplit
    rw [Listing.expected, hfind, Option.bind_some, hr, liveState_fromId R hid hown]

theorem expected_of_states_nil (h : l.states = []) (id : Bytes) : l.expected id = none := by
  simp [Listing.expected, h]

/-- A listing that is not empty names an entity ID. -/
theorem contains_entity_id (h : l.states ≠ []) : contains (str "entity_id") (l.text R) = true := by
  obtain ⟨s, later, hs⟩ := List.exists_cons_of_ne_nil h
  rw [← List.nil_append (s :: later)] at hs
  obtain ⟨r, hr⟩ := Listing.text_eq (R := R) hs
  rw [contains_iff_occurs]
  refine ⟨l.lead ++ str "\x7b\"", str "\":" ++ R.blanks ++ (R.fromId s ++ r), ?_⟩
  have hopening : str "\x7b\"entity_id\":" = str "\x7b\"" ++ str "entity_id" ++ str "\":" := by
    decide
  rw [hr, Listing.before, Rendering.opening, hopening]
  simp

end

/-! ### Messages -/

/-- The updates that should be scheduled. -/
def expectedUpdates (l : Listing) (controls : Fin 2 → Bytes) : List (Fin 2 × Bool) :=
  (List.finRange 2).filterMap fun i => (l.expected (controls i)).map (i, ·)

/-- The message is searched where it should be: no authentication is read into a message that
carries a state of a control, and every ID leads to the state of its entity. -/
structure Read (R : Rendering) (controls : Fin 2 → Bytes) (msg : Bytes) (l : Listing) : Prop where
  searched : newStJson msg = l.text R
  auth : (∃ i, l.expected (controls i) ≠ none) →
    contains (str "auth_required") msg = false ∧ contains (str "auth_ok") msg = false
  leads : ∀ i, l.LeadsTo R (controls i)

theorem Read.updates_eq {R : Rendering} {controls : Fin 2 → Bytes} {msg : Bytes} {l : Listing}
    (h : Read R controls msg l) (hvalid : ∀ i, validEntityId (controls i) = true) (token : Bytes) :
    updates (dispatch token controls msg) = expectedUpdates l controls := by
  have hnone : (∀ i, l.expected (controls i) = none) → expectedUpdates l controls = [] := by
    intro hall
    simp [expectedUpdates, hall]
  have hauth : (contains (str "auth_required") msg = true ∨ contains (str "auth_ok") msg = true) →
      ∀ i, l.expected (controls i) = none := by
    intro hword i
    by_contra hne
    obtain ⟨h₁, h₂⟩ := h.auth ⟨i, hne⟩
    simp [h₁, h₂] at hword
  unfold dispatch
  by_cases h₁ : contains (str "auth_required") msg = true
  · rw [if_pos h₁, hnone (hauth (.inl h₁))]
    rfl
  rw [if_neg h₁]
  by_cases h₂ : contains (str "auth_ok") msg = true
  · rw [if_pos h₂, hnone (hauth (.inr h₂))]
    rfl
  rw [if_neg h₂]
  by_cases h₃ : (contains (str "state_changed") msg || contains (str "entity_id") msg) = true
  · rw [if_pos h₃, updates, List.filterMap_filterMap, expectedUpdates]
    refine List.filterMap_congr fun i _ => ?_
    rw [if_neg (ne_nil_of_validEntityId (hvalid i)), h.searched, (h.leads i).liveState_eq (hvalid i)]
    cases l.expected (controls i) <;> rfl
  · -- without an entity ID there is no state in the message
    rw [if_neg h₃]
    refine (hnone fun i => expected_of_states_nil ?_ _).symm
    by_contra hne
    have hid := contains_entity_id (R := R) hne
    have hsuffix : l.text R <:+ msg := by
      rw [← h.searched, newStJson]
      cases hfind : find (str "\"new_state\"") msg with
      | none => exact List.suffix_rfl
      | some t => exact find_suffix hfind
    rw [contains_iff_occurs] at hid
    refine h₃ (Bool.or_eq_true_iff.mpr (.inr ?_))
    rw [contains_iff_occurs]
    exact hid.trans hsuffix.isInfix

/-- An event has one new state, so only the text before it matters for its own ID, and only the
text behind the ID for any other. -/
theorem Listing.leadsTo_of_singleton {R : Rendering} {l : Listing} {s : HaState}
    (hl : l.states = [s]) {id : Bytes}
    (hown : s.entityId = id → contains id (l.before R []) = false)
    (hother : s.entityId ≠ id →
      (find id (l.text R)).bind (find (str "\"state\":")) = none) : l.LeadsTo R id where
  own := by
    intro earlier t later hsplit ht _
    rw [hl, eq_comm, List.append_eq_singleton_iff] at hsplit
    obtain ⟨rfl, hcons⟩ | ⟨-, hcons⟩ := hsplit
    · obtain rfl := (List.cons_eq_cons.mp hcons).1
      exact hown ht
    · cases hcons
  other := by
    intro hne
    exact hother (hne s (by rw [hl]; exact List.mem_singleton_self s))

theorem newStJson_of_find {msg t : Bytes} (h : find (str "\"new_state\"") msg = some t) :
    newStJson msg = t := by
  rw [newStJson, h, Option.getD_some]

theorem newStJson_of_not_contains {msg : Bytes} (h : contains (str "\"new_state\"") msg = false) :
    newStJson msg = msg := by
  have hnone : find (str "\"new_state\"") msg = none := by
    simpa [contains] using h
  rw [newStJson, hnone, Option.getD_none]

/-- **The states in a message reach their controls and no others**, if the first `"new_state"` of an
event is the key of its new state, the answer to `get_states` has none, no authentication is read
into a message that carries a state of a control, and the search for an ID gets to the state of its
entity first. -/
theorem live_states_reach_controls (R : Rendering) (token : Bytes) (controls : Fin 2 → Bytes)
    (hvalid : ∀ i, validEntityId (controls i) = true) :
    (∀ e : StateChanged,
      find (str "\"new_state\"") (e.text R) = some ((e.listing R).text R) →
      ((∃ i, (e.listing R).expected (controls i) ≠ none) →
        contains (str "auth_required") (e.text R) = false ∧
          contains (str "auth_ok") (e.text R) = false) →
      (∀ i, (e.listing R).LeadsTo R (controls i)) →
      updates (dispatch token controls (e.text R)) = expectedUpdates (e.listing R) controls) ∧
    (∀ a : StatesAnswer,
      contains (str "\"new_state\"") (a.text R) = false →
      ((∃ i, a.listing.expected (controls i) ≠ none) →
        contains (str "auth_required") (a.text R) = false ∧
          contains (str "auth_ok") (a.text R) = false) →
      (∀ i, a.listing.LeadsTo R (controls i)) →
      updates (dispatch token controls (a.text R)) = expectedUpdates a.listing controls) := by
  constructor
  · intro e hkey hauth hleads
    have hread : Read R controls (e.text R) (e.listing R) :=
      ⟨newStJson_of_find hkey, hauth, hleads⟩
    exact hread.updates_eq hvalid token
  · intro a hkey hauth hleads
    have hread : Read R controls (a.text R) a.listing :=
      ⟨newStJson_of_not_contains hkey, hauth, hleads⟩
    exact hread.updates_eq hvalid token

/-- JSON without blanks. -/
def compact : Rendering where
  escaper := jsonEscaper
  spaces := 0
  quote_eq := rfl
  esc_eq := rfl
  letters := by decide +kernel
  escaped := escapeByte_plain_or_esc

/-- Two controls. -/
def lampAndFan (i : Fin 2) : Bytes := if i.val = 0 then str "light.a" else str "fan.b"

/-- The entity `id` is turned on. -/
def turnedOn (id : Bytes) : StateChanged where
  lead := str "\x7b\"type\":\"event\",\"event\":\x7b\"event_type\":\"state_changed\",\"data\":\x7b" ++
    str "\"entity_id\":\"" ++ id ++ str "\",\"old_state\":null,"
  newState := some ⟨id, str "on", str ",\"attributes\":\x7b\x7d"⟩
  tail := str "\x7d,\"origin\":\"LOCAL\"\x7d,\"id\":1\x7d"

theorem live_states_reach_lamp :
    updates (dispatch (str "token") lampAndFan ((turnedOn (str "light.a")).text compact)) =
      [(0, true)] := by
  refine ((live_states_reach_controls compact (str "token") lampAndFan (by decide)).1
    (turnedOn (str "light.a")) (by decide +kernel) (fun _ => by decide +kernel) fun i => ?_).trans
      (by decide)
  refine Listing.leadsTo_of_singleton rfl ?_ ?_
  · revert i
    decide +kernel
  · revert i
    decide +kernel

/-- The control of `light.a` is turned on by the event of `light.ab`. -/
theorem longer_id_moves_control :
    (∀ i, validEntityId (lampAndFan i) = true) ∧
    updates (dispatch (str "token") lampAndFan ((turnedOn (str "light.ab")).text compact)) =
      [(0, true)] ∧
    expectedUpdates ((turnedOn (str "light.ab")).listing compact) lampAndFan = [] := by
  decide +kernel

end WebSocket

end HaPanel
