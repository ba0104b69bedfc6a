import HaPanel.Assist.Child

/-!
# The outcome of a pipeline run

A step of the pipeline process either goes on (`Goes`) or jumps to `cleanup` (`Ends`), and
`Child.next_cases` says what the two keep: a process that goes on has written no final record and
knows no TTS URL, and only an `intent-end` makes a run successful.  `assist_run_outcome` sums up the
run and what the panel makes of it.
-/

namespace HaPanel

namespace Assist

open Text Transition

/-! ### The panel's side -/

/-- What `run_assist_pipeline_process` meets: its samples, which of its system calls succeed, what
it reads from the process, and whether it is cancelled while it reads. -/
structure Launch where
  samples : List (BitVec 16)
  inputPipeOk : Bool
  outputPipeOk : Bool
  forkOk : Bool
  nonblockOk : Bool
  inputWritten : Bool
  chunks : List Bytes
  cancelled : Bool

def runAssistPipelineProcess (l : Launch) : AssistPipelineResult :=
  if l.samples.isEmpty then { error := str "Brak danych audio" }
  else if !l.inputPipeOk then { error := str "Nie można uruchomić procesu pipeline" }
  else if !l.outputPipeOk then { error := str "Nie można uruchomić procesu pipeline" }
  else if !l.forkOk then { error := str "Nie można uruchomić procesu pipeline" }
  else if !l.nonblockOk then { error := str "Nie można uruchomić procesu pipeline" }
  else if !l.inputWritten then { error := str "Proces pipeline nie odebrał audio" }
  else
    let finalOutput := (consumeReads l.chunks).finalOutput
    if l.cancelled then { error := str "Anulowano Assist" }
    else if finalOutput.isEmpty then { error := str "Proces pipeline nie zwrócił odpowiedzi" }
    else
      let result := parseLine finalOutput
      if !result.success && result.error.isEmpty then
        { result with error := str "Nieznany błąd procesu pipeline" }
      else result

/-- A result without success has an error. -/
def Explained (r : AssistPipelineResult) : Prop := r.success = true ∨ r.error ≠ []

theorem runAssistPipelineProcess_explained (l : Launch) :
    Explained (runAssistPipelineProcess l) := by
  have hfailure : ∀ {e : Bytes}, e ≠ [] → Explained { error := e } := fun he => .inr he
  unfold runAssistPipelineProcess
  refine iteInduction (fun _ => hfailure (by decide)) fun _ => ?_
  refine iteInduction (fun _ => hfailure (by decide)) fun _ => ?_
  refine iteInduction (fun _ => hfailure (by decide)) fun _ => ?_
  refine iteInduction (fun _ => hfailure (by decide)) fun _ => ?_
  refine iteInduction (fun _ => hfailure (by decide)) fun _ => ?_
  refine iteInduction (fun _ => hfailure (by decide)) fun _ => ?_
  refine iteInduction (fun _ => hfailure (by decide)) fun _ => ?_
  refine iteInduction (fun _ => hfailure (by decide)) fun _ => ?_
  generalize parseLine _ = result
  refine iteInduction (fun _ => .inr (show str _ ≠ [] by decide)) fun h => ?_
  -- neither without success nor without an error
  rw [Bool.and_eq_true, not_and_or] at h
  rcases h with h | h
  · exact .inl (by simpa using h)
  · exact .inr (by simpa using h)

/-! ### The end of the process -/

namespace Child

variable {w : Conditions} {c d : Child}

/-- No final record has been written. -/
def Unfinished (c : Child) : Prop := ∀ p ∈ c.output, p.2 = false

theorem Unfinished.report (h : c.Unfinished) (stage : Bytes) : (c.report stage).Unfinished := by
  intro p hp
  rcases List.mem_append.mp hp with hp | hp
  · exact h p hp
  · rw [List.mem_singleton.mp hp]

theorem Unfinished.downloadAndPlayTts (h : c.Unfinished) :
    (c.downloadAndPlayTts w).Unfinished := by
  unfold Child.downloadAndPlayTts
  dsimp only
  split_ifs
  · exact h
  · exact Unfinished.report h _
  · exact Unfinished.report h _
  · exact (Unfinished.report h _).report _
  · exact (Unfinished.report h _).report _

@[simp] theorem downloadAndPlayTts_success :
    (c.downloadAndPlayTts w).result.success = c.result.success := by
  unfold downloadAndPlayTts
  dsimp only
  split_ifs <;> rfl

@[simp] theorem downloadAndPlayTts_plays :
    (c.downloadAndPlayTts w).plays = c.plays ++ [(c.ttsUrl, c.ttsMimeType)] := by
  unfold downloadAndPlayTts
  dsimp only
  split_ifs <;> rfl

/-- The process is over: its last record is the final one, and its status says whether it was
successful. -/
structure Done (c : Child) : Prop where
  output : ∃ earlier, c.output = earlier ++ [(c.result, true)] ∧ ∀ p ∈ earlier, p.2 = false
  status : ∃ status, c.position = .ended status ∧ (status = 0 ↔ c.result.success = true)

theorem Unfinished.finish (h : c.Unfinished) : c.finish.Done := by
  refine ⟨⟨c.output, rfl, h⟩, _, rfl, ?_⟩
  change (if c.result.success then 0 else 1) = 0 ↔ c.result.success = true
  cases c.result.success <;> decide

theorem Unfinished.cleanup (h : c.Unfinished) : (c.cleanup w).Done := by
  unfold Child.cleanup
  split_ifs
  · exact h.downloadAndPlayTts.finish
  · exact h.finish

@[simp] theorem cleanup_success : (c.cleanup w).result.success = c.result.success := by
  unfold cleanup
  split_ifs
  · exact downloadAndPlayTts_success
  · rfl

theorem cleanup_plays : (c.cleanup w).plays =
    if c.result.success = true ∧ c.ttsUrl ≠ [] then c.plays ++ [(c.ttsUrl, c.ttsMimeType)]
    else c.plays := by
  unfold cleanup
  by_cases h : c.result.success = true ∧ c.ttsUrl ≠ []
  · rw [if_pos h, if_pos (by simpa using h)]
    exact downloadAndPlayTts_plays
  · rw [if_neg h, if_neg (by simpa using h)]
    rfl

/-! ### One step -/

/-- What the loop over the events takes an arrival for. -/
def takes (c : Child) : Arrival → Option EventKind
  | .frame opcode message => if c.position = .events then some (eventKind opcode message) else none
  | _ => none

/-- The TTS URL after an arrival. -/
def urlAfter (c : Child) (a : Arrival) : Bytes :=
  match a with
  | .frame _ message =>
    if c.takes a = some .ttsEnd then jsonStringAfter message (str "url") else c.ttsUrl
  | _ => c.ttsUrl

/-- What concerns the outcome is the same in both states. -/
structure Same (c d : Child) : Prop where
  output : d.output = c.output
  plays : d.plays = c.plays
  ttsUrl : d.ttsUrl = c.ttsUrl
  success : d.result.success = c.result.success

theorem Same.refl (c : Child) : Same c c := ⟨rfl, rfl, rfl, rfl⟩

theorem Same.moveTo (h : Same c d) (position : Position) : Same c { d with position } :=
  ⟨h.output, h.plays, h.ttsUrl, h.success⟩

theorem Same.send (h : Same c d) (opcode : UInt8) (payload : Bytes) :
    Same c (d.send w opcode payload).1 :=
  ⟨h.output, h.plays, h.ttsUrl, h.success⟩

theorem Same.sendChunks (h : Same c d) (handler : UInt8) (chunks : List Bytes) :
    Same c (sendChunks w handler d chunks).1 := by
  induction chunks generalizing d with
  | nil => exact h
  | cons chunk chunks ih =>
    have hsend : Same c (d.send w 0x2 (handler :: chunk)).1 := h.send _ _
    rw [Child.sendChunks]
    split_ifs
    · exact ih hsend
    · exact hsend

/-- A step goes on, with more progress records, or jumps to `cleanup`. -/
inductive Moves (w : Conditions) (c : Child) (a : Arrival) : Child → Prop where
  | goes {d : Child} (hposition : d.position.isEnded = false) (hplays : d.plays = c.plays)
    (houtput : c.Unfinished → d.Unfinished) (hurl : d.ttsUrl = c.ttsUrl)
    (hsuccess : d.result.success = true ↔ c.result.success = true ∨ c.takes a = some .intentEnd)
    (htts : c.takes a ≠ some .ttsEnd) : Moves w c a d
  | ends {d : Child} (houtput : d.output = c.output) (hplays : d.plays = c.plays)
    (hurl : d.ttsUrl = c.urlAfter a) (hsuccess : d.result.success = c.result.success)
    (hintent : c.takes a ≠ some .intentEnd) : Moves w c a (d.cleanup w)

section

variable {a : Arrival}

theorem takes_of_ne (h : c.position ≠ .events) : c.takes a = none := by
  cases a with
  | frame => exact if_neg h
  | _ => rfl

theorem takes_ne {kind kind' : EventKind} (h : c.takes a = some kind) (hne : kind ≠ kind') :
    c.takes a ≠ some kind' := by
  rw [h]
  exact fun heq => hne (Option.some.inj heq)

theorem urlAfter_of_takes_ne (h : c.takes a ≠ some .ttsEnd) : c.urlAfter a = c.ttsUrl := by
  cases a with
  | frame => exact if_neg h
  | _ => rfl

theorem Same.goes (h : Same c d) (hd : d.position.isEnded = false)
    (hintent : c.takes a ≠ some .intentEnd) (htts : c.takes a ≠ some .ttsEnd) : Moves w c a d := by
  refine .goes hd h.plays ?_ h.ttsUrl (by simp [h.success, hintent]) htts
  intro hc p hp
  exact hc p (h.output ▸ hp)

theorem Same.ends (h : Same c d) (hintent : c.takes a ≠ some .intentEnd)
    (htts : c.takes a ≠ some .ttsEnd) (error : Bytes) : Moves w c a (d.fail w error) :=
  .ends h.output h.plays (h.ttsUrl.trans (urlAfter_of_takes_ne htts).symm) h.success hintent

end

/-! ### One step at each place -/

section

variable {a : Arrival} (hintent : c.takes a ≠ some .intentEnd) (htts : c.takes a ≠ some .ttsEnd)

include hintent htts

theorem moves_streamAudio (h : Same c d) (handler : UInt8) :
    Moves w c a (d.streamAudio w handler) := by
  have hchunks : Same c (sendChunks w handler d (audioChunks w.audio)).1 := h.sendChunks _ _
  unfold streamAudio
  dsimp only
  split_ifs
  · exact hchunks.ends hintent htts _
  · exact (hchunks.send _ _).ends hintent htts _
  · exact ((hchunks.send _ _).moveTo .events).goes rfl hintent htts

theorem moves_onAuthRequired : Moves w c a (c.onAuthRequired w a) := by
  unfold onAuthRequired
  cases a.read with
  | error left => exact (Same.refl c).ends hintent htts _
  | ok message =>
    dsimp only
    split_ifs
    · exact (((Same.refl c).send _ _).moveTo .authOk).goes rfl hintent htts
    · exact ((Same.refl c).send _ _).ends hintent htts _
    · exact (Same.refl c).ends hintent htts _

theorem moves_onAuthOk : Moves w c a (c.onAuthOk w a) := by
  unfold onAuthOk
  cases a.read with
  | error left => exact (Same.refl c).ends hintent htts _
  | ok message =>
    dsimp only
    split_ifs
    · exact (((Same.refl c).send _ _).moveTo .runResult).goes rfl hintent htts
    · exact ((Same.refl c).send _ _).ends hintent htts _
    · exact (Same.refl c).ends hintent htts _

theorem moves_onRunResult : Moves w c a (c.onRunResult w a) := by
  unfold onRunResult
  cases a.read with
  | error left => exact (Same.refl c).ends hintent htts _
  | ok message =>
    dsimp only
    split_ifs
    · exact ((Same.refl c).moveTo .runStart).goes rfl hintent htts
    · exact (Same.refl c).ends hintent htts _

theorem moves_onRunStart (hend : c.position.isEnded = false) : Moves w c a (c.onRunStart w a) := by
  have hstay : Moves w c a c := (Same.refl c).goes hend hintent htts
  have hconversation : ∀ conversationId, Same c { c with
      result := { c.result with conversationId } } := fun _ => ⟨rfl, rfl, rfl, rfl⟩
  cases a with
  | silence => exact hstay
  | failed left => exact (Same.refl c).ends hintent htts _
  | deadline => exact (Same.refl c).ends hintent htts _
  | frame opcode message =>
    unfold onRunStart
    dsimp only
    split_ifs
    · have hpong : Same c (c.pong message) := ⟨rfl, rfl, rfl, rfl⟩
      exact hpong.goes hend hintent htts
    · exact (hconversation _).ends hintent htts _
    · exact moves_streamAudio hintent htts (hconversation _) _
    · exact hstay

end

section

variable {a : Arrival}

/-- The places before the loop over the events. -/
theorem next_moves_of_ne (hend : c.position.isEnded = false) (hne : c.position ≠ .events) :
    Moves w c a (c.next w a) := by
  have hintent : c.takes a ≠ some .intentEnd := by simp [takes_of_ne hne]
  have htts : c.takes a ≠ some .ttsEnd := by simp [takes_of_ne hne]
  have hstay : Moves w c a c := (Same.refl c).goes hend hintent htts
  unfold next
  cases hpos : c.position with
  | ended status =>
    rw [hpos] at hend
    cases hend
  | events => exact absurd hpos hne
  | authRequired =>
    dsimp only
    split_ifs
    · exact hstay
    · exact moves_onAuthRequired hintent htts
  | authOk =>
    dsimp only
    split_ifs
    · exact hstay
    · exact moves_onAuthOk hintent htts
  | runResult =>
    dsimp only
    split_ifs
    · exact hstay
    · exact moves_onRunResult hintent htts
  | runStart => exact moves_onRunStart hintent htts hend

/-- The end of the loop over the events. -/
theorem moves_endLoop (houtput : d.output = c.output) (hplays : d.plays = c.plays)
    (hurl : d.ttsUrl = c.urlAfter a) (hsuccess : d.result.success = c.result.success)
    (hintent : c.takes a ≠ some .intentEnd) : Moves w c a (d.endLoop w) := by
  unfold endLoop
  split_ifs
  · exact .ends houtput hplays hurl hsuccess hintent
  · exact .ends houtput hplays hurl hsuccess hintent

/-- The loop over the events. -/
theorem next_moves_of_events (hpos : c.position = .events) : Moves w c a (c.next w a) := by
  have hend : c.position.isEnded = false := by rw [hpos]; rfl
  have hnext : c.next w a = c.onEvent w a := by rw [next, hpos]
  rw [hnext]
  cases a with
  | silence => exact (Same.refl c).goes hend nofun nofun
  | failed left => exact moves_endLoop rfl rfl rfl rfl nofun
  | deadline => exact moves_endLoop rfl rfl rfl rfl nofun
  | frame opcode message =>
    have htakes : c.takes (.frame opcode message) = some (eventKind opcode message) := if_pos hpos
    rw [onEvent]
    cases hkind : eventKind opcode message with
    | ping =>
      rw [hkind] at htakes
      have hpong : Same c (c.pong message) := ⟨rfl, rfl, rfl, rfl⟩
      exact hpong.goes hend (takes_ne htakes nofun) (takes_ne htakes nofun)
    | ttsStart =>
      rw [hkind] at htakes
      have hstart : Same c (c.ttsStart message) := ⟨rfl, rfl, rfl, rfl⟩
      exact hstart.goes hend (takes_ne htakes nofun) (takes_ne htakes nofun)
    | other =>
      rw [hkind] at htakes
      exact (Same.refl c).goes hend (takes_ne htakes nofun) (takes_ne htakes nofun)
    | close | error =>
      rw [hkind] at htakes
      exact moves_endLoop rfl rfl (urlAfter_of_takes_ne (takes_ne htakes nofun)).symm rfl
        (takes_ne htakes nofun)
    | sttEnd =>
      rw [hkind] at htakes
      have houtput : c.Unfinished → (c.sttEnd message).Unfinished := by
        intro hc
        unfold sttEnd
        refine Unfinished.report ?_ _
        exact hc
      have hsuccess : (c.sttEnd message).result.success = c.result.success := rfl
      have hintent := takes_ne htakes (show EventKind.sttEnd ≠ .intentEnd by decide)
      exact .goes hend rfl houtput rfl (by simp [hsuccess, hintent]) (takes_ne htakes nofun)
    | intentEnd =>
      rw [hkind] at htakes
      exact .goes hend rfl id rfl (iff_of_true rfl (.inr htakes)) (takes_ne htakes nofun)
    | ttsEnd =>
      rw [hkind] at htakes
      have hurl : c.urlAfter (.frame opcode message) = jsonStringAfter message (str "url") :=
        if_pos htakes
      exact moves_endLoop rfl rfl hurl.symm rfl (takes_ne htakes nofun)

/-- **What a step of a process that is not over does.** -/
theorem next_moves (hend : c.position.isEnded = false) : Moves w c a (c.next w a) := by
  by_cases hpos : c.position = .events
  · exact next_moves_of_events hpos
  · exact next_moves_of_ne hend hpos

end

/-! ### Whole runs -/

theorem endLoop_isEnded : (c.endLoop w).position.isEnded = true := by
  unfold endLoop
  split_ifs
  · rfl
  · rfl

theorem Done.isEnded (h : c.Done) : c.position.isEnded = true := by
  obtain ⟨status, hpos, -⟩ := h.status
  rw [hpos]
  rfl

theorem next_of_isEnded (h : c.position.isEnded = true) (a : Arrival) : c.next w a = c := by
  unfold next
  cases hpos : c.position with
  | ended status => rfl
  | _ =>
    rw [hpos] at h
    cases h

theorem takes_of_isEnded (h : c.position.isEnded = true) {a : Arrival} : c.takes a = none := by
  refine takes_of_ne fun hpos => ?_
  rw [hpos] at h
  cases h

theorem run_of_isEnded (h : c.position.isEnded = true) (l : List Arrival) :
    run (next w) c l = c := by
  induction l with
  | nil => rfl
  | cons a l ih => rw [run_cons, next_of_isEnded h, ih]

/-- The process is not over and has neither played anything nor got a TTS URL, or it is over. -/
inductive Sound (c : Child) : Prop where
  | ongoing (hposition : c.position.isEnded = false) (houtput : c.Unfinished)
    (hurl : c.ttsUrl = []) (hplays : c.plays = [])
  | finished (hdone : c.Done) (hplays : c.plays.length ≤ 1)

theorem Unfinished.sound_cleanup (h : c.Unfinished) (hplays : c.plays = []) :
    (c.cleanup w).Sound := by
  refine .finished h.cleanup ?_
  rw [cleanup_plays, hplays]
  split_ifs
  · exact Nat.le_refl 1
  · exact Nat.zero_le 1

theorem Sound.next (h : c.Sound) (a : Arrival) : (c.next w a).Sound := by
  cases h with
  | finished hdone hplays =>
    rw [next_of_isEnded hdone.isEnded]
    exact .finished hdone hplays
  | ongoing hposition houtput hurl hplays =>
    have hmoves : Moves w c a (c.next w a) := next_moves hposition
    generalize c.next w a = c' at hmoves
    cases hmoves with
    | goes hposition' hplays' houtput' hurl' =>
      exact .ongoing hposition' (houtput' houtput) (hurl'.trans hurl) (hplays'.trans hplays)
    | @ends d houtput' hplays' =>
      -- nothing was played before, so `cleanup` plays at most once
      have hd : d.Unfinished := fun p hp => houtput p (houtput' ▸ hp)
      exact hd.sound_cleanup (hplays'.trans hplays)

/-- A process that is over takes nothing; any other moves, and has played nothing so far. -/
theorem Sound.stays_or_moves (h : c.Sound) (a : Arrival) :
    (c.next w a = c ∧ c.takes a = none) ∨
      (c.ttsUrl = [] ∧ c.plays = [] ∧ Moves w c a (c.next w a)) := by
  cases h with
  | finished hdone hplays =>
    exact .inl ⟨next_of_isEnded hdone.isEnded a, takes_of_isEnded hdone.isEnded⟩
  | ongoing hposition houtput hurl hplays => exact .inr ⟨hurl, hplays, next_moves hposition⟩

/-- Only an `intent-end` makes a run successful. -/
theorem Sound.next_success_iff (h : c.Sound) (a : Arrival) :
    (c.next w a).result.success = true ↔
      c.result.success = true ∨ c.takes a = some .intentEnd := by
  rcases h.stays_or_moves (w := w) a with ⟨hnext, htakes⟩ | ⟨-, -, hmoves⟩
  · simp [hnext, htakes]
  · generalize c.next w a = c' at hmoves
    cases hmoves with
    | goes _ _ _ _ hsuccess => exact hsuccess
    | ends _ _ _ hsuccess hintent => simp [hsuccess, hintent]

/-- Only a `tts-end` with a URL, in a successful run, is played. -/
theorem Sound.next_plays_iff (h : c.Sound) (a : Arrival) :
    (c.next w a).plays ≠ [] ↔ c.plays ≠ [] ∨
      (c.result.success = true ∧ c.takes a = some .ttsEnd ∧ c.urlAfter a ≠ []) := by
  rcases h.stays_or_moves (w := w) a with ⟨hnext, htakes⟩ | ⟨hurl, hplays, hmoves⟩
  · simp [hnext, htakes]
  · generalize c.next w a = c' at hmoves
    cases hmoves with
    | goes _ hplays' _ _ _ htts => simp [hplays', hplays, htts]
    | @ends d _ hplays' hurl' hsuccess =>
      rw [cleanup_plays, hplays', hplays, hsuccess, hurl']
      by_cases htts : c.takes a = some .ttsEnd
      · by_cases hok : c.result.success = true ∧ c.urlAfter a ≠ []
        · simp [hok, htts]
        · simp [hok, htts]
      · simp [urlAfter_of_takes_ne htts, hurl]

/-- A `tts-end` ends the run and leaves its success as it is. -/
theorem next_of_ttsEnd (hpos : c.position = .events) {a : Arrival}
    (htts : c.takes a = some .ttsEnd) : (c.next w a).position.isEnded = true ∧
      (c.next w a).result.success = c.result.success := by
  have hmoves : Moves w c a (c.next w a) := next_moves_of_events hpos
  generalize c.next w a = c' at hmoves
  cases hmoves with
  | goes _ _ _ _ _ hne => exact absurd htts hne
  | ends _ _ _ hsuccess => exact ⟨rfl, by rw [cleanup_success, hsuccess]⟩

theorem next_deadline_isEnded : (c.next w .deadline).position.isEnded = true := by
  unfold next
  cases hpos : c.position with
  | ended status =>
    rw [hpos]
    rfl
  | events => exact endLoop_isEnded
  | _ => rfl

end Child

/-- How the process starts: it is refused, fails while it connects, or waits for the first frame. -/
inductive Starts (w : Conditions) : Child → Prop where
  | refused (error : Bytes) : Starts w (refuse error)
  | failed (error : Bytes) : Starts w (Child.fail w {} error)
  | ready : Starts w {}

theorem starts_start (w : Conditions) : Starts w (start w) := by
  unfold start
  refine iteInduction (fun _ => .refused _) fun _ => ?_
  cases parseHaUrl w.haUrl with
  | none => exact .refused _
  | some parsed =>
    dsimp only
    refine iteInduction (fun _ => .failed _) fun _ => ?_
    refine iteInduction (fun _ => .failed _) fun _ => ?_
    refine iteInduction (fun _ => .failed _) fun _ => ?_
    refine iteInduction (fun _ => .failed _) fun _ => ?_
    refine iteInduction (fun _ => .failed _) fun _ => ?_
    refine iteInduction (fun _ => .failed _) fun _ => ?_
    refine iteInduction (fun _ => .failed _) fun _ => ?_
    exact .ready

theorem sound_start (w : Conditions) :
    (start w).Sound ∧ (start w).result.success = false ∧ (start w).plays = [] := by
  have hempty : Child.Unfinished {} := fun p hp => absurd hp List.not_mem_nil
  have hstarts := starts_start w
  generalize start w = c at hstarts
  cases hstarts with
  | refused error =>
    have hdone : (refuse error).Done := by
      refine ⟨⟨[], rfl, fun p hp => absurd hp List.not_mem_nil⟩, 2, rfl, ?_⟩
      simp [refuse]
    exact ⟨.finished hdone (Nat.zero_le 1), rfl, rfl⟩
  | failed error =>
    have hset : (Child.setError {} error).Unfinished := hempty
    exact ⟨hset.sound_cleanup rfl, rfl, rfl⟩
  | ready => exact ⟨.ongoing rfl hempty rfl rfl, rfl, rfl⟩

section

variable (w : Conditions) (arrivals : List Arrival)

theorem sound_after : (after w arrivals).Sound :=
  run_invariant (fun _ a h => h.next a) (sound_start w).1 arrivals

/-- An `intent-end` was processed. -/
theorem after_success_iff : (after w arrivals).result.success = true ↔
    ∃ before a rest, arrivals = before ++ a :: rest ∧
      (after w before).takes a = some .intentEnd := by
  -- the process starts without success, so some step brought it about
  have hkeep : ∀ (c : Child) a, c.Sound → (c.next w a).Sound := fun _ a h => h.next a
  have h := run_iff_exists_step (Q := fun c => c.result.success = true) hkeep
    (fun _ a h => h.next_success_iff a) (sound_start w).1 arrivals
  rw [(sound_start w).2.1] at h
  simpa [after] using h

theorem after_plays_iff : (after w arrivals).plays ≠ [] ↔
    ∃ before a rest, arrivals = before ++ a :: rest ∧ (after w before).result.success = true ∧
      (after w before).takes a = some .ttsEnd ∧ (after w before).urlAfter a ≠ [] := by
  have hkeep : ∀ (c : Child) a, c.Sound → (c.next w a).Sound := fun _ a h => h.next a
  have h := run_iff_exists_step (Q := fun c => c.plays ≠ []) hkeep
    (fun _ a h => h.next_plays_iff a) (sound_start w).1 arrivals
  simpa [after, (sound_start w).2.2] using h

/-- A run stays successful. -/
theorem success_after_append (before rest : List Arrival)
    (h : (after w before).result.success = true) :
    (after w (before ++ rest)).result.success = true := by
  obtain ⟨earlier, a, later, rfl, htakes⟩ := (after_success_iff w before).mp h
  exact (after_success_iff w _).mpr ⟨earlier, a, later ++ rest, by simp, htakes⟩

end

/-- An arrival that ends the loop over the events. -/
def Arrival.terminates : Arrival → Bool
  | frame opcode message =>
    match eventKind opcode message with
    | .close | .error | .ttsEnd => true
    | _ => false
  | failed _ | deadline => true
  | silence => false

/-- The loop over the events goes on until an arrival that ends it. -/
theorem next_position_of_events {w : Conditions} {c : Child} (hpos : c.position = .events)
    (a : Arrival) : (c.next w a).position = .events ↔ a.terminates = false := by
  have hnext : c.next w a = c.onEvent w a := by rw [Child.next, hpos]
  have hloop : ∀ {d : Child}, (d.endLoop w).position = .events ↔ true = false := by
    intro d
    have hend := Child.endLoop_isEnded (w := w) (c := d)
    refine iff_of_false (fun h => ?_) Bool.noConfusion
    rw [h] at hend
    cases hend
  rw [hnext]
  cases a with
  | silence => exact iff_of_true hpos rfl
  | failed left => exact hloop
  | deadline => exact hloop
  | frame opcode message =>
    rw [Child.onEvent, Arrival.terminates]
    cases eventKind opcode message with
    | ping | sttEnd | intentEnd | ttsStart | other => exact iff_of_true hpos rfl
    | close | error | ttsEnd => exact hloop

/-- A frame that is taken for an event of some kind arrives in the loop over the events. -/
theorem takes_eq_some_iff {c : Child} {a : Arrival} {kind : EventKind} :
    c.takes a = some kind ↔
      c.position = .events ∧ ∃ opcode message, a = .frame opcode message ∧
        eventKind opcode message = kind := by
  cases a with
  | frame opcode message =>
    unfold Child.takes
    split_ifs with hpos <;> simp [hpos]
  | _ => simp [Child.takes]

/-- The lines of a process that is over: one of them is a final record, the last one. -/
theorem Child.Done.final_lines {c : Child} (h : c.Done) :
    ((stream c.output).splitOn 10).dropLast.filter (contains (str "\"final\":true")) =
      [recordLine c.result true] := by
  obtain ⟨earlier, houtput, hearlier⟩ := h.output
  have hnone : earlier.filter (fun p => contains (str "\"final\":true") (recordLine p.1 p.2)) =
      [] := by
    rw [List.filter_eq_nil_iff]
    intro p hp
    rw [contains_final, hearlier p hp]
    decide
  have hlast : contains (str "\"final\":true") (recordLine c.result true) = true :=
    contains_final c.result true
  rw [splitOn_stream, houtput, List.filter_map, List.filter_append]
  simp only [Function.comp_def, hnone, List.nil_append]
  rw [List.filter_singleton, hlast]
  rfl

/-! ### The outcome -/

section

variable (w : Conditions) (arrivals : List Arrival)

theorem childMain_done : (childMain w arrivals).Done ∧ (childMain w arrivals).plays.length ≤ 1 := by
  have hend : (childMain w arrivals).position.isEnded = true := Child.next_deadline_isEnded
  have hsound : (childMain w arrivals).Sound := (sound_after w arrivals).next .deadline
  cases hsound with
  | finished hdone hplays => exact ⟨hdone, hplays⟩
  | ongoing hposition =>
    rw [hend] at hposition
    cases hposition

/-- When time is up, the process ends as successful as it is, and plays nothing any more. -/
theorem childMain_eq_after : ((childMain w arrivals).result.success = true ↔
      (after w arrivals).result.success = true) ∧
    ((childMain w arrivals).plays ≠ [] ↔ (after w arrivals).plays ≠ []) := by
  have hsound := sound_after w arrivals
  have htakes : (after w arrivals).takes .deadline = none := rfl
  constructor
  · rw [childMain, hsound.next_success_iff, htakes]
    simp
  · rw [childMain, hsound.next_plays_iff, htakes]
    simp

theorem childMain_success_iff : (childMain w arrivals).result.success = true ↔
    ∃ before opcode message rest, arrivals = before ++ .frame opcode message :: rest ∧
      (after w before).position = .events ∧ eventKind opcode message = .intentEnd := by
  rw [(childMain_eq_after w arrivals).1, after_success_iff]
  simp only [takes_eq_some_iff]
  constructor
  · rintro ⟨before, a, rest, harrivals, hpos, opcode, message, rfl, hkind⟩
    exact ⟨before, opcode, message, rest, harrivals, hpos, hkind⟩
  · rintro ⟨before, opcode, message, rest, harrivals, hpos, hkind⟩
    exact ⟨before, _, rest, harrivals, hpos, opcode, message, rfl, hkind⟩

theorem childMain_plays_iff : (childMain w arrivals).plays ≠ [] ↔
    (childMain w arrivals).result.success = true ∧
      ∃ before opcode message rest, arrivals = before ++ .frame opcode message :: rest ∧
        (after w before).position = .events ∧ eventKind opcode message = .ttsEnd ∧
        jsonStringAfter message (str "url") ≠ [] := by
  rw [(childMain_eq_after w arrivals).2, (childMain_eq_after w arrivals).1, after_plays_iff]
  constructor
  · rintro ⟨before, a, rest, harrivals, hsuccess, htakes, hurl⟩
    obtain ⟨hpos, opcode, message, rfl, hkind⟩ := takes_eq_some_iff.mp htakes
    refine ⟨?_, before, opcode, message, rest, harrivals, hpos, hkind, ?_⟩
    · rw [harrivals]
      exact success_after_append w before _ hsuccess
    · rwa [Child.urlAfter, if_pos htakes] at hurl
  · rintro ⟨hsuccess, before, opcode, message, rest, harrivals, hpos, hkind, hurl⟩
    have htakes := takes_eq_some_iff.mpr ⟨hpos, opcode, message, rfl, hkind⟩
    refine ⟨before, _, rest, harrivals, ?_, htakes, ?_⟩
    · -- the `tts-end` was the last arrival that mattered
      obtain ⟨hend, hsame⟩ := Child.next_of_ttsEnd (w := w) hpos htakes
      rw [harrivals, after_append, run_cons, Child.run_of_isEnded hend] at hsuccess
      exact hsame.symm.trans hsuccess
    · rwa [Child.urlAfter, if_pos htakes]

end

/-- **The outcome of a pipeline run.**  Whatever arrives and whatever else fails: the process writes
one final record, as its last line; it is successful if and only if an `intent-end` was processed
in the loop over the events, which goes on until an arrival that ends it; its status is 0 if and
only if it is successful; audio is played if and only if it is successful and a `tts-end` gave a
URL; and a run stays successful.  The panel's result is successful or has an error, whatever it
reads. -/
theorem assist_run_outcome :
    (∀ (w : Conditions) (arrivals : List Arrival),
      (∃ earlier, (childMain w arrivals).output = earlier ++ [((childMain w arrivals).result, true)] ∧
        ∀ p ∈ earlier, p.2 = false) ∧
      ((stream (childMain w arrivals).output).splitOn 10).dropLast.filter
        (contains (str "\"final\":true")) = [recordLine (childMain w arrivals).result true] ∧
      ((childMain w arrivals).result.success = true ↔
        ∃ before opcode message rest, arrivals = before ++ .frame opcode message :: rest ∧
          (after w before).position = .events ∧ eventKind opcode message = .intentEnd) ∧
      (∀ before a, (after w before).position = .events →
        ((after w (before ++ [a])).position = .events ↔ a.terminates = false)) ∧
      (∃ status, (childMain w arrivals).position = .ended status ∧
        (status = 0 ↔ (childMain w arrivals).result.success = true)) ∧
      ((childMain w arrivals).plays ≠ [] ↔ (childMain w arrivals).result.success = true ∧
        ∃ before opcode message rest, arrivals = before ++ .frame opcode message :: rest ∧
          (after w before).position = .events ∧ eventKind opcode message = .ttsEnd ∧
          jsonStringAfter message (str "url") ≠ []) ∧
      (childMain w arrivals).plays.length ≤ 1 ∧
      (∀ before rest, arrivals = before ++ rest → (after w before).result.success = true →
        (childMain w arrivals).result.success = true)) ∧
    ∀ l : Launch, (runAssistPipelineProcess l).success = true ∨
      (runAssistPipelineProcess l).error ≠ [] := by
  refine ⟨fun w arrivals => ?_, runAssistPipelineProcess_explained⟩
  obtain ⟨hdone, hplays⟩ := childMain_done w arrivals
  refine ⟨hdone.output, hdone.final_lines, childMain_success_iff w arrivals, ?_, hdone.status,
    childMain_plays_iff w arrivals, hplays, ?_⟩
  · intro before a hpos
    rw [after_concat]
    exact next_position_of_events hpos a
  · rintro before rest rfl h
    exact (childMain_eq_after w _).1.mpr (success_after_append w before rest h)

theorem lamp_run_outcome :
    (childMain allWorks lampRun).result.success = true ∧
      (childMain allWorks lampRun).plays ≠ [] := by
  obtain ⟨-, -, hsuccess, hloop, -, hplays, -⟩ := assist_run_outcome.1 allWorks lampRun
  have hgoes : (Arrival.frame 1 lampIntent).terminates = false := by
    rw [Arrival.terminates, lampRun_kinds.1]
  have hnext : (after allWorks (lampRun.take 6)).position = .events :=
    (hloop (lampRun.take 5) (.frame 1 lampIntent) lampRun_events).mpr hgoes
  have hok : (childMain allWorks lampRun).result.success = true :=
    hsuccess.mpr ⟨lampRun.take 5, 1, _, lampRun.drop 6, rfl, lampRun_events, lampRun_kinds.1⟩
  exact ⟨hok, hplays.mpr ⟨hok, lampRun.take 6, 1, _, lampRun.drop 7, rfl, hnext,
    lampRun_kinds.2⟩⟩

end Assist

end HaPanel
