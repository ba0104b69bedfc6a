import HaPanel.Assist.Outcome

/-!
# Pings during a pipeline run

The loops of `assist_pipeline_child_main` answer a ping and go on, so a ping they read changes
nothing but the pongs.  The three reads before them take whatever arrives for the message they
wait for.  A `Mark` is a frame of a sequence or a ping that was inserted into it, and
`pings_unaffected_iff` says which insertions leave the run as it is: those behind the third frame,
the answer to the run command.
-/

namespace HaPanel

namespace Assist

open Text Transition

/-! ### Inserted pings -/

/-- A frame of the server, or a ping that was inserted. -/
inductive Mark where
  | own (opcode : UInt8) (payload : Bytes)
  | ping (payload : Bytes)
deriving DecidableEq

def Mark.arrival : Mark → Arrival
  | own opcode payload => .frame opcode payload
  | ping payload => .frame 0x9 payload

def Mark.own? : Mark → Option Arrival
  | own opcode payload => some (.frame opcode payload)
  | ping _ => none

def Mark.isPing : Mark → Bool
  | own .. => false
  | ping _ => true

/-- What arrives with the inserted pings. -/
def received (ms : List Mark) : List Arrival := ms.map Mark.arrival

/-- What arrives without them. -/
def originals (ms : List Mark) : List Arrival := ms.filterMap Mark.own?

/-- The process ends with the last of the arrivals. -/
def Completes (w : Conditions) (l : List Arrival) : Prop :=
  ∃ init last, l = init ++ [last] ∧ (after w init).position.isEnded = false ∧
    (after w l).position.isEnded = true

/-- Every inserted ping stands between two frames. -/
def Between (ms : List Mark) : Prop :=
  ∀ before payload rest, ms = before ++ .ping payload :: rest →
    originals before ≠ [] ∧ originals rest ≠ []

/-- The pings do not change the run: the process sends the same commands and audio and has the same
outcome, and it answers every inserted ping at once. -/
structure Unaffected (w : Conditions) (ms : List Mark) : Prop where
  sent : (childMain w (received ms)).sent = (childMain w (originals ms)).sent
  success : (childMain w (received ms)).result.success =
    (childMain w (originals ms)).result.success
  transcript : (childMain w (received ms)).result.transcript =
    (childMain w (originals ms)).result.transcript
  response : (childMain w (received ms)).result.response =
    (childMain w (originals ms)).result.response
  error : (childMain w (received ms)).result.error = (childMain w (originals ms)).result.error
  ttsUrl : (childMain w (received ms)).ttsUrl = (childMain w (originals ms)).ttsUrl
  answered : ∀ before payload rest, ms = before ++ .ping payload :: rest →
    (after w (received (before ++ [.ping payload]))).pongs =
      (after w (received before)).pongs ++ [payload]

/-! ### The number of frames and the place -/

/-- How many frames have been read, up to the loops. -/
def Position.rank : Position → ℕ
  | authRequired => 0
  | authOk => 1
  | runResult => 2
  | runStart | events | ended _ => 3

namespace Child

variable {w : Conditions} {c : Child}

theorem streamAudio_rank (handler : UInt8) :
    (c.streamAudio w handler).position.isEnded = true ∨
      (c.streamAudio w handler).position.rank = 3 := by
  unfold streamAudio
  dsimp only
  split_ifs
  · exact .inl rfl
  · exact .inl rfl
  · exact .inr rfl

/-- The handler of a place, before the loops. -/
theorem next_frame_of_rank_lt (opcode : UInt8) (payload : Bytes) :
    (c.position = .authRequired →
      c.next w (.frame opcode payload) = c.onAuthRequired w (.frame opcode payload)) ∧
    (c.position = .authOk →
      c.next w (.frame opcode payload) = c.onAuthOk w (.frame opcode payload)) ∧
    (c.position = .runResult →
      c.next w (.frame opcode payload) = c.onRunResult w (.frame opcode payload)) := by
  refine ⟨fun hpos => ?_, fun hpos => ?_, fun hpos => ?_⟩ <;> simp [next, hpos]

/-- A frame is one step further, or the end. -/
theorem next_frame_rank (hend : c.position.isEnded = false) (opcode : UInt8) (payload : Bytes) :
    (c.next w (.frame opcode payload)).position.isEnded = true ∨
      (c.next w (.frame opcode payload)).position.rank = min (c.position.rank + 1) 3 := by
  obtain ⟨hrequired, hok, hresult⟩ := next_frame_of_rank_lt (w := w) (c := c) opcode payload
  cases hpos : c.position with
  | ended status =>
    rw [hpos] at hend
    cases hend
  | authRequired =>
    rw [hrequired hpos, onAuthRequired]
    simp only [Arrival.read]
    split_ifs
    · exact .inr rfl
    · exact .inl rfl
    · exact .inl rfl
  | authOk =>
    rw [hok hpos, onAuthOk]
    simp only [Arrival.read]
    split_ifs
    · exact .inr rfl
    · exact .inl rfl
    · exact .inl rfl
  | runResult =>
    rw [hresult hpos, onRunResult]
    simp only [Arrival.read]
    split_ifs
    · exact .inr rfl
    · exact .inl rfl
  | runStart =>
    have hrank : c.position.rank = 3 := by rw [hpos]; rfl
    rw [next, hpos]
    dsimp only [onRunStart]
    split_ifs
    · exact .inr hrank
    · exact .inl rfl
    · exact streamAudio_rank _
    · exact .inr hrank
  | events =>
    have hrank : c.position.rank = 3 := by rw [hpos]; rfl
    rw [next, hpos]
    dsimp only [onEvent]
    cases eventKind opcode payload with
    | ping | sttEnd | intentEnd | ttsStart | other => exact .inr hrank
    | close | error | ttsEnd => exact .inl endLoop_isEnded

@[simp] theorem cleanup_pongs : (c.cleanup w).pongs = c.pongs := by
  have hplay : (c.downloadAndPlayTts w).pongs = c.pongs := by
    unfold downloadAndPlayTts
    dsimp only
    split_ifs <;> rfl
  unfold cleanup
  split_ifs
  · exact hplay
  · rfl

/-- Before the loops a frame is not answered by a pong. -/
theorem next_pongs_of_rank_lt (h : c.position.rank < 3) (opcode : UInt8) (payload : Bytes) :
    (c.next w (.frame opcode payload)).pongs = c.pongs := by
  obtain ⟨hrequired, hok, hresult⟩ := next_frame_of_rank_lt (w := w) (c := c) opcode payload
  cases hpos : c.position with
  | ended | runStart | events =>
    rw [hpos] at h
    exact absurd h (Nat.lt_irrefl 3)
  | authRequired =>
    rw [hrequired hpos, onAuthRequired]
    simp only [Arrival.read]
    split_ifs
    · rfl
    · exact cleanup_pongs
    · exact cleanup_pongs
  | authOk =>
    rw [hok hpos, onAuthOk]
    simp only [Arrival.read]
    split_ifs
    · rfl
    · exact cleanup_pongs
    · exact cleanup_pongs
  | runResult =>
    rw [hresult hpos, onRunResult]
    simp only [Arrival.read]
    split_ifs
    · rfl
    · exact cleanup_pongs

/-- The loops answer a ping, and do nothing else. -/
theorem next_ping (hend : c.position.isEnded = false) (h : c.position.rank = 3)
    (payload : Bytes) : c.next w (.frame 0x9 payload) = c.pong payload := by
  cases hpos : c.position with
  | ended status =>
    rw [hpos] at hend
    cases hend
  | authRequired | authOk | runResult =>
    rw [hpos] at h
    cases h
  | runStart =>
    rw [next, hpos]
    rfl
  | events =>
    rw [next, hpos]
    rfl

/-! ### The pongs do not matter -/

/-- The process with other pongs. -/
def withPongs (c : Child) (pongs : List Bytes) : Child := { c with pongs }

section

variable (q : List Bytes)

theorem downloadAndPlayTts_withPongs :
    (c.withPongs q).downloadAndPlayTts w = (c.downloadAndPlayTts w).withPongs q := by
  unfold downloadAndPlayTts withPongs
  dsimp only
  split_ifs <;> rfl

theorem cleanup_withPongs : (c.withPongs q).cleanup w = (c.cleanup w).withPongs q := by
  have hcond : ((c.withPongs q).result.success && !(c.withPongs q).ttsUrl.isEmpty) =
      (c.result.success && !c.ttsUrl.isEmpty) := rfl
  rw [cleanup, cleanup, hcond]
  split_ifs
  · rw [downloadAndPlayTts_withPongs]
    rfl
  · rfl

theorem fail_withPongs (error : Bytes) :
    (c.withPongs q).fail w error = (c.fail w error).withPongs q :=
  cleanup_withPongs (c := c.setError error) q

theorem endLoop_withPongs : (c.withPongs q).endLoop w = (c.endLoop w).withPongs q := by
  have hcond : ((c.withPongs q).ttsUrl.isEmpty && (c.withPongs q).result.error.isEmpty) =
      (c.ttsUrl.isEmpty && c.result.error.isEmpty) := rfl
  rw [endLoop, endLoop, hcond]
  split_ifs
  · exact fail_withPongs q _
  · exact cleanup_withPongs q

theorem send_withPongs (opcode : UInt8) (payload : Bytes) :
    (c.withPongs q).send w opcode payload =
      ((c.send w opcode payload).1.withPongs q, (c.send w opcode payload).2) := rfl

theorem sendChunks_withPongs (handler : UInt8) (chunks : List Bytes) :
    sendChunks w handler (c.withPongs q) chunks =
      ((sendChunks w handler c chunks).1.withPongs q, (sendChunks w handler c chunks).2) := by
  induction chunks generalizing c with
  | nil => rfl
  | cons chunk chunks ih =>
    rw [sendChunks, sendChunks, send_withPongs]
    by_cases hok : (c.send w 0x2 (handler :: chunk)).2 = true
    · rw [if_pos hok, if_pos hok, ih]
    · rw [if_neg hok, if_neg hok]

theorem streamAudio_withPongs (handler : UInt8) :
    (c.withPongs q).streamAudio w handler = (c.streamAudio w handler).withPongs q := by
  unfold streamAudio
  rw [sendChunks_withPongs]
  generalize sendChunks w handler c (audioChunks w.audio) = chunks
  dsimp only
  rw [send_withPongs]
  split_ifs
  · exact fail_withPongs q _
  · exact fail_withPongs q _
  · rfl

theorem onAuthRequired_withPongs (a : Arrival) :
    (c.withPongs q).onAuthRequired w a = (c.onAuthRequired w a).withPongs q := by
  unfold onAuthRequired
  cases a.read with
  | error left => exact fail_withPongs q _
  | ok message =>
    dsimp only
    rw [send_withPongs]
    split_ifs
    · rfl
    · exact fail_withPongs q _
    · exact fail_withPongs q _

theorem onAuthOk_withPongs (a : Arrival) :
    (c.withPongs q).onAuthOk w a = (c.onAuthOk w a).withPongs q := by
  unfold onAuthOk
  cases a.read with
  | error left => exact fail_withPongs q _
  | ok message =>
    dsimp only
    rw [send_withPongs]
    split_ifs
    · rfl
    · exact fail_withPongs q _
    · exact fail_withPongs q _

theorem onRunResult_withPongs (a : Arrival) :
    (c.withPongs q).onRunResult w a = (c.onRunResult w a).withPongs q := by
  unfold onRunResult
  cases a.read with
  | error left => exact fail_withPongs q _
  | ok message =>
    dsimp only
    split_ifs
    · rfl
    · exact fail_withPongs q _

/-- The loop that waits for `run-start`; a ping adds a pong to those there are. -/
theorem onRunStart_withPongs (a : Arrival) :
    ∃ q', (c.withPongs q).onRunStart w a = (c.onRunStart w a).withPongs q' := by
  cases a with
  | silence => exact ⟨q, rfl⟩
  | failed left => exact ⟨q, fail_withPongs q _⟩
  | deadline => exact ⟨q, fail_withPongs q _⟩
  | frame opcode message =>
    rw [onRunStart, onRunStart]
    dsimp only
    split_ifs
    · exact ⟨q ++ [message], rfl⟩
    · exact ⟨q, fail_withPongs (c := { c with result := _ }) q _⟩
    · exact ⟨q, streamAudio_withPongs (c := { c with result := _ }) q _⟩
    · exact ⟨q, rfl⟩

/-- The loop over the events. -/
theorem onEvent_withPongs (a : Arrival) :
    ∃ q', (c.withPongs q).onEvent w a = (c.onEvent w a).withPongs q' := by
  have hloop : ∀ d : Child, ∃ q', (d.withPongs q).endLoop w = (d.endLoop w).withPongs q' :=
    fun d => ⟨q, endLoop_withPongs q⟩
  cases a with
  | silence => exact ⟨q, rfl⟩
  | failed left => exact hloop (c.setError _)
  | deadline => exact hloop c
  | frame opcode message =>
    rw [onEvent, onEvent]
    cases eventKind opcode message with
    | ping => exact ⟨q ++ [message], rfl⟩
    | close | error => exact hloop (c.setError _)
    | ttsEnd => exact hloop (c.ttsEnd message)
    | sttEnd | intentEnd | ttsStart | other => exact ⟨q, rfl⟩

/-- **A step with other pongs is the same step**, up to the pongs. -/
theorem next_withPongs (a : Arrival) :
    ∃ q', (c.withPongs q).next w a = (c.next w a).withPongs q' := by
  have hposition : (c.withPongs q).position = c.position := rfl
  rw [next, next, hposition]
  cases c.position with
  | ended status => exact ⟨q, rfl⟩
  | authRequired =>
    refine ⟨q, ?_⟩
    dsimp only
    split_ifs
    · rfl
    · exact onAuthRequired_withPongs q a
  | authOk =>
    refine ⟨q, ?_⟩
    dsimp only
    split_ifs
    · rfl
    · exact onAuthOk_withPongs q a
  | runResult =>
    refine ⟨q, ?_⟩
    dsimp only
    split_ifs
    · rfl
    · exact onRunResult_withPongs q a
  | runStart => exact onRunStart_withPongs q a
  | events => exact onEvent_withPongs q a

end

end Child

/-! ### Whole runs -/

section

variable {w : Conditions}

theorem received_append (l m : List Mark) : received (l ++ m) = received l ++ received m :=
  List.map_append

theorem originals_append (l m : List Mark) : originals (l ++ m) = originals l ++ originals m :=
  List.filterMap_append

/-- An inserted ping is the next frame to arrive. -/
theorem after_received_ping (before : List Mark) (payload : Bytes) :
    after w (received (before ++ [.ping payload])) =
      (after w (received before)).next w (.frame 0x9 payload) := by
  rw [received_append]
  exact after_concat w (received before) (.frame 0x9 payload)

theorem frame_of_mem_originals {ms : List Mark} {a : Arrival} (h : a ∈ originals ms) :
    ∃ opcode payload, a = .frame opcode payload := by
  obtain ⟨m, -, hm⟩ := List.mem_filterMap.mp h
  cases m with
  | own opcode payload => exact ⟨opcode, payload, (Option.some.inj hm).symm⟩
  | ping payload => cases hm

/-- The place the process has got to is told by the number of frames. -/
theorem rank_after {l : List Arrival} (hl : ∀ a ∈ l, ∃ opcode payload, a = .frame opcode payload) :
    (after w l).position.isEnded = true ∨ (after w l).position.rank = min l.length 3 := by
  induction l using List.reverseRecOn with
  | nil =>
    have hstarts : Starts w (after w []) := starts_start w
    generalize after w [] = c at hstarts
    cases hstarts with
    | refused error => exact .inl rfl
    | failed error => exact .inl rfl
    | ready => exact .inr rfl
  | append_singleton l a ih =>
    obtain ⟨opcode, payload, rfl⟩ := hl a (by simp)
    rw [after_concat]
    by_cases hend : (after w l).position.isEnded = true
    · rw [Child.next_of_isEnded hend]
      exact .inl hend
    · have hrank := (ih fun b hb => hl b (List.mem_append_left _ hb)).resolve_left hend
      refine (Child.next_frame_rank (Bool.eq_false_iff.mpr hend) opcode payload).imp_right ?_
      rintro h
      rw [h, hrank, List.length_append, List.length_singleton]
      omega

/-- A run that is complete was not over before. -/
theorem Completes.not_ended {l m : List Arrival} (h : Completes w (l ++ m)) (hm : m ≠ []) :
    (after w l).position.isEnded = false := by
  obtain ⟨init, last, heq, hinit, -⟩ := h
  rw [← List.dropLast_concat_getLast hm, ← List.append_assoc, List.append_singleton_inj] at heq
  -- an ended process would still be ended just before the last arrival
  by_contra hend
  rw [Bool.not_eq_false] at hend
  rw [← heq.1, after_append, Child.run_of_isEnded hend, hend] at hinit
  cases hinit

/-- Inserted pings behind the third frame and before the last are read by the loops. -/
theorem after_ping {ms before rest : List Mark} {payload : Bytes}
    (hcompletes : Completes w (originals ms)) (hms : ms = before ++ .ping payload :: rest)
    (hrest : originals rest ≠ []) (hthird : 3 ≤ (originals before).length) {q : List Bytes}
    (hbefore : after w (received before) = (after w (originals before)).withPongs q) :
    after w (received (before ++ [.ping payload])) =
      (after w (received before)).pong payload := by
  have hsplit : originals ms = originals before ++ originals rest := by
    rw [hms, originals_append]
    rfl
  rw [hsplit] at hcompletes
  have hend := hcompletes.not_ended hrest
  have hrank := (rank_after (w := w) fun a ha => frame_of_mem_originals ha).resolve_left
    (Bool.eq_false_iff.mp hend)
  rw [Nat.min_eq_right hthird] at hrank
  rw [after_received_ping, hbefore]
  exact Child.next_ping (c := (after w (originals before)).withPongs q) hend hrank payload

/-- **With such pings the process is where it is without them**, up to the pongs. -/
theorem after_received {ms : List Mark} (hcompletes : Completes w (originals ms))
    (hbetween : Between ms)
    (hthird : ∀ before payload rest, ms = before ++ .ping payload :: rest →
      3 ≤ (originals before).length) (before : List Mark) :
    ∀ rest, ms = before ++ rest →
      ∃ q, after w (received before) = (after w (originals before)).withPongs q := by
  -- from the front to the back, one mark after the other
  induction before using List.reverseRecOn with
  | nil => exact fun _ _ => ⟨(start w).pongs, rfl⟩
  | append_singleton before m ih =>
    intro rest hms
    rw [List.append_assoc, List.singleton_append] at hms
    obtain ⟨q, hq⟩ := ih _ hms
    cases m with
    | own opcode payload =>
      obtain ⟨q', hq'⟩ := Child.next_withPongs (w := w) (c := after w (originals before)) q
        (.frame opcode payload)
      refine ⟨q', ?_⟩
      rw [received_append, originals_append, after_append, after_append, hq]
      exact hq'
    | ping payload =>
      obtain ⟨-, hrest⟩ := hbetween before payload rest hms
      refine ⟨q ++ [payload], ?_⟩
      rw [after_ping hcompletes hms hrest (hthird before payload rest hms) hq, hq,
        originals_append]
      exact congrArg (fun l => (after w l).withPongs (q ++ [payload])) (List.append_nil _).symm

theorem received_eq_originals {ms : List Mark} (h : ∀ m ∈ ms, m.isPing = false) :
    received ms = originals ms := by
  induction ms with
  | nil => rfl
  | cons m ms ih =>
    have ih := ih fun n hn => h n (List.mem_cons_of_mem m hn)
    cases m with
    | own opcode payload => exact congrArg (Arrival.frame opcode payload :: ·) ih
    | ping payload => exact absurd (h _ List.mem_cons_self) Bool.noConfusion

/-- The first inserted ping is not answered before the loops. -/
theorem unanswered {before : List Mark} (hown : ∀ m ∈ before, m.isPing = false)
    (hlength : (originals before).length < 3) (payload : Bytes) :
    (after w (received (before ++ [.ping payload]))).pongs =
      (after w (received before)).pongs := by
  have hframes : ∀ a ∈ originals before, ∃ opcode payload, a = .frame opcode payload :=
    fun a ha => frame_of_mem_originals ha
  rw [after_received_ping, received_eq_originals hown]
  rcases rank_after (w := w) hframes with hend | hrank
  · rw [Child.next_of_isEnded hend]
  · refine Child.next_pongs_of_rank_lt ?_ _ _
    rw [hrank]
    omega

end

/-- **Pings and a pipeline run.**  For every sequence of frames that a run is complete with, and
every insertion of pings between them: the run is the same and every ping is answered, if and only
if no ping stands before the third frame, the answer to the run command. -/
theorem pings_unaffected_iff (w : Conditions) (ms : List Mark)
    (hcompletes : Completes w (originals ms)) (hbetween : Between ms) :
    Unaffected w ms ↔ ∀ before payload rest, ms = before ++ .ping payload :: rest →
      3 ≤ (originals before).length := by
  constructor
  · intro h before payload rest hms
    by_contra hlt
    -- the first inserted ping stands no later
    obtain ⟨u, e, r, hu, he, hcut⟩ := exists_cut Mark.isPing before
      (show (Mark.ping payload).isPing = true from rfl)
    obtain ⟨payload', rfl⟩ : ∃ payload', e = .ping payload' := by
      cases e with
      | own opcode payload => cases he
      | ping payload' => exact ⟨payload', rfl⟩
    have hprefix : u <+: before := by
      have hlength := congrArg List.length (hcut [])
      simp only [List.length_append, List.length_cons, List.length_nil] at hlength
      refine List.prefix_of_prefix_length_le (List.prefix_append u _)
        (hcut [] ▸ List.prefix_append before _) (by omega)
    obtain ⟨v, rfl⟩ := hprefix
    rw [originals_append, List.length_append] at hlt
    have hanswered := h.answered u payload' (r ++ rest) (by rw [hms, hcut])
    rw [unanswered hu (by omega)] at hanswered
    simp at hanswered
  · intro hthird
    have hall := after_received hcompletes hbetween hthird
    obtain ⟨q, hq⟩ := hall ms [] (List.append_nil ms).symm
    obtain ⟨q', hq'⟩ := Child.next_withPongs (w := w) (c := after w (originals ms)) q .deadline
    have hmain : childMain w (received ms) = (childMain w (originals ms)).withPongs q' := by
      rw [childMain, hq]
      exact hq'
    exact
      { sent := hmain ▸ rfl
        success := hmain ▸ rfl
        transcript := hmain ▸ rfl
        response := hmain ▸ rfl
        error := hmain ▸ rfl
        ttsUrl := hmain ▸ rfl
        answered := by
          intro before payload rest hms
          obtain ⟨q, hq⟩ := hall before _ hms
          rw [after_ping hcompletes hms (hbetween before payload rest hms).2
            (hthird before payload rest hms) hq]
          rfl }

/-! ### One ping -/

/-- Where the only ping of a list is. -/
theorem ping_unique {l r before rest : List Mark} {p payload : Bytes}
    (hl : ∀ m ∈ l, m.isPing = false) (hr : ∀ m ∈ r, m.isPing = false)
    (h : l ++ .ping p :: r = before ++ .ping payload :: rest) : before = l ∧ rest = r := by
  rcases List.append_eq_append_iff.mp h with ⟨x, rfl, hx⟩ | ⟨x, rfl, hx⟩
  · cases x with
    | nil => exact ⟨List.append_nil l, (List.cons_eq_cons.mp hx).2.symm⟩
    | cons m x =>
      have hmem : Mark.ping payload ∈ r := by
        rw [(List.cons_eq_cons.mp hx).2]
        simp
      exact absurd (hr _ hmem) Bool.noConfusion
  · cases x with
    | nil => exact ⟨(List.append_nil before).symm, (List.cons_eq_cons.mp hx).2⟩
    | cons m x =>
      have hmem : Mark.ping payload ∈ before ++ m :: x := by
        rw [← (List.cons_eq_cons.mp hx).1]
        simp
      exact absurd (hl _ hmem) Bool.noConfusion

/-- The frames as marks. -/
def ownMarks (frames : List (UInt8 × Bytes)) : List Mark := frames.map fun f => .own f.1 f.2

theorem isPing_of_mem_ownMarks {frames : List (UInt8 × Bytes)} :
    ∀ m ∈ ownMarks frames, m.isPing = false := by
  intro m hm
  obtain ⟨f, -, rfl⟩ := List.mem_map.mp hm
  rfl

/-- A ping between the frames `l` and `r`. -/
def pingBetween (l r : List (UInt8 × Bytes)) : List Mark :=
  ownMarks l ++ .ping (str "hi") :: ownMarks r

theorem between_pingBetween {l r : List (UInt8 × Bytes)}
    (hl : originals (ownMarks l) ≠ []) (hr : originals (ownMarks r) ≠ []) :
    Between (pingBetween l r) := by
  intro before payload rest h
  obtain ⟨rfl, rfl⟩ := ping_unique isPing_of_mem_ownMarks isPing_of_mem_ownMarks h
  exact ⟨hl, hr⟩

/-- The loop over the events goes on until the last frame of the run. -/
theorem lampRun_loop : (after allWorks (lampRun.take 6)).position = .events := by
  have hgoes : (Arrival.frame 1 lampIntent).terminates = false := by
    rw [Arrival.terminates, lampRun_kinds.1]
  have hsplit : lampRun.take 6 = lampRun.take 5 ++ [.frame 1 lampIntent] := rfl
  rw [hsplit, after_concat, next_position_of_events lampRun_events]
  exact hgoes

theorem lampRun_completes : Completes allWorks lampRun := by
  have htakes : (after allWorks (lampRun.take 6)).takes (.frame 1 lampSpeech) = some .ttsEnd :=
    takes_eq_some_iff.mpr ⟨lampRun_loop, 1, lampSpeech, rfl, lampRun_kinds.2.1⟩
  have hlast : after allWorks lampRun =
      (after allWorks (lampRun.take 6)).next allWorks (.frame 1 lampSpeech) :=
    after_concat allWorks (lampRun.take 6) (.frame 1 lampSpeech)
  refine ⟨lampRun.take 6, .frame 1 lampSpeech, rfl, ?_, ?_⟩
  · rw [lampRun_loop]
    rfl
  · rw [hlast]
    exact (Child.next_of_ttsEnd lampRun_loop htakes).1

theorem lampRun_success : (childMain allWorks lampRun).result.success = true :=
  (childMain_success_iff allWorks lampRun).mpr
    ⟨lampRun.take 5, 1, lampIntent, lampRun.drop 6, rfl, lampRun_events, lampRun_kinds.1⟩

/-- A ping after the answer to the run command. -/
theorem late_ping_unaffected :
    Unaffected allWorks (pingBetween setUpFrames lampFrames) := by
  refine (pings_unaffected_iff allWorks (pingBetween setUpFrames lampFrames)
    lampRun_completes (between_pingBetween (by decide) (by decide))).mpr ?_
  intro before payload rest h
  obtain ⟨rfl, rfl⟩ := ping_unique isPing_of_mem_ownMarks isPing_of_mem_ownMarks h
  decide

/-- A ping after the request for authentication is taken for the answer to the authentication: the
run fails, and the ping is not answered. -/
theorem early_ping_ends_run :
    let ms := pingBetween (setUpFrames.take 1) (setUpFrames.drop 1 ++ lampFrames)
    Completes allWorks (originals ms) ∧ Between ms ∧
      (childMain allWorks (originals ms)).result.success = true ∧
      (childMain allWorks (received ms)).result.success = false ∧
      (childMain allWorks (received ms)).result.error =
        str "Home Assistant odrzucił autoryzację" ∧
      (childMain allWorks (received ms)).pongs = [] := by
  intro ms
  have horiginals : originals ms = lampRun := rfl
  rw [horiginals]
  refine ⟨lampRun_completes, between_pingBetween (by decide) (by decide), lampRun_success, ?_⟩
  decide +kernel

end Assist

end HaPanel
