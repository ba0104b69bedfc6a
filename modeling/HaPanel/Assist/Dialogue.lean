import HaPanel.Assist.Pings
import HaPanel.Assist.Submission
import HaPanel.WebSocket.Sending

/-!
# The frames of a connection

The pipeline process sends commands, audio and pongs on its connection.  For a command or audio
frame it looks at what `send_ws_frame` returns, and a frame that was not sent whole ends the
connection.  It does not look at what it returns for a pong, and `ws_thread_loop` has a sender that
returns nothing: both go on with the next frame after one that stopped on the way, and the server
takes the beginning of the next for the rest of the one before.

* `frames_orderly_iff` : the frames of a connection arrive whole and in order, up to the last one, if
  and only if the TLS layer takes every frame that is sent unchecked, up to the last one.
* `server_gets_frames` : then the bytes that the server gets are those of the frames one after the
  other, on a connection of the panel those that its reading loop answers with.
-/

namespace HaPanel

namespace Assist

open Text Transition Transfer WebSocket

/-! ### What a step sends -/

/-- In the step from `c` to `c'` the process has sent frames one after the other until one could not
be sent.  `d` is where it would be if all could. -/
structure Speaks (sendOk : ℕ → Bool) (c c' d : Child) : Prop where
  grows : c.sent <+: c'.sent
  within : c'.sent <+: d.sent
  init : ∀ n, c.sent.length ≤ n → n + 1 < c'.sent.length → sendOk n = true
  last : c'.position.isEnded = false →
    ∀ n, c.sent.length ≤ n → n < c'.sent.length → sendOk n = true
  /-- It sends no pong in the same step. -/
  pongs : c'.sent = c.sent ∨ c'.pongs = c.pongs

namespace Child

variable {w : Conditions} {sendOk : ℕ → Bool} {c c' d : Child}

/-- Only the frames of the process before the step matter. -/
theorem speaks_of_same {b : Child} (h : Speaks sendOk b c' d) (hsent : b.sent = c.sent)
    (hpongs : b.pongs = c.pongs) : Speaks sendOk c c' d where
  grows := hsent ▸ h.grows
  within := h.within
  init := hsent ▸ h.init
  last := hsent ▸ h.last
  pongs := hsent ▸ hpongs ▸ h.pongs

theorem speaks_of_sent_eq (hc : c'.sent = c.sent) (hd : d.sent = c.sent) :
    Speaks sendOk c c' d where
  grows := hc ▸ List.prefix_rfl
  within := by rw [hc, hd]
  init := by
    intro n hle hlt
    rw [hc] at hlt
    omega
  last := by
    intro _ n hle hlt
    rw [hc] at hlt
    omega
  pongs := .inl hc

theorem speaks_of_append {frame : UInt8 × Bytes} (hc : c'.sent = c.sent ++ [frame])
    (hd : d.sent = c.sent ++ [frame])
    (hok : c'.position.isEnded = false → sendOk c.sent.length = true)
    (hpongs : c'.pongs = c.pongs) : Speaks sendOk c c' d where
  grows := hc ▸ List.prefix_append _ _
  within := by rw [hc, hd]
  init := by
    intro n hle hlt
    rw [hc, List.length_append, List.length_singleton] at hlt
    omega
  last := by
    intro hend n hle hlt
    rw [hc, List.length_append, List.length_singleton] at hlt
    obtain rfl : n = c.sent.length := by omega
    exact hok hend
  pongs := .inr hpongs

/-- A command, after which the process waits for the answer or ends. -/
theorem speaks_command {payload : Bytes} {position : Position} {failed : Child}
    (hfailed : failed.sent = c.sent ++ [(0x1, payload)]) (hpongs : failed.pongs = c.pongs)
    (hend : failed.position.isEnded = true) (hd : d.sent = c.sent ++ [(0x1, payload)]) :
    Speaks w.sendOk c
      (if (c.send w 0x1 payload).2 then { (c.send w 0x1 payload).1 with position } else failed)
      d := by
  split_ifs with hok
  · exact speaks_of_append rfl hd (fun _ => hok) rfl
  · refine speaks_of_append hfailed hd (fun hopen => ?_) hpongs
    rw [hend] at hopen
    cases hopen

/-! ### The audio -/

/-- What the loop over the audio has sent when it is left. -/
structure Streams (w : Conditions) (handler : UInt8) (c : Child) (chunks : List Bytes)
    (left : Child × Bool) : Prop where
  grows : c.sent <+: left.1.sent
  within : left.1.sent <+: c.sent ++ chunks.map fun chunk => (0x2, handler :: chunk)
  init : ∀ n, c.sent.length ≤ n → n + 1 < left.1.sent.length → w.sendOk n = true
  last : left.2 = true → ∀ n, c.sent.length ≤ n → n < left.1.sent.length → w.sendOk n = true
  pongs : left.1.pongs = c.pongs

theorem streams_sendChunks (handler : UInt8) (c : Child) (chunks : List Bytes) :
    Streams w handler c chunks (sendChunks w handler c chunks) := by
  induction chunks generalizing c with
  | nil =>
    exact
      { grows := List.prefix_rfl
        within := List.prefix_append _ _
        init := fun n hle hlt => absurd hlt (by simp only [sendChunks]; omega)
        last := fun _ n hle hlt => absurd hlt (by simp only [sendChunks]; omega)
        pongs := rfl }
  | cons chunk chunks ih =>
    have hlength : (c.send w 0x2 (handler :: chunk)).1.sent.length = c.sent.length + 1 :=
      List.length_append
    rw [sendChunks]
    split_ifs with hok
    · -- the frame is sent, and the loop goes on
      have h := ih (c.send w 0x2 (handler :: chunk)).1
      have hnext : ∀ n, c.sent.length ≤ n →
          ((c.send w 0x2 (handler :: chunk)).1.sent.length ≤ n → w.sendOk n = true) →
            w.sendOk n = true := by
        intro n hle hafter
        rcases Nat.eq_or_lt_of_le hle with rfl | hlt
        · exact hok
        · exact hafter (hlength ▸ hlt)
      exact
        { grows := (List.prefix_append _ _).trans h.grows
          within := by
            refine h.within.trans ?_
            simp [send]
          init := fun n hle hlt => hnext n hle fun hle' => h.init n hle' hlt
          last := fun hsent n hle hlt => hnext n hle fun hle' => h.last hsent n hle' hlt
          pongs := h.pongs }
    · exact
        { grows := List.prefix_append _ _
          within := by
            rw [List.map_cons]
            refine (List.prefix_append_right_inj _).mpr ?_
            exact List.cons_prefix_cons.mpr ⟨rfl, List.nil_prefix⟩
          init := by
            intro n hle hlt
            rw [hlength] at hlt
            omega
          last := fun hsent => absurd hsent Bool.false_ne_true
          pongs := rfl }

/-- A chunk could not be sent, and the process ends. -/
theorem Streams.speaks_of_failed {handler : UInt8} {chunks : List Bytes} {left : Child × Bool}
    {rest : List (UInt8 × Bytes)} (h : Streams w handler c chunks left)
    (hc : c'.sent = left.1.sent) (hpongs : c'.pongs = left.1.pongs)
    (hend : c'.position.isEnded = true)
    (hd : d.sent = (c.sent ++ chunks.map fun chunk => (0x2, handler :: chunk)) ++ rest) :
    Speaks w.sendOk c c' d where
  grows := hc ▸ h.grows
  within := by
    rw [hc, hd]
    exact h.within.trans (List.prefix_append _ _)
  init := hc ▸ h.init
  last := by
    intro hopen
    rw [hend] at hopen
    cases hopen
  pongs := .inr (hpongs.trans h.pongs)

/-- All chunks are sent, and one more frame follows, which is sent if the process goes on. -/
theorem Streams.speaks_of_append {handler : UInt8} {chunks : List Bytes} {left : Child × Bool}
    {frame : UInt8 × Bytes} (h : Streams w handler c chunks left) (hleft : left.2 = true)
    (hc : c'.sent = left.1.sent ++ [frame]) (hpongs : c'.pongs = left.1.pongs)
    (hok : c'.position.isEnded = false → w.sendOk left.1.sent.length = true)
    (hd : d.sent = c'.sent) : Speaks w.sendOk c c' d where
  grows := hc ▸ h.grows.trans (List.prefix_append _ _)
  within := by rw [hd]
  init := by
    intro n hle hlt
    rw [hc, List.length_append, List.length_singleton] at hlt
    exact h.last hleft n hle (Nat.lt_of_succ_lt_succ hlt)
  last := by
    intro hopen n hle hlt
    rw [hc, List.length_append, List.length_singleton] at hlt
    rcases Nat.eq_or_lt_of_le (Nat.le_of_lt_succ hlt) with rfl | hlt
    · exact hok hopen
    · exact h.last hleft n hle hlt
  pongs := .inr (hpongs.trans h.pongs)

theorem speaks_streamAudio (handler : UInt8) (c : Child) :
    Speaks w.sendOk c (c.streamAudio w handler)
      (c.streamAudio { w with sendOk := fun _ => true } handler) := by
  have hall : (c.streamAudio { w with sendOk := fun _ => true } handler).sent =
      (c.sent ++ (audioChunks w.audio).map fun chunk => (0x2, handler :: chunk)) ++
        [(0x2, [handler])] := by
    rw [streamAudio_sent (streamAudio_of_ok (fun _ => rfl) handler c), audioPayloads]
    simp
  have h := streams_sendChunks (w := w) handler c (audioChunks w.audio)
  have hwhole : (sendChunks w handler c (audioChunks w.audio)).2 = true →
      (sendChunks w handler c (audioChunks w.audio)).1.sent =
        c.sent ++ (audioChunks w.audio).map fun chunk => (0x2, handler :: chunk) := by
    intro hchunks
    rw [sendChunks_eq hchunks]
  rw [streamAudio]
  generalize sendChunks w handler c (audioChunks w.audio) = left at h hwhole
  cases hchunks : left.2 with
  | false =>
    simp only [Bool.not_false, if_true]
    exact h.speaks_of_failed (fail_sent _ _) cleanup_pongs rfl hall
  | true =>
    -- the frame that ends the audio follows all of it
    rw [← hwhole hchunks] at hall
    simp only [Bool.not_true, Bool.false_eq_true, if_false]
    split_ifs with hlast
    · have hsent := fail_sent (w := w) (left.1.send w 0x2 [handler]).1
        (str "Nie można zakończyć audio pipeline")
      refine h.speaks_of_append hchunks hsent cleanup_pongs (fun hopen => ?_)
        (hall.trans hsent.symm)
      exact absurd hopen.symm Bool.false_ne_true
    · refine h.speaks_of_append hchunks rfl rfl (fun _ => ?_) hall
      have hok : (left.1.send w 0x2 [handler]).2 = true := by simpa using hlast
      exact hok

/-! ### The five places -/

theorem speaks_onAuthRequired (c : Child) (a : Arrival) :
    Speaks w.sendOk c (c.onAuthRequired w a)
      (c.onAuthRequired { w with sendOk := fun _ => true } a) := by
  unfold onAuthRequired
  cases a.read with
  | error left => exact speaks_of_sent_eq (fail_sent _ _) (fail_sent _ _)
  | ok message =>
    by_cases hmessage : contains (str "auth_required") message = true
    · simp only [hmessage, if_true]
      exact speaks_command (fail_sent (c.send w 0x1 (authMessage w.token)).1 _) cleanup_pongs
        rfl rfl
    · simp only [hmessage, Bool.false_eq_true, if_false]
      exact speaks_of_sent_eq (fail_sent _ _) (fail_sent _ _)

theorem speaks_onAuthOk (c : Child) (a : Arrival) :
    Speaks w.sendOk c (c.onAuthOk w a) (c.onAuthOk { w with sendOk := fun _ => true } a) := by
  unfold onAuthOk
  cases a.read with
  | error left => exact speaks_of_sent_eq (fail_sent _ _) (fail_sent _ _)
  | ok message =>
    by_cases hmessage : contains (str "auth_ok") message = true
    · simp only [hmessage, if_true]
      exact speaks_command (fail_sent (c.send w 0x1 (runCommand w.conversationId)).1 _)
        cleanup_pongs rfl rfl
    · simp only [hmessage, Bool.false_eq_true, if_false]
      exact speaks_of_sent_eq (fail_sent _ _) (fail_sent _ _)

theorem onRunResult_sent (c : Child) (a : Arrival) : (c.onRunResult w a).sent = c.sent := by
  unfold onRunResult
  cases a.read with
  | error left => exact fail_sent _ _
  | ok message =>
    dsimp only
    split_ifs
    · rfl
    · exact fail_sent _ _

theorem speaks_onRunStart (c : Child) (a : Arrival) :
    Speaks w.sendOk c (c.onRunStart w a) (c.onRunStart { w with sendOk := fun _ => true } a) := by
  cases a with
  | silence => exact speaks_of_sent_eq rfl rfl
  | failed left => exact speaks_of_sent_eq (fail_sent _ _) (fail_sent _ _)
  | deadline => exact speaks_of_sent_eq (fail_sent _ _) (fail_sent _ _)
  | frame opcode message =>
    unfold onRunStart
    dsimp only
    split_ifs
    · exact speaks_of_sent_eq rfl rfl
    · exact speaks_of_sent_eq (fail_sent _ _) (fail_sent _ _)
    · exact speaks_of_same (speaks_streamAudio _ _) rfl rfl
    · exact speaks_of_sent_eq rfl rfl

theorem speaks_next (w : Conditions) (c : Child) (a : Arrival) :
    Speaks w.sendOk c (c.next w a) (c.next { w with sendOk := fun _ => true } a) := by
  cases hpos : c.position with
  | authRequired =>
    simp only [next, hpos]
    split_ifs
    · exact speaks_of_sent_eq rfl rfl
    · exact speaks_onAuthRequired c a
  | authOk =>
    simp only [next, hpos]
    split_ifs
    · exact speaks_of_sent_eq rfl rfl
    · exact speaks_onAuthOk c a
  | runResult =>
    simp only [next, hpos]
    split_ifs
    · exact speaks_of_sent_eq rfl rfl
    · exact speaks_of_sent_eq (onRunResult_sent c a) (onRunResult_sent c a)
  | runStart =>
    simp only [next, hpos]
    exact speaks_onRunStart c a
  | events =>
    have hlate : c.position.isEarly = false := by rw [hpos]; rfl
    exact speaks_of_sent_eq (next_sent_of_late hlate a).1 (next_sent_of_late hlate a).1
  | ended status =>
    have hlate : c.position.isEarly = false := by rw [hpos]; rfl
    exact speaks_of_sent_eq (next_sent_of_late hlate a).1 (next_sent_of_late hlate a).1

end Child

/-! ### The log of the process -/

/-- What the random generator and the TLS layer do for the frames of the process. -/
structure Tls where
  /-- For the frame with a command or audio after `n` others of that kind. -/
  own : ℕ → Attempt
  /-- For the pong after `n` others. -/
  pong : ℕ → Attempt

namespace Tls

variable (tls : Tls)

/-- Whether `send_ws_frame` sends the `n`-th of the frames. -/
def sendOk (frames : List (UInt8 × Bytes)) (n : ℕ) : Bool :=
  match frames[n]? with
  | none => true
  | some frame => ((tls.own n).sendWsFrame frame.1 frame.2).2

/-- The conditions of a step.  A frame that is sent in it is the one that would be sent if those
before it could. -/
def conditions (w : Conditions) (c : Child) (a : Arrival) : Conditions :=
  { w with sendOk := tls.sendOk (c.next { w with sendOk := fun _ => true } a).sent }

/-- The calls of `send_ws_frame` for the frames from the `n`-th on, which are checked. -/
def ownLog (n : ℕ) (frames : List (UInt8 × Bytes)) : List Sending :=
  (frames.drop n).mapIdx fun k frame => .bridge true (tls.own (n + k)) frame.1 frame.2

/-- The calls of `send_ws_frame` for the pongs from the `n`-th on, which are not. -/
def pongLog (n : ℕ) (payloads : List Bytes) : List Sending :=
  (payloads.drop n).mapIdx fun k payload => .bridge false (tls.pong (n + k)) 0xA payload

end Tls

/-- The process, and the frames on its connection. -/
structure Dialogue where
  child : Child
  log : List Sending := []

/-- A step sends frames or a pong, and then they are on the connection. -/
def Dialogue.next (w : Conditions) (tls : Tls) (d : Dialogue) (a : Arrival) : Dialogue :=
  let child := d.child.next (tls.conditions w d.child a) a
  { child
    log := d.log ++ tls.ownLog d.child.sent.length child.sent ++
      tls.pongLog d.child.pongs.length child.pongs }

/-- The process after the arrivals, and all frames on its connection. -/
def dialogue (w : Conditions) (tls : Tls) (arrivals : List Arrival) : Dialogue :=
  run (Dialogue.next w tls) { child := start w } arrivals

namespace Tls

variable {tls : Tls} {w : Conditions} {c : Child} {a : Arrival} {n : ℕ}

theorem checked_of_mem_pongLog {payloads : List Bytes} {s : Sending}
    (h : s ∈ tls.pongLog n payloads) : s.checked = false := by
  obtain ⟨k, hk, rfl⟩ := List.mem_mapIdx.mp h
  rfl

/-- The conditions of a step are right about the frames that are sent in it. -/
theorem sendOk_conditions {frame : UInt8 × Bytes}
    (h : (c.next (tls.conditions w c a) a).sent[n]? = some frame) :
    (tls.conditions w c a).sendOk n = ((tls.own n).sendWsFrame frame.1 frame.2).2 := by
  have hwithin := (Child.speaks_next (tls.conditions w c a) c a).within
  obtain ⟨hn, -⟩ := List.getElem?_eq_some_iff.mp h
  have hall : (c.next { w with sendOk := fun _ => true } a).sent[n]? = some frame := by
    rw [← h]
    exact (List.prefix_iff_getElem?.mp hwithin n hn).trans (List.getElem?_eq_getElem hn).symm
  have hvalue : (tls.conditions w c a).sendOk n =
      tls.sendOk (c.next { w with sendOk := fun _ => true } a).sent n := rfl
  rw [hvalue, sendOk, hall]

theorem length_ownLog (n : ℕ) (frames : List (UInt8 × Bytes)) :
    (tls.ownLog n frames).length = frames.length - n := by
  rw [ownLog, List.length_mapIdx, List.length_drop]

/-- The frames in the log of a step are sent whole if the conditions say so. -/
theorem covered_getElem_ownLog (k : ℕ)
    (hk : k < (tls.ownLog c.sent.length (c.next (tls.conditions w c a) a).sent).length) :
    (tls.conditions w c a).sendOk (c.sent.length + k) =
      (tls.ownLog c.sent.length (c.next (tls.conditions w c a) a).sent)[k].covered := by
  have hn : c.sent.length + k < (c.next (tls.conditions w c a) a).sent.length := by
    rw [length_ownLog] at hk
    omega
  rw [sendOk_conditions (List.getElem?_eq_getElem hn)]
  simp only [ownLog, List.getElem_mapIdx, List.getElem_drop]
  exact Sending.sendWsFrame_snd true _ _ _

end Tls

/-! ### What the checks achieve -/

/-- A checked frame that was not sent whole is the last one, and the process has ended. -/
structure Guarded (d : Dialogue) : Prop where
  init : ∀ s ∈ d.log.dropLast, s.checked = true → s.covered = true
  last : d.child.position.isEnded = false → ∀ s ∈ d.log, s.checked = true → s.covered = true

namespace Guarded

variable {w : Conditions} {tls : Tls} {d : Dialogue}

/-- Pongs are not checked. -/
theorem of_pongLog {child : Child} {n : ℕ} {payloads : List Bytes}
    (hlog : ∀ s ∈ d.log, s.checked = true → s.covered = true) :
    Guarded { child, log := d.log ++ tls.pongLog n payloads } := by
  have hall : ∀ s ∈ d.log ++ tls.pongLog n payloads, s.checked = true → s.covered = true := by
    intro s hs hchecked
    rcases List.mem_append.mp hs with hs | hs
    · exact hlog s hs hchecked
    · rw [Tls.checked_of_mem_pongLog hs] at hchecked
      cases hchecked
  exact ⟨fun s hs => hall s (List.dropLast_subset _ hs), fun _ => hall⟩

theorem next (h : Guarded d) (a : Arrival) : Guarded (d.next w tls a) := by
  cases hend : d.child.position.isEnded with
  | true =>
    have hsame : d.next w tls a = d := by
      have hchild := Child.next_of_isEnded (w := tls.conditions w d.child a) hend a
      simp [Dialogue.next, hchild, Tls.ownLog, Tls.pongLog]
    rw [hsame]
    exact h
  | false =>
    have hspeaks := Child.speaks_next (tls.conditions w d.child a) d.child a
    rcases hspeaks.pongs with hsent | hpongs
    · have hown : tls.ownLog d.child.sent.length
          (d.child.next (tls.conditions w d.child a) a).sent = [] := by
        rw [hsent]
        simp [Tls.ownLog]
      rw [Dialogue.next, hown, List.append_nil]
      exact of_pongLog (h.last hend)
    · have hpong : tls.pongLog d.child.pongs.length
          (d.child.next (tls.conditions w d.child a) a).pongs = [] := by
        rw [hpongs]
        simp [Tls.pongLog]
      rw [Dialogue.next, hpong, List.append_nil]
      refine ⟨?_, ?_⟩
      · -- all but the last of the new frames are sent whole
        intro s hs
        rcases mem_or_mem_dropLast hs with hs | hs
        · exact h.last hend s hs
        · intro _
          obtain ⟨k, hk, rfl⟩ := List.getElem_of_mem hs
          rw [List.length_dropLast] at hk
          rw [List.getElem_dropLast, ← Tls.covered_getElem_ownLog k (by omega)]
          rw [Tls.length_ownLog] at hk
          exact hspeaks.init _ (Nat.le_add_right _ _) (by omega)
      · -- and the last one, too, if the process goes on
        intro hopen s hs
        rcases List.mem_append.mp hs with hs | hs
        · exact h.last hend s hs
        · intro _
          obtain ⟨k, hk, rfl⟩ := List.getElem_of_mem hs
          rw [← Tls.covered_getElem_ownLog k hk]
          rw [Tls.length_ownLog] at hk
          exact hspeaks.last hopen _ (Nat.le_add_right _ _) (by omega)

end Guarded

theorem guarded_dialogue (w : Conditions) (tls : Tls) (arrivals : List Arrival) :
    Guarded (dialogue w tls arrivals) := by
  refine run_invariant (fun _ a h => h.next a) ⟨?_, ?_⟩ arrivals
  · intro s hs
    cases hs
  · intro _ s hs
    cases hs

/-- The checks leave only the pongs to go wrong. -/
theorem orderly_dialogue_iff (w : Conditions) (tls : Tls) (arrivals : List Arrival) :
    Orderly Sending.bytes Sending.handed (dialogue w tls arrivals).log ↔
      ∀ s ∈ (dialogue w tls arrivals).log.dropLast, s.checked = false → s.covered = true := by
  rw [orderly_iff_covered]
  constructor
  · intro h s hs _
    exact h s hs
  · intro h s hs
    cases hchecked : s.checked with
    | false => exact h s hs hchecked
    | true => exact (guarded_dialogue w tls arrivals).init s hs hchecked

/-- In the loops a ping brings a pong, whatever became of the one before. -/
theorem next_ping_log (w : Conditions) (tls : Tls) {d : Dialogue}
    (hend : d.child.position.isEnded = false) (hrank : d.child.position.rank = 3)
    (payload : Bytes) :
    d.next w tls (.frame 0x9 payload) =
      { child := d.child.pong payload
        log := d.log ++ [.bridge false (tls.pong d.child.pongs.length) 0xA payload] } := by
  rw [Dialogue.next, Child.next_ping hend hrank]
  simp [Tls.ownLog, Tls.pongLog, Child.pong]

/-- After a pong that did not go over whole the next ping spoils the connection. -/
theorem not_orderly_of_pings {w : Conditions} {tls : Tls} {arrivals : List Arrival}
    (hend : (dialogue w tls arrivals).child.position.isEnded = false)
    (hrank : (dialogue w tls arrivals).child.position.rank = 3) {p : Bytes} (q : Bytes)
    (hpong : (Sending.bridge false
      (tls.pong (dialogue w tls arrivals).child.pongs.length) 0xA p).covered = false) :
    ¬ Orderly Sending.bytes Sending.handed
        (dialogue w tls (arrivals ++ [.frame 0x9 p, .frame 0x9 q])).log := by
  have hfirst := next_ping_log w tls hend hrank p
  have hsecond := next_ping_log w tls (d := (dialogue w tls arrivals).next w tls (.frame 0x9 p))
    (by rw [hfirst]; exact hend) (by rw [hfirst]; exact hrank) q
  have hlog : (dialogue w tls (arrivals ++ [.frame 0x9 p, .frame 0x9 q])).log =
      ((dialogue w tls arrivals).next w tls (.frame 0x9 p)).log ++
        [.bridge false (tls.pong ((dialogue w tls arrivals).child.pong p).pongs.length) 0xA q] := by
    rw [dialogue, run_append]
    exact (congrArg Dialogue.log hsecond).trans (by rw [hfirst])
  rw [orderly_iff_covered, hlog, List.dropLast_concat, hfirst]
  intro h
  have hcovered := h _ (List.mem_append_right _ (List.mem_singleton_self _))
  rw [hpong] at hcovered
  cases hcovered

/-- **Frames arrive whole and in order**, on a connection of the panel and on one of the pipeline
process, if and only if the TLS layer takes each frame that is sent without a look at the result,
up to the last frame of the connection. -/
theorem frames_orderly_iff (token : Bytes) (controls : Fin 2 → Bytes) (results : ℕ → Result)
    (messages : List Bytes) (w : Conditions) (tls : Tls) (arrivals : List Arrival) :
    (Orderly Sending.bytes Sending.handed (panelLog token controls results messages) ↔
      ∀ s ∈ (panelLog token controls results messages).dropLast, s.covered = true) ∧
    (Orderly Sending.bytes Sending.handed (dialogue w tls arrivals).log ↔
      ∀ s ∈ (dialogue w tls arrivals).log.dropLast, s.checked = false → s.covered = true) :=
  ⟨orderly_iff_covered _, orderly_dialogue_iff w tls arrivals⟩

/-- The TLS layer takes 10 bytes of the subscription. -/
def shortWrite (k : ℕ) : Result := if k = 0 then .count 9 else .count 1000

/-- The first pong fails. -/
def failedPong : Tls where
  own := fun _ => ⟨some fun _ => 0, [.count 2000]⟩
  pong := fun n => ⟨some fun _ => 0, [if n = 0 then .error else .count 200]⟩

/-- **A frame goes into the middle of another.**  The panel subscribes to the events, the TLS layer
takes 10 bytes of it, and the panel asks for the states.  The pipeline process gets two pings, and
answers the second after it could not answer the first. -/
theorem frames_not_orderly :
    ¬ Orderly Sending.bytes Sending.handed
        (panelLog (str "token") (fun _ => []) shortWrite [str "\x7b\"type\":\"auth_ok\"\x7d"]) ∧
    ¬ Orderly Sending.bytes Sending.handed
        (dialogue allWorks failedPong (lampRun.take 3 ++ [.frame 0x9 [], .frame 0x9 []])).log := by
  constructor
  · rw [orderly_iff_covered]
    decide +kernel
  · have hposition : (dialogue allWorks failedPong (lampRun.take 3)).child.position = .runStart ∧
        (dialogue allWorks failedPong (lampRun.take 3)).child.pongs = [] := by
      decide +kernel
    refine not_orderly_of_pings ?_ ?_ [] ?_
    · rw [hposition.1]
      rfl
    · rw [hposition.1]
      rfl
    · rw [hposition.2]
      decide

end Assist

end HaPanel
