import HaPanel.Assist.Record
import HaPanel.Text.Lines

/-!
# The line protocols of Assist

The panel reads lines from two child processes: records from the pipeline process
(`consume_output`) and `WAKE` lines from the wake word worker (`WakeWordListener::monitor_loop`).
Both cut their lines off a buffer, so what they do depends only on the bytes that arrive and not on
how the reads cut them (`lines_handled_once`).  For the pipeline records this rests on two facts
that hold for every field value: a record has no newline (`newline_notMem_recordLine`), and the
test for `"final":true` cannot be met by a value (`contains_final`).
-/

namespace HaPanel

namespace Assist

open Text

/-! ### Pipeline records -/

/-- What `consume_output` has done so far. -/
structure Consumed where
  /-- The arguments of the calls of `on_progress`, in order. -/
  progress : List AssistPipelineResult := []
  /-- `final_output`. -/
  finalOutput : Bytes := []
  deriving DecidableEq

/-- The body of the loop of `consume_output`. -/
def Consumed.handle (st : Consumed) (line : Bytes) : Consumed :=
  if contains (str "\"final\":true") line then { st with finalOutput := line }
  else { st with progress := st.progress ++ [parseLine line] }

/-- `consume_output`, with the buffer `output`. -/
def consumeOutput (st : Consumed) (output : Bytes) : Consumed × Bytes :=
  drain 10 Consumed.handle st output

/-- What was consumed after a sequence of reads, each followed by `consume_output`, and the
`consume_output` at the end. -/
def consumeReads (chunks : List Bytes) : Consumed :=
  let s := chunks.foldl (fun s chunk => consumeOutput s.1 (s.2 ++ chunk)) ({}, [])
  (consumeOutput s.1 s.2).1

theorem consumeReads_eq (chunks : List Bytes) :
    consumeReads chunks = (chunks.flatten.splitOn 10).dropLast.foldl Consumed.handle {} := by
  have hfeed : chunks.foldl (fun s chunk => consumeOutput s.1 (s.2 ++ chunk)) ({}, []) =
      feed 10 Consumed.handle ({}, []) chunks := rfl
  -- the `consume_output` at the end finds no line any more
  have hlast : drain 10 Consumed.handle (drain 10 Consumed.handle {} chunks.flatten).1
      ((drain 10 Consumed.handle {} chunks.flatten).2 ++ []) =
        drain 10 Consumed.handle {} (chunks.flatten ++ []) :=
    drain_append _ _ _
  rw [List.append_nil, List.append_nil] at hlast
  rw [consumeReads, hfeed, feed_eq_drain, consumeOutput, hlast, drain_eq_splitOn]

/-- A record, and whether it is written as the final one. -/
abbrev Report := AssistPipelineResult × Bool

/-- The bytes of a sequence of records. -/
def stream (reports : List Report) : Bytes :=
  reports.flatMap fun p => serializeResult p.1 p.2

theorem splitOn_stream (reports : List Report) :
    ((stream reports).splitOn 10).dropLast = reports.map fun p => recordLine p.1 p.2 := by
  have hlines : ∀ line ∈ reports.map fun p => recordLine p.1 p.2, (10 : UInt8) ∉ line := by
    intro line hline
    obtain ⟨p, -, rfl⟩ := List.mem_map.mp hline
    exact newline_notMem_recordLine p.1 p.2
  have h := dropLast_splitOn_lines hlines
  rwa [List.flatMap_map] at h

theorem handle_recordLine (st : Consumed) (p : Report) :
    st.handle (recordLine p.1 p.2) =
      if p.2 then { st with finalOutput := recordLine p.1 p.2 }
      else { st with progress := st.progress ++ [parseLine (recordLine p.1 p.2)] } := by
  rw [Consumed.handle, contains_final]

/-- What the records of a run of the pipeline lead to. -/
def expected (reports : List Report) : Consumed where
  progress := (reports.filter (!·.2)).map fun p => parseLine (recordLine p.1 p.2)
  finalOutput := (((reports.filter (·.2)).getLast?).map fun p => recordLine p.1 p.2).getD []

theorem foldl_handle (reports : List Report) :
    (reports.map fun p => recordLine p.1 p.2).foldl Consumed.handle {} = expected reports := by
  induction reports using List.reverseRecOn with
  | nil => rfl
  | append_singleton reports p ih =>
    rw [List.map_append, List.foldl_append, ih, List.map_singleton, List.foldl_cons,
      List.foldl_nil, handle_recordLine]
    obtain ⟨r, final⟩ := p
    cases final <;> simp [expected]

/-! ### Wake words -/

/-- What one pass of the loop of `monitor_loop` meets. -/
inductive MonitorEvent where
  /-- `running_` is found false. -/
  | stopped
  /-- `poll` fails, with `EINTR` or otherwise. -/
  | pollError (interrupted : Bool)
  /-- `poll` reports nothing within its time. -/
  | pollTimeout
  /-- `read` returns no bytes: it would block, or the stream has ended or failed. -/
  | noBytes (wouldBlock : Bool)
  /-- `read` returns bytes. -/
  | bytes (chunk : Bytes)
  deriving DecidableEq

/-- The loop goes on after the event. -/
def MonitorEvent.continues : MonitorEvent → Bool
  | stopped => false
  | pollError interrupted => interrupted
  | pollTimeout => true
  | noBytes wouldBlock => wouldBlock
  | bytes _ => true

/-- The bytes an event delivers. -/
def MonitorEvent.chunk? : MonitorEvent → Option Bytes
  | bytes chunk => some chunk
  | _ => none

/-- A line that calls the wake handler. -/
def isWakeLine (line : Bytes) : Bool := (str "WAKE ").isPrefixOf line

/-- The body of the loop over the lines, which counts the calls of the wake handler. -/
def countWake (wakes : ℕ) (line : Bytes) : ℕ := if isWakeLine line then wakes + 1 else wakes

/-- The number of calls of the wake handler and the buffer `output`, when `monitor_loop` meets the
given events. -/
def monitorLoop : ℕ × Bytes → List MonitorEvent → ℕ × Bytes
  | s, [] => s
  | s, .stopped :: _ => s
  | s, .pollError interrupted :: es => if interrupted then monitorLoop s es else s
  | s, .pollTimeout :: es => monitorLoop s es
  | s, .noBytes wouldBlock :: es => if wouldBlock then monitorLoop s es else s
  | s, .bytes chunk :: es => monitorLoop (drain 10 countWake s.1 (s.2 ++ chunk)) es

/-- The reads of the loop. -/
def monitorReads (es : List MonitorEvent) : List Bytes :=
  (es.takeWhile MonitorEvent.continues).filterMap MonitorEvent.chunk?

theorem monitorLoop_eq_feed (s : ℕ × Bytes) (es : List MonitorEvent) :
    monitorLoop s es = feed 10 countWake s (monitorReads es) := by
  induction es generalizing s with
  | nil => rfl
  | cons e es ih =>
    cases e with
    | stopped => rfl
    | pollError interrupted =>
      cases interrupted with
      | true => exact ih s
      | false => rfl
    | pollTimeout => exact ih s
    | noBytes wouldBlock =>
      cases wouldBlock with
      | true => exact ih s
      | false => rfl
    | bytes chunk => exact ih _

theorem foldl_countWake (wakes : ℕ) (lines : List Bytes) :
    lines.foldl countWake wakes = wakes + lines.countP isWakeLine := by
  induction lines generalizing wakes with
  | nil => rfl
  | cons line lines ih =>
    rw [List.foldl_cons, ih, List.countP_cons, countWake]
    split_ifs <;> omega

theorem monitorLoop_wakes (es : List MonitorEvent) :
    (monitorLoop (0, []) es).1 =
      ((monitorReads es).flatten.splitOn 10).dropLast.countP isWakeLine := by
  rw [monitorLoop_eq_feed, feed_eq_drain, drain_eq_splitOn, foldl_countWake, Nat.zero_add]

/-! ### Independence of the reads -/

/-- **Every line is handled once, however the stream is read**: `on_progress` is called once for
each record that is not final, in order, `final_output` is the line of the last final record, and
the wake handler is called once for each complete line that starts with `WAKE`. -/
theorem lines_handled_once :
    (∀ (reports : List Report) (chunks : List Bytes), chunks.flatten = stream reports →
      (consumeReads chunks).progress =
          (reports.filter (!·.2)).map (fun p => parseLine (recordLine p.1 p.2)) ∧
        (consumeReads chunks).finalOutput =
          (((reports.filter (·.2)).getLast?).map fun p => recordLine p.1 p.2).getD []) ∧
    ∀ (output : Bytes) (es : List MonitorEvent), (monitorReads es).flatten = output →
      (monitorLoop (0, []) es).1 = (output.splitOn 10).dropLast.countP isWakeLine := by
  constructor
  · intro reports chunks hchunks
    rw [consumeReads_eq, hchunks, splitOn_stream, foldl_handle]
    exact ⟨rfl, rfl⟩
  · rintro output es rfl
    exact monitorLoop_wakes es

/-- A progress record, then a final one. -/
def twoReports : List Report := [({ stage := str "stt" }, false), ({ success := true }, true)]

theorem twoReports_handled :
    (consumeReads [(stream twoReports).take 7, (stream twoReports).drop 7]).finalOutput =
        recordLine { success := true } true ∧
      (monitorLoop (0, []) [.bytes (str "WA"), .pollTimeout, .bytes (str "KE 1\nx")]).1 = 1 := by
  constructor
  · exact (lines_handled_once.1 twoReports [(stream twoReports).take 7, (stream twoReports).drop 7]
      (by simp)).2
  · rw [lines_handled_once.2 (str "WAKE 1\nx") _ (by decide)]
    decide

end Assist

end HaPanel
