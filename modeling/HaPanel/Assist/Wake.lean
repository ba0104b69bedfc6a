import Mathlib.Algebra.Order.Field.Rat
import Mathlib.Data.Rat.Defs
import HaPanel.Data.Window
import HaPanel.Transition.Run

/-!
# When the wake word is heard

The wake worker (`prototypes/mww_probe.cpp`) turns the samples it reads into feature slices and
hands every third one, with the two before it, to the model.  The model's answer is a byte, and the
worker keeps the last five answers in a window.  It prints a `WAKE` line when their average reaches
the threshold, but not in the first 100 slices, and after a `WAKE` not for 100 slices and 167
inferences; a `WAKE` also empties the window.

The audio frontend and the interpreter are outside the repository: `Pass` has what they answer, as
functions of what they are handed.  The `int`s of the worker are `Int32`s.  With fewer than `2 ^ 31`
slices only `warmup_until_slice` can overflow, in a `WAKE` within the last 100 of them, and no other
`WAKE` can follow that one (`counters_iff`).
-/

namespace HaPanel

namespace Assist

namespace Wake

open Transition

/-- A line on the standard output. -/
inductive Line
  | wake (score : ℚ) (count : Int32)
  | score (avg peak audio : ℚ)
  deriving DecidableEq

def Line.isWake : Line → Bool
  | wake _ _ => true
  | score _ _ _ => false

/-- How the worker ends. -/
inductive Exit
  | unexpectedFeatureCount (size : ℕ)
  | invokeFailed
  | captureFailed
  | done (wakes : Int32)
  deriving DecidableEq

def Exit.code : Exit → ℕ
  | unexpectedFeatureCount _ => 9
  | invokeFailed => 10
  | captureFailed => 11
  | done _ => 0

/-- What `FrontendProcessSamples` returns: the features, if there is a slice, and how many of the
samples it has consumed. -/
structure FrontendOutput where
  values : Option (List UInt16)
  consumed : ℕ

/-- What the code outside the worker does in one pass of the inner loop. -/
structure Pass where
  /-- `FrontendProcessSamples`, of the samples from the cursor on. -/
  processSamples : List Int16 → FrontendOutput
  /-- `Invoke`, of the input tensor: the output byte unless it fails. -/
  invoke : List Int8 → Option UInt8

inductive Event
  /-- `fread` of interleaved samples, none at the end of the input, and `ferror` after it. -/
  | read (interleaved : List Int16) (ferror : Bool)
  /-- A pass of the inner loop. -/
  | pass (p : Pass)

/-- What came of a feature slice: it was kept for the next inference, or there was one. -/
inductive Slice
  | kept
  | inferred (output : UInt8) (printed : List Line)
  deriving DecidableEq

/-- `score = output->data.uint8[0] / 256.0f`. -/
def score (output : UInt8) : ℚ := output.toNat / 256

/-- A feature as an element of the input tensor. -/
def quantize (value : UInt16) : Int8 :=
  Int8.ofInt (max (-128) (min 127 (((value.toNat * 256 + 333) / 666 : ℕ) - 128)))

theorem zero_lt_five : 0 < 5 := by decide

/-- The window before the first score: `scores`, `score_sum` and `score_position` are zero. -/
def noScores : Window ℚ 5 := .empty ℚ 5 zero_lt_five

structure Worker where
  /-- `scores`, with `score_position` and `score_sum`. -/
  scores : Window ℚ 5 := noScores
  peak : ℚ := 0
  /-- The rows of the input tensor since the last inference, `feature_rows` of them. -/
  rows : List (List Int8) := []
  featureSlices : Int32 := 0
  warmupUntilSlice : Int32 := 100
  inferenceCount : Int32 := 0
  cooldownUntil : Int32 := 0
  wakeCount : Int32 := 0
  sampleTotal : ℕ := 0
  /-- The samples of the last read from `cursor` on. -/
  mono : List Int16 := []
  exit : Option Exit := none
  /-- All slices, the last one first. -/
  slices : List Slice := []

namespace Worker

/-! ### The source -/

/-- `score_sum / 5.0f`. -/
def average (w : Worker) : ℚ := w.scores.sum / 5

/-- The output of an inference goes to the window. -/
def measure (w : Worker) (output : UInt8) : Worker :=
  let w := { w with
    inferenceCount := w.inferenceCount + 1
    scores := w.scores.push (score output) }
  { w with peak := max w.peak w.average }

/-- The condition for a `WAKE`. -/
def wakes (threshold : ℚ) (w : Worker) : Bool :=
  w.warmupUntilSlice ≤ w.featureSlices && w.cooldownUntil ≤ w.inferenceCount &&
    threshold ≤ w.average

/-- After a `WAKE`. -/
def wake (w : Worker) : Worker :=
  { w with
    wakeCount := w.wakeCount + 1
    cooldownUntil := w.inferenceCount + 167
    scores := noScores
    warmupUntilSlice := w.featureSlices + 100 }

/-- The condition for a `SCORE` line. -/
def reports (w : Worker) : Bool := w.inferenceCount % 33 = 0

/-- The lines of an inference.  Both have the average from before the window was emptied. -/
def printed (threshold : ℚ) (w : Worker) : List Line :=
  (if w.wakes threshold then [.wake w.average (w.wakeCount + 1)] else []) ++
    if w.reports then [.score w.average w.peak (w.sampleTotal / 16000)] else []

/-- An inference with this output. -/
def infer (threshold : ℚ) (w : Worker) (output : UInt8) : Worker :=
  let measured := w.measure output
  let w := if measured.wakes threshold then measured.wake else measured
  { w with
    peak := if w.reports then 0 else w.peak
    slices := .inferred output (measured.printed threshold) :: w.slices }

/-- A feature slice. -/
def slice (threshold : ℚ) (w : Worker) (values : List UInt16) (invoke : List Int8 → Option UInt8) :
    Worker :=
  let w := { w with
    featureSlices := w.featureSlices + 1
    rows := w.rows ++ [values.map quantize] }
  if w.rows.length ≠ 3 then { w with slices := .kept :: w.slices }
  else
    match invoke w.rows.flatten with
    | none => { w with rows := [], slices := .kept :: w.slices, exit := some .invokeFailed }
    | some output => infer threshold { w with rows := [] } output

/-- A pass of the inner loop.  Without features and without progress the rest of the samples is
dropped. -/
def pass (threshold : ℚ) (w : Worker) (p : Pass) : Worker :=
  let features := p.processSamples w.mono
  let w := { w with mono := w.mono.drop features.consumed }
  match features.values with
  | none => if features.consumed = 0 then { w with mono := [] } else w
  | some [] => if features.consumed = 0 then { w with mono := [] } else w
  | some values =>
    if values.length ≠ 40 then { w with exit := some (.unexpectedFeatureCount values.length) }
    else w.slice threshold values p.invoke

/-- The next read, of the first channel's samples. -/
def read (channels : ℕ) (w : Worker) (interleaved : List Int16) (ferror : Bool) : Worker :=
  if interleaved = [] then
    { w with
      exit := some (if ferror || w.sampleTotal = 0 then .captureFailed else .done w.wakeCount) }
  else
    let sampleCount := interleaved.length / channels
    { w with
      mono := (List.range sampleCount).map fun i => interleaved.getD (i * channels) 0
      sampleTotal := w.sampleTotal + sampleCount }

/-- The worker reads when it is through with the samples of the last read. -/
def next (channels : ℕ) (threshold : ℚ) (w : Worker) (e : Event) : Worker :=
  match w.exit with
  | some _ => w
  | none =>
    match e with
    | .read interleaved ferror => if w.mono = [] then w.read channels interleaved ferror else w
    | .pass p => if w.mono = [] then w else w.pass threshold p

end Worker

/-- The worker after the events, from the start of the loop. -/
def worker (channels : ℕ) (threshold : ℚ) (events : List Event) : Worker :=
  run (Worker.next channels threshold) {} events

/-! ### The slices so far -/

/-- There was a `WAKE` line. -/
def Slice.woke : Slice → Bool
  | kept => false
  | inferred _ printed => printed.any Line.isWake

def Slice.output : Slice → Option UInt8
  | kept => none
  | inferred output _ => some output

/-- The slices since the last `WAKE` or the start, the last one first. -/
def sinceWake (slices : List Slice) : List Slice := slices.takeWhile fun s => !s.woke

/-- The slices up to the last `WAKE`, and none without one. -/
def untilWake (slices : List Slice) : List Slice := slices.dropWhile fun s => !s.woke

/-- The number of inferences. -/
def inferences (slices : List Slice) : ℕ := (slices.filterMap Slice.output).length

/-- The scores since the last `WAKE` or the start, the last one first. -/
def scoresSinceWake (slices : List Slice) : List ℚ :=
  ((sinceWake slices).filterMap Slice.output).map score

/-- The next inference, if this is its output, is to print a `WAKE` line. -/
def ShouldWake (threshold : ℚ) (slices : List Slice) (output : UInt8) : Prop :=
  100 ≤ (sinceWake slices).length + 1 ∧
    (untilWake slices = [] ∨ 167 ≤ inferences (sinceWake slices) + 1) ∧
      threshold ≤ ((score output :: scoresSinceWake slices).take 5).sum / 5

section Slices

variable (slices : List Slice) {s : Slice}

theorem length_sinceWake_add :
    (sinceWake slices).length + (untilWake slices).length = slices.length := by
  rw [← List.length_append, sinceWake, untilWake, List.takeWhile_append_dropWhile]

theorem inferences_sinceWake_add :
    inferences (sinceWake slices) + inferences (untilWake slices) = inferences slices := by
  rw [inferences, inferences, ← List.length_append, ← List.filterMap_append, sinceWake, untilWake,
    List.takeWhile_append_dropWhile, inferences]

theorem sinceWake_cons_of_woke (h : s.woke = true) : sinceWake (s :: slices) = [] :=
  List.takeWhile_cons_of_neg (by simp [h])

theorem untilWake_cons_of_woke (h : s.woke = true) : untilWake (s :: slices) = s :: slices :=
  List.dropWhile_cons_of_neg (by simp [h])

theorem sinceWake_cons (h : s.woke = false) : sinceWake (s :: slices) = s :: sinceWake slices :=
  List.takeWhile_cons_of_pos (by simp [h])

theorem untilWake_cons (h : s.woke = false) : untilWake (s :: slices) = untilWake slices :=
  List.dropWhile_cons_of_pos (by simp [h])

theorem inferences_inferred (output : UInt8) (printed : List Line) :
    inferences (.inferred output printed :: slices) = inferences slices + 1 := rfl

end Slices

/-- The slice and inference counters against the bounds of the last `WAKE`.  If the bound on the
slices overflows, there are fewer than 100 of them left, too few for 167 inferences. -/
theorem counters_iff {slices : List Slice} (hbound : slices.length + 1 < 2 ^ 31)
    (hrows : slices.length + 1 = 3 * (inferences slices + 1))
    (huntil : (untilWake slices).length = 3 * inferences (untilWake slices)) :
    (Int32.ofNat ((untilWake slices).length + 100) ≤ Int32.ofNat (slices.length + 1) ∧
        Int32.ofNat (if untilWake slices = [] then 0 else inferences (untilWake slices) + 167) ≤
          Int32.ofNat (inferences slices + 1)) ↔
      100 ≤ (sinceWake slices).length + 1 ∧
        (untilWake slices = [] ∨ 167 ≤ inferences (sinceWake slices) + 1) := by
  have hlength := length_sinceWake_add slices
  have hinferences := inferences_sinceWake_add slices
  have hcooldown : Int32.ofNat
      (if untilWake slices = [] then 0 else inferences (untilWake slices) + 167) ≤
        Int32.ofNat (inferences slices + 1) ↔
      (untilWake slices = [] ∨ 167 ≤ inferences (sinceWake slices) + 1) := by
    split_ifs with hnil
    · rw [Int32.ofNat_le_iff_le (by omega) (by omega)]
      simp [hnil]
    · rw [Int32.ofNat_le_iff_le (by omega) (by omega)]
      simp only [hnil, false_or]
      omega
  rw [hcooldown]
  by_cases hover : (untilWake slices).length + 100 < 2 ^ 31
  · rw [Int32.ofNat_le_iff_le hover hbound]
    refine and_congr_left ?_
    omega
  · constructor
    · rintro ⟨-, hnil | hwait⟩
      · rw [hnil, List.length_nil] at hover
        omega
      · omega
    · rintro ⟨hwarm, -⟩
      omega

namespace Worker

variable {threshold : ℚ} {w : Worker}

theorem woke_printed (threshold : ℚ) (w : Worker) (output : UInt8) :
    (Slice.inferred output (w.printed threshold)).woke = w.wakes threshold := by
  unfold printed
  split_ifs <;> simp_all [Slice.woke, Line.isWake]

/-- The worker when the third row is there, before the inference. -/
def complete (w : Worker) : Worker := { w with featureSlices := w.featureSlices + 1, rows := [] }

theorem infer_of_wakes {output : UInt8}
    (h : ((complete w).measure output).wakes threshold = true) :
    ∃ peak, (complete w).infer threshold output = { w with
      featureSlices := w.featureSlices + 1
      rows := []
      inferenceCount := w.inferenceCount + 1
      peak
      wakeCount := w.wakeCount + 1
      cooldownUntil := w.inferenceCount + 1 + 167
      scores := noScores
      warmupUntilSlice := w.featureSlices + 1 + 100
      slices :=
        .inferred output (((complete w).measure output).printed threshold) :: w.slices } := by
  simp only [infer, h, if_true]
  exact ⟨_, rfl⟩

theorem infer_of_not_wakes {output : UInt8}
    (h : ((complete w).measure output).wakes threshold = false) :
    ∃ peak, (complete w).infer threshold output = { w with
      featureSlices := w.featureSlices + 1
      rows := []
      inferenceCount := w.inferenceCount + 1
      peak
      scores := w.scores.push (score output)
      slices :=
        .inferred output (((complete w).measure output).printed threshold) :: w.slices } := by
  simp only [infer, h, Bool.false_eq_true, if_false]
  exact ⟨_, rfl⟩

/-! ### The invariant -/

/-- What the counters and the window say about the slices so far. -/
structure Invariant (threshold : ℚ) (w : Worker) : Prop where
  featureSlices : w.featureSlices = Int32.ofNat w.slices.length
  inferenceCount : w.inferenceCount = Int32.ofNat (inferences w.slices)
  /-- Every third slice brings an inference. -/
  rows : w.exit = none →
    w.rows.length < 3 ∧ w.slices.length = 3 * inferences w.slices + w.rows.length
  scores : w.scores.Holds (scoresSinceWake w.slices)
  warmupUntilSlice : w.warmupUntilSlice = Int32.ofNat ((untilWake w.slices).length + 100)
  cooldownUntil : w.cooldownUntil =
    Int32.ofNat (if untilWake w.slices = [] then 0 else inferences (untilWake w.slices) + 167)
  /-- The last `WAKE` came with an inference, when the rows were complete. -/
  untilWake : (untilWake w.slices).length = 3 * inferences (untilWake w.slices)
  /-- The inferences so far have printed the `WAKE` lines they should. -/
  decided : ∀ output printed before, .inferred output printed :: before <:+ w.slices →
    before.length + 1 < 2 ^ 31 →
      ((Slice.inferred output printed).woke = true ↔ ShouldWake threshold before output)

namespace Invariant

theorem initial : Invariant threshold {} where
  featureSlices := rfl
  inferenceCount := rfl
  rows := fun _ => ⟨by decide, rfl⟩
  scores := Window.holds_empty zero_lt_five
  warmupUntilSlice := rfl
  cooldownUntil := rfl
  untilWake := rfl
  decided := fun _ _ _ h => absurd h.length_le (by simp)

theorem featureSlices_succ (h : Invariant threshold w) :
    w.featureSlices + 1 = Int32.ofNat (w.slices.length + 1) := by
  rw [Int32.ofNat_add, ← h.featureSlices]
  rfl

theorem inferenceCount_succ (h : Invariant threshold w) :
    w.inferenceCount + 1 = Int32.ofNat (inferences w.slices + 1) := by
  rw [Int32.ofNat_add, ← h.inferenceCount]
  rfl

theorem third (h : Invariant threshold w) (hexit : w.exit = none) (hrows : w.rows.length = 2) :
    w.slices.length + 1 = 3 * (inferences w.slices + 1) := by
  have hcount := (h.rows hexit).2
  omega

theorem wakes_iff (h : Invariant threshold w) (hexit : w.exit = none) (hrows : w.rows.length = 2)
    (output : UInt8) (hbound : w.slices.length + 1 < 2 ^ 31) :
    ((complete w).measure output).wakes threshold = true ↔
      ShouldWake threshold w.slices output := by
  have hslices : ((complete w).measure output).featureSlices =
      Int32.ofNat (w.slices.length + 1) := h.featureSlices_succ
  have hinferences : ((complete w).measure output).inferenceCount =
      Int32.ofNat (inferences w.slices + 1) := h.inferenceCount_succ
  have haverage : ((complete w).measure output).average =
      ((score output :: scoresSinceWake w.slices).take 5).sum / 5 := by
    rw [← (h.scores.push (score output)).sum_eq]
    rfl
  rw [ShouldWake, ← and_assoc, ← counters_iff hbound (h.third hexit hrows) h.untilWake, wakes,
    Bool.and_eq_true, Bool.and_eq_true, decide_eq_true_eq, decide_eq_true_eq, decide_eq_true_eq,
    hslices, hinferences, haverage, ← h.warmupUntilSlice, ← h.cooldownUntil]
  rfl

/-! ### Slices -/

/-- A slice without an inference. -/
theorem kept (h : Invariant threshold w) {rows : List (List Int8)} {exit : Option Exit}
    (hrows : exit = none →
      rows.length < 3 ∧ w.slices.length + 1 = 3 * inferences w.slices + rows.length) :
    Invariant threshold { w with
      featureSlices := w.featureSlices + 1, rows, exit, slices := .kept :: w.slices } where
  featureSlices := h.featureSlices_succ
  inferenceCount := h.inferenceCount
  rows := hrows
  scores := by
    rw [scoresSinceWake, sinceWake_cons _ rfl]
    exact h.scores
  warmupUntilSlice := by
    rw [untilWake_cons _ rfl]
    exact h.warmupUntilSlice
  cooldownUntil := by
    rw [untilWake_cons _ rfl]
    exact h.cooldownUntil
  untilWake := by
    rw [untilWake_cons _ rfl]
    exact h.untilWake
  decided := by
    intro output printed before hsuffix hbound
    rcases List.suffix_cons_iff.mp hsuffix with heq | hsuffix
    · cases heq
    · exact h.decided output printed before hsuffix hbound

/-- The new inference has decided as it should. -/
theorem decided_cons (h : Invariant threshold w) (hexit : w.exit = none)
    (hrows : w.rows.length = 2) (output : UInt8) :
    ∀ output' printed before,
      .inferred output' printed :: before <:+
          .inferred output (((complete w).measure output).printed threshold) :: w.slices →
        before.length + 1 < 2 ^ 31 →
          ((Slice.inferred output' printed).woke = true ↔
            ShouldWake threshold before output') := by
  intro output' printed before hsuffix hbound
  rcases List.suffix_cons_iff.mp hsuffix with heq | hsuffix
  · cases heq
    rw [woke_printed]
    exact h.wakes_iff hexit hrows output hbound
  · exact h.decided output' printed before hsuffix hbound

/-- A slice with an inference that prints `WAKE`: everything is counted from there. -/
theorem wake (h : Invariant threshold w) (hexit : w.exit = none) (hrows : w.rows.length = 2)
    {output : UInt8} (hwakes : ((complete w).measure output).wakes threshold = true) :
    Invariant threshold ((complete w).infer threshold output) := by
  have hthird := h.third hexit hrows
  have hdecided := h.decided_cons hexit hrows output
  have hwoke := woke_printed threshold ((complete w).measure output) output
  obtain ⟨peak, heq⟩ := infer_of_wakes hwakes
  rw [hwakes] at hwoke
  rw [heq]
  exact
    { featureSlices := h.featureSlices_succ
      inferenceCount := h.inferenceCount_succ
      rows := fun _ => ⟨Nat.zero_lt_succ 2, hthird⟩
      scores := by
        rw [scoresSinceWake, sinceWake_cons_of_woke _ hwoke]
        exact Window.holds_empty zero_lt_five
      warmupUntilSlice := by
        rw [untilWake_cons_of_woke _ hwoke, Int32.ofNat_add, List.length_cons,
          ← h.featureSlices_succ]
        rfl
      cooldownUntil := by
        rw [untilWake_cons_of_woke _ hwoke, if_neg (List.cons_ne_nil _ _), inferences_inferred,
          Int32.ofNat_add, ← h.inferenceCount_succ]
        rfl
      untilWake := by
        rw [untilWake_cons_of_woke _ hwoke, inferences_inferred, List.length_cons]
        exact hthird
      decided := hdecided }

/-- A slice with an inference that does not: its score gets into the window. -/
theorem noWake (h : Invariant threshold w) (hexit : w.exit = none) (hrows : w.rows.length = 2)
    {output : UInt8} (hwakes : ((complete w).measure output).wakes threshold = false) :
    Invariant threshold ((complete w).infer threshold output) := by
  have hthird := h.third hexit hrows
  have hdecided := h.decided_cons hexit hrows output
  have hwoke := woke_printed threshold ((complete w).measure output) output
  obtain ⟨peak, heq⟩ := infer_of_not_wakes hwakes
  rw [hwakes] at hwoke
  rw [heq]
  exact
    { featureSlices := h.featureSlices_succ
      inferenceCount := h.inferenceCount_succ
      rows := fun _ => ⟨Nat.zero_lt_succ 2, hthird⟩
      scores := by
        rw [scoresSinceWake, sinceWake_cons _ hwoke]
        exact h.scores.push (score output)
      warmupUntilSlice := by
        rw [untilWake_cons _ hwoke]
        exact h.warmupUntilSlice
      cooldownUntil := by
        rw [untilWake_cons _ hwoke]
        exact h.cooldownUntil
      untilWake := by
        rw [untilWake_cons _ hwoke]
        exact h.untilWake
      decided := hdecided }

/-- A slice with an inference. -/
theorem infer (h : Invariant threshold w) (hexit : w.exit = none) (hrows : w.rows.length = 2)
    (output : UInt8) : Invariant threshold ((complete w).infer threshold output) := by
  cases hwakes : ((complete w).measure output).wakes threshold with
  | true => exact h.wake hexit hrows hwakes
  | false => exact h.noWake hexit hrows hwakes

theorem slice (h : Invariant threshold w) (hexit : w.exit = none) (values : List UInt16)
    (invoke : List Int8 → Option UInt8) :
    Invariant threshold (w.slice threshold values invoke) := by
  obtain ⟨hlt, hcount⟩ := h.rows hexit
  have hlength : (w.rows ++ [values.map quantize]).length = w.rows.length + 1 := by simp
  unfold Worker.slice
  dsimp only
  split_ifs with hfew
  · refine h.kept fun _ => ?_
    rw [hlength] at hfew ⊢
    omega
  · split
    · exact h.kept fun hnone => nomatch hnone
    · rename_i output _
      refine h.infer hexit ?_ output
      rw [hlength] at hfew
      omega

/-! ### Runs -/

theorem pass (h : Invariant threshold w) (hexit : w.exit = none) (p : Pass) :
    Invariant threshold (w.pass threshold p) := by
  have hmono : Invariant threshold
      { w with mono := w.mono.drop (p.processSamples w.mono).consumed } := { h with }
  unfold Worker.pass
  dsimp only
  split
  · split_ifs
    · exact { h with }
    · exact { h with }
  · split_ifs
    · exact { h with }
    · exact { h with }
  · split_ifs
    · exact { h with rows := fun hnone => nomatch hnone }
    · exact hmono.slice hexit _ _

theorem read (h : Invariant threshold w) (channels : ℕ) (interleaved : List Int16)
    (ferror : Bool) :
    Invariant threshold (w.read channels interleaved ferror) := by
  unfold Worker.read
  split
  · exact { h with rows := fun hnone => nomatch hnone }
  · exact { h with }

theorem next (h : Invariant threshold w) (channels : ℕ) (e : Event) :
    Invariant threshold (w.next channels threshold e) := by
  unfold Worker.next
  split
  · exact h
  · rename_i hexit
    split
    · split_ifs
      · exact h.read channels _ _
      · exact h
    · split_ifs
      · exact h
      · exact h.pass hexit _

end Invariant

end Worker

theorem invariant_worker (channels : ℕ) (threshold : ℚ) (events : List Event) :
    (worker channels threshold events).Invariant threshold :=
  run_invariant (fun _ e h => h.next channels e) Worker.Invariant.initial events

theorem woke_iff (output : UInt8) (printed : List Line) :
    (Slice.inferred output printed).woke = true ↔ ∃ score count, .wake score count ∈ printed := by
  rw [Slice.woke, List.any_eq_true]
  constructor
  · rintro ⟨_ | _, hmem, hwake⟩
    · exact ⟨_, _, hmem⟩
    · cases hwake
  · rintro ⟨score, count, hmem⟩
    exact ⟨_, hmem, rfl⟩

/-- The running sum is that of the last five scores since the last `WAKE`, and an inference prints
a `WAKE` line exactly if it should. -/
theorem wake_decision (channels : ℕ) (threshold : ℚ) (events : List Event)
    (hbound : (worker channels threshold events).slices.length < 2 ^ 31) :
    (worker channels threshold events).scores.sum =
        ((scoresSinceWake (worker channels threshold events).slices).take 5).sum ∧
      ∀ output printed before,
        .inferred output printed :: before <:+ (worker channels threshold events).slices →
          ((∃ score count, .wake score count ∈ printed) ↔
            100 ≤ (sinceWake before).length + 1 ∧
              (untilWake before = [] ∨ 167 ≤ inferences (sinceWake before) + 1) ∧
                threshold ≤ ((score output :: scoresSinceWake before).take 5).sum / 5) := by
  have h := invariant_worker channels threshold events
  refine ⟨h.scores.sum_eq, ?_⟩
  intro output printed before hsuffix
  rw [← woke_iff output]
  refine h.decided output printed before hsuffix ?_
  exact hsuffix.length_le.trans_lt hbound

/-- The 102 slices of a second in which the model is sure all the time. -/
def sure : List Event :=
  .read (List.replicate 1600 0) false ::
    List.replicate 102 (.pass ⟨fun _ => ⟨some (List.replicate 40 0), 1⟩, fun _ => some 255⟩)

theorem wake_decision_sure :
    (worker 1 (97 / 100) sure).slices.length < 2 ^ 31 ∧
      (worker 1 (97 / 100) sure).slices.head? = some (.inferred 255 [.wake (255 / 256) 1]) ∧
        (worker 1 (97 / 100) sure).scores.sum = 0 := by
  refine ⟨by decide +kernel, by decide +kernel, ?_⟩
  rw [(wake_decision 1 (97 / 100) sure (by decide +kernel)).1]
  decide +kernel

end Wake

end Assist

end HaPanel
