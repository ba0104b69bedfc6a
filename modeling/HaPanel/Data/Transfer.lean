import Mathlib.Data.List.Basic

/-!
# Data handed over in parts

A call that writes data may take a part of it, or nothing, and the writer has to call again with
the rest.  `writeAll` is the loop that does; `writeAll_eq` says that the calls take the data from
its beginning, and that the loop succeeds if and only if they have room for all of it.

A log of transfers is orderly if each of them went over whole, except that the last one may have
stopped on the way (`orderly_iff`).  The receiver of an orderly log can tell the transfers apart:
what it gets are the data of all transfers but the last, and a part of the last (`Orderly.stream`).
-/

namespace HaPanel

namespace Transfer

variable {α σ : Type*}

/-! ### Calls -/

/-- How a call that is to write data ends. -/
inductive Result where
  /-- It takes `n + 1` elements, or all if there are fewer. -/
  | count (n : ℕ)
  /-- It takes none, and can be made again. -/
  | want
  | error
  deriving DecidableEq

/-- How many elements the call takes, if there are as many. -/
def Result.room : Result → ℕ
  | count n => n + 1
  | want => 0
  | error => 0

/-- What a call takes of the data. -/
def write (result : Result) (data : List α) : List α := data.take result.room

/-- The loop that writes all of the data: what it hands over, and whether that is everything.  The
calls are made until time is up, which is when there are no more results. -/
def writeAll : List Result → List α → List α × Bool
  | [], data => ([], data.isEmpty)
  | result :: results, data =>
    if data.isEmpty then ([], true)
    else
      match result with
      | .want => writeAll results data
      | .error => ([], false)
      | .count n =>
        let rest := writeAll results (data.drop (n + 1))
        (data.take (n + 1) ++ rest.1, rest.2)

/-- How many elements the calls take, up to one that fails. -/
def room : List Result → ℕ
  | [] => 0
  | .count n :: results => n + 1 + room results
  | .want :: results => room results
  | .error :: _ => 0

theorem writeAll_eq (results : List Result) (data : List α) :
    writeAll results data = (data.take (room results), decide (data.length ≤ room results)) := by
  induction results generalizing data with
  | nil => cases data <;> rfl
  | cons result results ih =>
    cases data with
    | nil => simp [writeAll]
    | cons x data =>
      cases result with
      | want => exact ih (x :: data)
      | error => rfl
      | count n =>
        have hlength : decide (((x :: data).drop (n + 1)).length ≤ room results) =
            decide ((x :: data).length ≤ n + 1 + room results) := by
          rw [decide_eq_decide, List.length_drop]
          omega
        have hstep : writeAll (.count n :: results) (x :: data) =
            ((x :: data).take (n + 1) ++ (writeAll results ((x :: data).drop (n + 1))).1,
              (writeAll results ((x :: data).drop (n + 1))).2) := rfl
        rw [hstep, ih, hlength, room, ← List.take_add]

/-! ### Logs -/

/-- In the log each transfer has handed over its data, or it has stopped on the way and is the
last one. -/
def Orderly (data handed : σ → List α) (log : List σ) : Prop :=
  ∀ before s after, log = before ++ s :: after →
    handed s = data s ∨ (handed s <+: data s ∧ after = [])

variable {data handed : σ → List α} {log : List σ}

theorem mem_or_mem_dropLast {new : List σ} {s : σ} (h : s ∈ (log ++ new).dropLast) :
    s ∈ log ∨ s ∈ new.dropLast := by
  rcases eq_or_ne new [] with rfl | hne
  · rw [List.append_nil] at h
    exact .inl (List.dropLast_subset _ h)
  · rw [List.dropLast_append_of_ne_nil hne] at h
    exact List.mem_append.mp h

theorem orderly_iff (hpart : ∀ s, handed s <+: data s) :
    Orderly data handed log ↔ ∀ s ∈ log.dropLast, handed s = data s := by
  constructor
  · intro h s hs
    obtain ⟨before, after, hsplit⟩ := List.append_of_mem hs
    have hne : log ≠ [] := by
      rintro rfl
      cases hs
    have hlog : log = before ++ s :: (after ++ [log.getLast hne]) := by
      conv_lhs => rw [← List.dropLast_append_getLast hne, hsplit]
      simp
    rcases h before s _ hlog with heq | ⟨-, hnil⟩
    · exact heq
    · simp at hnil
  · intro h before s after hlog
    rcases eq_or_ne after [] with rfl | hafter
    · exact .inr ⟨hpart s, rfl⟩
    · refine .inl (h s ?_)
      rw [hlog, List.dropLast_append_of_ne_nil (List.cons_ne_nil _ _),
        List.dropLast_cons_of_ne_nil hafter]
      simp

/-- What an orderly log has handed over: the data of all but the last transfer, and a part of the
last. -/
theorem Orderly.stream (h : Orderly data handed log) :
    log.dropLast.flatMap data <+: log.flatMap handed ∧
      log.flatMap handed <+: log.flatMap data := by
  rcases List.eq_nil_or_concat log with rfl | ⟨before, s, rfl⟩
  · simp
  · have hbefore : before.flatMap handed = before.flatMap data := by
      refine List.flatMap_congr fun t ht => ?_
      obtain ⟨l, r, rfl⟩ := List.append_of_mem ht
      rcases h l t (r ++ [s]) (by simp) with heq | ⟨-, hnil⟩
      · exact heq
      · simp at hnil
    have hlast : handed s <+: data s := by
      rcases h before s [] (by simp) with heq | ⟨hpart, -⟩
      · exact heq ▸ List.prefix_rfl
      · exact hpart
    simp only [List.concat_eq_append, List.dropLast_concat, List.flatMap_append, hbefore,
      List.flatMap_singleton]
    exact ⟨List.prefix_append _ _, (List.prefix_append_right_inj _).mpr hlast⟩

end Transfer

end HaPanel
