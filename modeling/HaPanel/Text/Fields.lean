import Mathlib.Data.List.Basic

/-!
# Lines and fields

A program that reads lines into a buffer gets each line that fits as a whole (`fgetsLines_line`),
and one that splits a line at separators gets its fields (`strtok_field`), as long as none is
empty.
-/

namespace HaPanel

namespace Text

variable {α : Type*} [DecidableEq α] (q : α)

/-! ### Lines -/

/-- What `fgets` reads into a buffer with room for `n` characters, and what it leaves. -/
def fgets : ℕ → List α → List α × List α
  | 0, s => ([], s)
  | _ + 1, [] => ([], [])
  | n + 1, c :: s => if c = q then ([c], s) else (c :: (fgets n s).1, (fgets n s).2)

theorem length_fgets (n : ℕ) (s : List α) :
    (fgets q n s).1.length + (fgets q n s).2.length = s.length := by
  induction n generalizing s with
  | zero => simp [fgets]
  | succ n ih =>
    cases s with
    | nil => rfl
    | cons c s =>
      rw [fgets]
      split_ifs
      · simp [Nat.add_comm]
      · have := ih s
        simp only [List.length_cons]
        omega

theorem fgets_fst_ne_nil {n : ℕ} {s : List α} (hn : n ≠ 0) (hs : s ≠ []) :
    (fgets q n s).1 ≠ [] := by
  obtain ⟨n, rfl⟩ := Nat.exists_eq_succ_of_ne_zero hn
  obtain ⟨c, s, rfl⟩ := List.exists_cons_of_ne_nil hs
  rw [fgets]
  split_ifs <;> simp

/-- What `fgets` reads until the end. -/
def fgetsLines (n : ℕ) (s : List α) : List (List α) :=
  if _h : n = 0 ∨ s = [] then [] else (fgets q n s).1 :: fgetsLines n (fgets q n s).2
termination_by s.length
decreasing_by
  have hne := List.length_pos_iff.2 (fgets_fst_ne_nil q (not_or.1 _h).1 (not_or.1 _h).2)
  have := length_fgets q n s
  omega

variable {q} {n : ℕ} {line s : List α}

theorem fgets_line (h : q ∉ line) (hn : line.length < n) (s : List α) :
    fgets q n (line ++ q :: s) = (line ++ [q], s) := by
  induction line generalizing n with
  | nil =>
    obtain ⟨n, rfl⟩ := Nat.exists_eq_succ_of_ne_zero (Nat.ne_of_gt hn)
    simp [fgets]
  | cons c line ih =>
    rw [List.mem_cons, not_or] at h
    obtain ⟨hc, hline⟩ := h
    obtain ⟨n, rfl⟩ := Nat.exists_eq_succ_of_ne_zero (Nat.ne_zero_of_lt hn)
    rw [List.cons_append, fgets, if_neg (Ne.symm hc), ih hline (Nat.lt_of_succ_lt_succ hn)]
    rfl

theorem fgets_full (h : q ∉ line) (s : List α) : fgets q line.length (line ++ s) = (line, s) := by
  induction line with
  | nil => rfl
  | cons c line ih =>
    rw [List.mem_cons, not_or] at h
    obtain ⟨hc, hline⟩ := h
    rw [List.cons_append, List.length_cons, fgets, if_neg (Ne.symm hc), ih hline]

@[simp] theorem fgetsLines_nil : fgetsLines q n [] = [] := by
  rw [fgetsLines, dif_pos (.inr rfl)]

/-- A line that fits, with its end, is read as a whole. -/
theorem fgetsLines_line (h : q ∉ line) (hn : line.length < n) (s : List α) :
    fgetsLines q n (line ++ q :: s) = (line ++ [q]) :: fgetsLines q n s := by
  have hread : ¬(n = 0 ∨ line ++ q :: s = []) := by
    rw [not_or]
    exact ⟨by omega, by simp⟩
  rw [fgetsLines, dif_neg hread, fgets_line h hn]

/-- A line that leaves no room for its end: the end is read on its own. -/
theorem fgetsLines_full (h : q ∉ line) (hn : line.length = n) (hpos : 0 < n) (s : List α) :
    fgetsLines q n (line ++ q :: s) = line :: [q] :: fgetsLines q n s := by
  have hread : ¬(n = 0 ∨ line ++ q :: s = []) := by
    rw [not_or]
    exact ⟨by omega, by simp⟩
  have hend := fgetsLines_line (@List.not_mem_nil _ q) hpos s
  rw [fgetsLines, dif_neg hread, ← hn, fgets_full h, hn]
  rw [List.nil_append] at hend
  rw [hend]
  rfl

/-! ### Fields -/

/-- What `strtok` cuts off at a separator, and what it leaves. -/
def strtok (isDelim : α → Bool) (s : List α) : Option (List α × List α) :=
  match s.dropWhile isDelim with
  | [] => none
  | c :: t =>
    some ((c :: t).takeWhile (!isDelim ·), ((c :: t).dropWhile (!isDelim ·)).tail)

omit [DecidableEq α] in
theorem strtok_append {isDelim : α → Bool} {field : List α} (hne : field ≠ [])
    (h : ∀ c ∈ field, isDelim c = false) (s : List α) :
    strtok isDelim (field ++ s) =
      some (field ++ s.takeWhile (!isDelim ·), (s.dropWhile (!isDelim ·)).tail) := by
  have hkeep : ∀ c ∈ field, (!isDelim c) = true := by
    intro c hc
    rw [h c hc, Bool.not_false]
  obtain ⟨c, t, rfl⟩ := List.exists_cons_of_ne_nil hne
  have hdrop : ((c :: t) ++ s).dropWhile isDelim = c :: (t ++ s) := by
    rw [List.cons_append, List.dropWhile_cons, h c List.mem_cons_self]
    rfl
  rw [strtok, hdrop]
  simp only
  rw [← List.cons_append, List.takeWhile_append_of_pos hkeep, List.dropWhile_append_of_pos hkeep]

omit [DecidableEq α] in
theorem strtok_field {isDelim : α → Bool} {field : List α} (hne : field ≠ [])
    (h : ∀ c ∈ field, isDelim c = false) {d : α} (hd : isDelim d = true) (s : List α) :
    strtok isDelim (field ++ d :: s) = some (field, s) := by
  rw [strtok_append hne h]
  simp [hd]

omit [DecidableEq α] in
theorem strtok_last {isDelim : α → Bool} {field : List α} (hne : field ≠ [])
    (h : ∀ c ∈ field, isDelim c = false) : strtok isDelim field = some (field, []) := by
  have happend := strtok_append hne h []
  rwa [List.append_nil, List.takeWhile_nil, List.append_nil, List.dropWhile_nil,
    List.tail_nil] at happend

end Text

end HaPanel
