import HaPanel.Text.Search

/-!
# Line protocols

A reader of a line protocol appends what it reads to a buffer, and as long as the buffer has a
newline it cuts off the first line and handles it (`drain`).  The handled lines do not depend on
how the stream was cut into reads (`feed_eq_drain`): they are the complete lines of the whole stream
(`drain_eq_splitOn`).
-/

namespace HaPanel

namespace Text

variable {α σ : Type*} [DecidableEq α] (q : α) (handle : σ → List α → σ)

/-- Cut off and handle the lines of the buffer. -/
def drain (st : σ) (buf : List α) : σ × List α :=
  match _h : find [q] buf with
  | none => (st, buf)
  | some t => drain (handle st (buf.take (buf.length - t.length))) t.tail
termination_by buf.length
decreasing_by
  obtain ⟨r, rfl⟩ := find_eq_some_append _h
  have := (find_suffix _h).length_le
  simp only [List.cons_append, List.nil_append, List.length_cons, List.tail_cons] at this ⊢
  omega

/-- The state and the buffer after a sequence of reads. -/
def feed (s : σ × List α) (chunks : List (List α)) : σ × List α :=
  chunks.foldl (fun s chunk => drain q handle s.1 (s.2 ++ chunk)) s

variable {q handle}

theorem drain_of_notMem {buf : List α} (h : q ∉ buf) (st : σ) :
    drain q handle st buf = (st, buf) := by
  rw [drain]
  split
  · rfl
  · rename_i t ht
    rw [find_singleton_eq_none h] at ht
    cases ht

theorem drain_line {line : List α} (h : q ∉ line) (st : σ) (s : List α) :
    drain q handle st (line ++ q :: s) = drain q handle (handle st line) s := by
  rw [drain]
  have hfind := find_singleton_append (s := s) h
  split
  · rename_i ht
    rw [hfind] at ht
    cases ht
  · rename_i t ht
    rw [hfind] at ht
    cases ht
    have hlen : (line ++ q :: s).length - (q :: s).length = line.length := by simp
    rw [hlen, List.take_left, List.tail_cons]

/-- A buffer has no newline, or a first line. -/
theorem notMem_or_line (q : α) (s : List α) :
    q ∉ s ∨ ∃ line t, q ∉ line ∧ s = line ++ q :: t := by
  by_cases h : q ∈ s
  · obtain ⟨line, t, hs, hline⟩ := List.eq_append_cons_of_mem h
    exact .inr ⟨line, t, hline, hs⟩
  · exact .inl h

/-- Reading on after a drained buffer is reading the whole. -/
theorem drain_append (st : σ) (s t : List α) :
    drain q handle (drain q handle st s).1 ((drain q handle st s).2 ++ t) =
      drain q handle st (s ++ t) := by
  induction hn : s.length using Nat.strong_induction_on generalizing st s with
  | _ n ih =>
    rcases notMem_or_line q s with h | ⟨line, u, hline, rfl⟩
    · rw [drain_of_notMem h]
    · rw [drain_line hline, List.append_assoc, List.cons_append, drain_line hline]
      refine ih u.length ?_ _ u rfl
      simp at hn
      omega

/-- **The reads do not matter**, only what was read. -/
theorem feed_eq_drain (st : σ) (chunks : List (List α)) :
    feed q handle (st, []) chunks = drain q handle st chunks.flatten := by
  have hgen : ∀ s : List α, feed q handle (drain q handle st s) chunks =
      drain q handle st (s ++ chunks.flatten) := by
    induction chunks with
    | nil => simp [feed]
    | cons chunk chunks ih =>
      intro s
      rw [feed, List.foldl_cons, drain_append, List.flatten_cons, ← List.append_assoc]
      exact ih (s ++ chunk)
  have h := hgen []
  rwa [drain_of_notMem List.not_mem_nil, List.nil_append] at h

/-- The handled lines are the complete lines of the stream. -/
theorem drain_eq_splitOn (st : σ) (s : List α) :
    (drain q handle st s).1 = (s.splitOn q).dropLast.foldl handle st := by
  induction hn : s.length using Nat.strong_induction_on generalizing st s with
  | _ n ih =>
    rcases notMem_or_line q s with h | ⟨line, u, hline, rfl⟩
    · rw [drain_of_notMem h, List.splitOn_eq_singleton h]
      rfl
    · rw [drain_line hline, List.splitOn_append_cons_self_of_not_mem hline,
        List.dropLast_cons_of_ne_nil (List.splitOn_ne_nil q u), List.foldl_cons]
      refine ih u.length ?_ _ u rfl
      simp at hn
      omega

/-- The complete lines of a stream of lines are these lines. -/
theorem dropLast_splitOn_lines {lines : List (List α)} (h : ∀ line ∈ lines, q ∉ line) :
    ((lines.flatMap (· ++ [q])).splitOn q).dropLast = lines := by
  induction lines with
  | nil => simp
  | cons line lines ih =>
    have ih := ih fun l hl => h l (by simp [hl])
    rw [List.flatMap_cons, List.append_assoc, List.singleton_append,
      List.splitOn_append_cons_self_of_not_mem (h line (by simp)),
      List.dropLast_cons_of_ne_nil (List.splitOn_ne_nil q _), ih]

end Text

end HaPanel
