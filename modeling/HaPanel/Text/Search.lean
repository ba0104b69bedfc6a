import Mathlib.Data.List.Basic
import Mathlib.Data.List.Infix

/-!
# First-occurrence search in quoted text

A position in a text is represented by the rest of the text from there on, so searching
returns a suffix.  `find` is first-occurrence substring search.

A text is cut at every quotation mark into *chunks* (`quoted`).  A search for a quoted word is
then a search for a chunk: `find_quoted` says that looking for `"key"tail` in a text finds the
first chunk equal to `key` whose successor starts with `tail`.  Nothing here depends on what
the quotation mark, the words or the text are.
-/

namespace HaPanel

namespace Text

variable {α : Type*} [DecidableEq α]

/-- The suffix that starts at the first occurrence of `pat`. -/
def find (pat : List α) : List α → Option (List α)
  | [] => if pat = [] then some [] else none
  | a :: s => if pat.isPrefixOf (a :: s) then some (a :: s) else find pat s

/-- `pat` occurs in the text. -/
def contains (pat s : List α) : Bool := (find pat s).isSome

/-- The suffix that starts at the first character satisfying `p`. -/
def findFirst (p : α → Bool) (s : List α) : Option (List α) :=
  match s.dropWhile fun a => !p a with
  | [] => none
  | a :: t => some (a :: t)

theorem find_cons_pos {pat s : List α} {a : α} (h : pat <+: a :: s) :
    find pat (a :: s) = some (a :: s) := by
  simp [find, List.isPrefixOf_iff_prefix, h]

theorem find_cons_neg {pat s : List α} {a : α} (h : ¬ pat <+: a :: s) :
    find pat (a :: s) = find pat s := by
  simp [find, List.isPrefixOf_iff_prefix, h]

theorem find_suffix {pat s t : List α} (h : find pat s = some t) : t <:+ s := by
  induction s with
  | nil =>
    simp only [find] at h
    split_ifs at h
    obtain rfl := Option.some.inj h
    exact List.suffix_rfl
  | cons a s ih =>
    simp only [find] at h
    split_ifs at h
    · obtain rfl := Option.some.inj h
      exact List.suffix_rfl
    · exact (ih h).trans (List.suffix_cons a s)

theorem find_eq_some_append {pat s t : List α} (h : find pat s = some t) : ∃ r, t = pat ++ r := by
  induction s with
  | nil =>
    simp only [find] at h
    split_ifs at h with hp
    exact ⟨t, by simp [hp]⟩
  | cons a s ih =>
    simp only [find] at h
    split_ifs at h with hp
    · obtain rfl := Option.some.inj h
      obtain ⟨r, hr⟩ := List.isPrefixOf_iff_prefix.mp hp
      exact ⟨r, hr.symm⟩
    · exact ih h

theorem contains_iff_occurs {pat s : List α} : contains pat s = true ↔ pat <:+: s := by
  induction s with
  | nil => simp [contains, find]
  | cons a s ih =>
    by_cases hp : pat <+: a :: s
    · rw [contains, find_cons_pos hp]
      exact ⟨fun _ => hp.isInfix, fun _ => rfl⟩
    · rw [contains, find_cons_neg hp, List.infix_cons_iff]
      exact ⟨fun h => .inr (ih.mp h), fun h => ih.mpr (h.resolve_left hp)⟩

/-- A stretch without the first character of the pattern is skipped. -/
theorem find_append_of_notMem {q : α} {pat c s : List α} (hc : q ∉ c) :
    find (q :: pat) (c ++ s) = find (q :: pat) s := by
  induction c with
  | nil => rfl
  | cons a c ih =>
    simp only [List.mem_cons, not_or] at hc
    have hp : ¬ (q :: pat) <+: a :: (c ++ s) := by
      rw [List.cons_prefix_cons]
      exact fun h => hc.1 h.1
    rw [List.cons_append, find_cons_neg hp, ih hc.2]

theorem find_singleton_append {q : α} {c s : List α} (hc : q ∉ c) :
    find [q] (c ++ q :: s) = some (q :: s) := by
  rw [find_append_of_notMem hc]
  exact find_cons_pos (by simp)

theorem find_singleton_eq_none {q : α} {s : List α} (hs : q ∉ s) : find [q] s = none := by
  have h : find [q] (s ++ []) = find [q] [] := find_append_of_notMem hs
  simpa [find] using h

omit [DecidableEq α] in
theorem findFirst_append {p : α → Bool} {c s : List α} {a : α} (hc : ∀ x ∈ c, p x = false)
    (ha : p a = true) : findFirst p (c ++ a :: s) = some (a :: s) := by
  have : (c ++ a :: s).dropWhile (fun a => !p a) = a :: s := by
    rw [List.dropWhile_append_of_pos fun x hx => by simp [hc x hx]]
    simp [ha]
  simp [findFirst, this]

omit [DecidableEq α] in
/-- Cut a list that ends with an element satisfying `p` at the first such element. -/
theorem exists_cut (p : α → Bool) (z : List α) {d : α} (hd : p d = true) :
    ∃ b e r, (∀ x ∈ b, p x = false) ∧ p e = true ∧ ∀ y, z ++ d :: y = b ++ e :: (r ++ y) := by
  induction z with
  | nil => exact ⟨[], d, [], by simp, hd, fun _ => rfl⟩
  | cons a z ih =>
    by_cases ha : p a = true
    · exact ⟨[], a, z ++ [d], by simp, ha, by simp⟩
    · obtain ⟨b, e, r, hb, he, hcut⟩ := ih
      refine ⟨a :: b, e, r, ?_, he, fun y => by simp [hcut]⟩
      simpa using ⟨Bool.eq_false_iff.mpr ha, hb⟩

omit [DecidableEq α] in
/-- A pattern at the beginning of a text ends before the characters it does not have. -/
theorem prefix_append_cons_iff {pat b s : List α} {d : α} (hd : d ∉ pat) :
    pat <+: b ++ d :: s ↔ pat <+: b := by
  refine ⟨fun h => ?_, fun h => h.trans (List.prefix_append b _)⟩
  rcases List.prefix_or_prefix_of_prefix h (List.prefix_append b (d :: s)) with h' | h'
  · exact h'
  · obtain ⟨t, rfl⟩ := h'
    rw [List.prefix_append_right_inj] at h
    cases t with
    | nil => simp
    | cons x t => exact absurd (by simp [(List.cons_prefix_cons.mp h).1]) hd

/-- An occurrence before a character that the pattern does not have lies before it. -/
theorem find_append_cons {pat b s : List α} {d : α} (hne : pat ≠ []) (hd : d ∉ pat) :
    (∃ r, find pat (b ++ d :: s) = some r ∧ (d :: s).length < r.length) ↔ contains pat b = true := by
  induction b with
  | nil =>
    have hnone : contains pat ([] : List α) = false := by simp [contains, find, hne]
    rw [hnone]
    refine ⟨fun ⟨r, hr, hlt⟩ => ?_, fun h => nomatch h⟩
    have := (find_suffix hr).length_le
    rw [List.nil_append] at this
    omega
  | cons a b ih =>
    have hiff : pat <+: a :: (b ++ d :: s) ↔ pat <+: a :: b :=
      prefix_append_cons_iff (b := a :: b) hd
    by_cases hp : pat <+: a :: b
    · rw [List.cons_append, find_cons_pos (hiff.mpr hp), contains, find_cons_pos hp]
      refine ⟨fun _ => rfl, fun _ => ⟨_, rfl, ?_⟩⟩
      simp only [List.length_cons, List.length_append]
      omega
    · rw [List.cons_append, find_cons_neg fun h => hp (hiff.mp h), contains, find_cons_neg hp, ih]
      rfl

/-- A search goes on behind a stretch without the pattern and a character it does not have. -/
theorem find_append_cons_of_not_contains {pat b s : List α} {d : α} (hne : pat ≠ []) (hd : d ∉ pat)
    (hb : contains pat b = false) : find pat (b ++ d :: s) = find pat s := by
  induction b with
  | nil =>
    refine find_cons_neg fun h => ?_
    exact hne (List.prefix_nil.mp ((prefix_append_cons_iff (b := []) hd).mp h))
  | cons a b ih =>
    have hp : ¬ pat <+: a :: b := by
      intro h
      rw [contains, find_cons_pos h] at hb
      cases hb
    have hrest : contains pat b = false := by rwa [contains, find_cons_neg hp] at hb
    have hlong : ¬ pat <+: a :: (b ++ d :: s) := fun h =>
      hp ((prefix_append_cons_iff (b := a :: b) hd).mp h)
    rw [List.cons_append, find_cons_neg hlong, ih hrest]

/-! ### Chunks -/

/-- The text of a list of chunks, each introduced by the quotation mark `q`. -/
def quoted (q : α) (cs : List (List α)) : List α := cs.flatMap (q :: ·)

omit [DecidableEq α] in
@[simp] theorem quoted_nil (q : α) : quoted q [] = [] := rfl

omit [DecidableEq α] in
@[simp] theorem quoted_cons (q : α) (c : List α) (cs : List (List α)) :
    quoted q (c :: cs) = q :: (c ++ quoted q cs) := rfl

omit [DecidableEq α] in
@[simp] theorem quoted_append (q : α) (cs ds : List (List α)) :
    quoted q (cs ++ ds) = quoted q cs ++ quoted q ds := by
  simp [quoted]

/-- Cutting a text at its quotation marks and joining the chunks again. -/
theorem quoted_splitOn (q : α) (s : List α) : quoted q (s.splitOn q) = q :: s := by
  induction s with
  | nil => simp
  | cons a s ih =>
    rw [List.splitOn_cons_eq_if_modifyHead]
    by_cases h : a = q
    · subst h; simp [ih]
    · simp only [beq_iff_eq, h, ↓reduceIte]
      cases hs : s.splitOn q with
      | nil => exact absurd hs (List.splitOn_ne_nil q s)
      | cons c cs => rw [hs] at ih; simpa using ih

theorem notMem_of_mem_splitOn {q : α} {s c : List α} (hc : c ∈ s.splitOn q) : q ∉ c := by
  induction s generalizing c with
  | nil => simp_all
  | cons a s ih =>
    rw [List.splitOn_cons_eq_if_modifyHead] at hc
    split_ifs at hc with h
    · rcases List.mem_cons.1 hc with rfl | hc
      · simp
      · exact ih hc
    · cases hs : s.splitOn q with
      | nil => exact absurd hs (List.splitOn_ne_nil q s)
      | cons d ds =>
        rw [hs] at hc ih
        rcases List.mem_cons.1 hc with rfl | hc
        · have hd := ih (c := d) (by simp)
          have hq : q ≠ a := by rintro rfl; simp at h
          simp [hd, hq]
        · exact ih (by simp [hc])

/-- The chunks from the first one equal to `key` whose successor starts with `tail`. -/
def seek (key tail : List α) : List (List α) → Option (List (List α))
  | c :: d :: cs =>
    if c = key ∧ tail.isPrefixOf d then some (c :: d :: cs) else seek key tail (d :: cs)
  | _ => none

theorem seek_cons_of_ne {key tail c : List α} {cs : List (List α)} (h : c ≠ key) :
    seek key tail (c :: cs) = seek key tail cs := by
  cases cs with
  | nil => simp [seek]
  | cons d cs => simp [seek, h]

theorem seek_append_of_ne {key tail : List α} {cs ds : List (List α)}
    (h : ∀ c ∈ cs, c ≠ key) : seek key tail (cs ++ ds) = seek key tail ds := by
  induction cs with
  | nil => rfl
  | cons c cs ih =>
    rw [List.cons_append, seek_cons_of_ne (h c (by simp)), ih fun d hd => h d (by simp [hd])]

theorem seek_cons_cons_neg {key tail c d : List α} {cs : List (List α)}
    (h : ¬ tail <+: d) : seek key tail (c :: d :: cs) = seek key tail (d :: cs) := by
  simp [seek, List.isPrefixOf_iff_prefix, h]

omit [DecidableEq α] in
/-- Two texts that continue with a quotation mark agree up to it. -/
theorem append_quote_prefix_iff {q : α} {a b s t : List α} (ha : q ∉ a) (hb : q ∉ b) :
    a ++ q :: s <+: b ++ q :: t ↔ a = b ∧ s <+: t := by
  induction a generalizing b with
  | nil =>
    cases b with
    | nil => simp [List.cons_prefix_cons]
    | cons y b =>
      simp only [List.mem_cons, not_or] at hb
      simp [List.cons_prefix_cons, hb.1]
  | cons x a ih =>
    simp only [List.mem_cons, not_or] at ha
    cases b with
    | nil => simp [List.cons_prefix_cons, Ne.symm ha.1]
    | cons y b =>
      simp only [List.mem_cons, not_or] at hb
      simp [List.cons_prefix_cons, ih ha.2 hb.2, and_assoc]

omit [DecidableEq α] in
/-- A pattern with a quotation mark does not start a text without one. -/
theorem not_prefix_of_notMem {q : α} {a b s : List α} (hb : q ∉ b) :
    ¬ a ++ q :: s <+: b := fun h => hb (h.mem (by simp))

omit [DecidableEq α] in
/-- A word without a quotation mark starts a text iff it starts its first chunk. -/
theorem prefix_append_quoted_iff {q : α} {tail d : List α} {cs : List (List α)}
    (ht : q ∉ tail) : tail <+: d ++ quoted q cs ↔ tail <+: d := by
  induction tail generalizing d with
  | nil => simp
  | cons x tail ih =>
    simp only [List.mem_cons, not_or] at ht
    cases d with
    | nil =>
      cases cs with
      | nil => simp
      | cons c cs => simp [List.cons_prefix_cons, Ne.symm ht.1]
    | cons y d => simp [List.cons_prefix_cons, ih ht.2]

/-- **Searching for a quoted word is searching for a chunk.** -/
theorem find_quoted {q : α} {key tail c : List α} {cs : List (List α)} (hc : q ∉ c)
    (hcs : ∀ d ∈ cs, q ∉ d) (hk : q ∉ key) (ht : q ∉ tail) :
    find (q :: (key ++ q :: tail)) (c ++ quoted q cs) = (seek key tail cs).map (quoted q) := by
  rw [find_append_of_notMem hc]
  induction cs with
  | nil => simp [find, seek]
  | cons d cs ih =>
    have hd := hcs d (by simp)
    have ih := ih fun e he => hcs e (by simp [he])
    rw [quoted_cons]
    cases cs with
    | nil =>
      have hp : ¬ q :: (key ++ q :: tail) <+: q :: (d ++ quoted q []) := by
        simpa [List.cons_prefix_cons] using not_prefix_of_notMem hd
      rw [find_cons_neg hp, find_append_of_notMem hd, ih]
      simp [seek]
    | cons e cs =>
      have he := hcs e (by simp)
      have hp : q :: (key ++ q :: tail) <+: q :: (d ++ quoted q (e :: cs)) ↔
          d = key ∧ tail <+: e := by
        rw [List.cons_prefix_cons, quoted_cons, append_quote_prefix_iff hk hd,
          prefix_append_quoted_iff ht]
        simp [eq_comm]
      by_cases h : d = key ∧ tail <+: e
      · rw [find_cons_pos (hp.2 h)]
        simp [seek, List.isPrefixOf_iff_prefix, h]
      · rw [find_cons_neg fun h' => h (hp.1 h'), find_append_of_notMem hd, ih]
        simp [seek, List.isPrefixOf_iff_prefix, h]

end Text

end HaPanel
