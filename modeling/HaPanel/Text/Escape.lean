import HaPanel.Text.FlatObject

/-!
# Escaped text values

An escaper replaces every character of a value by a short text in which a quotation mark is
always preceded by the escape character.  Cut at its quotation marks, an escaped value
therefore consists of pieces that end with the escape character, and one last piece
(`Escaper.escape_pieces`), so a lookup can read it (`Escaper.readable`) and it can only look
like a key at its end.  `Escaper.endsLike_iff` says when it does: the value is the key, or it
ends with a quotation mark and the key.
-/

namespace HaPanel

namespace Text

variable {α : Type*} [DecidableEq α]

/-- A way to write a value between quotation marks. -/
structure Escaper (α : Type*) where
  /-- The quotation mark. -/
  quote : α
  /-- The escape character. -/
  esc : α
  /-- What a character is replaced by. -/
  char : α → List α
  char_quote : char quote = [esc, quote]
  quote_notMem_char : ∀ c, c ≠ quote → quote ∉ char c
  quote_ne_esc : quote ≠ esc

namespace Escaper

/-- The escaped text of a value. -/
def escape (E : Escaper α) (v : List α) : List α := v.flatMap E.char

variable {E : Escaper α}

/-- Text without a quotation mark in front lengthens the first piece. -/
theorem splitOn_append {q : α} {s t : List α} (hs : q ∉ s) :
    (s ++ t).splitOn q = (t.splitOn q).modifyHead (s ++ ·) := by
  induction s with
  | nil => cases h : t.splitOn q <;> simp [h]
  | cons a s ih =>
    simp only [List.mem_cons, not_or] at hs
    rw [List.cons_append, List.splitOn_cons_eq_if_modifyHead, ih hs.2]
    simp [Ne.symm hs.1, Function.comp_def]

/-- The pieces of a value are made of its characters. -/
theorem mem_of_mem_splitOn {q c : α} {p v : List α} (hp : p ∈ v.splitOn q) (hc : c ∈ p) :
    c ∈ v := by
  have hmem : c ∈ quoted q (v.splitOn q) := List.mem_flatMap.2 ⟨p, hp, by simp [hc]⟩
  rw [quoted_splitOn, List.mem_cons] at hmem
  refine hmem.resolve_left ?_
  rintro rfl
  exact notMem_of_mem_splitOn hp hc

omit [DecidableEq α] in
@[simp] theorem escape_nil : E.escape [] = [] := rfl

omit [DecidableEq α] in
@[simp] theorem escape_cons (c : α) (v : List α) : E.escape (c :: v) = E.char c ++ E.escape v :=
  rfl

/-- The pieces of an escaped value are those of the value, escaped; all but the last one got an
escape character at their end. -/
theorem splitOn_escape (v : List α) :
    (E.escape v).splitOn E.quote =
      ((v.splitOn E.quote).dropLast.map fun p => E.escape p ++ [E.esc]) ++
        ((v.splitOn E.quote).getLast?.map E.escape).toList := by
  induction v with
  | nil => simp
  | cons c v ih =>
    have hne := List.splitOn_ne_nil E.quote v
    rw [List.splitOn_cons_eq_if_modifyHead, escape_cons]
    by_cases hc : c = E.quote
    · subst hc
      have hesc : E.quote ∉ [E.esc] := by simp [E.quote_ne_esc]
      have hcut : (E.esc :: E.quote :: E.escape v).splitOn E.quote =
          [E.esc] :: (E.escape v).splitOn E.quote := by
        have := splitOn_append (t := E.quote :: E.escape v) hesc
        simpa [List.splitOn_cons_eq_if_modifyHead] using this
      rw [E.char_quote]
      simp only [beq_self_eq_true, ↓reduceIte, List.cons_append, List.nil_append, hcut, ih]
      cases h : v.splitOn E.quote with
      | nil => exact absurd h hne
      | cons p ps => simp
    · rw [splitOn_append (E.quote_notMem_char c hc), ih]
      simp only [beq_iff_eq, hc, ↓reduceIte]
      cases h : v.splitOn E.quote with
      | nil => exact absurd h hne
      | cons p ps => cases ps <;> simp

/-- **All pieces of an escaped value but the last end with the escape character.** -/
theorem escape_pieces {v p : List α} (hp : p ∈ ((E.escape v).splitOn E.quote).dropLast) :
    E.esc ∈ p := by
  have hne := List.splitOn_ne_nil E.quote v
  rw [splitOn_escape, List.getLast?_eq_some_getLast hne] at hp
  simp only [Option.map_some, Option.toList_some, List.dropLast_concat, List.mem_map] at hp
  obtain ⟨p', -, rfl⟩ := hp
  simp

/-- An escaped value can be read by the lookup of any key without the escape character. -/
theorem readable {key : List α} (hkey : E.esc ∉ key) (v : List α) :
    (Value.text (E.escape v)).Readable E.quote key := by
  intro c hc h
  exact hkey (h ▸ escape_pieces hc)

/-- The last piece of a value is `key`: the value is the key or ends with the quoted key. -/
theorem getLast?_splitOn_iff {q : α} {key v : List α} (hq : q ∉ key) :
    (v.splitOn q).getLast? = some key ↔ v = key ∨ q :: key <:+ v := by
  induction v with
  | nil => simp [eq_comm]
  | cons c v ih =>
    have hne := List.splitOn_ne_nil q v
    rw [List.splitOn_cons_eq_if_modifyHead]
    by_cases hc : c = q
    · subst hc
      have hk : c :: v ≠ key := fun h => hq (by simp [← h])
      simp only [beq_self_eq_true, ↓reduceIte, List.getLast?_cons, hk, false_or]
      rw [List.getLast?_eq_some_getLast hne] at ih ⊢
      rw [Option.getD_some, ih, List.suffix_cons_iff, List.cons.injEq]
      simp [eq_comm]
    · simp only [beq_iff_eq, hc, ↓reduceIte]
      rw [List.suffix_cons_iff, List.cons.injEq]
      cases h : v.splitOn q with
      | nil => exact absurd h hne
      | cons p ps =>
        rw [h] at ih
        cases ps with
        | nil =>
          have hv : p = v := by
            have hi : [q].intercalate (v.splitOn q) = v := List.intercalate_splitOn q
            rw [h] at hi
            simpa [List.intercalate] using hi
          have hqv : ¬ q :: key <:+ v := by
            have hmem : p ∈ v.splitOn q := by simp [h]
            intro hs
            exact notMem_of_mem_splitOn (hv ▸ hmem) (hs.mem (by simp))
          subst hv
          simp [hqv, Ne.symm hc]
        | cons p' ps =>
          have hqv : q ∈ v := by
            by_contra hmem
            rw [List.splitOn_eq_singleton hmem] at h
            simp at h
          have hk : c :: v ≠ key := by rintro rfl; exact hq (by simp [hqv])
          have hv : v ≠ key := by rintro rfl; exact hq hqv
          simp only [hv, false_or] at ih
          simp only [hk, false_or, Ne.symm hc, false_and]
          rw [← ih]
          simp

omit [DecidableEq α] in
/-- Characters that are not written as themselves leave the escape character in the text. -/
theorem escape_eq_iff {key v : List α} (hkey : E.esc ∉ key) (hplain : ∀ c ∈ key, E.char c = [c])
    (hv : ∀ c ∈ v, E.char c = [c] ∨ E.esc ∈ E.char c) : E.escape v = key ↔ v = key := by
  have hself : ∀ w : List α, (∀ c ∈ w, E.char c = [c]) → E.escape w = w := by
    intro w hw
    induction w with
    | nil => rfl
    | cons c w ih => simp [hw c (by simp), ih fun d hd => hw d (by simp [hd])]
  constructor
  · intro h
    have hpl : ∀ c ∈ v, E.char c = [c] := by
      intro c hc
      refine (hv c hc).resolve_right fun hmem => hkey ?_
      rw [← h, escape, List.mem_flatMap]
      exact ⟨c, hc, hmem⟩
    rw [← h, hself v hpl]
  · rintro rfl
    exact hself v hplain

/-- **When an escaped value looks like a key**: it is the key, or it ends with a quotation mark
and the key. -/
theorem endsLike_iff {key v : List α} (hkey : E.esc ∉ key) (hq : E.quote ∉ key)
    (hplain : ∀ c ∈ key, E.char c = [c])
    (hv : ∀ c ∈ v, E.char c = [c] ∨ E.esc ∈ E.char c) :
    (Value.text (E.escape v)).EndsLike E.quote key ↔ v = key ∨ E.quote :: key <:+ v := by
  have hne := List.splitOn_ne_nil E.quote v
  rw [Value.EndsLike, splitOn_escape, List.getLast?_eq_some_getLast hne,
    ← getLast?_splitOn_iff hq, List.getLast?_eq_some_getLast hne]
  simp only [Option.map_some, Option.toList_some, List.getLast?_concat, Option.some.injEq]
  refine escape_eq_iff hkey hplain fun c hc => hv c ?_
  exact mem_of_mem_splitOn (List.getLast_mem hne) hc

end Escaper

end Text

end HaPanel
