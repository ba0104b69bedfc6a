import HaPanel.Assist.Markdown
import Mathlib.Data.List.Chain
import Mathlib.Tactic.IntervalCases

/-!
# What becomes of markdown

The rules for the text of an answer, apart from the loops of `assist_parse_markdown`: `Stripped`
says what the beginning of a line means, `Cut` where its `**` are, and `Styled` puts the styles on
the bytes of the lines.  Each of them leaves no choice (`Styled.unique`).

`parseMarkdown_styled` : the runs are the bytes in their styles, nothing is lost but markup, and
neighbouring runs differ in style.
-/

namespace HaPanel

namespace Assist

open Text

/-! ### The rules -/

/-- A line, whether it is a heading, and what is left of it. -/
inductive Stripped : Bytes → Bool → Bytes → Prop where
  | heading {marks : ℕ} {text : Bytes} (hlow : 1 ≤ marks) (hhigh : marks ≤ 3) :
    Stripped (List.replicate marks (byte '#') ++ byte ' ' :: text) true text
  | bullet {c : UInt8} {text : Bytes} (hc : c = byte '-' ∨ c = byte '*') :
    Stripped (c :: byte ' ' :: text) false (str "• " ++ text)
  | plain {line : Bytes}
    (hheading : ∀ marks text, 1 ≤ marks → marks ≤ 3 →
      line ≠ List.replicate marks (byte '#') ++ byte ' ' :: text)
    (hbullet : ∀ c text, c = byte '-' ∨ c = byte '*' → line ≠ c :: byte ' ' :: text) :
    Stripped line false line

/-- `**`. -/
def stars : Bytes := [byte '*', byte '*']

/-- A text, cut at the markers that are found from left to right. -/
inductive Cut : Bytes → List Bytes → Prop where
  | last {text : Bytes} (h : ¬ stars <:+: text) : Cut text [text]
  | cons {piece rest : Bytes} {pieces : List Bytes} (h : ¬ stars <:+: piece ++ [byte '*'])
    (hrest : Cut rest pieces) : Cut (piece ++ stars ++ rest) (piece :: pieces)

/-- The style of a byte with so many markers before it on its line. -/
def byteStyle (heading : Bool) (markers : ℕ) : MarkdownStyle :=
  if heading then .heading else if markers % 2 = 1 then .emphasis else .normal

/-- The bytes of the pieces of a line, after so many markers. -/
def styledPieces (heading : Bool) : ℕ → List Bytes → List (UInt8 × MarkdownStyle)
  | _, [] => []
  | n, piece :: pieces =>
    piece.map (fun c => (c, byteStyle heading n)) ++ styledPieces heading (n + 1) pieces

/-- The bytes of a line. -/
def StyledLine (line : Bytes) (heading : Bool) (bytes : List (UInt8 × MarkdownStyle)) : Prop :=
  ∃ text pieces, Stripped line heading text ∧ Cut text pieces ∧
    bytes = styledPieces heading 0 pieces

/-- The bytes of some lines; a newline is never emphasised. -/
inductive Styled : List Bytes → List (UInt8 × MarkdownStyle) → Prop where
  | last {line : Bytes} {heading : Bool} {bytes : List (UInt8 × MarkdownStyle)}
    (hline : StyledLine line heading bytes) : Styled [line] bytes
  | cons {line : Bytes} {heading : Bool} {bytes rest : List (UInt8 × MarkdownStyle)}
    {lines : List Bytes} (hline : StyledLine line heading bytes) (hrest : Styled lines rest) :
    Styled (line :: lines) (bytes ++ (10, byteStyle heading 0) :: rest)

/-! ### The rules leave no choice -/

theorem hash_ne_space : byte '#' ≠ byte ' ' := by decide

theorem bullet_ne_hash {c : UInt8} (hc : c = byte '-' ∨ c = byte '*') : c ≠ byte '#' := by
  rcases hc with rfl | rfl <;> decide

theorem marks_unique {m n : ℕ} {a b : Bytes}
    (h : List.replicate m (byte '#') ++ byte ' ' :: a =
      List.replicate n (byte '#') ++ byte ' ' :: b) : a = b := by
  induction m generalizing n with
  | zero =>
    cases n with
    | zero => exact (List.cons.inj h).2
    | succ n => exact absurd (List.cons.inj h).1.symm hash_ne_space
  | succ m ih =>
    cases n with
    | zero => exact absurd (List.cons.inj h).1 hash_ne_space
    | succ n => exact ih (List.cons.inj h).2

theorem heading_ne_bullet {marks : ℕ} (hlow : 1 ≤ marks) {c : UInt8}
    (hc : c = byte '-' ∨ c = byte '*') (a b : Bytes) :
    List.replicate marks (byte '#') ++ byte ' ' :: a ≠ c :: byte ' ' :: b := by
  obtain ⟨n, rfl⟩ := Nat.exists_eq_add_of_le' hlow
  intro h
  exact bullet_ne_hash hc (List.cons.inj h).1.symm

theorem Stripped.unique {line a b : Bytes} {heading heading' : Bool} (h : Stripped line heading a)
    (h' : Stripped line heading' b) : heading = heading' ∧ a = b := by
  cases h with
  | heading hlow hhigh =>
    generalize hline : List.replicate _ (byte '#') ++ byte ' ' :: a = line at h'
    cases h' with
    | heading => exact ⟨rfl, marks_unique hline⟩
    | bullet hc => exact absurd hline (heading_ne_bullet hlow hc _ _)
    | plain hheading => exact absurd hline.symm (hheading _ _ hlow hhigh)
  | @bullet c text hc =>
    generalize hline : c :: byte ' ' :: text = line at h'
    cases h' with
    | heading hlow => exact absurd hline.symm (heading_ne_bullet hlow hc _ _)
    | bullet =>
      obtain ⟨-, htail⟩ := List.cons.inj hline
      obtain ⟨-, rfl⟩ := List.cons.inj htail
      exact ⟨rfl, rfl⟩
    | plain _ hbullet => exact absurd hline.symm (hbullet _ _ hc)
  | plain hheading hbullet =>
    cases h' with
    | heading hlow hhigh => exact absurd rfl (hheading _ _ hlow hhigh)
    | bullet hc => exact absurd rfl (hbullet _ _ hc)
    | plain => exact ⟨rfl, rfl⟩

/-- The first marker is in one place. -/
theorem length_le_of_stars {p q r s : Bytes} (h : p ++ stars ++ r = q ++ stars ++ s)
    (hq : ¬ stars <:+: q ++ [byte '*']) : q.length ≤ p.length := by
  by_contra hlt
  push Not at hlt
  -- the marker after `p` ends before the second star of the one after `q`
  have hsub : p ++ stars <+: q ++ [byte '*'] := by
    have hp : p ++ stars <+: q ++ stars ++ s := by
      rw [← h]
      exact List.prefix_append _ _
    have hq' : q ++ [byte '*'] <+: q ++ stars ++ s := by
      refine ⟨byte '*' :: s, ?_⟩
      simp [stars]
    refine List.prefix_of_prefix_length_le hp hq' ?_
    simp only [List.length_append, stars, List.length_cons, List.length_nil]
    omega
  obtain ⟨t, ht⟩ := hsub
  exact hq ⟨p, t, ht⟩

theorem Cut.unique {text : Bytes} {pieces pieces' : List Bytes} (h : Cut text pieces)
    (h' : Cut text pieces') : pieces = pieces' := by
  induction h generalizing pieces' with
  | last hno =>
    cases h' with
    | last => rfl
    | @cons piece rest => exact absurd ⟨piece, rest, rfl⟩ hno
  | @cons piece rest pieces hfirst hrest ih =>
    generalize htext : piece ++ stars ++ rest = text at h'
    cases h' with
    | last hno => exact absurd ⟨piece, rest, htext⟩ hno
    | cons hfirst' hrest' =>
      have hlen := le_antisymm (length_le_of_stars htext.symm hfirst)
        (length_le_of_stars htext hfirst')
      rw [List.append_assoc, List.append_assoc] at htext
      obtain ⟨rfl, htail⟩ := List.append_inj htext hlen
      rw [List.append_cancel_left_eq] at htail
      subst htail
      rw [ih hrest']

theorem StyledLine.unique {line : Bytes} {heading heading' : Bool}
    {bytes bytes' : List (UInt8 × MarkdownStyle)} (h : StyledLine line heading bytes)
    (h' : StyledLine line heading' bytes') : heading = heading' ∧ bytes = bytes' := by
  obtain ⟨text, pieces, hstripped, hcut, rfl⟩ := h
  obtain ⟨text', pieces', hstripped', hcut', rfl⟩ := h'
  obtain ⟨rfl, rfl⟩ := hstripped.unique hstripped'
  rw [hcut.unique hcut']
  exact ⟨rfl, rfl⟩

theorem Styled.ne_nil {lines : List Bytes} {bytes : List (UInt8 × MarkdownStyle)}
    (h : Styled lines bytes) : lines ≠ [] := by
  cases h <;> exact List.cons_ne_nil _ _

/-- **There is one way to style a text.** -/
theorem Styled.unique {lines : List Bytes} {bytes bytes' : List (UInt8 × MarkdownStyle)}
    (h : Styled lines bytes) (h' : Styled lines bytes') : bytes = bytes' := by
  induction h generalizing bytes' with
  | last hline =>
    cases h' with
    | last hline' => exact (hline.unique hline').2
    | cons _ hrest => exact absurd rfl hrest.ne_nil
  | cons hline hrest ih =>
    cases h' with
    | last => exact absurd rfl hrest.ne_nil
    | cons hline' hrest' =>
      obtain ⟨rfl, rfl⟩ := hline.unique hline'
      rw [ih hrest']

/-! ### Runs -/

/-- The bytes of the runs. -/
def styledBytes (runs : List MarkdownRun) : List (UInt8 × MarkdownStyle) :=
  runs.flatMap fun r => r.text.map fun c => (c, r.style)

/-- No run is empty, and neighbouring runs differ in style. -/
structure Merged (runs : List MarkdownRun) : Prop where
  differ : runs.IsChain fun a b => a.style ≠ b.style
  nonempty : ∀ r ∈ runs, r.text ≠ []

theorem merged_nil : Merged [] := ⟨.nil, by simp⟩

theorem styledBytes_append (a b : List MarkdownRun) :
    styledBytes (a ++ b) = styledBytes a ++ styledBytes b :=
  List.flatMap_append

theorem styledBytes_singleton (r : MarkdownRun) :
    styledBytes [r] = r.text.map fun c => (c, r.style) :=
  List.flatMap_singleton ..

/-- What `assist_markdown_append_run` does: nothing, or the last run grows, or there is a new
one. -/
theorem appendRun_cases (runs : List MarkdownRun) (style : MarkdownStyle) (text : Bytes) :
    text = [] ∧ appendRun runs style text = runs ∨
      (∃ init r, runs = init ++ [r] ∧ r.style = style ∧
        appendRun runs style text = init ++ [⟨r.text ++ text, style⟩]) ∨
      text ≠ [] ∧ (∀ r ∈ runs.getLast?, r.style ≠ style) ∧
        appendRun runs style text = runs ++ [⟨text, style⟩] := by
  by_cases htext : text = []
  · exact .inl ⟨htext, if_pos htext⟩
  · rcases List.eq_nil_or_concat runs with rfl | ⟨init, r, rfl⟩
    · exact .inr (.inr ⟨htext, by simp, if_neg htext⟩)
    · rw [List.concat_eq_append]
      by_cases hstyle : r.style = style
      · refine .inr (.inl ⟨init, r, rfl, hstyle, ?_⟩)
        simp [appendRun, htext, hstyle]
      · refine .inr (.inr ⟨htext, by simpa using hstyle, ?_⟩)
        simp [appendRun, htext, hstyle]

theorem styledBytes_appendRun (runs : List MarkdownRun) (style : MarkdownStyle) (text : Bytes) :
    styledBytes (appendRun runs style text) =
      styledBytes runs ++ text.map fun c => (c, style) := by
  rcases appendRun_cases runs style text with ⟨rfl, heq⟩ | ⟨init, r, rfl, rfl, heq⟩ | ⟨-, -, heq⟩
  · rw [heq, List.map_nil, List.append_nil]
  · rw [heq, styledBytes_append, styledBytes_append, styledBytes_singleton, styledBytes_singleton,
      List.map_append, List.append_assoc]
  · rw [heq, styledBytes_append, styledBytes_singleton]

theorem Merged.appendRun {runs : List MarkdownRun} (h : Merged runs) (style : MarkdownStyle)
    (text : Bytes) : Merged (appendRun runs style text) := by
  rcases appendRun_cases runs style text with
    ⟨-, heq⟩ | ⟨init, r, rfl, rfl, heq⟩ | ⟨htext, hlast, heq⟩
  · rw [heq]
    exact h
  · obtain ⟨hdiffer, hnonempty⟩ := h
    rw [List.isChain_append] at hdiffer
    rw [heq]
    refine ⟨List.isChain_append.2 ⟨hdiffer.1, .singleton _, ?_⟩, ?_⟩
    · simpa using hdiffer.2.2
    · intro s hs
      rcases List.mem_append.1 hs with hs | hs
      · exact hnonempty s (List.mem_append_left _ hs)
      · have hr := hnonempty r (List.mem_append_right _ (List.mem_singleton_self r))
        rw [List.mem_singleton.1 hs]
        exact List.append_ne_nil_of_left_ne_nil hr _
  · rw [heq]
    refine ⟨List.isChain_append.2 ⟨h.differ, .singleton _, ?_⟩, ?_⟩
    · simpa using hlast
    · intro s hs
      rcases List.mem_append.1 hs with hs | hs
      · exact h.nonempty s hs
      · rw [List.mem_singleton.1 hs]
        exact htext

/-! ### The loop over the markers -/

theorem spanStyle_eq (heading : Bool) (n : ℕ) :
    spanStyle (if heading then .heading else .normal) (n % 2 = 1) = byteStyle heading n := by
  cases heading
  · simp [spanStyle, byteStyle]
  · rfl

/-- A marker that is not in `l` and comes about with one more byte is at the end. -/
theorem not_stars_concat {l : Bytes} {c d : UInt8} (h : ¬ stars <:+: l ++ [c])
    (hne : ¬ (c = byte '*' ∧ d = byte '*')) : ¬ stars <:+: l ++ [c] ++ [d] := by
  rw [List.infix_concat_iff, not_or]
  refine ⟨?_, h⟩
  rintro ⟨t, ht⟩
  have hsplit : t ++ [byte '*'] ++ [byte '*'] = l ++ [c] ++ [d] := by
    rw [← ht]
    simp [stars]
  obtain ⟨hinit, rfl⟩ := List.append_singleton_inj.1 hsplit
  obtain ⟨-, rfl⟩ := List.append_singleton_inj.1 hinit
  exact hne ⟨rfl, rfl⟩

theorem not_stars_take_one (s : Bytes) : ¬ stars <:+: [] ++ s.take 1 := by
  intro h
  have hle := h.length_le
  simp only [List.nil_append, List.length_take, stars, List.length_cons, List.length_nil] at hle
  omega

/-- **The loop over the markers** finds the cuts; `acc` is the piece that is being read. -/
theorem addSpans_styled (heading : Bool) (n : ℕ) (acc : Bytes) (runs : List MarkdownRun)
    (s : Bytes) (hacc : ¬ stars <:+: acc ++ s.take 1) (hruns : Merged runs) :
    Merged (addSpans (if heading then .heading else .normal) (n % 2 = 1) acc runs s) ∧
      ∃ pieces, Cut (acc ++ s) pieces ∧
        styledBytes (addSpans (if heading then .heading else .normal) (n % 2 = 1) acc runs s) =
          styledBytes runs ++ styledPieces heading n pieces := by
  induction hlen : s.length using Nat.strongRecOn generalizing n acc runs s with
  | ind k ih =>
    match s with
    | [] =>
      rw [List.take_nil, List.append_nil] at hacc
      rw [addSpans, spanStyle_eq]
      refine ⟨hruns.appendRun _ _, [acc], ?_, ?_⟩
      · rw [List.append_nil]
        exact .last hacc
      · rw [styledBytes_appendRun, styledPieces, styledPieces, List.append_nil]
    | [c] =>
      rw [addSpans, spanStyle_eq]
      refine ⟨hruns.appendRun _ _, [acc ++ [c]], .last hacc, ?_⟩
      rw [styledBytes_appendRun, styledPieces, styledPieces, List.append_nil]
    | c :: d :: rest =>
      have htake : acc ++ (c :: d :: rest).take 1 = acc ++ [c] := rfl
      rw [htake] at hacc
      by_cases hmark : c = byte '*' ∧ d = byte '*'
      · -- a marker: the piece is complete
        rw [addSpans, if_pos hmark, spanStyle_eq]
        obtain ⟨rfl, rfl⟩ := hmark
        have hflip : (!decide (n % 2 = 1)) = decide ((n + 1) % 2 = 1) := by
          rcases Nat.mod_two_eq_zero_or_one n with hn | hn <;> simp [Nat.add_mod, hn]
        have hempty := not_stars_take_one rest
        rw [hflip]
        obtain ⟨hmerged, pieces, hcut, hbytes⟩ := ih rest.length
          (by rw [← hlen, List.length_cons, List.length_cons]; omega) (n + 1) []
          (appendRun runs (byteStyle heading n) acc) rest hempty (hruns.appendRun _ _) rfl
        refine ⟨hmerged, acc :: pieces, ?_, ?_⟩
        · have hcons := Cut.cons hacc hcut
          rw [List.append_assoc] at hcons
          exact hcons
        · rw [hbytes, styledBytes_appendRun, styledPieces, List.append_assoc]
      · rw [addSpans, if_neg hmark]
        have hnext : ¬ stars <:+: acc ++ [c] ++ (d :: rest).take 1 := not_stars_concat hacc hmark
        obtain ⟨hmerged, pieces, hcut, hbytes⟩ := ih (d :: rest).length
          (by rw [← hlen]; exact Nat.lt_succ_self _) n (acc ++ [c]) runs
          (d :: rest) hnext hruns rfl
        refine ⟨hmerged, pieces, ?_, hbytes⟩
        rw [List.append_assoc] at hcut
        exact hcut

/-! ### Lines -/

/-- The marks that are counted, and at most three of them are. -/
theorem headingMarks_spec (line : Bytes) :
    (line.take 3).takeWhile (· == byte '#') =
        List.replicate ((line.take 3).takeWhile (· == byte '#')).length (byte '#') ∧
      (line.take 3).takeWhile (· == byte '#') <+: line ∧
      ((line.take 3).takeWhile (· == byte '#')).length ≤ 3 := by
  have hsub : (line.take 3).takeWhile (· == byte '#') <+: line.take 3 := List.takeWhile_prefix _
  refine ⟨?_, hsub.trans (List.take_prefix _ _), ?_⟩
  · refine List.eq_replicate_iff.2 ⟨rfl, ?_⟩
    intro c hc
    exact eq_of_beq (List.mem_takeWhile_imp (p := fun x => x == byte '#') hc)
  · refine le_trans hsub.length_le ?_
    rw [List.length_take]
    exact min_le_left _ _

theorem headingMarks_of_heading {marks : ℕ} (hhigh : marks ≤ 3) (text : Bytes) :
    (((List.replicate marks (byte '#') ++ byte ' ' :: text).take 3).takeWhile
      (· == byte '#')).length = marks := by
  have hspace : (byte ' ' == byte '#') = false := rfl
  interval_cases marks <;> simp [hspace]

theorem drop_eq_cons_of_getElem? {l : Bytes} {n : ℕ} {c : UInt8} (h : l[n]? = some c) :
    l.drop n = c :: l.drop (n + 1) := by
  obtain ⟨hn, rfl⟩ := List.getElem?_eq_some_iff.1 h
  exact List.drop_eq_getElem_cons hn

/-- The first bytes of the line say what it is. -/
theorem stripMarks_stripped (line : Bytes) :
    ∃ heading, (stripMarks line).1 = (if heading then .heading else .normal) ∧
      Stripped line heading (stripMarks line).2 := by
  obtain ⟨hall, hsub, hhigh⟩ := headingMarks_spec line
  unfold stripMarks
  generalize hmarks : (line.take 3).takeWhile (· == byte '#') = hashes at hall hsub hhigh
  by_cases hheading : 0 < hashes.length ∧ (line)[hashes.length]? = some (byte ' ')
  · refine ⟨true, by simp only [hheading, and_self, if_true], ?_⟩
    simp only [hheading, and_self, if_true]
    have hline : line = List.replicate hashes.length (byte '#') ++
        byte ' ' :: line.drop (hashes.length + 1) := by
      rw [← hall, ← drop_eq_cons_of_getElem? hheading.2]
      nth_rewrite 1 [← List.take_append_drop hashes.length line]
      rw [← List.prefix_iff_eq_take.1 hsub]
    nth_rewrite 1 [hline]
    exact .heading hheading.1 hhigh
  · by_cases hbullet : ((line)[0]? = some (byte '-') ∨ (line)[0]? = some (byte '*')) ∧
        (line)[1]? = some (byte ' ')
    · refine ⟨false, by simp only [hheading, hbullet, if_false]; rfl, ?_⟩
      simp only [hheading, hbullet, and_self, if_true, if_false]
      match line, hbullet with
      | c :: d :: text, hbullet =>
        simp only [List.getElem?_cons_zero, List.getElem?_cons_succ, Option.some.injEq] at hbullet
        obtain ⟨hc, rfl⟩ := hbullet
        exact .bullet hc
    · refine ⟨false, by simp only [hheading, hbullet, if_false]; rfl, ?_⟩
      simp only [hheading, hbullet, if_false]
      refine .plain ?_ ?_
      · rintro marks text hlow hle rfl
        have hcount := headingMarks_of_heading hle text
        rw [hmarks] at hcount
        refine hheading ⟨by omega, ?_⟩
        rw [hcount]
        simp
      · rintro c text hc rfl
        refine hbullet ⟨?_, rfl⟩
        rcases hc with rfl | rfl
        · exact .inl rfl
        · exact .inr rfl

/-- A line, with its newline if it has one. -/
theorem addLine_styled {runs : List MarkdownRun} (hruns : Merged runs) (line : Bytes) :
    ∃ heading bytes, StyledLine line heading bytes ∧
      (Merged (addLine runs line false) ∧
        styledBytes (addLine runs line false) = styledBytes runs ++ bytes) ∧
      Merged (addLine runs line true) ∧
        styledBytes (addLine runs line true) =
          styledBytes runs ++ (bytes ++ [(10, byteStyle heading 0)]) := by
  obtain ⟨heading, hbase, hstripped⟩ := stripMarks_stripped line
  have hnone : ¬ stars <:+: [] ++ (stripMarks line).2.take 1 := not_stars_take_one _
  obtain ⟨hmerged, pieces, hcut, hbytes⟩ :=
    addSpans_styled heading 0 [] runs (stripMarks line).2 hnone hruns
  have hstyle : (if heading then .heading else .normal) = byteStyle heading 0 := by
    cases heading <;> rfl
  refine ⟨heading, styledPieces heading 0 pieces, ⟨_, pieces, hstripped, hcut, rfl⟩, ?_, ?_⟩
  · simp only [addLine, hbase, Bool.false_eq_true, if_false]
    exact ⟨hmerged, hbytes⟩
  · simp only [addLine, hbase, if_true]
    refine ⟨hmerged.appendRun _ _, ?_⟩
    rw [styledBytes_appendRun, ← List.append_assoc]
    refine congrArg₂ _ hbytes ?_
    rw [hstyle, List.map_singleton]

/-- **The loop over the lines.** -/
theorem addLines_styled {runs : List MarkdownRun} (hruns : Merged runs) {lines : List Bytes}
    (hlines : lines ≠ []) :
    Merged (addLines runs lines) ∧
      ∃ bytes, Styled lines bytes ∧
        styledBytes (addLines runs lines) = styledBytes runs ++ bytes := by
  induction lines generalizing runs with
  | nil => exact absurd rfl hlines
  | cons line lines ih =>
    obtain ⟨heading, bytes, hline, hlast, hmerged, hbytes⟩ := addLine_styled hruns line
    cases lines with
    | nil => exact ⟨hlast.1, bytes, .last hline, hlast.2⟩
    | cons next lines =>
      obtain ⟨hrest, rest, hstyled, hall⟩ := ih hmerged (List.cons_ne_nil _ _)
      have hstep : addLines runs (line :: next :: lines) =
          addLines (addLine runs line true) (next :: lines) := rfl
      rw [hstep]
      refine ⟨hrest, _, .cons hline hstyled, ?_⟩
      rw [hall, hbytes, List.append_assoc, List.append_assoc, List.singleton_append]

/-! ### The result -/

theorem parseMarkdown_cases (markdown : Bytes) :
    addLines [] (markdown.splitOn 10) = [] ∧ parseMarkdown markdown = [⟨[], .normal⟩] ∨
      addLines [] (markdown.splitOn 10) ≠ [] ∧
        parseMarkdown markdown = addLines [] (markdown.splitOn 10) := by
  unfold parseMarkdown
  split
  next hnil => exact .inl ⟨hnil, rfl⟩
  next hne => exact .inr ⟨hne, rfl⟩

theorem styledBytes_parseMarkdown (markdown : Bytes) :
    styledBytes (parseMarkdown markdown) =
      styledBytes (addLines [] (markdown.splitOn 10)) := by
  rcases parseMarkdown_cases markdown with ⟨hnil, heq⟩ | ⟨-, heq⟩
  · rw [heq, hnil]
    rfl
  · rw [heq]

theorem map_fst_styledBytes (runs : List MarkdownRun) :
    (styledBytes runs).map Prod.fst = runs.flatMap fun r => r.text := by
  simp only [styledBytes, List.map_flatMap, List.map_map, Function.comp_def, List.map_id']

/-- **Markdown loses nothing but markup.**  The runs of a text are its bytes as the rules style
them; neighbouring runs differ in style, and only the one run of an empty result is empty. -/
theorem parseMarkdown_styled (markdown : Bytes) :
    ∃ bytes, (Styled (markdown.splitOn 10) bytes ∧
        ∀ bytes', Styled (markdown.splitOn 10) bytes' → bytes' = bytes) ∧
      styledBytes (parseMarkdown markdown) = bytes ∧
      (parseMarkdown markdown).flatMap (fun r => r.text) = bytes.map Prod.fst ∧
      (parseMarkdown markdown).IsChain (fun a b => a.style ≠ b.style) ∧
      ((∀ r ∈ parseMarkdown markdown, r.text ≠ []) ∨
        bytes = [] ∧ parseMarkdown markdown = [⟨[], .normal⟩]) := by
  obtain ⟨hmerged, bytes, hstyled, hbytes⟩ :=
    addLines_styled merged_nil (List.splitOn_ne_nil (10 : UInt8) markdown)
  have hall : styledBytes (parseMarkdown markdown) = bytes := by
    rw [styledBytes_parseMarkdown, hbytes]
    rfl
  refine ⟨bytes, ⟨hstyled, fun _ h => h.unique hstyled⟩, hall, ?_, ?_⟩
  · rw [← map_fst_styledBytes, hall]
  · rcases parseMarkdown_cases markdown with ⟨hnil, heq⟩ | ⟨-, heq⟩
    · rw [heq]
      refine ⟨.singleton _, .inr ⟨?_, rfl⟩⟩
      rw [hnil] at hbytes
      exact hbytes.symm
    · rw [heq]
      exact ⟨hmerged.differ, .inl hmerged.nonempty⟩

end Assist

end HaPanel
