import HaPanel.Assist.Styling
import HaPanel.Text.Utf8
import HaPanel.Transition.Run

/-!
# The answer appears

The overlay shows an answer little by little: `assist_overlay_prepare_markdown` makes an empty span
for each run, and `assist_overlay_reveal_markdown` is called with the number of characters that
should be visible.  It counts characters by the bytes that do not continue one, cuts by the widths
the first bytes announce, and leaves a span alone whose number has not changed.

`reveal_shows_prefix` : after any calls, with numbers in any order, the spans are together the first
characters of the answer.
-/

namespace HaPanel

namespace Assist

open Text Json Transition

/-! ### The functions -/

/-- The width that the first byte of a character announces. -/
def utf8Width (value : UInt8) : ℕ :=
  if value &&& 0xE0 = 0xC0 then 2
  else if value &&& 0xF0 = 0xE0 then 3
  else if value &&& 0xF8 = 0xF0 then 4
  else 1

/-- The loop of `assist_overlay_utf8_prefix_bytes`, with `characters` to go. -/
def utf8PrefixBytesFrom (text : Bytes) : ℕ → ℕ → ℕ
  | bytes, 0 => bytes
  | bytes, characters + 1 =>
    if bytes < text.length then
      utf8PrefixBytesFrom text (min text.length (bytes + utf8Width (text.getD bytes 0))) characters
    else bytes

def utf8PrefixBytes (text : Bytes) (characters : ℕ) : ℕ := utf8PrefixBytesFrom text 0 characters

def utf8CharacterCount (text : Bytes) : ℕ := text.countP fun c => c &&& 0xC0 ≠ 0x80

/-- The part of the overlay that shows the answer. -/
structure Overlay where
  /-- `assist_overlay_response` is not null. -/
  response : Bool := false
  responseText : Bytes := []
  runs : List MarkdownRun := []
  /-- The texts of the spans. -/
  spans : List Bytes := []
  revealed : List ℕ := []

namespace Overlay

/-- `assist_overlay_prepare_markdown`. -/
def prepareMarkdown (o : Overlay) (markdown : Bytes) : Overlay :=
  if !o.response then o
  else
    { o with
      runs := parseMarkdown markdown
      responseText := plainText markdown
      spans := (parseMarkdown markdown).map fun _ => []
      revealed := List.replicate (parseMarkdown markdown).length 0 }

/-- The loop of `assist_overlay_reveal_markdown`: the spans and the numbers of their characters. -/
def revealFrom : ℕ → List MarkdownRun → List Bytes → List ℕ → List Bytes × List ℕ
  | remaining, r :: runs, span :: spans, shown :: revealed =>
    let runCharacters := utf8CharacterCount r.text
    let visible := min runCharacters remaining
    let rest := revealFrom (remaining - runCharacters) runs spans revealed
    if visible ≠ shown then
      (cStr (r.text.take (utf8PrefixBytes r.text visible)) :: rest.1, visible :: rest.2)
    else (span :: rest.1, shown :: rest.2)
  | _, _, spans, revealed => (spans, revealed)

/-- `assist_overlay_reveal_markdown`. -/
def revealMarkdown (o : Overlay) (characters : ℕ) : Overlay :=
  let shown := revealFrom characters o.runs o.spans o.revealed
  { o with spans := shown.1, revealed := shown.2 }

/-- What happens to the overlay. -/
inductive Step where
  /-- `show_assist_overlay` creates the overlay if there is none. -/
  | create
  | hide
  /-- `assist_overlay_set_text`. -/
  | setText
  | prepare (markdown : Bytes)
  | reveal (characters : ℕ)

def next (o : Overlay) : Step → Overlay
  | .create => { o with response := true }
  | .hide => {}
  | .setText => { o with responseText := [] }
  | .prepare markdown => o.prepareMarkdown markdown
  | .reveal characters => o.revealMarkdown characters

end Overlay

/-! ### Counting and cutting -/

theorem utf8Width_of_leadOf {n : ℕ} {lead : UInt8} (h : LeadOf n lead) :
    utf8Width lead = n + 1 := by
  have hone : ∀ b : UInt8, b < 0x80 → utf8Width b = 1 := forall_byte (by decide +kernel)
  have htwo : ∀ b : UInt8, 0xC0 ≤ b ∧ b < 0xE0 → utf8Width b = 2 := forall_byte (by decide +kernel)
  have hthree : ∀ b : UInt8, 0xE0 ≤ b ∧ b < 0xF0 → utf8Width b = 3 :=
    forall_byte (by decide +kernel)
  have hfour : ∀ b : UInt8, 0xF0 ≤ b ∧ b < 0xF8 → utf8Width b = 4 := forall_byte (by decide +kernel)
  rcases h with ⟨rfl, h⟩ | ⟨rfl, h⟩ | ⟨rfl, h⟩ | ⟨rfl, h⟩
  · exact hone lead h
  · exact htwo lead h
  · exact hthree lead h
  · exact hfour lead h

/-- **The bytes that do not continue a character are the characters.** -/
theorem utf8CharacterCount_encode (cs : List Char) :
    utf8CharacterCount (encode cs) = cs.length := by
  induction cs with
  | nil => rfl
  | cons c cs ih =>
    obtain ⟨lead, rest, heq, hlead, hrest⟩ := utf8EncodeChar_eq c
    have hstart : lead &&& 0xC0 ≠ 0x80 := of_decide_eq_false hlead.not_isContinuation
    have hnone : rest.countP (fun c => c &&& 0xC0 ≠ 0x80) = 0 := by
      rw [List.countP_eq_zero]
      intro b hb
      simpa using of_decide_eq_true (hrest b hb)
    rw [utf8CharacterCount] at ih
    rw [encode_cons, heq, utf8CharacterCount, List.countP_append,
      List.countP_cons_of_pos (by simpa using hstart), hnone, ih, List.length_cons]
    omega

/-- **The widths lead from character to character.** -/
theorem utf8PrefixBytesFrom_encode (before : Bytes) (cs : List Char) (n : ℕ) :
    utf8PrefixBytesFrom (before ++ encode cs) before.length n =
      (before ++ encode (cs.take n)).length := by
  induction n generalizing before cs with
  | zero => simp [utf8PrefixBytesFrom, encode]
  | succ n ih =>
    cases cs with
    | nil => simp [utf8PrefixBytesFrom, encode]
    | cons c cs =>
      obtain ⟨lead, rest, heq, hlead, -⟩ := utf8EncodeChar_eq c
      have htext : before ++ encode (c :: cs) = (before ++ lead :: rest) ++ encode cs := by
        rw [encode_cons, heq, List.append_assoc]
      have hget : (before ++ encode (c :: cs)).getD before.length 0 = lead := by
        rw [encode_cons, heq]
        simp
      have hlt : before.length < (before ++ encode (c :: cs)).length := by
        rw [htext]
        simp
      have hmin : min (before ++ encode (c :: cs)).length (before.length + utf8Width lead) =
          (before ++ lead :: rest).length := by
        rw [utf8Width_of_leadOf hlead, htext]
        simp only [List.length_append, List.length_cons]
        omega
      rw [utf8PrefixBytesFrom, if_pos hlt, hget, hmin, htext, ih, List.take_succ_cons, encode_cons,
        heq, List.append_assoc]

theorem take_utf8PrefixBytes (cs : List Char) (n : ℕ) :
    (encode cs).take (utf8PrefixBytes (encode cs) n) = encode (cs.take n) := by
  have hbytes := utf8PrefixBytesFrom_encode [] cs n
  rw [List.nil_append, List.nil_append, List.length_nil] at hbytes
  have hsplit : encode cs = encode (cs.take n) ++ encode (cs.drop n) := by
    rw [← encode_append, List.take_append_drop]
  rw [utf8PrefixBytes, hbytes, hsplit, List.take_left]

/-! ### The texts of the runs -/

/-- Characters, and none of them is NUL. -/
def IsText (s : Bytes) : Prop := IsUtf8 s ∧ 0 ∉ s

theorem IsText.append {s t : Bytes} (hs : IsText s) (ht : IsText t) : IsText (s ++ t) :=
  ⟨hs.1.append ht.1, by simp [hs.2, ht.2]⟩

/-- A text can be cut at a byte below 128. -/
theorem IsText.split {s t : Bytes} {c : UInt8} (hc : c < 128) (h : IsText (s ++ c :: t)) :
    IsText s ∧ IsText t := by
  obtain ⟨hutf8, hnul⟩ := h
  obtain ⟨hs, ht⟩ := hutf8.split hc
  rw [List.mem_append, List.mem_cons, not_or, not_or] at hnul
  exact ⟨⟨hs, hnul.1⟩, ht, hnul.2.2⟩

theorem IsText.of_cons {t : Bytes} {c : UInt8} (hc : c < 128) (h : IsText (c :: t)) : IsText t :=
  (IsText.split (s := []) hc h).2

def AllText (runs : List MarkdownRun) : Prop := ∀ r ∈ runs, IsText r.text

theorem AllText.appendRun {runs : List MarkdownRun} (h : AllText runs) {text : Bytes}
    (htext : IsText text) (style : MarkdownStyle) : AllText (appendRun runs style text) := by
  rcases appendRun_cases runs style text with ⟨-, heq⟩ | ⟨init, r, rfl, -, heq⟩ | ⟨-, -, heq⟩
  · rw [heq]
    exact h
  · have hr := h r (List.mem_append_right _ (List.mem_singleton_self r))
    rw [heq]
    intro s hs
    rcases List.mem_append.1 hs with hs | hs
    · exact h s (List.mem_append_left _ hs)
    · rw [List.mem_singleton.1 hs]
      exact hr.append htext
  · rw [heq]
    intro s hs
    rcases List.mem_append.1 hs with hs | hs
    · exact h s hs
    · rw [List.mem_singleton.1 hs]
      exact htext

/-- The markers are below 128, so what is between them is text. -/
theorem AllText.addSpans {base : MarkdownStyle} {emphasis : Bool} {acc : Bytes}
    {runs : List MarkdownRun} {s : Bytes} (h : AllText runs) (htext : IsText (acc ++ s)) :
    AllText (addSpans base emphasis acc runs s) := by
  induction emphasis, acc, runs, s using addSpans.induct base with
  | case1 emphasis acc runs =>
    rw [List.append_nil] at htext
    exact h.appendRun htext _
  | case2 emphasis acc runs c => exact h.appendRun htext _
  | case3 emphasis acc runs c d s hmark ih =>
    obtain ⟨rfl, rfl⟩ := hmark
    obtain ⟨hacc, hrest⟩ := htext.split (by decide)
    rw [Assist.addSpans, if_pos ⟨rfl, rfl⟩]
    exact ih (h.appendRun hacc _) (hrest.of_cons (by decide))
  | case4 emphasis acc runs c d s hmark ih =>
    rw [Assist.addSpans, if_neg hmark]
    refine ih h ?_
    rw [List.append_assoc]
    exact htext

theorem Stripped.isText {line text : Bytes} {heading : Bool} (h : Stripped line heading text)
    (hline : IsText line) : IsText text := by
  cases h with
  | heading => exact (hline.split (by decide)).2
  | bullet hc =>
    have hlow : ∀ c : UInt8, c = byte '-' ∨ c = byte '*' → c < 128 := by
      rintro c (rfl | rfl) <;> decide
    have hbullet : IsText (str "• ") := ⟨isUtf8_str _, by decide +kernel⟩
    exact hbullet.append ((hline.of_cons (hlow _ hc)).of_cons (by decide))
  | plain => exact hline

theorem AllText.addLine {runs : List MarkdownRun} (h : AllText runs) {line : Bytes}
    (hline : IsText line) (hasNewline : Bool) : AllText (addLine runs line hasNewline) := by
  obtain ⟨heading, -, hstripped⟩ := stripMarks_stripped line
  have hspans : AllText (Assist.addSpans (stripMarks line).1 false [] runs (stripMarks line).2) :=
    h.addSpans (hstripped.isText hline)
  cases hasNewline with
  | false => exact hspans
  | true => exact hspans.appendRun ⟨isUtf8_str "\n", by decide⟩ _

theorem AllText.addLines {runs : List MarkdownRun} (h : AllText runs) {lines : List Bytes}
    (hlines : ∀ line ∈ lines, IsText line) : AllText (addLines runs lines) := by
  induction lines generalizing runs with
  | nil => exact h
  | cons line lines ih =>
    rw [List.forall_mem_cons] at hlines
    cases lines with
    | nil => exact h.addLine hlines.1 false
    | cons next lines => exact ih (h.addLine hlines.1 true) hlines.2

theorem allText_parseMarkdown {markdown : Bytes} (h : IsText markdown) :
    AllText (parseMarkdown markdown) := by
  have hnil : AllText [] := by
    intro r hr
    cases hr
  rcases parseMarkdown_cases markdown with ⟨-, heq⟩ | ⟨-, heq⟩
  · rw [heq]
    intro r hr
    rw [List.mem_singleton.1 hr]
    exact ⟨isUtf8_nil, by simp⟩
  · rw [heq]
    exact hnil.addLines (forall_mem_splitOn (fun _ _ hsplit => hsplit.split (by decide)) h)

/-! ### The spans -/

/-- The texts of the runs are the encodings of `css`, and the spans show the numbers of characters
that are noted for them. -/
inductive Shown : List MarkdownRun → List (List Char) → List Bytes → List ℕ → Prop where
  | nil : Shown [] [] [] []
  | cons {r : MarkdownRun} {cs : List Char} {shown : ℕ} {runs : List MarkdownRun}
    {css : List (List Char)} {spans : List Bytes} {revealed : List ℕ} (htext : r.text = encode cs)
    (h : Shown runs css spans revealed) :
    Shown (r :: runs) (cs :: css) (encode (cs.take shown) :: spans) (shown :: revealed)

variable {runs : List MarkdownRun} {css : List (List Char)} {spans : List Bytes}
  {revealed : List ℕ}

theorem Shown.text_eq (h : Shown runs css spans revealed) :
    runs.flatMap (fun r => r.text) = encode css.flatten := by
  induction h with
  | nil => rfl
  | cons htext _ ih => rw [List.flatMap_cons, htext, ih, List.flatten_cons, encode_append]

/-- At the beginning nothing is shown. -/
theorem shown_prepared (h : AllText runs) :
    ∃ css, Shown runs css (runs.map fun _ => []) (List.replicate runs.length 0) := by
  induction runs with
  | nil => exact ⟨[], .nil⟩
  | cons r runs ih =>
    obtain ⟨hr, hruns⟩ := List.forall_mem_cons.1 h
    obtain ⟨cs, hcs⟩ := hr.1
    obtain ⟨css, hshown⟩ := ih hruns
    have hnone : encode (cs.take 0) = [] := rfl
    rw [List.map_cons, List.length_cons, List.replicate_succ, ← hnone]
    exact ⟨cs :: css, .cons hcs hshown⟩

/-- **One call** brings each span to the characters that are left for it. -/
theorem Shown.revealFrom (h : Shown runs css spans revealed) (htext : AllText runs) (n : ℕ) :
    Shown runs css (Overlay.revealFrom n runs spans revealed).1
        (Overlay.revealFrom n runs spans revealed).2 ∧
      (Overlay.revealFrom n runs spans revealed).1.flatten = encode (css.flatten.take n) := by
  induction h generalizing n with
  | nil => exact ⟨.nil, by simp [Overlay.revealFrom, encode]⟩
  | @cons r cs shown runs css spans revealed hr h ih =>
    obtain ⟨htextr, hruns⟩ := List.forall_mem_cons.1 htext
    have hcount : utf8CharacterCount r.text = cs.length := by
      rw [hr, utf8CharacterCount_encode]
    obtain ⟨hrest, hflat⟩ := ih hruns (n - cs.length)
    -- whether the span is set or left alone, it shows `min cs.length n` characters
    have hspan : Overlay.revealFrom n (r :: runs) (encode (cs.take shown) :: spans)
          (shown :: revealed) =
        (encode (cs.take (min cs.length n)) ::
            (Overlay.revealFrom (n - cs.length) runs spans revealed).1,
          min cs.length n :: (Overlay.revealFrom (n - cs.length) runs spans revealed).2) := by
      simp only [Overlay.revealFrom, hcount]
      by_cases hne : min cs.length n ≠ shown
      · have hcut : r.text.take (utf8PrefixBytes r.text (min cs.length n)) =
            encode (cs.take (min cs.length n)) := by
          rw [hr, take_utf8PrefixBytes]
        have hnul : 0 ∉ encode (cs.take (min cs.length n)) := by
          rw [← hcut]
          exact fun hmem => htextr.2 (List.mem_of_mem_take hmem)
        rw [if_pos hne, hcut, cStr_eq_self hnul]
      · rw [if_neg hne, not_not.1 hne]
    rw [hspan]
    refine ⟨.cons hr hrest, ?_⟩
    have htake : cs.take (min cs.length n) = cs.take n := by
      rw [List.take_eq_take_iff]
      omega
    rw [List.flatten_cons, List.flatten_cons, hflat, htake, ← encode_append, List.take_append]

/-! ### Runs of the overlay -/

namespace Overlay

/-- The three lists have the same length. -/
def Aligned (o : Overlay) : Prop :=
  o.spans.length = o.runs.length ∧ o.revealed.length = o.runs.length

theorem length_revealFrom (n : ℕ) (runs : List MarkdownRun) (spans : List Bytes)
    (revealed : List ℕ) :
    (revealFrom n runs spans revealed).1.length = spans.length ∧
      (revealFrom n runs spans revealed).2.length = revealed.length := by
  induction runs generalizing n spans revealed with
  | nil => exact ⟨rfl, rfl⟩
  | cons r runs ih =>
    cases spans with
    | nil => exact ⟨rfl, rfl⟩
    | cons span spans =>
      cases revealed with
      | nil => exact ⟨rfl, rfl⟩
      | cons shown revealed =>
        obtain ⟨hspans, hrevealed⟩ := ih (n - utf8CharacterCount r.text) spans revealed
        simp only [revealFrom]
        split_ifs <;> exact ⟨congrArg Nat.succ hspans, congrArg Nat.succ hrevealed⟩

theorem Aligned.next {o : Overlay} (h : o.Aligned) (step : Step) : (o.next step).Aligned := by
  cases step with
  | create => exact h
  | hide => exact ⟨rfl, rfl⟩
  | setText => exact h
  | prepare markdown =>
    simp only [Overlay.next, prepareMarkdown]
    split_ifs
    · exact h
    · exact ⟨List.length_map _, List.length_replicate⟩
  | reveal n =>
    obtain ⟨hspans, hrevealed⟩ := length_revealFrom n o.runs o.spans o.revealed
    exact ⟨hspans.trans h.1, hrevealed.trans h.2⟩

/-- The overlay has an answer with the given runs. -/
structure Shows (runs : List MarkdownRun) (css : List (List Char)) (o : Overlay) : Prop where
  runs_eq : o.runs = runs
  shown : Shown runs css o.spans o.revealed

variable {o : Overlay}

theorem Shows.reveal (h : o.Shows runs css) (htext : AllText runs) (n : ℕ) :
    (o.next (.reveal n)).Shows runs css ∧
      (o.next (.reveal n)).spans.flatten = encode (css.flatten.take n) := by
  obtain ⟨rfl, hshown⟩ := h
  obtain ⟨hshown', hflat⟩ := hshown.revealFrom htext n
  exact ⟨⟨rfl, hshown'⟩, hflat⟩

theorem Shows.reveals (h : o.Shows runs css) (htext : AllText runs) (numbers : List ℕ) :
    (run next o (numbers.map .reveal)).Shows runs css := by
  induction numbers generalizing o with
  | nil => exact h
  | cons n numbers ih => exact ih (h.reveal htext n).1

theorem shows_prepare (ho : o.response = true) {markdown : Bytes}
    (htext : AllText (parseMarkdown markdown)) :
    ∃ css, (o.next (.prepare markdown)).Shows (parseMarkdown markdown) css := by
  obtain ⟨css, hshown⟩ := shown_prepared htext
  simp only [next, prepareMarkdown, ho, Bool.not_true, Bool.false_eq_true, if_false]
  exact ⟨css, rfl, hshown⟩

end Overlay

/-- **The answer appears character by character.**  In every state of the overlay the lists of runs,
spans and numbers are equally long; creating the overlay gives it a place for the answer, and from
every state with such a place, whatever numbers `assist_overlay_reveal_markdown` is called with, the
spans show the first characters of the plain text, as many as it was called with last. -/
theorem reveal_shows_prefix (steps : List Overlay.Step) :
    (run Overlay.next {} steps).Aligned ∧
      (run Overlay.next {} (steps ++ [.create])).response = true ∧
      ((run Overlay.next {} steps).response = true → ∀ response, IsUtf8 response → 0 ∉ response →
        ∃ cs, plainText response = encode cs ∧
          ∀ (numbers : List ℕ) (n : ℕ),
            (run Overlay.next (run Overlay.next {} steps)
              (.prepare response :: (numbers ++ [n]).map .reveal)).spans.flatten =
                encode (cs.take n)) := by
  have hcreate : (run Overlay.next {} (steps ++ [.create])).response = true := by
    rw [run_append]
    rfl
  refine ⟨run_invariant (fun _ step h => h.next step) ⟨rfl, rfl⟩ steps, hcreate, ?_⟩
  intro hopen response hutf8 hnul
  have htext := allText_parseMarkdown ⟨hutf8, hnul⟩
  obtain ⟨css, hprepared⟩ := Overlay.shows_prepare hopen htext
  refine ⟨css.flatten, hprepared.shown.text_eq, ?_⟩
  intro numbers n
  rw [run_cons, List.map_append, run_append]
  exact ((hprepared.reveals htext numbers).reveal htext n).2

/-- An answer of three runs is revealed in one go, and then it is cut back to thirteen characters, the
last of which is the second one of the bold run. -/
theorem answer_cut_in_bold_run :
    (run Overlay.next (run Overlay.next {} [.create])
        [.prepare (str "Światła są **już wyłączone**, śpij."), .reveal 40, .reveal 13]).spans =
      [str "Światła są ", str "ju", []] ∧
    (run Overlay.next (run Overlay.next {} [.create])
        [.prepare (str "Światła są **już wyłączone**, śpij."), .reveal 40,
          .reveal 13]).spans.flatten = str "Światła są ju" := by
  obtain ⟨-, -, hanswer⟩ := reveal_shows_prefix [.create]
  obtain ⟨cs, htext, hshown⟩ := hanswer rfl (str "Światła są **już wyłączone**, śpij.")
    (isUtf8_str _) (by decide +kernel)
  refine ⟨by decide +kernel, ?_⟩
  have hcut := hshown [40] 13
  rw [← take_utf8PrefixBytes, ← htext] at hcut
  refine hcut.trans ?_
  decide +kernel

end Assist

end HaPanel
