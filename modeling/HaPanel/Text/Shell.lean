import HaPanel.Text.Bytes

/-!
# Tokens of the shell

How `sh` splits a command line into words and operators, and what quotation does (POSIX.1, Shell
Command Language, 2.2 and 2.3).  `tokens s` is the list of tokens after quote removal.  It is `none`
if the line is not complete, or if a word is subject to an expansion (of a parameter, a command, a
path name or a tilde): then the shell does not take the text for what it is.  The lexer goes byte by
byte (`step`).  Operators of several characters are delivered character by character.

* `tokens_double`, `run_single` : a value between quotation marks arrives as it is, if it has no byte
  that is special there.
* `texts_sublist` : no byte gets into the tokens that is not in the line.  `markedTokens_eq_zero`,
  `markedTokens_le_one` and `apostrophe_notMem` say which bytes have to be lost before a special byte
  gets into a word.  A command line that is split in the intended way loses the quotation marks of
  its author only.
-/

namespace HaPanel

namespace Text

namespace Shell

inductive Token where
  | word (text : Bytes)
  /-- The number of a file descriptor directly before `<` or `>`. -/
  | ioNumber (digits : Bytes)
  | operator (c : UInt8)
  deriving DecidableEq

/-- Which quotation is open. -/
inductive Mode where
  | plain
  /-- After a backslash. -/
  | escape
  | single
  | double
  /-- After a backslash between double quotation marks. -/
  | doubleEscape
  | comment
  deriving DecidableEq

/-- A word that is not complete. -/
structure Word where
  text : Bytes
  /-- Nothing of it is quoted. -/
  bare : Bool
  deriving DecidableEq

structure Lexer where
  mode : Mode := .plain
  word : Option Word := none
  tokens : List Token := []
  deriving DecidableEq

def isBlank (c : UInt8) : Bool := c == byte ' ' || c == 9

def isOperator (c : UInt8) : Bool :=
  c == byte '|' || c == byte '&' || c == byte ';' || c == byte '<' || c == byte '>' ||
    c == byte '(' || c == byte ')' || c == 10

/-- A byte that starts an expansion, also between double quotation marks. -/
def isExpansion (c : UInt8) : Bool := c == byte '$' || c == byte '`'

/-- A byte of a pattern for path names. -/
def isGlob (c : UInt8) : Bool := c == byte '*' || c == byte '?' || c == byte '['

/-- A byte that a backslash quotes between double quotation marks. -/
def isEscapable (c : UInt8) : Bool :=
  isExpansion c || c == byte '"' || c == byte '\\' || c == 10

namespace Lexer

variable (l : Lexer)

/-- A quotation mark starts a word, even if nothing is quoted. -/
def quote : Lexer := { l with word := some ⟨(l.word.elim [] Word.text), false⟩ }

def push (c : UInt8) (bare : Bool) : Lexer :=
  { l with word := some ⟨l.word.elim [] Word.text ++ [c], l.word.elim true Word.bare && bare⟩ }

/-- The word ends before the byte `c`. -/
def flush (c : UInt8) : Lexer :=
  match l.word with
  | none => l
  | some w =>
    let token := if w.bare && w.text.all isDigit && (c == byte '<' || c == byte '>') then
      Token.ioNumber w.text else .word w.text
    { l with word := none, tokens := l.tokens ++ [token] }

def operator (c : UInt8) : Lexer := { l with tokens := l.tokens ++ [.operator c] }

def enter (mode : Mode) : Lexer := { l with mode := mode }

/-- A byte outside of quotation marks. -/
def stepPlain (c : UInt8) : Option Lexer :=
  if c = byte '\'' then some (l.quote.enter .single)
  else if c = byte '"' then some (l.quote.enter .double)
  else if c = byte '\\' then some (l.enter .escape)
  else if isBlank c then some (l.flush c)
  else if isOperator c then some ((l.flush c).operator c)
  else if c = byte '#' ∧ l.word = none then some (l.enter .comment)
  else if isExpansion c || isGlob c || (c == byte '~' && l.word.isNone) then none
  else some (l.push c true)

/-- A byte between double quotation marks. -/
def stepDouble (c : UInt8) : Option Lexer :=
  if c = byte '"' then some (l.enter .plain)
  else if c = byte '\\' then some (l.enter .doubleEscape)
  else if isExpansion c then none
  else some (l.push c false)

/-- A byte after a backslash between double quotation marks.  The backslash stays unless it quotes
something, and with a line break it disappears. -/
def stepDoubleEscape (c : UInt8) : Lexer :=
  if c = 10 then l.enter .double
  else if isEscapable c then (l.push c false).enter .double
  else ((l.push (byte '\\') false).push c false).enter .double

def step (c : UInt8) : Option Lexer :=
  match l.mode with
  | .plain => l.stepPlain c
  | .escape => some (if c = 10 then l.enter .plain else (l.push c false).enter .plain)
  | .single => some (if c = byte '\'' then l.enter .plain else l.push c false)
  | .double => l.stepDouble c
  | .doubleEscape => some (l.stepDoubleEscape c)
  | .comment => some (if c = 10 then ((l.flush c).operator c).enter .plain else l)

def run (s : Bytes) : Option Lexer := s.foldlM step l

/-- The tokens at the end of the line. -/
def finish : Option (List Token) :=
  match l.mode with
  | .plain => some (l.flush 10).tokens
  | .comment => some l.tokens
  | _ => none

end Lexer

/-- The tokens of a command line. -/
def tokens (s : Bytes) : Option (List Token) := (({} : Lexer).run s).bind Lexer.finish

example : tokens (str "a 'b c' \"d\\\"\"e 2>f | g") =
    some [.word (str "a"), .word (str "b c"), .word (str "d\"e"), .ioNumber (str "2"),
      .operator (byte '>'), .word (str "f"), .operator (byte '|'), .word (str "g")] := by
  decide +kernel

namespace Lexer

/-! ### Going on -/

theorem run_append (l : Lexer) (s t : Bytes) : l.run (s ++ t) = (l.run s).bind (run · t) :=
  List.foldlM_append

theorem run_cons (l : Lexer) (c : UInt8) (s : Bytes) : l.run (c :: s) = (l.step c).bind (run · s) :=
  List.foldlM_cons

@[simp] theorem run_nil (l : Lexer) : l.run [] = some l := rfl

/-- The lexer after the tokens `ts`. -/
def after (ts : List Token) (l : Lexer) : Lexer := { l with tokens := ts ++ l.tokens }

theorem flush_after (ts : List Token) (l : Lexer) (c : UInt8) :
    (l.after ts).flush c = (l.flush c).after ts := by
  unfold flush
  cases hw : l.word with
  | none => simp only [after, hw]
  | some w => simp only [after, hw, List.append_assoc]

theorem step_after (ts : List Token) (l : Lexer) (c : UInt8) :
    (l.after ts).step c = (l.step c).map (after ts) := by
  have hop : ∀ m : Lexer, (m.after ts).operator c = (m.operator c).after ts := fun m => by
    simp only [operator, after, List.append_assoc]
  unfold step
  cases hm : l.mode with
  | plain =>
    have hmode : (l.after ts).mode = .plain := hm
    have hword : (l.after ts).word = l.word := rfl
    simp only [hmode, stepPlain, flush_after, hop, hword]
    split_ifs <;> rfl
  | double =>
    have hmode : (l.after ts).mode = .double := hm
    simp only [hmode, stepDouble]
    split_ifs <;> rfl
  | doubleEscape =>
    have hmode : (l.after ts).mode = .doubleEscape := hm
    simp only [hmode, stepDoubleEscape]
    split_ifs <;> rfl
  | escape =>
    have hmode : (l.after ts).mode = .escape := hm
    simp only [hmode]
    split_ifs <;> rfl
  | single =>
    have hmode : (l.after ts).mode = .single := hm
    simp only [hmode]
    split_ifs <;> rfl
  | comment =>
    have hmode : (l.after ts).mode = .comment := hm
    simp only [hmode, flush_after, hop]
    split_ifs <;> rfl

/-- The tokens so far do not matter for what follows. -/
theorem run_after (ts : List Token) (l : Lexer) (s : Bytes) :
    (l.after ts).run s = (l.run s).map (after ts) := by
  induction s generalizing l with
  | nil => rfl
  | cons c s ih =>
    rw [run_cons, run_cons, step_after]
    cases l.step c with
    | none => rfl
    | some m => exact ih m

/-- A piece of a command line that is split in itself. -/
theorem run_piece {s : Bytes} {ts : List Token}
    (h : ({} : Lexer).run s = some { tokens := ts }) (us : List Token) (t : Bytes) :
    ({ tokens := us } : Lexer).run (s ++ t) = ({ tokens := us ++ ts } : Lexer).run t := by
  have hafter : ({ tokens := us } : Lexer) = ({} : Lexer).after us := by simp [after]
  rw [run_append, hafter, run_after, h]
  rfl

/-! ### Values between quotation marks -/

theorem run_single {v : Bytes} (hv : byte '\'' ∉ v) (w : Bytes) (ts : List Token) :
    (⟨.single, some ⟨w, false⟩, ts⟩ : Lexer).run v = some ⟨.single, some ⟨w ++ v, false⟩, ts⟩ := by
  induction v generalizing w with
  | nil => simp
  | cons c v ih =>
    obtain ⟨hc, hv⟩ : byte '\'' ≠ c ∧ byte '\'' ∉ v := by simpa using hv
    have hstep : (⟨.single, some ⟨w, false⟩, ts⟩ : Lexer).step c =
        some ⟨.single, some ⟨w ++ [c], false⟩, ts⟩ := by
      simp only [step, if_neg (Ne.symm hc)]
      rfl
    rw [run_cons, hstep, Option.bind_some, ih hv, List.append_assoc]
    rfl

end Lexer

/-- The text between double quotation marks has nothing that is special there: no quotation mark, no
expansion, no backslash before a byte that it would quote, or before the closing mark. -/
def doubleSafe : Bytes → Bool
  | [] => true
  | [c] => !(isExpansion c || c == byte '"' || c == byte '\\')
  | c :: d :: s =>
    !(isExpansion c || c == byte '"' || (c == byte '\\' && isEscapable d)) && doubleSafe (d :: s)

namespace Lexer

theorem step_double {c : UInt8} (h : isExpansion c = false) (hq : c ≠ byte '"')
    (hb : c ≠ byte '\\') (w : Bytes) (ts : List Token) :
    (⟨.double, some ⟨w, false⟩, ts⟩ : Lexer).step c =
      some ⟨.double, some ⟨w ++ [c], false⟩, ts⟩ := by
  simp only [step, stepDouble, if_neg hq, if_neg hb, h]
  rfl

/-- A backslash that quotes nothing stays. -/
theorem run_backslash {d : UInt8} (hd : isEscapable d = false) (w s : Bytes) (ts : List Token) :
    (⟨.double, some ⟨w, false⟩, ts⟩ : Lexer).run (byte '\\' :: d :: s) =
      (⟨.double, some ⟨w ++ [byte '\\'], false⟩, ts⟩ : Lexer).run (d :: s) := by
  have hplain : isExpansion d = false ∧ d ≠ byte '"' ∧ d ≠ byte '\\' ∧ d ≠ 10 := by
    simpa [isEscapable, and_assoc] using hd
  have hstep : (⟨.double, some ⟨w, false⟩, ts⟩ : Lexer).step (byte '\\') =
      some ⟨.doubleEscape, some ⟨w, false⟩, ts⟩ := rfl
  have hstay : (⟨.doubleEscape, some ⟨w, false⟩, ts⟩ : Lexer).step d =
      some ⟨.double, some ⟨w ++ [byte '\\'] ++ [d], false⟩, ts⟩ := by
    simp only [step, stepDoubleEscape, if_neg hplain.2.2.2, hd]
    rfl
  rw [run_cons, hstep, Option.bind_some, run_cons, hstay, run_cons,
    step_double hplain.1 hplain.2.1 hplain.2.2.1]

theorem run_double {v : Bytes} (hv : doubleSafe v = true) (w : Bytes) (ts : List Token) :
    (⟨.double, some ⟨w, false⟩, ts⟩ : Lexer).run v = some ⟨.double, some ⟨w ++ v, false⟩, ts⟩ := by
  induction v using doubleSafe.induct generalizing w with
  | case1 => simp
  | case2 c =>
    simp only [doubleSafe, Bool.not_eq_true', Bool.or_eq_false_iff, beq_eq_false_iff_ne] at hv
    rw [run_cons, step_double hv.1.1 hv.1.2 hv.2]
    rfl
  | case3 c d s ih =>
    simp only [doubleSafe, Bool.and_eq_true, Bool.not_eq_true', Bool.or_eq_false_iff,
      beq_eq_false_iff_ne, Bool.and_eq_false_imp, beq_iff_eq] at hv
    obtain ⟨⟨⟨hc, hq⟩, hb⟩, hs⟩ := hv
    by_cases hcb : c = byte '\\'
    · subst hcb
      rw [run_backslash (hb rfl), ih hs, List.append_assoc]
      rfl
    · rw [run_cons, step_double hc hq hcb, Option.bind_some, ih hs, List.append_assoc]
      rfl

/-- A word between double quotation marks, and a blank after it. -/
theorem run_double_word {v : Bytes} (hv : doubleSafe v = true) (ts : List Token) (s : Bytes) :
    ({ tokens := ts } : Lexer).run (byte '"' :: (v ++ byte '"' :: byte ' ' :: s)) =
      ({ tokens := ts ++ [.word v] } : Lexer).run s := by
  have hopen : ({ tokens := ts } : Lexer).step (byte '"') =
      some ⟨.double, some ⟨[], false⟩, ts⟩ := rfl
  rw [run_cons, hopen, Option.bind_some, run_append, run_double hv, Option.bind_some, run_cons]
  rfl

/-- A word between single quotation marks. -/
theorem run_single_word {v : Bytes} (hv : byte '\'' ∉ v) (ts : List Token) (s : Bytes) :
    ({ tokens := ts } : Lexer).run (byte '\'' :: (v ++ byte '\'' :: s)) =
      (⟨.plain, some ⟨v, false⟩, ts⟩ : Lexer).run s := by
  have hopen : ({ tokens := ts } : Lexer).step (byte '\'') =
      some ⟨.single, some ⟨[], false⟩, ts⟩ := rfl
  rw [run_cons, hopen, Option.bind_some, run_append, run_single hv, Option.bind_some, run_cons]
  rfl

/-- A byte that is nothing but itself. -/
def isBare (c : UInt8) : Bool :=
  !(c == byte '\'' || c == byte '"' || c == byte '\\' || isBlank c || isOperator c || c == byte '#' ||
    isExpansion c || isGlob c || c == byte '~')

theorem step_bare {c : UInt8} (hc : isBare c = true) (word : Option Word) (ts : List Token) :
    (⟨.plain, word, ts⟩ : Lexer).step c = some ((⟨.plain, word, ts⟩ : Lexer).push c true) := by
  simp only [isBare, Bool.not_eq_true', Bool.or_eq_false_iff, beq_eq_false_iff_ne] at hc
  simp [step, stepPlain, hc]

theorem run_bare {v : Bytes} (hv : ∀ c ∈ v, isBare c = true) (w : Bytes) (ts : List Token) :
    (⟨.plain, some ⟨w, true⟩, ts⟩ : Lexer).run v = some ⟨.plain, some ⟨w ++ v, true⟩, ts⟩ := by
  induction v generalizing w with
  | nil => simp
  | cons c v ih =>
    obtain ⟨hc, hv⟩ := List.forall_mem_cons.mp hv
    rw [run_cons, step_bare hc, Option.bind_some]
    refine (ih hv (w ++ [c])).trans ?_
    rw [List.append_assoc]
    rfl

/-- A word without quotation marks, and a blank after it. -/
theorem run_bare_word {v : Bytes} (hne : v ≠ []) (hv : ∀ c ∈ v, isBare c = true) (ts : List Token)
    (s : Bytes) :
    ({ tokens := ts } : Lexer).run (v ++ byte ' ' :: s) =
      ({ tokens := ts ++ [.word v] } : Lexer).run s := by
  obtain ⟨c, v, rfl⟩ := List.exists_cons_of_ne_nil hne
  obtain ⟨hc, hv⟩ := List.forall_mem_cons.mp hv
  rw [List.cons_append, run_cons, step_bare hc, Option.bind_some]
  have hrun : ((⟨.plain, none, ts⟩ : Lexer).push c true).run v =
      some ⟨.plain, some ⟨c :: v, true⟩, ts⟩ := run_bare hv [c] ts
  rw [run_append, hrun, Option.bind_some, run_cons]
  have hblank : (⟨.plain, some ⟨c :: v, true⟩, ts⟩ : Lexer).step (byte ' ') =
      some { tokens := ts ++ [.word (c :: v)] } := by
    have hop : (byte ' ' == byte '<' || byte ' ' == byte '>') = false := by decide
    simp only [step]
    rw [stepPlain, if_neg (by decide), if_neg (by decide), if_neg (by decide), if_pos (by decide)]
    simp [flush, hop]
  rw [hblank, Option.bind_some]

theorem finish_after (ts : List Token) (l : Lexer) :
    (l.after ts).finish = l.finish.map (ts ++ ·) := by
  unfold finish
  cases hm : l.mode with
  | plain =>
    have hmode : (l.after ts).mode = .plain := hm
    simp only [hmode, flush_after]
    rfl
  | comment =>
    have hmode : (l.after ts).mode = .comment := hm
    simp only [hmode]
    rfl
  | escape =>
    have hmode : (l.after ts).mode = .escape := hm
    simp only [hmode, Option.map_none]
  | single =>
    have hmode : (l.after ts).mode = .single := hm
    simp only [hmode, Option.map_none]
  | double =>
    have hmode : (l.after ts).mode = .double := hm
    simp only [hmode, Option.map_none]
  | doubleEscape =>
    have hmode : (l.after ts).mode = .doubleEscape := hm
    simp only [hmode, Option.map_none]

end Lexer

/-- The rest of a line, after the tokens `us`. -/
theorem tokens_rest (us : List Token) (s : Bytes) :
    (({ tokens := us } : Lexer).run s).bind Lexer.finish = (tokens s).map (us ++ ·) := by
  have hafter : ({ tokens := us } : Lexer) = ({} : Lexer).after us := by simp [Lexer.after]
  rw [hafter, Lexer.run_after, tokens]
  cases ({} : Lexer).run s with
  | none => rfl
  | some l => exact Lexer.finish_after us l

/-- A line that ends with one more word. -/
theorem tokens_bare {v : Bytes} (hne : v ≠ []) (hv : ∀ c ∈ v, Lexer.isBare c = true) :
    tokens v = some [.word v] := by
  obtain ⟨c, v, rfl⟩ := List.exists_cons_of_ne_nil hne
  obtain ⟨hc, hv⟩ := List.forall_mem_cons.mp hv
  have hrun : (({} : Lexer).push c true).run v = some ⟨.plain, some ⟨c :: v, true⟩, []⟩ :=
    Lexer.run_bare hv [c] []
  rw [tokens, Lexer.run_cons, Lexer.step_bare hc, Option.bind_some]
  show (Lexer.run _ v).bind Lexer.finish = _
  rw [hrun]
  have hop : (10 == byte '<' || 10 == byte '>') = false := by decide
  simp [Lexer.finish, Lexer.flush, hop]

/-- **A safe value between double quotation marks arrives as it is.** -/
theorem tokens_double {r v t : Bytes} {us vs : List Token}
    (hr : ({} : Lexer).run r = some { tokens := us }) (hv : doubleSafe v = true)
    (ht : tokens t = some vs) :
    tokens (r ++ byte '"' :: (v ++ byte '"' :: byte ' ' :: t)) = some (us ++ .word v :: vs) := by
  rw [tokens, Lexer.run_append, hr, Option.bind_some, Lexer.run_double_word hv, tokens_rest, ht]
  simp

/-! ### What gets lost -/

def Token.text : Token → Bytes
  | word text => text
  | ioNumber digits => digits
  | operator c => [c]

namespace Lexer

/-- What is left of the text so far.  A backslash between double quotation marks is not lost yet. -/
def text (l : Lexer) : Bytes :=
  l.tokens.flatMap Token.text ++ l.word.elim [] Word.text ++
    if l.mode = .doubleEscape then [byte '\\'] else []

/-- Outside of a backslash between double quotation marks. -/
theorem text_eq {l : Lexer} (h : l.mode ≠ .doubleEscape) :
    l.text = l.tokens.flatMap Token.text ++ l.word.elim [] Word.text := by
  simp [text, h]

variable {l l' : Lexer} {b : UInt8}

theorem text_push (h : l.mode ≠ .doubleEscape) (c : UInt8) (bare : Bool) :
    (l.push c bare).text = l.text ++ [c] := by
  rw [text_eq h, text_eq (by exact h)]
  simp [push]

theorem text_flush (h : l.mode ≠ .doubleEscape) (c : UInt8) : (l.flush c).text = l.text := by
  rw [text_eq h]
  unfold flush
  cases hw : l.word with
  | none => simp [text, h, hw]
  | some w =>
    simp only
    rw [text_eq (by exact h)]
    split_ifs <;> simp [Token.text]

theorem text_operator (h : l.mode ≠ .doubleEscape) (hw : l.word = none) (c : UInt8) :
    (l.operator c).text = l.text ++ [c] := by
  rw [text_eq h, text_eq (by exact h)]
  simp [operator, hw, Token.text]

theorem text_quote (h : l.mode ≠ .doubleEscape) : l.quote.text = l.text := by
  rw [text_eq h, text_eq (by exact h)]
  simp [quote]

theorem text_enter (h : l.mode ≠ .doubleEscape) {mode : Mode} (h' : mode ≠ .doubleEscape) :
    (l.enter mode).text = l.text := by
  rw [text_eq h, text_eq (by exact h')]
  rfl

/-- A byte that only changes the mode is not kept. -/
theorem text_enter_sublist (h : l.mode ≠ .doubleEscape) {mode : Mode} (h' : mode ≠ .doubleEscape) :
    (l.enter mode).text.Sublist (l.text ++ [b]) := by
  rw [text_enter h h']
  exact List.sublist_append_left _ _

theorem flush_word (c : UInt8) : (l.flush c).word = none := by
  unfold flush
  cases hw : l.word with
  | none => exact hw
  | some w => rfl

theorem flush_mode (c : UInt8) : (l.flush c).mode = l.mode := by
  unfold flush
  cases hw : l.word with
  | none => rfl
  | some w => rfl

/-- How a byte outside of quotation marks is read. -/
inductive Plain (l : Lexer) (b : UInt8) : Lexer → Prop where
  | single (h : b = byte '\'') : Plain l b (l.quote.enter .single)
  | double (h : b = byte '"') : Plain l b (l.quote.enter .double)
  | escape (h : b = byte '\\') : Plain l b (l.enter .escape)
  | blank (h : isBlank b = true) : Plain l b (l.flush b)
  | operator (h : isOperator b = true) : Plain l b ((l.flush b).operator b)
  | comment (h : b = byte '#') : Plain l b (l.enter .comment)
  | literal (hs : b ≠ byte '\'') (hd : b ≠ byte '"') (he : isExpansion b = false) :
    Plain l b (l.push b true)

theorem stepPlain_cases (h : l.stepPlain b = some l') : Plain l b l' := by
  unfold stepPlain at h
  split_ifs at h with h₁ h₂ h₃ h₄ h₅ h₆ h₇ <;> cases h
  · exact .single h₁
  · exact .double h₂
  · exact .escape h₃
  · exact .blank h₄
  · exact .operator h₅
  · exact .comment h₆.1
  · simp only [Bool.or_eq_true, not_or, Bool.not_eq_true] at h₇
    exact .literal h₁ h₂ h₇.1.1

theorem text_plain (hm : l.mode = .plain) (h : Plain l b l') : l'.text.Sublist (l.text ++ [b]) := by
  have hne : l.mode ≠ .doubleEscape := by simp [hm]
  cases h with
  | single h =>
    rw [text_enter (by exact hne) (by decide), text_quote hne]
    exact List.sublist_append_left _ _
  | double h =>
    rw [text_enter (by exact hne) (by decide), text_quote hne]
    exact List.sublist_append_left _ _
  | escape h =>
    exact text_enter_sublist hne (by decide)
  | blank h =>
    rw [text_flush hne]
    exact List.sublist_append_left _ _
  | operator h =>
    rw [text_operator (by rw [flush_mode]; exact hne) (flush_word b), text_flush hne]
  | comment h =>
    exact text_enter_sublist hne (by decide)
  | literal hs hd he => rw [text_push hne]

/-- Nothing is left that was not read. -/
theorem text_step (h : l.step b = some l') : l'.text.Sublist (l.text ++ [b]) := by
  unfold step at h
  cases hm : l.mode with
  | plain =>
    simp only [hm] at h
    exact text_plain hm (stepPlain_cases h)
  | escape =>
    have hne : l.mode ≠ .doubleEscape := by simp [hm]
    simp only [hm, Option.some.injEq] at h
    subst h
    split_ifs
    · exact text_enter_sublist hne (by decide)
    · rw [text_enter (by exact hne) (by decide), text_push hne]
  | single =>
    have hne : l.mode ≠ .doubleEscape := by simp [hm]
    simp only [hm, Option.some.injEq] at h
    subst h
    split_ifs
    · exact text_enter_sublist hne (by decide)
    · rw [text_push hne]
  | double =>
    have hne : l.mode ≠ .doubleEscape := by simp [hm]
    simp only [hm, stepDouble] at h
    split_ifs at h with h₁ h₂ h₃ <;> cases h
    · exact text_enter_sublist hne (by decide)
    · subst h₂
      rw [text_eq hne]
      simp [text, enter]
    · rw [text_push hne]
  | doubleEscape =>
    simp only [hm, Option.some.injEq] at h
    subst h
    simp only [stepDoubleEscape]
    split_ifs
    · simp [text, enter, hm]
    · simp [text, enter, push, hm]
    · simp [text, enter, push, hm]
  | comment =>
    have hne : l.mode ≠ .doubleEscape := by simp [hm]
    simp only [hm, Option.some.injEq] at h
    subst h
    split_ifs
    · have hflush : (l.flush b).mode ≠ .doubleEscape := by rwa [flush_mode]
      rw [text_enter (by exact hflush) (by decide), text_operator hflush (flush_word b),
        text_flush hne]
    · exact List.sublist_append_left _ _

theorem text_run {s : Bytes} (h : l.run s = some l') : l'.text.Sublist (l.text ++ s) := by
  induction s generalizing l with
  | nil =>
    cases h
    simp
  | cons c s ih =>
    rw [run_cons] at h
    obtain ⟨m, hm, h⟩ := Option.bind_eq_some_iff.mp h
    have hs := (ih h).trans ((text_step hm).append (List.Sublist.refl s))
    simpa using hs

/-- The byte `q` is lost at most `k` times while `s` is read. -/
def Loses (q : UInt8) (k : ℕ) (l : Lexer) (s : Bytes) (l' : Lexer) : Prop :=
  l.text.count q + s.count q ≤ l'.text.count q + k

/-- What is lost in a run is lost in its first step or later. -/
theorem Loses.cons {q c : UInt8} {k : ℕ} {s : Bytes} {m : Lexer} (h : Loses q k l (c :: s) l')
    (hm : l.step c = some m) (hs : m.run s = some l') :
    Loses q k l [c] m ∧ Loses q k m s l' ∧
      (m.text.count q < l.text.count q + [c].count q → 0 < k ∧ Loses q (k - 1) m s l') := by
  have h₁ := (text_step hm).count_le q
  have h₂ := (text_run hs).count_le q
  rw [List.count_append] at h₁ h₂
  unfold Loses at h ⊢
  rw [← List.singleton_append, List.count_append] at h
  omega

/-! ### Special bytes -/

/-- A byte that is special between double quotation marks. -/
def isSpecial (c : UInt8) : Bool := isExpansion c || c == byte '"'

/-- The word has a special byte. -/
def marked (text : Bytes) : Bool := text.any isSpecial

/-- A text in front of a value, without anything special, does not matter. -/
theorem doubleSafe_append {a : Bytes} (ha : ∀ c ∈ a, isSpecial c = false ∧ c ≠ byte '\\')
    (v : Bytes) : doubleSafe (a ++ v) = doubleSafe v := by
  induction a with
  | nil => rfl
  | cons c a ih =>
    obtain ⟨⟨hc, hb⟩, ha⟩ := List.forall_mem_cons.mp ha
    have hplain : isExpansion c = false ∧ c ≠ byte '"' := by simpa [isSpecial] using hc
    rw [← ih ha, List.cons_append]
    cases a ++ v with
    | nil => simp [doubleSafe, hplain, hb]
    | cons d s => simp [doubleSafe, hplain, hb]

/-- The number of words with a special byte. -/
def markedWords (l : Lexer) : ℕ :=
  l.tokens.countP (fun t => marked t.text) + if marked (l.word.elim [] Word.text) then 1 else 0

theorem markedWords_flush (c : UInt8) : (l.flush c).markedWords = l.markedWords := by
  unfold flush
  cases hw : l.word with
  | none => rfl
  | some w =>
    simp only [markedWords, hw]
    split_ifs <;> simp_all [Token.text, marked]

theorem markedWords_operator {c : UInt8} (h : isOperator c = true) :
    (l.operator c).markedWords = l.markedWords := by
  have hplain : ∀ c, isOperator c = true → isSpecial c = false := forall_byte (by decide +kernel)
  simp [markedWords, operator, Token.text, marked, hplain c h]

theorem markedWords_push {c : UInt8} (h : isSpecial c = false) (bare : Bool) :
    (l.push c bare).markedWords = l.markedWords := by
  simp [markedWords, push, marked, h]

/-- A byte was read, and the text did not grow. -/
theorem Loses.absurd {q : UInt8} (h : Loses q 0 l [q] l') (ht : l'.text.Sublist l.text) : False := by
  have := ht.count_le q
  simp only [Loses, List.count_singleton_self] at h
  omega

/-- Neither between single quotation marks, nor after a backslash outside of quotation marks, nor in
a comment. -/
def Open (l : Lexer) : Prop := l.mode = .plain ∨ l.mode = .double ∨ l.mode = .doubleEscape

/-- A step that loses no backslash and no `#` opens single quotation marks, or brings no special
byte into a word. -/
theorem markedWords_step (hl : l.Open) (h : l.step b = some l')
    (hb : Loses (byte '\\') 0 l [b] l') (hh : Loses (byte '#') 0 l [b] l') :
    (b = byte '\'' ∧ l' = l.quote.enter .single ∧ l.mode ≠ .doubleEscape) ∨
      (l'.Open ∧ l'.markedWords = l.markedWords) := by
  unfold step at h
  rcases hl with hm | hm | hm
  · have hne : l.mode ≠ .doubleEscape := by simp [hm]
    simp only [hm] at h
    cases stepPlain_cases h with
    | single hq => exact .inl ⟨hq, rfl, hne⟩
    | double hq => exact .inr ⟨.inr (.inl rfl), rfl⟩
    | escape hq =>
      subst hq
      exact (hb.absurd (by rw [text_enter hne (by decide)])).elim
    | blank hq => exact .inr ⟨.inl (by rw [flush_mode, hm]), markedWords_flush b⟩
    | operator hq =>
      refine .inr ⟨.inl ?_, ?_⟩
      · show (l.flush b).mode = .plain
        rw [flush_mode, hm]
      · rw [markedWords_operator hq, markedWords_flush]
    | comment hq =>
      subst hq
      exact (hh.absurd (by rw [text_enter hne (by decide)])).elim
    | literal h₁ h₂ h₃ => exact .inr ⟨.inl hm, markedWords_push (by simp [isSpecial, h₂, h₃]) true⟩
  · simp only [hm, stepDouble] at h
    split_ifs at h with h₁ h₂ h₃ <;> cases h
    · exact .inr ⟨.inl rfl, rfl⟩
    · exact .inr ⟨.inr (.inr rfl), rfl⟩
    · exact .inr ⟨.inr (.inl hm), markedWords_push (by simp_all [isSpecial]) false⟩
  · simp only [hm, Option.some.injEq] at h
    subst h
    -- the backslash before the byte is pending, and must not get lost
    simp only [stepDoubleEscape] at hb ⊢
    split_ifs at hb ⊢ with h₁ h₂
    · simp [Loses, text, enter, hm, h₁] at hb
      omega
    · simp [Loses, text, enter, push, hm] at hb
      omega
    · have hb' : isSpecial b = false := by
        simp only [isEscapable, Bool.or_eq_true, not_or, Bool.not_eq_true] at h₂
        simp [isSpecial, h₂.1.1.1, h₂.1.1.2]
      refine .inr ⟨.inr (.inl rfl), ?_⟩
      show ((l.push (byte '\\') false).push b false).markedWords = l.markedWords
      rw [markedWords_push hb', markedWords_push (by decide)]

/-- An opening apostrophe is lost. -/
theorem text_count_single (h : l.mode ≠ .doubleEscape) :
    (l.quote.enter .single).text.count (byte '\'') <
      l.text.count (byte '\'') + [byte '\''].count (byte '\'') := by
  rw [text_enter (by exact h) (by decide), text_quote h]
  simp

/-- **No special byte gets into a word** as long as no apostrophe, no backslash and no `#` is
lost. -/
theorem markedWords_run {s : Bytes} (hl : l.Open) (h : l.run s = some l')
    (hs : Loses (byte '\'') 0 l s l') (hb : Loses (byte '\\') 0 l s l')
    (hh : Loses (byte '#') 0 l s l') : l'.markedWords = l.markedWords := by
  induction s generalizing l with
  | nil =>
    cases h
    rfl
  | cons c s ih =>
    rw [run_cons] at h
    obtain ⟨m, hm, h⟩ := Option.bind_eq_some_iff.mp h
    obtain ⟨-, hs', hlost⟩ := hs.cons hm h
    obtain ⟨hb₁, hb', -⟩ := hb.cons hm h
    obtain ⟨hh₁, hh', -⟩ := hh.cons hm h
    rcases markedWords_step hl hm hb₁ hh₁ with ⟨rfl, rfl, hne⟩ | ⟨hopen, hmarked⟩
    · exact absurd (hlost (text_count_single hne)).1 (by decide)
    · rw [ih hopen h hs' hb' hh', hmarked]

/-- Between single quotation marks all special bytes get into one word. -/
theorem markedWords_run_single {s : Bytes} (hl : l.mode = .single)
    (hclean : l.tokens.countP (fun t => marked t.text) = 0) (h : l.run s = some l')
    (hs : Loses (byte '\'') 1 l s l') (hb : Loses (byte '\\') 0 l s l')
    (hh : Loses (byte '#') 0 l s l') : l'.markedWords ≤ 1 := by
  have hle : ∀ m : Lexer, m.tokens.countP (fun t => marked t.text) = 0 → m.markedWords ≤ 1 := by
    intro m hm
    unfold markedWords
    split_ifs <;> omega
  induction s generalizing l with
  | nil =>
    cases h
    exact hle l' hclean
  | cons c s ih =>
    rw [run_cons] at h
    obtain ⟨m, hm, hrun⟩ := Option.bind_eq_some_iff.mp h
    obtain ⟨-, hs', hlost⟩ := hs.cons hm hrun
    obtain ⟨-, hb', -⟩ := hb.cons hm hrun
    obtain ⟨-, hh', -⟩ := hh.cons hm hrun
    simp only [step, hl, Option.some.injEq] at hm
    by_cases hc : c = byte '\''
    · rw [if_pos hc] at hm
      subst hm hc
      have htext : (l.enter .plain).text = l.text := text_enter (by simp [hl]) (by decide)
      obtain ⟨-, hs'⟩ := hlost (by simp [htext])
      rw [markedWords_run (.inl rfl) hrun hs' hb' hh']
      exact hle _ hclean
    · rw [if_neg hc] at hm
      subst hm
      exact ih (l := l.push c false) hl hclean hrun hs' hb' hh'

/-- **One word at most has special bytes** if two apostrophes are lost, and no backslash or `#`. -/
theorem markedWords_run_le_one {s : Bytes} (hl : l.Open) (hclean : l.markedWords = 0)
    (h : l.run s = some l') (hs : Loses (byte '\'') 2 l s l') (hb : Loses (byte '\\') 0 l s l')
    (hh : Loses (byte '#') 0 l s l') : l'.markedWords ≤ 1 := by
  induction s generalizing l with
  | nil =>
    cases h
    omega
  | cons c s ih =>
    rw [run_cons] at h
    obtain ⟨m, hm, h⟩ := Option.bind_eq_some_iff.mp h
    obtain ⟨-, hs', hlost⟩ := hs.cons hm h
    obtain ⟨hb₁, hb', -⟩ := hb.cons hm h
    obtain ⟨hh₁, hh', -⟩ := hh.cons hm h
    rcases markedWords_step hl hm hb₁ hh₁ with ⟨rfl, rfl, hne⟩ | ⟨hopen, hmarked⟩
    · obtain ⟨-, hs'⟩ := hlost (text_count_single hne)
      refine markedWords_run_single rfl ?_ h hs' hb' hh'
      exact (Nat.add_eq_zero_iff.mp hclean).1
    · exact ih hopen (hmarked.trans hclean) h hs' hb' hh'

/-- Another byte than an apostrophe gets into a word. -/
theorem apostrophes_push (hne : l.mode ≠ .doubleEscape) (hb : b ≠ byte '\'') (bare : Bool) :
    (l.push b bare).text.count (byte '\'') = l.text.count (byte '\'') := by
  rw [text_push hne, List.count_append, List.count_singleton, if_neg (by simp [hb]), Nat.add_zero]

/-- A step outside of quotation marks that loses no double quotation mark, no backslash and no `#`
brings no apostrophe into a word. -/
theorem apostrophes_stepPlain (hl : l.mode = .plain) (h : l.stepPlain b = some l')
    (hd : Loses (byte '"') 0 l [b] l') (hb : Loses (byte '\\') 0 l [b] l')
    (hh : Loses (byte '#') 0 l [b] l') :
    (l'.mode = .plain ∨ l'.mode = .single) ∧
      l'.text.count (byte '\'') = l.text.count (byte '\'') := by
  have hne : l.mode ≠ .doubleEscape := by simp [hl]
  have hmode : (l.flush b).mode = .plain := by rw [flush_mode, hl]
  cases stepPlain_cases h with
  | single hq =>
    refine ⟨.inr rfl, ?_⟩
    rw [text_enter (by exact hne) (by decide), text_quote hne]
  | double hq =>
    subst hq
    have ht : (l.quote.enter .double).text = l.text := by
      rw [text_enter (by exact hne) (by decide), text_quote hne]
    exact (hd.absurd (by rw [ht])).elim
  | escape hq =>
    subst hq
    exact (hb.absurd (by rw [text_enter hne (by decide)])).elim
  | blank hq => exact ⟨.inl hmode, by rw [text_flush hne]⟩
  | operator hq =>
    have hbne : b ≠ byte '\'' := by
      rintro rfl
      cases hq
    refine ⟨.inl hmode, ?_⟩
    rw [text_operator (by simp [hmode]) (flush_word b), text_flush hne, List.count_append,
      List.count_singleton, if_neg (by simp [hbne]), Nat.add_zero]
  | comment hq =>
    subst hq
    exact (hh.absurd (by rw [text_enter hne (by decide)])).elim
  | literal h₁ h₂ h₃ => exact ⟨.inl hl, apostrophes_push hne h₁ true⟩

/-- **No apostrophe gets into a word** as long as no double quotation mark, no backslash and no `#`
is lost. -/
theorem apostrophes_run {s : Bytes} (hl : l.mode = .plain ∨ l.mode = .single)
    (h : l.run s = some l') (hd : Loses (byte '"') 0 l s l') (hb : Loses (byte '\\') 0 l s l')
    (hh : Loses (byte '#') 0 l s l') : l'.text.count (byte '\'') = l.text.count (byte '\'') := by
  induction s generalizing l with
  | nil =>
    cases h
    rfl
  | cons c s ih =>
    rw [run_cons] at h
    obtain ⟨m, hm, hrun⟩ := Option.bind_eq_some_iff.mp h
    obtain ⟨hd₁, hd', -⟩ := hd.cons hm hrun
    obtain ⟨hb₁, hb', -⟩ := hb.cons hm hrun
    obtain ⟨hh₁, hh', -⟩ := hh.cons hm hrun
    rcases hl with hl | hl
    · simp only [step, hl] at hm
      obtain ⟨hmode, hcount⟩ := apostrophes_stepPlain hl hm hd₁ hb₁ hh₁
      rw [ih hmode hrun hd' hb' hh', hcount]
    · -- an apostrophe closes the single quotation marks
      have hne : l.mode ≠ .doubleEscape := by simp [hl]
      simp only [step, hl, Option.some.injEq] at hm
      by_cases hc : c = byte '\''
      · rw [if_pos hc] at hm
        subst hm
        rw [ih (.inl rfl) hrun hd' hb' hh', text_enter hne (by decide)]
      · rw [if_neg hc] at hm
        subst hm
        rw [ih (l := l.push c false) (.inr hl) hrun hd' hb' hh', apostrophes_push hne hc]

/-- A backslash that quotes something is lost. -/
theorem loses_backslash {d : UInt8} (hd : isEscapable d = true) {w s : Bytes} {ts : List Token}
    (h : (⟨.double, some ⟨w, false⟩, ts⟩ : Lexer).run (byte '\\' :: d :: s) = some l') :
    ¬ Loses (byte '\\') 0 ⟨.double, some ⟨w, false⟩, ts⟩ (byte '\\' :: d :: s) l' := by
  have hstep : (⟨.double, some ⟨w, false⟩, ts⟩ : Lexer).step (byte '\\') =
      some ⟨.doubleEscape, some ⟨w, false⟩, ts⟩ := rfl
  have hstepd : (⟨.doubleEscape, some ⟨w, false⟩, ts⟩ : Lexer).step d =
      some (stepDoubleEscape ⟨.doubleEscape, some ⟨w, false⟩, ts⟩ d) := rfl
  rw [run_cons, hstep, Option.bind_some, run_cons, hstepd, Option.bind_some] at h
  intro hlose
  have hle := (text_run h).count_le (byte '\\')
  simp only [stepDoubleEscape, hd, if_true] at hle
  unfold Loses at hlose
  split_ifs at hle
  · simp [text, enter, List.count_cons] at hle hlose
    omega
  · simp [text, enter, push, List.count_cons] at hle hlose
    omega

/-- A value that is not safe, although it has no special byte, loses a backslash. -/
theorem run_double_unsafe {v : Bytes} (hv : doubleSafe v = false) (hmark : marked v = false)
    (w : Bytes) (ts : List Token) {s : Bytes}
    (h : (⟨.double, some ⟨w, false⟩, ts⟩ : Lexer).run (v ++ byte '"' :: s) = some l') :
    ¬ Loses (byte '\\') 0 ⟨.double, some ⟨w, false⟩, ts⟩ (v ++ byte '"' :: s) l' := by
  induction v using doubleSafe.induct generalizing w with
  | case1 => simp [doubleSafe] at hv
  | case2 c =>
    have hc : c = byte '\\' := by
      simp [marked, isSpecial, doubleSafe] at hmark hv
      tauto
    subst hc
    exact loses_backslash (by decide) h
  | case3 c d v ih =>
    simp only [marked, List.any_cons, Bool.or_eq_false_iff, isSpecial, beq_eq_false_iff_ne] at hmark ih
    obtain ⟨⟨hexp, hq⟩, hmark'⟩ := hmark
    by_cases hc : c = byte '\\'
    · subst hc
      cases hd : isEscapable d with
      | true => exact loses_backslash hd h
      | false =>
        have hv' : doubleSafe (d :: v) = false := by simpa [doubleSafe, hd, hexp, hq] using hv
        simp only [List.cons_append] at h ⊢
        rw [run_backslash hd] at h
        have hlose := ih hv' hmark' _ h
        intro hlose'
        apply hlose
        simp [Loses, text, List.count_cons] at hlose' ⊢
        omega
    · have hv' : doubleSafe (d :: v) = false := by simpa [doubleSafe, hc, hexp, hq] using hv
      simp only [List.cons_append] at h ⊢
      rw [run_cons, step_double hexp hq hc, Option.bind_some] at h
      have hlose := ih hv' hmark' _ h
      intro hlose'
      apply hlose
      simp [Loses, text, List.count_cons] at hlose' ⊢
      omega

end Lexer

/-! ### Lines that are split in the intended way -/

/-- What the tokens are made of. -/
def texts (ts : List Token) : Bytes := ts.flatMap Token.text

/-- The number of words with a special byte. -/
def markedTokens (ts : List Token) : ℕ := ts.countP fun t => Lexer.marked t.text

section

variable {s : Bytes} {ts : List Token}

theorem tokens_run (h : tokens s = some ts) :
    ∃ l, ({} : Lexer).run s = some l ∧ (texts ts).Sublist l.text ∧
      markedTokens ts ≤ l.markedWords := by
  obtain ⟨l, hrun, hfin⟩ := Option.bind_eq_some_iff.mp h
  refine ⟨l, hrun, ?_⟩
  unfold Lexer.finish at hfin
  split at hfin <;> cases hfin
  · rename_i hm
    have hne : l.mode ≠ .doubleEscape := by simp [hm]
    have htext := Lexer.text_flush hne 10
    rw [Lexer.text_eq (by rwa [Lexer.flush_mode]), Lexer.flush_word] at htext
    have hmarked := Lexer.markedWords_flush (l := l) 10
    rw [Lexer.markedWords, Lexer.flush_word] at hmarked
    refine ⟨?_, ?_⟩
    · rw [← htext]
      simp [texts]
    · rw [← hmarked]
      exact Nat.le_add_right _ _
  · refine ⟨?_, Nat.le_add_right _ _⟩
    simp [Lexer.text, texts]

/-- Nothing is in the tokens that is not in the line. -/
theorem texts_sublist (h : tokens s = some ts) : (texts ts).Sublist s := by
  obtain ⟨l, hrun, htext, -⟩ := tokens_run h
  exact htext.trans (by simpa [Lexer.text] using Lexer.text_run hrun)

/-- The byte `q` is lost at most `k` times when the line is split. -/
def Keeps (q : UInt8) (k : ℕ) (s : Bytes) (ts : List Token) : Prop :=
  s.count q ≤ (texts ts).count q + k

theorem Keeps.loses {q : UInt8} {k : ℕ} (h : Keeps q k s ts) {l : Lexer}
    (ht : (texts ts).Sublist l.text) : Lexer.Loses q k {} s l := by
  have hcount := ht.count_le q
  have hstart : ({} : Lexer).text = [] := rfl
  unfold Keeps at h
  unfold Lexer.Loses
  rw [hstart, List.count_nil]
  omega

/-- **Every special byte is quoted by apostrophes or backslashes.** -/
theorem markedTokens_eq_zero (h : tokens s = some ts) (hs : Keeps (byte '\'') 0 s ts)
    (hb : Keeps (byte '\\') 0 s ts) (hh : Keeps (byte '#') 0 s ts) : markedTokens ts = 0 := by
  obtain ⟨l, hrun, ht, hle⟩ := tokens_run h
  have := Lexer.markedWords_run (.inl rfl) hrun (hs.loses ht) (hb.loses ht) (hh.loses ht)
  have hstart : ({} : Lexer).markedWords = 0 := rfl
  omega

/-- **Two apostrophes quote one word.** -/
theorem markedTokens_le_one (h : tokens s = some ts) (hs : Keeps (byte '\'') 2 s ts)
    (hb : Keeps (byte '\\') 0 s ts) (hh : Keeps (byte '#') 0 s ts) : markedTokens ts ≤ 1 := by
  obtain ⟨l, hrun, ht, hle⟩ := tokens_run h
  have := Lexer.markedWords_run_le_one (.inl rfl) rfl hrun (hs.loses ht) (hb.loses ht) (hh.loses ht)
  omega

/-- **Every apostrophe is quoted by quotation marks or backslashes.** -/
theorem apostrophe_notMem (h : tokens s = some ts) (hd : Keeps (byte '"') 0 s ts)
    (hb : Keeps (byte '\\') 0 s ts) (hh : Keeps (byte '#') 0 s ts) : byte '\'' ∉ texts ts := by
  obtain ⟨l, hrun, ht, -⟩ := tokens_run h
  have hcount := Lexer.apostrophes_run (.inl rfl) hrun (hd.loses ht) (hb.loses ht) (hh.loses ht)
  have hle := ht.count_le (byte '\'')
  have hstart : ({} : Lexer).text = [] := rfl
  rw [hcount, hstart, List.count_nil, Nat.le_zero, List.count_eq_zero] at hle
  exact hle

/-- **A value between double quotation marks is safe** if no backslash is lost. -/
theorem doubleSafe_of_tokens {r v t : Bytes} {us : List Token}
    (hr : ({} : Lexer).run r = some { tokens := us })
    (h : tokens (r ++ byte '"' :: (v ++ byte '"' :: t)) = some ts)
    (hb : Keeps (byte '\\') 0 (r ++ byte '"' :: (v ++ byte '"' :: t)) ts)
    (hv : Lexer.marked v = false) : doubleSafe v = true := by
  obtain ⟨l, hrun, ht, -⟩ := tokens_run h
  have hlose := hb.loses ht
  have hopen : ({ tokens := us } : Lexer).step (byte '"') =
      some ⟨.double, some ⟨[], false⟩, us⟩ := rfl
  rw [Lexer.run_append, hr, Option.bind_some, Lexer.run_cons, hopen, Option.bind_some] at hrun
  by_contra hsafe
  refine Lexer.run_double_unsafe (by simpa using hsafe) hv [] us hrun ?_
  -- what is lost after the opening mark is lost in the whole line
  have hle := (Lexer.text_run hr).count_le (byte '\\')
  unfold Lexer.Loses at hlose ⊢
  simp [Lexer.text, List.count_cons] at hle hlose ⊢
  omega

end

end Shell

end Text

end HaPanel
