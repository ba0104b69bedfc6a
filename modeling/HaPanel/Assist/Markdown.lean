import HaPanel.Text.Bytes

/-!
# Markdown in answers

`assist_parse_markdown` cuts an answer into runs of one style each.  The Assist screen shows the
plain text of the runs, and a plain text that ends in a question mark makes the panel listen again.
-/

namespace HaPanel

namespace Assist

open Text

inductive MarkdownStyle where
  | normal
  | emphasis
  | heading
  deriving DecidableEq

structure MarkdownRun where
  text : Bytes
  style : MarkdownStyle
  deriving DecidableEq

/-- `assist_markdown_append_run`: a text in the style of the last run is added to it. -/
def appendRun (runs : List MarkdownRun) (style : MarkdownStyle) (text : Bytes) :
    List MarkdownRun :=
  if text = [] then runs
  else
    match runs.getLast? with
    | some r =>
      if r.style = style then runs.dropLast ++ [{ r with text := r.text ++ text }]
      else runs ++ [⟨text, style⟩]
    | none => [⟨text, style⟩]

/-- The style of a line and the line without its marks: one to three `#` and a space, or a `-` or
`*` and a space, in whose place a bullet stands. -/
def stripMarks (text : Bytes) : MarkdownStyle × Bytes :=
  let headingMarks := ((text.take 3).takeWhile (· == byte '#')).length
  if 0 < headingMarks ∧ text[headingMarks]? = some (byte ' ') then
    (.heading, text.drop (headingMarks + 1))
  else if (text[0]? = some (byte '-') ∨ text[0]? = some (byte '*')) ∧
      text[1]? = some (byte ' ') then
    (.normal, str "• " ++ text.drop 2)
  else (.normal, text)

/-- The style between two `**`. -/
def spanStyle (base : MarkdownStyle) (emphasis : Bool) : MarkdownStyle :=
  if base = .heading then .heading else if emphasis then .emphasis else .normal

/-- The loop over the `**` of a line, with what was read since the last of them. -/
def addSpans (base : MarkdownStyle) :
    Bool → Bytes → List MarkdownRun → Bytes → List MarkdownRun
  | emphasis, acc, runs, [] => appendRun runs (spanStyle base emphasis) acc
  | emphasis, acc, runs, [c] => appendRun runs (spanStyle base emphasis) (acc ++ [c])
  | emphasis, acc, runs, c :: d :: s =>
    if c = byte '*' ∧ d = byte '*' then
      addSpans base (!emphasis) [] (appendRun runs (spanStyle base emphasis) acc) s
    else addSpans base emphasis (acc ++ [c]) runs (d :: s)

def addLine (runs : List MarkdownRun) (line : Bytes) (hasNewline : Bool) : List MarkdownRun :=
  let (base, text) := stripMarks line
  let runs := addSpans base false [] runs text
  if hasNewline then appendRun runs base [10] else runs

/-- The loop over the lines: all but the last end in a newline. -/
def addLines : List MarkdownRun → List Bytes → List MarkdownRun
  | runs, [] => runs
  | runs, [line] => addLine runs line false
  | runs, line :: rest => addLines (addLine runs line true) rest

def parseMarkdown (markdown : Bytes) : List MarkdownRun :=
  match addLines [] (markdown.splitOn 10) with
  | [] => [⟨[], .normal⟩]
  | runs => runs

def plainText (markdown : Bytes) : Bytes := (parseMarkdown markdown).flatMap (·.text)

example : plainText (str "## Salon\n- **20** °C, *ok*?") = str "Salon\n• 20 °C, *ok*?" := by
  decide +kernel

end Assist

end HaPanel
