import CodeArena.Engine.Config
import CodeArena.Lib.Text

/-!
# What becomes of a program's output

`sanitizeOutput` takes the path of the workspace out of a stream, and
`evaluateOutput` compares what is left of stdout with the expected output after
`normalizeOutput` of both.
-/

namespace CodeArena.Engine

open CodeArena.Lib CodeArena.Lib.Utf

/-! ## `sanitizeOutput` -/

/-- `/` or `\`. -/
def isSeparator (u : CodeUnit) : Bool := u = 0x2F || u = 0x5C

/-- `sanitizeOutput`: removes every occurrence of the path, with a separator after it
where there is one.  Escaped, the path is a literal for the regular expression. -/
def sanitizeOutput (output workspaceDir : JsString) : JsString :=
  if workspaceDir = [] then output
  else Text.removeAll workspaceDir isSeparator 0 output

/-- Output without the path is left alone. -/
theorem sanitizeOutput_of_not_infix {output workspaceDir : JsString}
    (h : ¬ workspaceDir <:+: output) : sanitizeOutput output workspaceDir = output := by
  unfold sanitizeOutput
  split
  · rfl
  · exact Text.removeAll_of_not_infix h

/-! ## `normalizeOutput` -/

/-- `.replace(/\r\n/g, '\n')`. -/
def replaceCrLf : JsString → JsString
  | [] => []
  | [u] => [u]
  | u :: v :: s => if u = 0x0D ∧ v = 0x0A then 0x0A :: replaceCrLf s else u :: replaceCrLf (v :: s)

/-- `.replace(/\r/g, '\n')`. -/
def replaceCr (s : JsString) : JsString := s.map fun u ↦ if u = 0x0D then 0x0A else u

/-- `normalizeOutput`. -/
def normalizeOutput (str : JsString) : JsString :=
  trimEnd ([0x0A].intercalate (((replaceCr (replaceCrLf str)).splitOn 0x0A).map trimEnd))

/-- What `evaluateOutput` returns. -/
structure Evaluation where
  isMatch : Bool
  verdict : Verdict
  normalizedActual : JsString
  normalizedExpected : JsString
deriving DecidableEq, Repr

/-- `evaluateOutput`. -/
def evaluateOutput (actualOutput expectedOutput : JsString) : Evaluation :=
  let normalizedActual := normalizeOutput actualOutput
  let normalizedExpected := normalizeOutput expectedOutput
  let isMatch := decide (normalizedActual = normalizedExpected)
  { isMatch
    verdict := if isMatch then .accepted else .wrongAnswer
    normalizedActual
    normalizedExpected }

/-- The verdict of an evaluation is ACCEPTED where the normalized outputs are equal,
and WRONG_ANSWER elsewhere. -/
theorem evaluateOutput_verdict (actual expected : JsString) :
    (evaluateOutput actual expected).verdict =
      if normalizeOutput actual = normalizeOutput expected then .accepted else .wrongAnswer := by
  simp [evaluateOutput]

example : (evaluateOutput (js "a \r\nb\r\n\r\n") (js "a\nb")).verdict = .accepted := by
  decide +kernel

end CodeArena.Engine
