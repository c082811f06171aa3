import PerfReview.Json.Basic
import PerfReview.Provider

/-!
# The text in an answer

Each provider wraps the text of its answer in an object of a form of its own. What does not have
that form holds no text.
-/

namespace PerfReview.Provider

/-- The text of a part of an answer, where the part has one. -/
def partText? (part : Json) : Option String := (part.field? "text").bind Json.text?

/-- The texts of all blocks that say they are text, one after the other. -/
def blocksText (payload : Json) : String :=
  let blocks := ((payload.field? "content").bind Json.list?).getD []
  String.join <| blocks.filterMap fun block =>
    if (block.field? "type").bind Json.text? = some "text" then partText? block else none

/-- The texts of all parts of the first candidate, one after the other. -/
def candidateText (payload : Json) : String :=
  let candidates := ((payload.field? "candidates").bind Json.list?).getD []
  let parts := ((candidates.headD .null).fieldOrNull "content").fieldOrNull "parts"
  String.join ((parts.list?.getD []).filterMap partText?)

/-- The text of the message of the first choice, or else the text of the choice itself. -/
def choiceText (payload : Json) : String :=
  let choices := ((payload.field? "choices").bind Json.list?).getD []
  let first := choices.headD .null
  let content := ((first.fieldOrNull "message").field? "content").bind Json.text?
  (content.or (partText? first)).getD ""

def content (p : Provider) (payload : Json) : String :=
  match p with
  | anthropic => blocksText payload
  | gemini => candidateText payload
  | openai => choiceText payload

end PerfReview.Provider
