import Templating.Text.Basic

/-!
# Path errors

Why an expression is no path.  A character that no rule accepts is located.
While an expression is being read its place is the text from that character on.
`locate` turns this into the number of bytes before it.
-/

namespace Templating

/-- Why an expression is no path. -/
inductive PathError (Place : Type) where
  /-- The expression ends inside a construct. -/
  | ended
  /-- No rule accepts the character at this place. -/
  | unexpected (place : Place) (found : Char)
  /-- A numeral stands for no number in range. -/
  | badNumber (numeral : Text)
  /-- A construct of the wider language that is not read here. -/
  | unsupported (construct : String)
  /-- The terms of a filter are nested past the limit. -/
  | tooDeep (limit : Nat)
deriving DecidableEq

namespace PathError

/-- What is wrong with a text that no rule accepts the first character of. -/
def atFront : Text → PathError Text
  | [] => .ended
  | c :: t => .unexpected (c :: t) c

/-- Places as byte offsets into the whole expression. -/
def locate (expression : Text) : PathError Text → PathError Nat
  | .ended => .ended
  | .unexpected rest found => .unexpected (Text.byteSize expression - Text.byteSize rest) found
  | .badNumber numeral => .badNumber numeral
  | .unsupported construct => .unsupported construct
  | .tooDeep limit => .tooDeep limit

/-- The wording of an error. -/
def message : PathError Nat → String
  | .ended => "unexpected end of expression"
  | .unexpected position found =>
      "unexpected character '" ++ String.singleton found ++ "' at position " ++ toString position
  | .badNumber numeral => "invalid number: " ++ String.ofList numeral
  | .unsupported construct => "unsupported syntax: " ++ construct
  | .tooDeep limit => "filter nested deeper than " ++ toString limit ++ " levels"

end PathError

end Templating
