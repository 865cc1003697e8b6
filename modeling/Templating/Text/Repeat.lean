import Templating.Text.Basic

/-!
# Repetition

`many` reads parts one after the other for as long as a reader takes them.  A
reader gives a part with the text behind it, declines, or fails.  A failure ends
the repetition.

The recursion is on the text.  A count says how many of the next characters the
last part still covers, and the reader is asked again when that count is used
up.  `many_cons` is the equation that hides the count: reading goes on behind
the part that was read.
-/

namespace Templating.Text

variable {ε α : Type}

/-- Repeats a reader behind so many characters that are covered already. -/
def manyFrom (item : Text → Except ε (Option (α × Text))) : Nat → Text → Except ε (List α × Text)
  | _, [] => .ok ([], [])
  | covered + 1, _ :: t => manyFrom item covered t
  | 0, c :: t =>
      match item (c :: t) with
      | .error e => .error e
      | .ok none => .ok ([], c :: t)
      | .ok (some (part, rest)) =>
          (manyFrom item (t.length - rest.length) t).map fun (parts, behind) =>
            (part :: parts, behind)

/-- The parts that a reader takes one after the other, and the text behind
them.  Nothing is read from the empty text. -/
def many (item : Text → Except ε (Option (α × Text))) (t : Text) : Except ε (List α × Text) :=
  manyFrom item 0 t

/-- The parts that a reader without failures takes one after the other. -/
def manyOf (item : Text → Option (α × Text)) (t : Text) : List α × Text :=
  match (many (fun t => .ok (item t)) t : Except Empty (List α × Text)) with
  | .ok parts => parts

/-- Covered characters are passed over. -/
theorem manyFrom_append (item : Text → Except ε (Option (α × Text))) (covered rest : Text) :
    manyFrom item covered.length (covered ++ rest) = many item rest := by
  induction covered with
  | nil => rfl
  | cons c covered ih => simpa [manyFrom] using ih

/-- Repetition goes on behind the part that was read. -/
theorem many_cons {item : Text → Except ε (Option (α × Text))} {c : Char} {covered rest : Text}
    {part : α} (h : item (c :: (covered ++ rest)) = .ok (some (part, rest))) :
    many item (c :: (covered ++ rest)) =
      (many item rest).map fun (parts, behind) => (part :: parts, behind) := by
  have hlen : (covered ++ rest).length - rest.length = covered.length := by simp
  simp only [many, manyFrom, h, hlen, manyFrom_append]

end Templating.Text
