import Templating.Json.Numeral

/-!
# Passing over a value

A value that is not wanted is still read through, so that a text that is no JSON
is found out.  Nesting is kept as a list of open brackets, innermost first, and
not as recursion, so a value may be nested to any depth.
-/

namespace Templating.Json

/-- A bracket that is open. -/
inductive Frame where
  | array
  | object
deriving DecidableEq

/-- The character that closes a bracket. -/
def Frame.closing : Frame → Char
  | .array => ']'
  | .object => '\x7d'

/-- How far the passing over has come, with the brackets that are open. -/
inductive Progress where
  /-- A value must come. -/
  | before (frames : List Frame)
  /-- A bracket was just opened, inside others. -/
  | opened (frame : Frame) (frames : List Frame)
  /-- A value was just passed. -/
  | behind (frames : List Frame)
deriving DecidableEq

/-- Passes over a value that is neither an array nor an object. -/
def skipScalar : Text → Reading Text
  | [] => .error .ended
  | c :: t =>
      if c = '"' then skipString t
      else if startsNumber c then skipNumber (c :: t)
      else
        match wordRest? c with
        | some word => expectWord word t
        | none => .error .invalid

/-- Passes over the name of a member and its colon. -/
def skipName (t : Text) : Reading Text := do
  let t ← expect '"' t
  let t ← skipString t
  expect ':' t

/-- Passes over what must come before a value in a bracket. -/
def skipLead : Frame → Text → Reading Text
  | .array, t => .ok t
  | .object, t => skipName t

/-- Passes over text until no bracket is open, in so many moves. -/
def skipFrom : Nat → Progress → Text → Reading Text
  | 0, _, _ => .error .ended
  | moves + 1, progress, t =>
      match progress, skipSpaces t with
      | .behind [], t => .ok t
      | _, [] => .error .ended
      | .before frames, c :: t =>
          if c = '[' then skipFrom moves (.opened .array frames) t
          else if c = '\x7b' then skipFrom moves (.opened .object frames) t
          else
            match skipScalar (c :: t) with
            | .error fault => .error fault
            | .ok t => skipFrom moves (.behind frames) t
      | .opened frame frames, c :: t =>
          if c = frame.closing then skipFrom moves (.behind frames) t
          else
            match skipLead frame (c :: t) with
            | .error fault => .error fault
            | .ok t => skipFrom moves (.before (frame :: frames)) t
      | .behind (frame :: frames), c :: t =>
          if c = frame.closing then skipFrom moves (.behind frames) t
          else if c = ',' then
            match skipLead frame t with
            | .error fault => .error fault
            | .ok t => skipFrom moves (.before (frame :: frames)) t
          else .error .invalid

/-- Passes over a value.  Every second move at the latest passes a character. -/
def skipValue (t : Text) : Reading Text := skipFrom (2 * t.length + 2) (.before []) t

end Templating.Json
