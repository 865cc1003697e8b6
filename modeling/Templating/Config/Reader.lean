import Templating.Environment
import Templating.Json.Skip

/-!
# Reading a configuration

A configuration is written as JSON, in one of two shapes.

* An object with the members `max_passes` and `default_fallback`.  Either may be
  left out and keeps its standard value.  Other members are passed over.  A
  member that is given twice is a fault of shape.
* An array of the two values in that order.  Values at the end may be left out.
  More than two are no configuration.

The number of passes is a natural number below `2 ^ 64`, written without point,
exponent or sign.  The fallback is a string.

The text is read once from the front, and the first fault is the one reported.
So a fault of shape early in a text hides that the text is no JSON further on.
-/

namespace Templating.Config

open Json

/-! ## Values -/

/-- The fault of a value of a shape that is not wanted.  It is read as far as
its first token. -/
def misfit : Text → Fault
  | [] => .ended
  | c :: t =>
      let faultOf {α : Type} : Reading α → Fault
        | .error fault => fault
        | .ok _ => .shape
      if c = '"' then faultOf (readString t)
      else if startsNumber c then faultOf (readNumber (c :: t))
      else if c = '[' ∨ c = '\x7b' then .shape
      else
        match wordRest? c with
        | some word => faultOf (expectWord word t)
        | none => .invalid

/-- Reads a number of passes. -/
def readPasses (t : Text) : Reading (Nat × Text) :=
  match skipSpaces t with
  | [] => .error .ended
  | c :: t =>
      if startsNumber c then do
        match ← readNumber (c :: t) with
        | (.int (.ofNat n), rest) => return (n, rest)
        | _ => .error .shape
      else .error (misfit (c :: t))

/-- Reads a fallback. -/
def readFallback (t : Text) : Reading (Text × Text) :=
  match skipSpaces t with
  | [] => .error .ended
  | '"' :: t => readString t
  | t => .error (misfit t)

/-! ## The two shapes -/

/-- The values that were given so far. -/
structure Given where
  /-- The number of passes. -/
  passes : Option Nat
  /-- The fallback. -/
  fallback : Option Text

/-- The settings with the values that were given. -/
def Given.config (given : Given) : Config :=
  ⟨given.passes.getD standard.maxPasses, given.fallback.getD standard.defaultFallback⟩

/-- Whether an array goes on behind a value, or from its opening, and the text
from there on. -/
def nextElement? (first : Bool) (t : Text) : Reading (Option Text) :=
  match skipSpaces t with
  | [] => .error .ended
  | ']' :: _ => .ok none
  | c :: t =>
      if first then .ok (some (c :: t))
      else if c = ',' then
        match skipSpaces t with
        | ']' :: _ => .error .invalid
        | t => .ok (some t)
      else .error .invalid

/-- Reads a configuration written as an array, from behind its opening. -/
def readArray (t : Text) : Reading (Given × Text) := do
  match ← nextElement? true t with
  | none => return (⟨none, none⟩, ← expect ']' t)
  | some t =>
      let (passes, t) ← readPasses t
      match ← nextElement? false t with
      | none => return (⟨some passes, none⟩, ← expect ']' t)
      | some t =>
          let (fallback, t) ← readFallback t
          return (⟨some passes, some fallback⟩, ← expect ']' t)

/-- Whether an object goes on behind a member, or from its opening, and the text
from behind the quote of the next name. -/
def nextName? (first : Bool) (t : Text) : Reading (Option Text) :=
  match skipSpaces t with
  | [] => .error .ended
  | '\x7d' :: _ => .ok none
  | c :: t =>
      if first then if c = '"' then .ok (some t) else .error .invalid
      else if c = ',' then (expect '"' t).map some
      else .error .invalid

/-- Reads the value of a member, from before its colon. -/
def readMember (given : Given) (name : Text) (t : Text) : Reading (Given × Text) :=
  if name = "max_passes".toList then
    if given.passes.isSome then .error .shape
    else do
      let (passes, t) ← readPasses (← expect ':' t)
      return (⟨some passes, given.fallback⟩, t)
  else if name = "default_fallback".toList then
    if given.fallback.isSome then .error .shape
    else do
      let (fallback, t) ← readFallback (← expect ':' t)
      return (⟨given.passes, some fallback⟩, t)
  else do
    let t ← skipValue (← expect ':' t)
    return (given, t)

/-- Reads so many members of an object at most. -/
def readMembers : Nat → Bool → Given → Text → Reading (Given × Text)
  | 0, _, _, _ => .error .ended
  | members + 1, first, given, t => do
      match ← nextName? first t with
      | none => return (given, ← expect '\x7d' t)
      | some t =>
          let (name, t) ← readString t
          let (given, t) ← readMember given name t
          readMembers members false given t

/-- Reads a configuration.  Only spaces may follow it. -/
def read (text : Text) : Reading Config := do
  let (given, rest) ←
    match skipSpaces text with
    | [] => .error .ended
    | '[' :: t => readArray t
    | '\x7b' :: t => readMembers (t.length + 1) true ⟨none, none⟩ t
    | t => .error (misfit t)
  if skipSpaces rest = [] then return given.config else .error .invalid

end Templating.Config
