import Templating.Placeholder.Query

/-!
# What a query covers

A reader of placeholders is tried at every place of a text, and cutting goes on
behind what it read.  So a reader has to give back an end of its text and to
cover something.  `QueryRef.read?_forward` says so of queries, and with it
`flatMap_text_pieces` applies to them.

The lemmas on the way open the reader part by part.  Each says where in the text
the part stands and what is read behind it.
-/

namespace Templating

/-! ## Texts in quotes -/

theorem Text.skipBlanks_suffix (t : Text) : Text.skipBlanks t <:+ t :=
  List.dropWhile_suffix isBlank

/-- What is read behind the closing quote is read where the text ends. -/
theorem readUntil?_eq_some {α : Type} {quote : Char} {behind : Text → Option α} {a : α} :
    ∀ {t text : Text}, readUntil? quote behind t = some (text, a) →
      ∃ u, t = text ++ quote :: u ∧ behind u = some a
  | [], _, h => by simp [readUntil?] at h
  | c :: t, text, h => by
      rw [readUntil?] at h
      split at h
      next a' closed =>
        cases h
        split at closed
        next same => exact ⟨t, by rw [same, List.nil_append], closed⟩
        next => cases closed
      next =>
        obtain ⟨⟨text', a'⟩, later, same⟩ := Option.map_eq_some_iff.mp h
        cases same
        obtain ⟨u, split, read⟩ := readUntil?_eq_some later
        exact ⟨u, by rw [split, List.cons_append], read⟩

/-- A text in a bracket stands behind the bracket, between two equal quotes. -/
theorem readBracketed?_eq_some {α : Type} {behind : Text → Option α} {t text : Text} {a : α}
    (h : readBracketed? behind t = some (text, a)) :
    ∃ quote v u, isQuote quote = true ∧ Text.skipBlanks t = '[' :: v ∧
      Text.skipBlanks v = quote :: (text ++ quote :: u) ∧ behind u = some a := by
  rw [readBracketed?] at h
  split at h
  next v opened =>
    split at h
    next => cases h
    next quote w quoted =>
      split at h
      next isQ =>
        obtain ⟨u, split, read⟩ := readUntil?_eq_some h
        exact ⟨quote, v, u, isQ, opened, by rw [quoted, split], read⟩
      next => cases h
  next => cases h

/-- What is read behind a text in a bracket is an end of the whole text. -/
theorem readBracketed?_suffix {α : Type} {behind : Text → Option α} {t text : Text} {a : α}
    (h : readBracketed? behind t = some (text, a)) : ∃ u, u <:+ t ∧ behind u = some a := by
  obtain ⟨quote, v, u, -, opened, quoted, read⟩ := readBracketed?_eq_some h
  have inner : u <:+ v := by
    refine List.IsSuffix.trans ?_ (Text.skipBlanks_suffix v)
    rw [quoted]
    exact ⟨quote :: (text ++ [quote]), by simp⟩
  have outer : v <:+ t := by
    refine List.IsSuffix.trans ?_ (Text.skipBlanks_suffix t)
    rw [opened]
    exact List.suffix_cons '[' v
  exact ⟨u, inner.trans outer, read⟩

/-! ## Queries -/

namespace QueryRef

theorem readFallbackEnd?_suffix {t rest : Text} (h : readFallbackEnd? t = some rest) :
    rest <:+ t := by
  refine List.IsSuffix.trans ?_ (Text.skipBlanks_suffix t)
  rw [Text.after?_eq_some_iff.mp h]
  exact List.suffix_append _ rest

theorem readEnd?_suffix {t rest : Text} {fallback : Option Text}
    (h : readEnd? t = some (fallback, rest)) : rest <:+ t := by
  rw [readEnd?] at h
  split at h
  next v closed =>
    refine List.IsSuffix.trans ?_ (Text.skipBlanks_suffix t)
    rw [closed]
    refine List.IsSuffix.trans ?_ (List.suffix_cons ']' v)
    split at h
    next text rest' bracket =>
      cases h
      obtain ⟨u, below, read⟩ := readBracketed?_suffix bracket
      exact (readFallbackEnd?_suffix read).trans below
    next =>
      obtain ⟨rest', read, same⟩ := Option.map_eq_some_iff.mp h
      cases same
      rw [Text.after?_eq_some_iff.mp read]
      exact List.suffix_append _ rest
  next => cases h

/-- A query is read from the front of a text, and what is behind it is an end of
the text. -/
theorem read?_forward : ReadsForward read? := by
  intro t ref rest h
  obtain ⟨u, opened, h⟩ := Option.bind_eq_some_iff.mp h
  obtain ⟨_, -, h⟩ := Option.bind_eq_some_iff.mp h
  obtain ⟨v, indexed, h⟩ := Option.bind_eq_some_iff.mp h
  obtain ⟨⟨expression, fallback, rest'⟩, bracket, same⟩ := Option.bind_eq_some_iff.mp h
  obtain ⟨rfl, rfl⟩ := Prod.mk.inj (Option.some.inj same)
  obtain ⟨w, below, read⟩ := readBracketed?_suffix bracket
  have behindIndex : rest' <:+ u := by
    refine ((readEnd?_suffix read).trans below).trans ?_
    refine List.IsSuffix.trans ?_ (List.dropWhile_suffix Char.isDigit)
    rw [Text.after?_eq_some_iff.mp indexed]
    exact List.suffix_append _ v
  obtain ⟨covered, rfl⟩ := behindIndex
  rw [Text.after?_eq_some_iff.mp opened]
  exact ⟨'{', opening.tail ++ covered, by simp [opening]⟩

end QueryRef

end Templating
