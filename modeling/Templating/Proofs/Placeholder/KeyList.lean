import Templating.Placeholder.Printer
import Templating.Proofs.Placeholder.Cutting
import Templating.Proofs.Text.Boundary
import Templating.Proofs.Text.Sequence

/-!
# Lists of keys

The list of a data path is matched first and searched for quoted texts
afterwards.  Both find the same keys.

Matching goes key by key (`manyOf_readListedKey?`).  A key without a comma behind
it leaves no blanks to the next one, so the blanks between two keys may be counted
to either.  Searching goes from quote to quote (`quotedTexts_list`).  Outside its
keys a list holds no quote, so the search meets the opening quote of every key,
and ends the key at the next quote.

`readKeyList?_eq_some_iff` says that in front of a bracket lists of proper keys
are matched, and nothing else.
-/

namespace Templating

open Text (Blanks Stops)

/-! ## Quoted texts -/

/-- A quoted text is a text without quotes, not empty, between two quotes. -/
theorem readQuotedText?_eq_some_iff {t text rest : Text} :
    readQuotedText? t = some (text, rest) ↔
      ∃ quote quote', isQuote quote = true ∧ isQuote quote' = true ∧ text ≠ [] ∧
        (∀ c ∈ text, isQuote c = false) ∧ t = quote :: (text ++ quote' :: rest) := by
  constructor
  · intro h
    rw [readQuotedText?.eq_def] at h
    split at h
    next => cases h
    next quote u =>
      split at h
      next c text' quote' rest' taken dropped =>
        split at h
        next isQ =>
          cases h
          have split := List.takeWhile_append_dropWhile (p := (!isQuote ·)) (l := u)
          rw [taken, dropped] at split
          have stops : Stops (!isQuote ·) (u.dropWhile (!isQuote ·)) := Text.stops_dropWhile u
          rw [dropped, Text.stops_cons, Bool.not_eq_false'] at stops
          refine ⟨quote, quote', isQ, stops, List.cons_ne_nil c text', fun d member => ?_, ?_⟩
          · rw [← taken] at member
            simpa using Text.mem_takeWhile member
          · rw [split]
        next => cases h
      next => cases h
  · rintro ⟨quote, quote', isQ, isQ', nonempty, unquoted, rfl⟩
    obtain ⟨c, text, rfl⟩ := List.exists_cons_of_ne_nil nonempty
    have kind : ∀ d ∈ c :: text, (!isQuote d) = true := fun d member => by
      rw [unquoted d member]
      rfl
    have stops : Stops (!isQuote ·) (quote' :: rest) := Text.stops_cons.mpr (by rw [isQ']; rfl)
    simp only [readQuotedText?, Text.takeWhile_append_of_stops kind stops,
      Text.dropWhile_append_of_stops kind stops, if_pos isQ]

theorem readQuotedText?_forward : ReadsForward readQuotedText? := by
  intro t text rest h
  obtain ⟨quote, quote', -, -, -, -, rfl⟩ := readQuotedText?_eq_some_iff.mp h
  exact ⟨quote, text ++ [quote'], by simp⟩

/-- No quoted text begins with a character that is no quote. -/
theorem readQuotedText?_cons_eq_none {c : Char} (unquoted : isQuote c = false) (t : Text) :
    readQuotedText? (c :: t) = none := by
  refine Option.eq_none_iff_forall_ne_some.mpr fun (text, rest) found => ?_
  obtain ⟨quote, quote', isQ, -, -, -, split⟩ := readQuotedText?_eq_some_iff.mp found
  rw [(List.cons.inj split).1, isQ] at unquoted
  cases unquoted

/-- A text without quotes in front adds no quoted text. -/
theorem quotedTexts_append {s : Text} (unquoted : ∀ c ∈ s, isQuote c = false) (t : Text) :
    quotedTexts (s ++ t) = quotedTexts t := by
  have unread : Unread readQuotedText? s t := by
    intro u v split nonempty
    obtain ⟨c, v, rfl⟩ := List.exists_cons_of_ne_nil nonempty
    exact readQuotedText?_cons_eq_none (unquoted c (by rw [split]; simp)) (v ++ t)
  rw [quotedTexts, holes_append_of_unread unread, quotedTexts]

/-- A quoted text in front is the first one found. -/
theorem quotedTexts_quoted {quote quote' : Char} {text : Text} (isQ : isQuote quote = true)
    (isQ' : isQuote quote' = true) (nonempty : text ≠ [])
    (unquoted : ∀ c ∈ text, isQuote c = false) (t : Text) :
    quotedTexts (quote :: (text ++ quote' :: t)) = text :: quotedTexts t := by
  have split : quote :: (text ++ quote' :: t) = quote :: (text ++ [quote']) ++ t := by simp
  have found : readQuotedText? (quote :: (text ++ [quote']) ++ t) = some (text, t) :=
    readQuotedText?_eq_some_iff.mpr ⟨quote, quote', isQ, isQ', nonempty, unquoted, split.symm⟩
  rw [split, quotedTexts, holes, pieces_of_read readQuotedText?_forward found]
  rfl

/-! ## Quoted keys -/

namespace QuotedKey

variable {k : QuotedKey}

theorem Proper.blanks_before (proper : k.Proper) : Blanks k.before :=
  List.all_eq_true.mp proper.1

theorem Proper.blanks_behind (proper : k.Proper) : Blanks k.behind :=
  List.all_eq_true.mp proper.2.2.2.2.2

theorem Proper.unquoted (proper : k.Proper) : ∀ c ∈ k.key, isQuote c = false := fun c member => by
  simpa using List.all_eq_true.mp proper.2.2.2.1 c member

/-- A proper key is read with all the blanks that follow it. -/
theorem Proper.read (proper : k.Proper) (rest : Text) :
    readQuotedKey? (k.write ++ rest) = some (k.key, Text.skipBlanks rest) := by
  have quoted : readQuotedText? (k.opening :: (k.key ++ k.closing :: (k.behind ++ rest))) =
      some (k.key, k.behind ++ rest) :=
    readQuotedText?_eq_some_iff.mpr
      ⟨k.opening, k.closing, proper.2.1, proper.2.2.2.2.1, proper.2.2.1, proper.unquoted, rfl⟩
  have split : k.write ++ rest =
      k.before ++ k.opening :: (k.key ++ k.closing :: (k.behind ++ rest)) := by simp [write]
  rw [split, readQuotedKey?, Text.skipBlanks_append proper.blanks_before,
    Text.skipBlanks_cons (isBlank_of_isQuote proper.2.1), quoted, Option.map_some]
  simp only [Text.skipBlanks_append proper.blanks_behind]

/-- What is read as a key is a proper one. -/
theorem exists_proper {t key rest : Text} (h : readQuotedKey? t = some (key, rest)) :
    ∃ k : QuotedKey, k.Proper ∧ k.key = key ∧ t = k.write ++ rest := by
  obtain ⟨⟨key, rest'⟩, quoted, same⟩ := Option.map_eq_some_iff.mp h
  cases same
  obtain ⟨quote, quote', isQ, isQ', nonempty, unquoted, split⟩ :=
    readQuotedText?_eq_some_iff.mp quoted
  obtain ⟨before, blank, split'⟩ := Text.exists_blanks t
  obtain ⟨behind, blank', split''⟩ := Text.exists_blanks rest'
  refine ⟨⟨before, quote, key, quote', behind⟩, ?_, rfl, ?_⟩
  · refine ⟨List.all_eq_true.mpr blank, isQ, nonempty, ?_, isQ', List.all_eq_true.mpr blank'⟩
    exact List.all_eq_true.mpr fun c member => by rw [unquoted c member]; rfl
  · have whole : t = before ++ quote :: (key ++ quote' :: (behind ++ Text.skipBlanks rest')) := by
      rw [← split'', ← split]
      exact split'
    simpa [write] using whole

/-- The first character of a proper key that is no blank is a quote. -/
theorem Proper.skipBlanks_write (proper : k.Proper) (rest : Text) :
    ∃ c u, isQuote c = true ∧ Text.skipBlanks (k.write ++ rest) = c :: u := by
  refine ⟨k.opening, k.key ++ k.closing :: (k.behind ++ rest), proper.2.1, ?_⟩
  have split : k.write ++ rest =
      k.before ++ k.opening :: (k.key ++ k.closing :: (k.behind ++ rest)) := by simp [write]
  rw [split, Text.skipBlanks_append proper.blanks_before,
    Text.skipBlanks_cons (isBlank_of_isQuote proper.2.1)]

theorem Proper.quotedTexts_write (proper : k.Proper) (t : Text) :
    quotedTexts (k.write ++ t) = k.key :: quotedTexts t := by
  have split : k.write ++ t =
      k.before ++ k.opening :: (k.key ++ k.closing :: (k.behind ++ t)) := by simp [write]
  rw [split, quotedTexts_append fun c member => isQuote_of_isBlank (proper.blanks_before c member),
    quotedTexts_quoted proper.2.1 proper.2.2.2.2.1 proper.2.2.1 proper.unquoted,
    quotedTexts_append fun c member => isQuote_of_isBlank (proper.blanks_behind c member)]

end QuotedKey

/-! ## Lists -/

/-- A key of a list, with a comma behind it or without. -/
structure ListedKey where
  /-- The key with what stands around it. -/
  quoted : QuotedKey
  /-- Whether a comma follows. -/
  comma : Bool

namespace ListedKey

/-- The comma behind a key, if there is one. -/
def commaText (k : ListedKey) : Text := if k.comma then [','] else []

/-- A key of a list as written. -/
def write (k : ListedKey) : Text := k.quoted.write ++ k.commaText

/-- Keys with a comma between neighbours. -/
def separated : List QuotedKey → List ListedKey
  | [] => []
  | [k] => [⟨k, false⟩]
  | k :: k' :: keys => ⟨k, true⟩ :: separated (k' :: keys)

end ListedKey

theorem exists_comma (t : Text) :
    ∃ comma : Bool, t = (if comma then [','] else []) ++ skipComma t := by
  rw [skipComma.eq_def]
  split
  next u => exact ⟨true, rfl⟩
  next => exact ⟨false, rfl⟩

theorem skipComma_of_ne {c : Char} (other : c ≠ ',') (t : Text) : skipComma (c :: t) = c :: t := by
  rw [skipComma.eq_def]
  split
  next same => exact absurd (List.cons.inj same).1 other
  next => rfl

/-- What is read from a list is a proper key and its comma. -/
theorem exists_listedKey {t key rest : Text} (h : readListedKey? t = some (key, rest)) :
    ∃ k : ListedKey, k.quoted.Proper ∧ k.quoted.key = key ∧ t = k.write ++ rest := by
  obtain ⟨⟨key, rest'⟩, read, same⟩ := Option.map_eq_some_iff.mp h
  cases same
  obtain ⟨k, proper, rfl, rfl⟩ := QuotedKey.exists_proper read
  obtain ⟨comma, split⟩ := exists_comma rest'
  refine ⟨⟨k, comma⟩, proper, rfl, ?_⟩
  rw [ListedKey.write, ListedKey.commaText, List.append_assoc, ← split]

/-- A repetition goes on behind a key that is read. -/
theorem manyOf_of_listedKey {t key rest : Text} (h : readListedKey? t = some (key, rest)) :
    Text.manyOf readListedKey? t =
      (key :: (Text.manyOf readListedKey? rest).1, (Text.manyOf readListedKey? rest).2) := by
  obtain ⟨k, -, -, rfl⟩ := exists_listedKey h
  exact Text.manyOf_of_some (by simp [ListedKey.write, QuotedKey.write]) h

/-! ## Matching a list -/

section Matching

variable {items : List ListedKey}

/-- The first character of a list that is no blank is a quote, or the bracket
behind the list. -/
theorem skipBlanks_list (proper : ∀ k ∈ items, k.quoted.Proper) (u : Text) :
    ∃ c w, c ≠ ',' ∧ Text.skipBlanks (items.flatMap ListedKey.write ++ ']' :: u) = c :: w := by
  cases items with
  | nil => exact ⟨']', u, by decide, Text.skipBlanks_cons rfl u⟩
  | cons k items =>
      obtain ⟨c, w, isQ, front⟩ := (proper k List.mem_cons_self).skipBlanks_write
        (k.commaText ++ (items.flatMap ListedKey.write ++ ']' :: u))
      refine ⟨c, w, ?_, ?_⟩
      · rintro rfl
        cases isQ
      · rw [← front]
        simp [ListedKey.write]

/-- A key of a list is read with its comma, or with the blanks up to the next
key. -/
theorem readListedKey?_list {k : ListedKey} (first : k.quoted.Proper)
    (proper : ∀ k ∈ items, k.quoted.Proper) (u : Text) :
    let behind := items.flatMap ListedKey.write ++ ']' :: u
    readListedKey? (k.write ++ behind) =
      some (k.quoted.key, if k.comma then behind else Text.skipBlanks behind) := by
  intro behind
  obtain ⟨quoted, comma⟩ := k
  rw [readListedKey?, ListedKey.write, List.append_assoc, first.read, Option.map_some]
  cases comma with
  | true =>
      have atComma : Text.skipBlanks (',' :: behind) = ',' :: behind := Text.skipBlanks_cons rfl _
      simp only [ListedKey.commaText, ↓reduceIte, List.cons_append, List.nil_append, atComma,
        skipComma]
  | false =>
      obtain ⟨c, w, other, front⟩ := skipBlanks_list proper u
      have noComma : skipComma (Text.skipBlanks behind) = Text.skipBlanks behind := by
        rw [front, skipComma_of_ne other]
      simp [ListedKey.commaText, noComma]

/-- Blanks in front of a list make no difference. -/
theorem manyOf_skipBlanks (proper : ∀ k ∈ items, k.quoted.Proper) (u : Text) :
    let t := items.flatMap ListedKey.write ++ ']' :: u
    Text.manyOf readListedKey? (Text.skipBlanks t) = Text.manyOf readListedKey? t := by
  intro t
  cases items with
  | nil => exact congrArg _ (Text.skipBlanks_cons rfl u)
  | cons k items =>
      have split : t = k.write ++ (items.flatMap ListedKey.write ++ ']' :: u) := by simp [t]
      have read := (congrArg readListedKey? split).trans <|
        readListedKey?_list (proper k List.mem_cons_self)
          (fun k' member => proper k' (List.mem_cons_of_mem k member)) u
      have same : readListedKey? (Text.skipBlanks t) = readListedKey? t := by
        simp only [readListedKey?, readQuotedKey?, Text.skipBlanks_skipBlanks]
      rw [manyOf_of_listedKey read, manyOf_of_listedKey (same.trans read)]

/-- A list in front of its bracket is read key by key. -/
theorem manyOf_readListedKey? (proper : ∀ k ∈ items, k.quoted.Proper) (u : Text) :
    Text.manyOf readListedKey? (items.flatMap ListedKey.write ++ ']' :: u) =
      (items.map (·.quoted.key), ']' :: u) := by
  induction items with
  | nil =>
      have bracket : readListedKey? (']' :: u) = none := by
        refine Option.eq_none_iff_forall_ne_some.mpr fun (key, rest) read => ?_
        obtain ⟨k, listed, -, split⟩ := exists_listedKey read
        obtain ⟨c, w, isQ, front⟩ := listed.skipBlanks_write (k.commaText ++ rest)
        rw [ListedKey.write, List.append_assoc] at split
        rw [← split, Text.skipBlanks_cons rfl] at front
        rw [← (List.cons.inj front).1] at isQ
        cases isQ
      exact Text.manyOf_of_none bracket
  | cons k items ih =>
      have others : ∀ k' ∈ items, k'.quoted.Proper := fun k' member =>
        proper k' (List.mem_cons_of_mem k member)
      have read := readListedKey?_list (proper k List.mem_cons_self) others u
      have behind : Text.manyOf readListedKey? (if k.comma then
            items.flatMap ListedKey.write ++ ']' :: u
          else Text.skipBlanks (items.flatMap ListedKey.write ++ ']' :: u)) =
          (items.map (·.quoted.key), ']' :: u) := by
        split
        next => exact ih others
        next => rw [manyOf_skipBlanks others, ih others]
      rw [List.flatMap_cons, List.append_assoc, manyOf_of_listedKey read, behind, List.map_cons]

/-- The quoted texts of a list are its keys. -/
theorem quotedTexts_list (proper : ∀ k ∈ items, k.quoted.Proper) :
    quotedTexts (items.flatMap ListedKey.write) = items.map (·.quoted.key) := by
  induction items with
  | nil => rfl
  | cons k items ih =>
      have unquoted : ∀ c ∈ k.commaText, isQuote c = false := by
        intro c member
        rw [ListedKey.commaText] at member
        split at member
        next => rw [List.mem_singleton.mp member]; rfl
        next => cases member
      rw [List.flatMap_cons, ListedKey.write, List.append_assoc,
        (proper k List.mem_cons_self).quotedTexts_write, quotedTexts_append unquoted,
        ih fun k' member => proper k' (List.mem_cons_of_mem k member), List.map_cons]

end Matching

/-- A part of a list: a proper key with its comma. -/
def KeyPart (w key : Text) : Prop :=
  ∃ k : ListedKey, k.quoted.Proper ∧ k.quoted.key = key ∧ w = k.write

theorem exists_listedKeys {w : Text} {keys : List Text} (h : Text.Sequence KeyPart w keys) :
    ∃ items : List ListedKey, (∀ k ∈ items, k.quoted.Proper) ∧
      items.map (·.quoted.key) = keys ∧ w = items.flatMap ListedKey.write := by
  induction h with
  | nil => exact ⟨[], fun _ member => (List.not_mem_nil member).elim, rfl, rfl⟩
  | cons first _ ih =>
      obtain ⟨k, proper, rfl, rfl⟩ := first
      obtain ⟨items, others, rfl, rfl⟩ := ih
      refine ⟨k :: items, fun k' member => ?_, rfl, rfl⟩
      rcases List.mem_cons.mp member with rfl | later
      · exact proper
      · exact others k' later

/-- What is matched as a list in front of a bracket is a list of proper keys, and
nothing else. -/
theorem readKeyList?_eq_some_iff {t w u : Text} :
    readKeyList? t = some (w, ']' :: u) ↔
      ∃ items : List ListedKey, items ≠ [] ∧ (∀ k ∈ items, k.quoted.Proper) ∧
        w = items.flatMap ListedKey.write ∧ t = w ++ ']' :: u := by
  have covered (v rest : Text) : (v ++ rest).take ((v ++ rest).length - rest.length) = v := by
    rw [List.length_append, Nat.add_sub_cancel, List.take_left]
  constructor
  · intro h
    rw [readKeyList?] at h
    split at h
    next => cases h
    next key keys rest listed =>
      obtain ⟨taken, rfl⟩ := Prod.mk.inj (Option.some.inj h)
      have sound {t rest key : Text} (read : (.ok (readListedKey? t) : Except Empty _) =
          .ok (some (key, rest))) : ∃ w, t = w ++ rest ∧ KeyPart w key := by
        obtain ⟨k, proper, same, split⟩ := exists_listedKey (Except.ok.inj read)
        exact ⟨k.write, split, k, proper, same, rfl⟩
      have nonempty {w key : Text} (part : KeyPart w key) : w ≠ [] := by
        obtain ⟨k, -, -, rfl⟩ := part
        simp [ListedKey.write, QuotedKey.write]
      have parts := Text.many_eq_manyOf readListedKey? t
      rw [listed] at parts
      obtain ⟨v, rfl, sequence, -⟩ :=
        Text.many_eq_ok (fun _ _ _ => sound) (fun _ _ => nonempty) parts
      obtain ⟨items, proper, same, rfl⟩ := exists_listedKeys sequence
      rw [covered] at taken
      refine ⟨items, ?_, proper, taken.symm, by rw [taken]⟩
      rintro rfl
      cases same
  · rintro ⟨items, nonempty, proper, rfl, rfl⟩
    obtain ⟨k, items, rfl⟩ := List.exists_cons_of_ne_nil nonempty
    rw [readKeyList?, manyOf_readListedKey? proper]
    simp only [List.map_cons, covered]

end Templating
