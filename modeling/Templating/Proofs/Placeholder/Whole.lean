import Templating.Placeholder.Mention
import Templating.Proofs.Placeholder.Appending
import Templating.Proofs.Placeholder.Framing

/-!
# Placeholders by themselves

A placeholder is read with text behind it.  A report quotes it without that text, and
it is still read as it was (`ReadsWhole`).  For data paths and positional placeholders
nothing else can be read at all.  The expression of a query goes up to the first quote
behind which an end can be read, and an end that is not there with more text is not
there with less.

So what is read of the quoted text is one placeholder and all of it
(`located_of_read`).  No text is read as a data path and as a query, so a text names
one document at most (`NamesDocument.unique`).
-/

namespace Templating

variable {ρ : Type} {read : Text → Option (ρ × Text)}

/-- A placeholder that is read before a text is read without it. -/
def ReadsWhole (read : Text → Option (ρ × Text)) : Prop :=
  ∀ ⦃w rest ref⦄, read (w ++ rest) = some (ref, rest) → read w = some (ref, [])

theorem ReadsAlone.whole (alone : ReadsAlone read) : ReadsWhole read := by
  intro w rest ref found
  have without := alone found []
  rwa [List.append_nil] at without

/-- Every placeholder of a text is read from what is quoted of it. -/
theorem ReadsWhole.read_of_mem_holes (whole : ReadsWhole read) (forward : ReadsForward read)
    {t w : Text} {ref : ρ} (h : (w, ref) ∈ holes read t) : read w = some (ref, []) := by
  obtain ⟨_, rest, -, found⟩ := exists_of_mem_holes forward h
  exact whole found

/-- A placeholder that is read to the end of a text is all that is found in it. -/
theorem located_of_read (forward : ReadsForward read) {w : Text} {ref : ρ}
    (found : read w = some (ref, [])) : located read w = [(⟨0, Text.byteSize w⟩, ref)] := by
  rw [located, pieces_of_read_whole forward found, locateFrom, locateFrom, Nat.zero_add]

/-! ## Readers -/

theorem DataPathRef.read?_whole : ReadsWhole read? := read?_alone.whole

theorem PositionalRef.read?_whole : ReadsWhole read? := read?_alone.whole

namespace QueryRef

/-- The parts of a query are its parts without the text behind it. -/
def Parts.alone {written rest : Text} {ref : QueryRef} (parts : Parts written rest ref) :
    Parts written [] ref where
  front := parts.front
  quote := parts.quote
  tail := parts.tail
  isFront := parts.isFront
  isQuote := parts.isQuote
  written_eq := parts.written_eq
  ends := readEnd?_alone parts.ends []
  shortest := by
    intro x y split
    refine readEnd?_eq_none_of_append (s := rest) ?_
    simpa using parts.shortest x y split

theorem read?_whole : ReadsWhole read? := by
  intro w rest ref found
  obtain ⟨parts⟩ := exists_parts found
  have read := (read?_append_iff parts.alone [] []).mpr ⟨rfl, parts.alone.shortest⟩
  rwa [List.append_nil] at read

end QueryRef

/-! ## Named documents -/

/-- A text that is read as a data path is not read as a query. -/
theorem not_dataPath_and_query {w rest rest' : Text} {path : DataPathRef} {query : QueryRef}
    (isPath : DataPathRef.read? w = some (path, rest))
    (isQuery : QueryRef.read? w = some (query, rest')) : False := by
  obtain ⟨u, rfl⟩ := DataPathRef.opensWith.begins isPath
  obtain ⟨v, same⟩ := QueryRef.opensWith.begins isQuery
  simp [DataPathRef.opening, QueryRef.opening] at same

/-- The document that a whole data path or query names by its index. -/
inductive NamesDocument (w : Text) (index : Nat) : Prop where
  | dataPath {ref : DataPathRef} :
      DataPathRef.read? w = some (ref, []) → readDocumentIndex ref.index = .ok index →
        NamesDocument w index
  | query {ref : QueryRef} :
      QueryRef.read? w = some (ref, []) → readDocumentIndex ref.index = .ok index →
        NamesDocument w index

/-- A text names one document at most. -/
theorem NamesDocument.unique {w : Text} {i j : Nat} (h : NamesDocument w i)
    (h' : NamesDocument w j) : i = j := by
  cases h with
  | dataPath isPath indexed =>
      cases h' with
      | dataPath isPath' indexed' =>
          cases isPath.symm.trans isPath'
          exact Except.ok.inj (indexed.symm.trans indexed')
      | query isQuery _ => exact (not_dataPath_and_query isPath isQuery).elim
  | query isQuery indexed =>
      cases h' with
      | dataPath isPath _ => exact (not_dataPath_and_query isPath isQuery).elim
      | query isQuery' indexed' =>
          cases isQuery.symm.trans isQuery'
          exact Except.ok.inj (indexed.symm.trans indexed')

/-! ## Grammars -/

/-- What a reader finds in a text is one placeholder, from the first byte to the
last. -/
def ReadAsOne (read : Text → Option (ρ × Text)) (w : Text) : Prop :=
  ∃ ref, located read w = [(⟨0, Text.byteSize w⟩, ref)]

/-- A text is one placeholder of a grammar and nothing else. -/
def Grammar.IsWhole (w : Text) : Grammar → Prop
  | .dataPath => ReadAsOne DataPathRef.read? w
  | .query => ReadAsOne QueryRef.read? w
  | .positional => ReadAsOne PositionalRef.read? w

theorem DataPathRef.isWhole {w : Text} {ref : DataPathRef} (found : read? w = some (ref, [])) :
    Grammar.dataPath.IsWhole w :=
  ⟨ref, located_of_read read?_blind.forward found⟩

theorem QueryRef.isWhole {w : Text} {ref : QueryRef} (found : read? w = some (ref, [])) :
    Grammar.query.IsWhole w :=
  ⟨ref, located_of_read read?_forward found⟩

theorem PositionalRef.isWhole {w : Text} {ref : PositionalRef} (found : read? w = some (ref, [])) :
    Grammar.positional.IsWhole w :=
  ⟨ref, located_of_read read?_blind.forward found⟩

end Templating
