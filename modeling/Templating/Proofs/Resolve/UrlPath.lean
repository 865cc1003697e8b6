import Templating.Proofs.Placeholder.Braces
import Templating.Proofs.Resolve.Settling

/-!
# Paths put back together

A URL path is cut at every slash and its segments are numbered.  A template that names the numbers
in order, with slashes between them, puts the path back together.

A part of a template *becomes* a text if it is replaced by that text whatever follows it
(`Becomes`).  Parts one after the other become their texts one after the other, so it is enough to
look at one placeholder and at one slash.  What comes out of a segment is not read again, so it does
not matter what the segments look like.

`positional_run_pathTemplate` gives the whole report, also for one placeholder too many.
-/

namespace Templating

/-! ## Cutting and joining -/

namespace Text

/-- A text is cut into a first part and one more part behind each separator. -/
theorem exists_splitOn (separator : Char) : ∀ t : Text, ∃ first others,
    splitOn separator t = first :: others ∧ first ++ others.flatMap (separator :: ·) = t ∧
      others.length = t.count separator
  | [] => ⟨[], [], rfl, rfl, rfl⟩
  | c :: t => by
      obtain ⟨first, others, split, joined, length⟩ := exists_splitOn separator t
      by_cases here : c = separator
      · subst here
        refine ⟨[], first :: others, ?_, ?_, ?_⟩
        · rw [splitOn, if_pos rfl, split]
        · rw [List.nil_append, List.flatMap_cons, List.cons_append, joined]
        · rw [List.count_cons_self, List.length_cons, length]
      · refine ⟨c :: first, others, ?_, ?_, ?_⟩
        · rw [splitOn, if_neg here, split]
        · rw [List.cons_append, joined]
        · rw [List.count_cons_of_ne here, length]

theorem join_splitOn (separator : Char) (t : Text) : join separator (splitOn separator t) = t := by
  obtain ⟨first, others, split, joined, -⟩ := exists_splitOn separator t
  rw [split, join_cons, joined]

theorem length_splitOn (separator : Char) (t : Text) :
    (splitOn separator t).length = t.count separator + 1 := by
  obtain ⟨first, others, split, -, length⟩ := exists_splitOn separator t
  rw [split, List.length_cons, length]

end Text

/-! ## Numbered segments -/

namespace Segments

theorem length_ofList (parts : List Text) : (ofList parts).length = parts.length := by
  rw [ofList, List.length_map, List.length_zipIdx]

theorem map_range_length {α : Type} (f : Nat → α) (parts : List Text) :
    (List.range parts.length).map f = parts.zipIdx.map fun item => f item.2 := by
  rw [List.range_eq_range', ← List.zipIdx_map_snd 0 parts, List.map_map]
  rfl

/-- The positions are the numerals from zero on. -/
theorem keys_ofList (parts : List Text) :
    (ofList parts).map Prod.fst = (List.range parts.length).map Text.ofNat := by
  rw [ofList, map_range_length, List.map_map]
  rfl

theorem nodup_keys_ofList (parts : List Text) : ((ofList parts).map Prod.fst).Nodup := by
  rw [keys_ofList]
  exact List.Pairwise.map Text.ofNat (fun _ _ apart same => apart (Text.ofNat_inj same))
    List.nodup_range

theorem get?_numbered (parts : List Text) : ∀ first i : Nat,
    Entries.get? ((parts.zipIdx first).map fun (segment, j) => (Text.ofNat j, some segment))
      (Text.ofNat (first + i)) = parts[i]?.map some := by
  induction parts with
  | nil => exact fun _ _ => rfl
  | cons segment parts ih =>
      intro first i
      rw [List.zipIdx_cons, List.map_cons, Entries.get?]
      cases i with
      | zero => exact if_pos rfl
      | succ i =>
          have apart : Text.ofNat first ≠ Text.ofNat (first + (i + 1)) := fun same =>
            absurd (Text.ofNat_inj same) (by omega)
          rw [if_neg apart, List.getElem?_cons_succ, ← ih (first + 1) i, Nat.succ_add_eq_add_succ]

/-- Behind each numeral is the segment at that position, and behind the last nothing. -/
theorem segment?_ofList (parts : List Text) (i : Nat) :
    (ofList parts).segment? (Text.ofNat i) = parts[i]? := by
  have found := get?_numbered parts 0 i
  rw [Nat.zero_add] at found
  rw [segment?, ofList, found]
  cases parts[i]? <;> rfl

end Segments

/-! ## Parts of a template -/

/-- A draft with a text in front of its own. -/
def Draft.behind (t : Text) (d : Draft) : Draft := ⟨t ++ d.text, d.notes, d.settled⟩

/-- A part of a template is replaced by a text, whatever follows. -/
def Becomes (segments : Segments) (part t : Text) : Prop :=
  ∀ rest, positionalPass segments (part ++ rest) = (positionalPass segments rest).behind t

section Becomes

variable {segments : Segments}

theorem Becomes.append {part part' t t' : Text} (first : Becomes segments part t)
    (second : Becomes segments part' t') : Becomes segments (part ++ part') (t ++ t') := by
  intro rest
  rw [List.append_assoc, first, second]
  simp only [Draft.behind, List.append_assoc]

theorem becomes_flatMap {α : Type} {part t : α → Text} : ∀ {items : List α},
    (∀ a ∈ items, Becomes segments (part a) (t a)) →
      Becomes segments (items.flatMap part) (items.flatMap t)
  | [], _ => fun _ => rfl
  | a :: items, each => by
      obtain ⟨first, others⟩ := List.forall_mem_cons.mp each
      rw [List.flatMap_cons, List.flatMap_cons]
      exact first.append (becomes_flatMap others)

/-- A character that opens no brace stays. -/
theorem becomes_plain {c : Char} (apart : c ≠ '{') : Becomes segments [c] [c] := by
  intro rest
  have unread : PositionalRef.read? (c :: rest) = none := by
    refine Option.eq_none_iff_forall_ne_some.mpr fun (ref, rest') found => ?_
    obtain ⟨inside, split⟩ := PositionalRef.read?_braced found
    exact apart (List.cons.inj split).1
  rw [List.singleton_append, positionalPass, pieces_plain unread]
  rfl

theorem PositionalRef.read?_write (i : Nat) (rest : Text) :
    read? (write ⟨Text.ofNat i⟩ ++ rest) = some (⟨Text.ofNat i⟩, rest) := by
  refine read?_eq_some_iff.mpr ⟨Nat.toDigits_ne_nil, fun c member => ?_, rfl⟩
  exact isDecimalDigit_of_isDigit (List.all_eq_true.mp (Text.all_isDigit_ofNat i) c member)

/-- A placeholder becomes the segment at its position. -/
theorem becomes_segment {i : Nat} {segment : Text}
    (known : segments.segment? (Text.ofNat i) = some segment) :
    Becomes segments (PositionalRef.write ⟨Text.ofNat i⟩) segment := by
  intro rest
  have cut := pieces_of_read PositionalRef.read?_braced.forward (PositionalRef.read?_write i rest)
  have answered (w : Text) : answerPositional segments w ⟨Text.ofNat i⟩ = .ofText segment := by
    rw [answerPositional, known]
  rw [positionalPass, cut]
  simp only [Draft.fill, Draft.concat, List.map_cons, Draft.ofPiece, answered]
  rfl

/-- Parts with separators between them become their texts with separators between them. -/
theorem becomes_join {α : Type} {part t : α → Text} {separator : Char} (apart : separator ≠ '{')
    {items : List α} (each : ∀ a ∈ items, Becomes segments (part a) (t a)) :
    Becomes segments (Text.join separator (items.map part))
      (Text.join separator (items.map t)) := by
  cases items with
  | nil => exact fun _ => rfl
  | cons a items =>
      obtain ⟨first, others⟩ := List.forall_mem_cons.mp each
      rw [List.map_cons, List.map_cons, Text.join_cons, Text.join_cons, List.flatMap_map,
        List.flatMap_map]
      exact first.append (becomes_flatMap fun b member =>
        (becomes_plain apart).append (others b member))

end Becomes

/-! ## Paths -/

namespace Segments

/-- The template of a path of so many segments, which names them in order. -/
def pathTemplate (n : Nat) : Text :=
  Text.join '/' ((List.range n).map fun i => PositionalRef.write ⟨Text.ofNat i⟩)

example : pathTemplate 3 = "\x7b0\x7d/\x7b1\x7d/\x7b2\x7d".toList := by decide

/-- The template becomes the segments with slashes between them. -/
theorem becomes_pathTemplate (parts : List Text) :
    Becomes (ofList parts) (pathTemplate parts.length) (Text.join '/' parts) := by
  have each : ∀ item ∈ parts.zipIdx,
      Becomes (ofList parts) (PositionalRef.write ⟨Text.ofNat item.2⟩) item.1 := by
    intro item member
    refine becomes_segment ?_
    rw [segment?_ofList]
    exact List.mem_zipIdx_iff_getElem?.mp member
  have joined := becomes_join (by decide : '/' ≠ '{') each
  rw [List.zipIdx_map_fst] at joined
  rw [pathTemplate, map_range_length]
  exact joined

section Path

variable (p : Text)

theorem length_ofPath : (ofPath p).length = p.count '/' + 1 := by
  rw [ofPath, length_ofList, Text.length_splitOn]

theorem keys_ofPath :
    (ofPath p).map Prod.fst = (List.range (p.count '/' + 1)).map Text.ofNat := by
  rw [ofPath, keys_ofList, Text.length_splitOn]

/-- The positions of a path end behind its last slash. -/
theorem segment?_ofPath_end : (ofPath p).segment? (Text.ofNat (p.count '/' + 1)) = none := by
  rw [ofPath, segment?_ofList, ← Text.length_splitOn]
  exact List.getElem?_eq_none (Nat.le_refl _)

theorem becomes_ofPath : Becomes (ofPath p) (pathTemplate (p.count '/' + 1)) p := by
  have joined := becomes_pathTemplate (Text.splitOn '/' p)
  rwa [Text.length_splitOn, Text.join_splitOn] at joined

end Path

end Segments

section Runs

variable {segments : Segments}

/-- A placeholder stays as written if there is no segment at its position. -/
theorem positionalPass_write_of_missing {i : Nat}
    (missing : segments.segment? (Text.ofNat i) = none) :
    positionalPass segments (PositionalRef.write ⟨Text.ofNat i⟩) =
      .noting (PositionalRef.write ⟨Text.ofNat i⟩)
        ⟨.missingSegment, .positional, PositionalRef.write ⟨Text.ofNat i⟩,
          "no URL segment at this position"⟩ := by
  have read := PositionalRef.read?_write i []
  rw [List.append_nil] at read
  rw [positionalPass, Draft.fill_of_read PositionalRef.read?_braced.forward _ read,
    answerPositional, missing]

/-- A run over a template that starts with a part that becomes a text. -/
theorem Becomes.run {part t : Text} (becomes : Becomes segments part t) {env : Environment}
    (known : env.segments = some segments) (rest : Text) :
    Pipeline.positional.run env (part ++ rest) =
      (((positionalPass segments rest).behind t).resolution (fun _ _ => ()) ()).1 := by
  rw [Pipeline.run, Pipeline.watch, Pipeline.draft, known, Option.getD_some, becomes]

end Runs

/-- A path cut at its slashes has one segment more than slashes, under the numerals from zero on.
The template that names them in order gives the path back with nothing to note.  One placeholder
more stays behind the path, and its missing segment is the one thing noted. -/
theorem positional_run_pathTemplate (env : Environment) (p : Text) :
    let n := p.count '/' + 1
    let segments := Segments.ofPath p
    let known := { env with segments := some segments }
    let next := PositionalRef.write ⟨Text.ofNat n⟩
    segments.length = n ∧ segments.map Prod.fst = (List.range n).map Text.ofNat ∧
      (segments.map Prod.fst).Nodup ∧
      Pipeline.positional.run known (Segments.pathTemplate n) = ⟨p, [], true⟩ ∧
      (Pipeline.positional.run known (Segments.pathTemplate n)).isClean = true ∧
      Pipeline.positional.run known (Segments.pathTemplate n ++ next) =
        ⟨p ++ next, [⟨.missingSegment, .positional, next, "no URL segment at this position"⟩],
          true⟩ := by
  intro n segments known next
  have answered : known.segments = some segments := rfl
  have becomes : Becomes segments (Segments.pathTemplate n) p := Segments.becomes_ofPath p
  have back : Pipeline.positional.run known (Segments.pathTemplate n) = ⟨p, [], true⟩ := by
    have run := becomes.run answered []
    have ended : (positionalPass segments []).behind p = .ofText p :=
      congrArg Draft.ofText (List.append_nil p)
    rwa [List.append_nil, ended] at run
  refine ⟨Segments.length_ofPath p, Segments.keys_ofPath p, Segments.nodup_keys_ofList _, back,
    ?_, ?_⟩
  · rw [back]
    rfl
  · rw [becomes.run answered, positionalPass_write_of_missing (Segments.segment?_ofPath_end p)]
    rfl

end Templating
