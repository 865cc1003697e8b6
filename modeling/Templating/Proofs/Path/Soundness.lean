import Templating.Proofs.Path.Token

/-!
# What is read is in the grammar

Every reader takes only texts that stand for what it gives (`Sound`).  The proof
of each peels the reader apart step by step and names the text that each step
took.

A repetition gives a sequence, by `many_eq_ok`.  A chain gives its first part
and a sequence of links, which `Chained.links` joins to the left as the reader
does.  A term is by induction on its budget of levels, since the terms inside it
are read under one level less.
-/

namespace Templating.Path

open Text (Blanks Sequence exists_blanks many_eq_ok)

variable {α : Type}

/-! ## Blanks and fixed characters -/

theorem eq_cons_of_expect {c : Char} {t rest : Text} (h : expect c t = .ok rest) :
    t = c :: rest := by
  cases t with
  | nil => cases h
  | cons d t =>
      rw [expect] at h
      split at h
      next same =>
        cases h
        rw [same]
      next => cases h

theorem exists_blanks_of_expect {c : Char} {t rest : Text}
    (h : expect c (Text.skipBlanks t) = .ok rest) : ∃ b, Blanks b ∧ t = b ++ c :: rest := by
  obtain ⟨b, blank, split⟩ := exists_blanks t
  rw [eq_cons_of_expect h] at split
  exact ⟨b, blank, split⟩

theorem Sound.spaced {read : Text → Reading (α × Text)} {part : Text → α → Prop}
    (sound : Sound read part) : Sound (fun t => read (Text.skipBlanks t)) (Spaced part) := by
  intro t a rest h
  obtain ⟨b, blank, split⟩ := exists_blanks t
  obtain ⟨w, split', here⟩ := sound h
  exact ⟨b ++ w, by rw [split, split', List.append_assoc], .after blank here⟩

/-! ## Steps and items -/

theorem sound_readItem : Sound readItem ItemText := by
  intro t s rest h
  cases t with
  | nil => cases h
  | cons c t =>
      rw [readItem] at h
      split at h
      next quote =>
        obtain ⟨_, inner, same⟩ := map_eq_ok h
        cases same
        obtain ⟨w, split, reads⟩ := sound_readQuoted c inner
        exact ⟨c :: w, congrArg (c :: ·) split, .name quote reads⟩
      next =>
        split at h
        next =>
          obtain ⟨_, inner, same⟩ := map_eq_ok h
          cases same
          obtain ⟨w, split, integer⟩ := sound_readInteger inner
          exact ⟨w, split, .index integer⟩
        next => cases h

theorem sound_readNextItem? {t rest : Text} {s : Step}
    (h : readNextItem? t = .ok (some (s, rest))) :
    ∃ w, t = w ++ rest ∧ Spaced NextItemText w s := by
  obtain ⟨b, blank, split⟩ := exists_blanks t
  rw [readNextItem?] at h
  split at h
  next u comma =>
    obtain ⟨_, inner, same⟩ := map_eq_ok h
    cases same
    obtain ⟨w, split', item⟩ := sound_readItem.spaced inner
    refine ⟨b ++ ',' :: w, ?_, .after blank (.comma item)⟩
    rw [split, comma, split', List.append_assoc, List.cons_append]
  next => cases h

theorem sound_readRelativeStep? {t rest : Text} {s : Step}
    (h : readRelativeStep? t = .ok (some (s, rest))) :
    ∃ w, t = w ++ rest ∧ RelativeText w s := by
  unfold readRelativeStep? at h
  split at h
  next t =>
    split at h
    next => cases h
    next some =>
      cases h
      refine ⟨'.' :: t.takeWhile isNameChar, ?_, .member some fun _ => Text.mem_takeWhile⟩
      rw [List.cons_append, List.takeWhile_append_dropWhile]
  next t =>
    obtain ⟨⟨s', u⟩, item, h⟩ := bind_eq_ok h
    obtain ⟨v, close, same⟩ := bind_eq_ok h
    cases same
    obtain ⟨w, split, itemText⟩ := sound_readItem.spaced item
    obtain ⟨b, blank, split'⟩ := exists_blanks_of_expect close
    refine ⟨'[' :: (w ++ (b ++ [']'])), ?_, .item itemText blank⟩
    simp only [split, split', List.cons_append, List.append_assoc, List.nil_append]
  next => cases h

theorem RelativeText.ne_nil {w : Text} {s : Step} (h : RelativeText w s) : w ≠ [] := by
  cases h with
  | member _ _ => exact List.cons_ne_nil _ _
  | item _ _ => exact List.cons_ne_nil _ _

theorem NextItemText.ne_nil {w : Text} {s : Step} (h : NextItemText w s) : w ≠ [] := by
  cases h with
  | comma _ => exact List.cons_ne_nil _ _

theorem Spaced.ne_nil {part : Text → α → Prop} (nonempty : ∀ ⦃w a⦄, part w a → w ≠ [])
    {w : Text} {a : α} (h : Spaced part w a) : w ≠ [] := by
  cases h with
  | after _ here => exact List.append_ne_nil_of_right_ne_nil _ (nonempty here)

/-! ## Operands -/

theorem sound_readWord : Sound readWord fun w l => OperandText w (.literal l) := by
  intro t l rest h
  have split : t = t.takeWhile Char.isAlpha ++ t.dropWhile Char.isAlpha :=
    List.takeWhile_append_dropWhile.symm
  simp only [readWord] at h
  split at h
  next word =>
    cases h
    exact ⟨_, split, word ▸ .trueWord⟩
  next =>
    split at h
    next word =>
      cases h
      exact ⟨_, split, word ▸ .falseWord⟩
    next =>
      split at h
      next word =>
        cases h
        exact ⟨_, split, word ▸ .nullWord⟩
      next => cases h

theorem sound_readOperand : Sound readOperand OperandText := by
  intro t operand rest h
  unfold readOperand at h
  split at h
  next => cases h
  next t =>
    obtain ⟨_, inner, same⟩ := map_eq_ok h
    cases same
    obtain ⟨w, split, steps, -⟩ :=
      many_eq_ok (fun _ _ _ => sound_readRelativeStep?) (fun _ _ => RelativeText.ne_nil) inner
    exact ⟨'@' :: w, congrArg ('@' :: ·) split, .current steps⟩
  next => cases h
  next c t _ _ =>
    split at h
    next quote =>
      obtain ⟨_, inner, same⟩ := map_eq_ok h
      cases same
      obtain ⟨w, split, reads⟩ := sound_readQuoted c inner
      exact ⟨c :: w, congrArg (c :: ·) split, .quoted quote reads⟩
    next =>
      split at h
      next starts =>
        obtain ⟨_, inner, same⟩ := map_eq_ok h
        cases same
        obtain ⟨w, split, number⟩ := numberText_of_readNumber starts inner
        exact ⟨w, split, .number number⟩
      next =>
        split at h
        next =>
          obtain ⟨_, inner, same⟩ := map_eq_ok h
          cases same
          exact sound_readWord inner
        next => cases h

/-! ## Comparisons -/

theorem eq_symbol_append {t rest : Text} {comparison : Comparison}
    (h : readComparison? t = some (comparison, rest)) : t = comparison.symbol ++ rest := by
  obtain ⟨c, -, found⟩ := List.exists_of_findSome?_eq_some h
  obtain ⟨u, after, same⟩ := Option.map_eq_some_iff.mp found
  cases same
  exact Text.after?_eq_some_iff.mp after

theorem sound_readComparing (inner : Text → Filter → Prop) :
    Sound readComparing (TermForm inner) := by
  intro t f rest h
  rw [readComparing] at h
  obtain ⟨⟨left, u⟩, first, h⟩ := bind_eq_ok h
  obtain ⟨w, split, leftText⟩ := sound_readOperand first
  dsimp only at h
  split at h
  next =>
    cases h
    exact ⟨w, split, .truthy leftText⟩
  next comparison v symbol =>
    obtain ⟨⟨right, v'⟩, second, same⟩ := bind_eq_ok h
    cases same
    obtain ⟨b, blank, gap⟩ := exists_blanks u
    obtain ⟨w', split', rightText⟩ := sound_readOperand.spaced second
    refine ⟨w ++ (b ++ (comparison.symbol ++ w')), ?_, .compare leftText blank rightText⟩
    rw [split, gap, eq_symbol_append symbol, split']
    simp only [List.append_assoc]

/-! ## Chains -/

section Chains

variable {symbol : Text} {join : Filter → Filter → Filter}

/-- Reads an operator and the part behind it, if there is the operator. -/
def readLink? (symbol : Text) (part : Text → Reading (Filter × Text)) (t : Text) :
    Reading (Option (Filter × Text)) :=
  match Text.after? symbol (Text.skipBlanks t) with
  | none => .ok none
  | some t => (part t).map some

theorem readChain_eq (symbol : Text) (join : Filter → Filter → Filter)
    (part : Text → Reading (Filter × Text)) (t : Text) :
    readChain symbol join part t =
      part t >>= fun first => (Text.many (readLink? symbol part) first.2).map fun others =>
        (others.1.foldl join first.1, others.2) := by
  rw [readChain]
  refine congrArg (part t >>= ·) (funext fun first => ?_)
  change (Text.many (readLink? symbol part) first.2 >>= _) = _
  cases Text.many (readLink? symbol part) first.2 with
  | error e => rfl
  | ok others => rfl

theorem sound_readLink? {part : Text → Reading (Filter × Text)} {form : Text → Filter → Prop}
    (sound : Sound part form) {t rest : Text} {f : Filter}
    (h : readLink? symbol part t = .ok (some (f, rest))) :
    ∃ w, t = w ++ rest ∧ Spaced (LinkText symbol form) w f := by
  rw [readLink?] at h
  split at h
  next => cases h
  next u found =>
    obtain ⟨_, inner, same⟩ := map_eq_ok h
    cases same
    obtain ⟨b, blank, split⟩ := exists_blanks t
    obtain ⟨w, split', here⟩ := sound inner
    refine ⟨b ++ (symbol ++ w), ?_, .after blank (.link here)⟩
    rw [split, Text.after?_eq_some_iff.mp found, split']
    simp only [List.append_assoc]

/-- A chain goes on with links, joined to the left. -/
theorem Chained.links {join : α → α → α} {part : Text → α → Prop} {w v : Text} {a : α}
    {as : List α} (h : Chained symbol join part w a)
    (links : Sequence (Spaced (LinkText symbol part)) v as) :
    Chained symbol join part (w ++ v) (as.foldl join a) := by
  induction links generalizing w a with
  | nil =>
      rw [List.append_nil]
      exact h
  | cons link _ ih =>
      rw [← List.append_assoc]
      exact ih (.more h link)

theorem LinkText.ne_nil {part : Text → α → Prop} (mark : symbol ≠ []) {w : Text} {a : α}
    (h : LinkText symbol part w a) : w ≠ [] := by
  cases h with
  | link _ => exact List.append_ne_nil_of_left_ne_nil mark _

theorem Sound.chain {part : Text → Reading (Filter × Text)} {form : Text → Filter → Prop}
    (sound : Sound part form) (mark : symbol ≠ []) :
    Sound (readChain symbol join part) (Chained symbol join form) := by
  intro t f rest h
  rw [readChain_eq] at h
  obtain ⟨⟨first, u⟩, head, h⟩ := bind_eq_ok h
  obtain ⟨⟨others, v⟩, tail, same⟩ := map_eq_ok h
  cases same
  obtain ⟨w, split, firstText⟩ := sound head
  obtain ⟨w', split', links, -⟩ :=
    many_eq_ok (fun _ _ _ => sound_readLink? sound) (fun _ _ => Spaced.ne_nil fun _ _ =>
      LinkText.ne_nil mark) tail
  refine ⟨w ++ w', ?_, (Chained.one firstText).links links⟩
  rw [split, List.append_assoc, ← split']

end Chains

theorem Sound.filter {term : Text → Reading (Filter × Text)} {form : Text → Filter → Prop}
    (sound : Sound term form) : Sound (readFilterOf term) (FilterForm form) :=
  (sound.chain (List.cons_ne_nil _ _)).chain (List.cons_ne_nil _ _)

/-! ## Terms -/

theorem sound_readTerm (levels : Nat) : Sound (readTerm levels) (TermText levels) := by
  induction levels with
  | zero =>
      intro t f rest h
      cases h
  | succ levels ih =>
      intro t f rest h
      obtain ⟨b, blank, gap⟩ := exists_blanks t
      rw [readTerm] at h
      split at h
      next u mark =>
        obtain ⟨_, inner, same⟩ := map_eq_ok h
        cases same
        obtain ⟨w, split, term⟩ := ih inner
        refine ⟨b ++ '!' :: w, ?_, .after blank (.not term)⟩
        rw [gap, mark, split, List.append_assoc, List.cons_append]
      next u mark =>
        obtain ⟨⟨f', u'⟩, inner, h⟩ := bind_eq_ok h
        obtain ⟨u'', close, same⟩ := bind_eq_ok h
        cases same
        obtain ⟨w, split, filter⟩ := ih.filter inner
        obtain ⟨b', blank', split'⟩ := exists_blanks_of_expect close
        refine ⟨b ++ '(' :: (w ++ (b' ++ [')'])), ?_, .after blank (.group filter blank')⟩
        rw [gap, mark, split, split']
        simp only [List.cons_append, List.append_assoc, List.nil_append]
      next =>
        obtain ⟨w, split, here⟩ := sound_readComparing (TermText levels) h
        refine ⟨b ++ w, ?_, .after blank here⟩
        rw [gap, split, List.append_assoc]

theorem sound_readFilter : Sound readFilter (FilterText maxDepth) :=
  (sound_readTerm maxDepth).filter

/-! ## Brackets -/

/-- Ends a slice behind its second bound. -/
def endSlice (start stop : Option Int) (t : Text) : Reading (Selector × Text) :=
  match Text.skipBlanks t with
  | ':' :: _ => .error (.unsupported "slice steps")
  | t => .ok (.slice start stop, t)

theorem readSlice_eq (start : Option Int) (t : Text) :
    readSlice start t =
      match Text.skipBlanks t with
      | [] => endSlice start none []
      | c :: u =>
          if startsNumber c then
            readInteger (c :: u) >>= fun bound => endSlice start (some bound.1) bound.2
          else endSlice start none (c :: u) := by
  rw [readSlice]
  cases Text.skipBlanks t with
  | nil => rfl
  | cons c u =>
      by_cases starts : startsNumber c = true
      · simp only [if_pos starts]
        cases readInteger (c :: u) with
        | error e => rfl
        | ok bound => rfl
      · simp only [if_neg starts]
        rfl

theorem eq_of_endSlice {start stop : Option Int} {t rest : Text} {s : Selector}
    (h : endSlice start stop t = .ok (s, rest)) :
    s = .slice start stop ∧ rest = Text.skipBlanks t := by
  rw [endSlice] at h
  split at h
  next => cases h
  next =>
    cases h
    exact ⟨rfl, rfl⟩

theorem sound_readSlice {start : Option Int} {t rest : Text} {s : Selector}
    (h : readSlice start t = .ok (s, rest)) :
    ∃ w b stop, t = w ++ (b ++ rest) ∧ Blanks b ∧ SliceEndText w stop ∧ s = .slice start stop := by
  obtain ⟨b, blank, gap⟩ := exists_blanks t
  have unbounded (ending : endSlice start none (Text.skipBlanks t) = .ok (s, rest)) :
      ∃ w b stop, t = w ++ (b ++ rest) ∧ Blanks b ∧ SliceEndText w stop ∧
        s = .slice start stop := by
    obtain ⟨same, behind⟩ := eq_of_endSlice ending
    rw [Text.skipBlanks_skipBlanks] at behind
    exact ⟨[], b, none, behind ▸ gap, blank, .open, same⟩
  rw [readSlice_eq] at h
  split at h
  next empty => exact unbounded (empty ▸ h)
  next c u first =>
    split at h
    next =>
      obtain ⟨⟨n, v⟩, inner, ending⟩ := bind_eq_ok h
      obtain ⟨same, behind⟩ := eq_of_endSlice ending
      obtain ⟨w, split, integer⟩ := sound_readInteger inner
      obtain ⟨b', blank', split'⟩ := exists_blanks v
      refine ⟨b ++ w, b', some n, ?_, blank', .bound (.after blank integer), same⟩
      rw [behind, ← split', List.append_assoc, ← split, ← first]
      exact gap
    next => exact unbounded (first ▸ h)

theorem sound_readItems {t rest : Text} {s : Selector} (h : readItems t = .ok (s, rest)) :
    ∃ w b, t = w ++ (b ++ rest) ∧ Blanks b ∧ SelectorText w s := by
  unfold readItems at h
  split at h
  next t =>
    obtain ⟨w, b, stop, split, blank, ending, rfl⟩ := sound_readSlice h
    exact ⟨':' :: w, b, congrArg (':' :: ·) split, blank, .sliceTo ending⟩
  next =>
    obtain ⟨⟨first, u⟩, item, h⟩ := bind_eq_ok h
    obtain ⟨w, split, itemText⟩ := sound_readItem item
    obtain ⟨b, blank, gap⟩ := exists_blanks u
    dsimp only at h
    split at h
    next n v colon =>
      obtain ⟨w', b', stop, split', blank', ending, rfl⟩ := sound_readSlice h
      cases itemText with
      | index integer =>
          refine ⟨w ++ (b ++ ':' :: w'), b', ?_, blank', .slice integer blank ending⟩
          rw [split, gap, colon, split']
          simp only [List.append_assoc, List.cons_append]
    next =>
      obtain ⟨⟨others, v⟩, tail, h⟩ := bind_eq_ok h
      obtain ⟨w', split', items, -⟩ := many_eq_ok (fun _ _ _ => sound_readNextItem?)
        (fun _ _ => Spaced.ne_nil fun _ _ => NextItemText.ne_nil) tail
      dsimp only at h
      split at h
      next =>
        cases h
        cases items
        exact ⟨w, b, by rw [split, gap, split', List.nil_append], blank, .step itemText⟩
      next several =>
        cases h
        refine ⟨w ++ (b ++ w'), [], ?_, Text.blanks_nil,
          .union itemText (sequence_blanks blank several items) several⟩
        rw [split, gap, split']
        simp only [List.append_assoc, List.nil_append]

theorem sound_readSelector {t rest : Text} {s : Selector} (h : readSelector t = .ok (s, rest)) :
    ∃ w b, t = w ++ (b ++ rest) ∧ Blanks b ∧ SelectorText w s := by
  unfold readSelector at h
  split at h
  next => cases h
  next =>
    cases h
    exact ⟨['*'], [], rfl, Text.blanks_nil, .wildcard⟩
  next t =>
    obtain ⟨u, opening, h⟩ := bind_eq_ok h
    obtain ⟨⟨f, v⟩, inner, h⟩ := bind_eq_ok h
    obtain ⟨v', close, same⟩ := bind_eq_ok h
    cases same
    obtain ⟨b, blank, split⟩ := exists_blanks_of_expect opening
    obtain ⟨w, split', filter⟩ := sound_readFilter inner
    obtain ⟨b', blank', split''⟩ := exists_blanks_of_expect close
    refine ⟨'?' :: (b ++ '(' :: (w ++ (b' ++ [')']))), [], ?_, Text.blanks_nil,
      .filter blank filter blank'⟩
    rw [split, split', split'']
    simp only [List.append_assoc, List.cons_append, List.nil_append]
  next => cases h
  next => exact sound_readItems h

theorem sound_readBracket : Sound readBracket BracketText := by
  intro t s rest h
  obtain ⟨b, blank, gap⟩ := exists_blanks t
  obtain ⟨⟨s', u⟩, inner, h⟩ := bind_eq_ok h
  obtain ⟨u', close, same⟩ := bind_eq_ok h
  cases same
  obtain ⟨w, b', split, blank', selector⟩ := sound_readSelector inner
  obtain ⟨b'', blank'', split'⟩ := exists_blanks_of_expect close
  refine ⟨b ++ w ++ (b' ++ b'' ++ [']']), ?_,
    .close (.after blank selector) (blank'.append blank'')⟩
  rw [gap, split, split']
  simp only [List.append_assoc, List.cons_append, List.nil_append]

/-! ## Segments -/

theorem sound_readDotted : Sound readDotted DottedText := by
  intro t s rest h
  unfold readDotted at h
  split at h
  next =>
    cases h
    exact ⟨['*'], rfl, .wildcard⟩
  next =>
    obtain ⟨_, inner, same⟩ := map_eq_ok h
    cases same
    simp only [readName] at inner
    split at inner
    next => cases inner
    next some =>
      cases inner
      exact ⟨_, List.takeWhile_append_dropWhile.symm, .name some fun _ => Text.mem_takeWhile⟩

theorem sound_readSegment? {t rest : Text} {s : Segment}
    (h : readSegment? t = .ok (some (s, rest))) :
    ∃ w, t = w ++ rest ∧ Spaced SegmentText w s := by
  obtain ⟨b, blank, gap⟩ := exists_blanks t
  have joined {w : Text} (here : Text.skipBlanks t = w ++ rest) (form : SegmentText w s) :
      ∃ w, t = w ++ rest ∧ Spaced SegmentText w s := by
    refine ⟨b ++ w, ?_, .after blank form⟩
    rw [List.append_assoc, ← here]
    exact gap
  rw [readSegment?] at h
  split at h
  next => cases h
  next t points =>
    obtain ⟨_, inner, same⟩ := map_eq_ok h
    cases same
    unfold readDescendant at inner
    split at inner
    next u =>
      obtain ⟨w, split, form⟩ := sound_readBracket inner
      exact joined (points.trans (by rw [split]; rfl)) (.descendantBracket form)
    next =>
      obtain ⟨w, split, form⟩ := sound_readDotted inner
      exact joined (points.trans (by rw [split]; rfl)) (.descendantDotted form)
  next t _ point =>
    obtain ⟨_, inner, same⟩ := map_eq_ok h
    cases same
    obtain ⟨w, split, form⟩ := sound_readDotted inner
    exact joined (point.trans (by rw [split]; rfl)) (.dotted form)
  next t bracket =>
    obtain ⟨_, inner, same⟩ := map_eq_ok h
    cases same
    obtain ⟨w, split, form⟩ := sound_readBracket inner
    exact joined (bracket.trans (by rw [split]; rfl)) (.bracket form)
  next => cases h

theorem SegmentText.ne_nil {w : Text} {s : Segment} (h : SegmentText w s) : w ≠ [] := by
  cases h <;> exact List.cons_ne_nil _ _

theorem blanks_of_readSegment? {t : Text} (h : readSegment? t = .ok none) : Blanks t := by
  rw [readSegment?] at h
  split at h
  next empty => exact Text.skipBlanks_eq_nil.mp empty
  all_goals first
    | cases h
    | obtain ⟨_, _, same⟩ := map_eq_ok h
      cases same

/-! ## Paths -/

/-- Blanks in front of an expression without its `$`. -/
theorem pathText_of_blanks {b w behind : Text} {p : Path} (blank : Blanks b)
    (segments : Sequence (Spaced SegmentText) w p) (blank' : Blanks behind) :
    PathText (b ++ (w ++ behind)) p := by
  cases p with
  | nil =>
      cases segments
      exact PathText.bare (w := []) .nil (blank.append blank')
  | cons first others =>
      rw [← List.append_assoc]
      exact .bare (sequence_blanks blank (List.cons_ne_nil _ _) segments) blank'

/-- Every expression that is read is the text of the path it is read as. -/
theorem pathText_of_parse {e : Text} {p : Path} (h : parse e = .ok p) : PathText e p := by
  obtain ⟨b, blank, gap⟩ := exists_blanks e
  rw [parse] at h
  split at h
  next segments behind read =>
    cases h
    obtain ⟨w, split, segments, ends⟩ := many_eq_ok (fun _ _ _ => sound_readSegment?)
      (fun _ _ => Spaced.ne_nil fun _ _ => SegmentText.ne_nil) read
    have blank' : Blanks behind := by
      rcases ends with rfl | declined
      · exact Text.blanks_nil
      · exact blanks_of_readSegment? declined
    unfold skipRoot at split
    split at split
    next t root =>
      rw [gap, root, split]
      exact .rooted blank segments blank'
    next =>
      rw [gap, split]
      exact pathText_of_blanks blank segments blank'
  next => cases h

end Templating.Path
