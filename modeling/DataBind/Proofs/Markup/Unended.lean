/-
**Errors of markup point at the construct that does not end.**

Reading stops at the first construct without an end. The error says what it is and where its `<`
stands, in bytes. The markup before it can be read on its own: all its constructs end there, and it
has the same nodes.

* `IsName`: the name behind `<` or `</`;
* `Unended`: the constructs that do not end, with the text behind their `<`;
* `readConstruct_eq_error_iff`: a construct cannot be read just if it does not end;
* `scan_append`: what is read up to a construct that does not end is read before it, and ends there;
* `exists_of_scan_eq_some`: where reading stops, the text before can be read on its own;
* `exists_parse_iff`: which markup is accepted;
* `parse_eq_error_iff`: the errors of all markup.
-/

import DataBind.Proofs.Markup.ConstructExtent
import DataBind.Proofs.Markup.Forest

namespace DataBind.Markup

open DataBind.Text

/-! ### Constructs that do not end -/

/-- A name behind `<` or `</`: it starts with a letter and takes all characters of names. -/
structure IsName (name rest : List Char) : Prop where
  letter : ∃ c ∈ name.head?, c.isAlpha = true
  characters : ∀ c ∈ name, isTagNameCharacter c = true
  ends : ∀ c ∈ rest.head?, isTagNameCharacter c = false

/-- **A construct that does not end**, with the text behind its `<`. A comment has no `-->`, a
declaration and an end tag have no `>`, in a start tag every `>` stands in quotes, and a raw text
element has no `</` and name in any case with a `>` behind it. -/
inductive Unended : Unterminated → List Char → Prop
  | comment {rest : List Char} : ¬ ['-', '-', '>'] <:+: rest →
      Unended .comment (commentMark ++ rest)
  | declaration {c : Char} {rest : List Char} : c = '!' ∨ c = '?' →
      ¬ commentMark <+: c :: rest → '>' ∉ rest → Unended .declaration (c :: rest)
  | closing {name rest : List Char} : IsName name rest → '>' ∉ rest →
      Unended (.tag (nameOf name)) ('/' :: (name ++ rest))
  | opening {name rest : List Char} : IsName name rest →
      (∀ front back, rest = front ++ '>' :: back →
        (Place.between.behind front).isQuoted = true) →
      Unended (.tag (nameOf name)) (name ++ rest)
  | rawText {name rest inner : List Char} : IsName name rest → isRawText (nameOf name) = true →
      endOfTag .between rest = some (false, inner) →
      (∀ front own tail back, inner = front ++ '<' :: '/' :: (own ++ (tail ++ '>' :: back)) →
        asciiLower own ≠ (nameOf name).toList) →
      Unended (.rawText (nameOf name)) (name ++ rest)

/-- The name at the start of a text. -/
theorem isName_span {text : List Char} (letter : ∃ c ∈ text.head?, c.isAlpha = true) :
    IsName (text.takeWhile isTagNameCharacter) (text.dropWhile isTagNameCharacter) := by
  obtain ⟨c, first, alpha⟩ := letter
  have name : isTagNameCharacter c = true :=
    forall_isAlpha (motive := fun c => isTagNameCharacter c = true) (by decide) alpha
  refine ⟨⟨c, ?_, alpha⟩, fun d member => List.mem_takeWhile_imp member, fun d member => ?_⟩
  · cases text with
    | nil => cases first
    | cons d others =>
      cases first
      rw [List.takeWhile_cons_of_pos name]
      rfl
  · have stop := List.head?_dropWhile_not isTagNameCharacter text
    rw [member] at stop
    simpa using stop

/-- A text that starts with a name starts with its letter. -/
theorem IsName.starts {name rest : List Char} (named : IsName name rest) (more : List Char) :
    ∃ c ∈ (name ++ more).head?, c.isAlpha = true := by
  obtain ⟨c, first, alpha⟩ := named.letter
  obtain ⟨others, rfl⟩ := List.head?_eq_some_iff.mp first
  exact ⟨c, rfl, alpha⟩

theorem IsName.span {name rest : List Char} (named : IsName name rest) :
    (name ++ rest).takeWhile isTagNameCharacter = name ∧
      (name ++ rest).dropWhile isTagNameCharacter = rest :=
  ⟨takeWhile_append_stop named.characters named.ends,
    dropWhile_append_stop named.characters named.ends⟩

/-- A raw text element has no end just if nowhere its name stands behind `</`, with a `>` after. -/
theorem readRaw_eq_none_iff {tag : String} {text : List Char} : readRaw tag text = none ↔
    ∀ front own tail back, text = front ++ '<' :: '/' :: (own ++ (tail ++ '>' :: back)) →
      asciiLower own ≠ tag.toList := by
  rw [← Option.not_isSome_iff_eq_none, readRaw_isSome_iff]
  constructor
  · intro none front own tail back whole spelled
    exact none ⟨front, own, tail, back, whole, spelled⟩
  · rintro none ⟨front, own, tail, back, whole, spelled⟩
    exact none front own tail back whole spelled

theorem comment_eq_error_iff {cause : Unterminated} {text : List Char} :
    Start.comment.read text = .error cause ↔
      cause = .comment ∧ ¬ ['-', '-', '>'] <:+: text.drop 3 := by
  rw [← cutAtText_eq_none_iff (List.cons_ne_nil _ _), Start.read]
  cases cutAtText ['-', '-', '>'] (text.drop 3) with
  | none => exact ⟨fun same => ⟨(Except.error.inj same).symm, rfl⟩, fun same => by rw [same.1]⟩
  | some taken => exact ⟨nofun, nofun⟩

theorem declaration_eq_error_iff {cause : Unterminated} {text : List Char} :
    Start.declaration.read text = .error cause ↔ cause = .declaration ∧ '>' ∉ text := by
  rw [← cutAt_eq_none_iff, Start.read]
  cases cutAt '>' text with
  | none => exact ⟨fun same => ⟨(Except.error.inj same).symm, rfl⟩, fun same => by rw [same.1]⟩
  | some taken => exact ⟨nofun, nofun⟩

theorem readClosing_eq_error_iff {cause : Unterminated} {text : List Char} :
    readClosing text = .error cause ↔
      cause = .tag (nameOf (text.takeWhile isTagNameCharacter)) ∧
        '>' ∉ text.dropWhile isTagNameCharacter := by
  rw [← cutAt_eq_none_iff]
  unfold readClosing
  cases cutAt '>' (text.dropWhile isTagNameCharacter) with
  | none => exact ⟨fun same => ⟨(Except.error.inj same).symm, rfl⟩, fun same => by rw [same.1]⟩
  | some taken => exact ⟨nofun, nofun⟩

theorem readOpening_eq_error_iff {cause : Unterminated} {text : List Char} :
    readOpening text = .error cause ↔
      cause = .tag (nameOf (text.takeWhile isTagNameCharacter)) ∧
          endOfTag .between (text.dropWhile isTagNameCharacter) = none ∨
        cause = .rawText (nameOf (text.takeWhile isTagNameCharacter)) ∧
          isRawText (nameOf (text.takeWhile isTagNameCharacter)) = true ∧ ∃ inner,
            endOfTag .between (text.dropWhile isTagNameCharacter) = some (false, inner) ∧
            readRaw (nameOf (text.takeWhile isTagNameCharacter)) inner = none := by
  rw [← readTag_eq_endOfTag []]
  unfold readOpening
  simp only
  generalize nameOf (text.takeWhile isTagNameCharacter) = tag
  cases readTag [] (text.dropWhile isTagNameCharacter) with
  | none =>
    constructor
    · intro same
      exact Or.inl ⟨(Except.error.inj same).symm, rfl⟩
    · rintro (⟨rfl, _⟩ | ⟨_, _, _, found, _⟩)
      · rfl
      · cases found
  | some taken =>
    obtain ⟨⟨attributes, closes⟩, after⟩ := taken
    by_cases content : (isRawText tag && !closes) = true
    · have both := Bool.and_eq_true_iff.mp content
      obtain rfl : closes = false := by simpa using both.2
      simp only [if_pos content]
      cases found : readRaw tag after with
      | none =>
        constructor
        · intro same
          exact Or.inr ⟨(Except.error.inj same).symm, both.1, after, rfl, found⟩
        · rintro (⟨_, wrong⟩ | ⟨rfl, _⟩)
          · cases wrong
          · rfl
      | some taken =>
        refine ⟨nofun, ?_⟩
        rintro (⟨_, wrong⟩ | ⟨_, _, inner, same, none⟩)
        · cases wrong
        · cases same
          rw [found] at none
          cases none
    · simp only [if_neg content]
      refine ⟨nofun, ?_⟩
      rintro (⟨_, wrong⟩ | ⟨_, raw, inner, same, _⟩)
      · cases wrong
      · cases same
        exact absurd (by rw [raw]; rfl) content

/-- **A construct cannot be read just if it does not end.** -/
theorem readConstruct_eq_error_iff {cause : Unterminated} {text : List Char} :
    readConstruct text = some (.error cause) ↔ Unended cause text := by
  have split : ∀ text : List Char, text.takeWhile isTagNameCharacter ++
      text.dropWhile isTagNameCharacter = text := fun text => List.takeWhile_append_dropWhile
  rw [readConstruct_eq, Option.map_eq_some_iff]
  constructor
  · rintro ⟨kind, told, failed⟩
    have tells := start?_eq_some_iff.mp told
    cases kind with
    | comment =>
      obtain ⟨others, rfl⟩ := tells
      obtain ⟨rfl, absent⟩ := comment_eq_error_iff.mp failed
      exact .comment absent
    | declaration =>
      obtain ⟨⟨c, first, mark⟩, other⟩ := tells
      obtain ⟨rfl, absent⟩ := declaration_eq_error_iff.mp failed
      obtain ⟨rest, rfl⟩ := List.head?_eq_some_iff.mp first
      exact .declaration mark other fun inside => absent (List.mem_cons_of_mem c inside)
    | closing =>
      obtain ⟨c, others, rfl, alpha⟩ := tells
      obtain ⟨rfl, absent⟩ := readClosing_eq_error_iff.mp failed
      have ended := Unended.closing (isName_span ⟨c, rfl, alpha⟩) absent
      rw [split] at ended
      exact ended
    | opening =>
      rcases readOpening_eq_error_iff.mp failed with ⟨rfl, none⟩ | ⟨rfl, raw, inner, found, none⟩
      · have ended := Unended.opening (isName_span tells) (endOfTag_eq_none_iff.mp none)
        rw [split] at ended
        exact ended
      · have ended := Unended.rawText (isName_span tells) raw found (readRaw_eq_none_iff.mp none)
        rw [split] at ended
        exact ended
  · intro unended
    cases unended with
    | @comment rest absent =>
      exact ⟨.comment, start?_eq_some_iff.mpr ⟨rest, rfl⟩, comment_eq_error_iff.mpr ⟨rfl, absent⟩⟩
    | @declaration c rest mark other absent =>
      refine ⟨.declaration, start?_eq_some_iff.mpr ⟨⟨c, rfl, mark⟩, other⟩,
        declaration_eq_error_iff.mpr ⟨rfl, ?_⟩⟩
      rw [List.mem_cons, not_or]
      exact ⟨by rcases mark with rfl | rfl <;> decide, absent⟩
    | @closing name rest named absent =>
      obtain ⟨c, first, alpha⟩ := named.letter
      obtain ⟨others, rfl⟩ := List.head?_eq_some_iff.mp first
      refine ⟨.closing, start?_eq_some_iff.mpr ⟨c, others ++ rest, rfl, alpha⟩, ?_⟩
      refine readClosing_eq_error_iff.mpr ?_
      show _ = Unterminated.tag (nameOf ((c :: others ++ rest).takeWhile _)) ∧
        '>' ∉ (c :: others ++ rest).dropWhile _
      rw [named.span.1, named.span.2]
      exact ⟨rfl, absent⟩
    | @opening name rest named quoted =>
      refine ⟨.opening, start?_eq_some_iff.mpr (named.starts rest),
        readOpening_eq_error_iff.mpr (Or.inl ?_)⟩
      rw [named.span.1, named.span.2]
      exact ⟨rfl, endOfTag_eq_none_iff.mpr quoted⟩
    | @rawText name rest inner named raw found none =>
      refine ⟨.opening, start?_eq_some_iff.mpr (named.starts rest),
        readOpening_eq_error_iff.mpr (Or.inr ?_)⟩
      rw [named.span.1, named.span.2]
      exact ⟨rfl, raw, inner, found, readRaw_eq_none_iff.mpr none⟩

/-! ### Scanning -/

/-- What is read up to a construct that does not end is read before it, and ends there. -/
theorem scan_append {finish other : Nat} {pending front rest : List Char} {cause : Unterminated}
    (failed : readConstruct rest = some (.error cause))
    (whole : (scan other pending front).2 = none) :
    (scan finish pending (front ++ '<' :: rest)).2 =
        some (cause.at (finish - byteLength ('<' :: rest))) ∧
      Event.nodeCount (scan finish pending (front ++ '<' :: rest)).1 =
        Event.nodeCount (scan other pending front).1 := by
  induction length : front.length using Nat.strongRecOn generalizing pending front
  rename_i bound ih
  cases front with
  | nil =>
    rw [List.nil_append, scan_error finish pending failed, scan_nil]
    exact ⟨rfl, rfl⟩
  | cons c others =>
    rw [List.length_cons] at length
    rw [List.cons_append]
    by_cases angle : c = '<'
    · subst angle
      cases construct : readConstruct others with
      | none =>
        have none := (readConstruct_append_eq_none_iff rest).mpr construct
        rw [scan_text other pending construct] at whole ⊢
        rw [scan_text finish pending none]
        exact ih _ (by omega) whole rfl
      | some result =>
        cases result with
        | error foreign =>
          rw [scan_error other pending construct] at whole
          cases whole
        | ok taken =>
          obtain ⟨event, after⟩ := taken
          have shorter := readConstruct_length construct
          obtain ⟨longer, read, count⟩ :=
            (readConstruct_append_iff rest).mpr ⟨event, construct, rfl⟩
          rw [scan_construct other pending construct] at whole ⊢
          rw [scan_construct finish pending read]
          obtain ⟨ends, same⟩ := ih _ (by omega) whole rfl
          refine ⟨ends, ?_⟩
          simp only [Event.nodeCount_append, Event.nodeCount_cons, same, count]
    · rw [scan_other other pending angle] at whole ⊢
      rw [scan_other finish pending angle]
      exact ih _ (by omega) whole rfl

/-- Where reading stops, the text before can be read on its own. -/
theorem exists_of_scan_eq_some {finish : Nat} {pending text : List Char} {error : MarkupError}
    (stops : (scan finish pending text).2 = some error) :
    ∃ front rest cause, text = front ++ '<' :: rest ∧ readConstruct rest = some (.error cause) ∧
      ∀ other, (scan other pending front).2 = none := by
  induction length : text.length using Nat.strongRecOn generalizing pending text
  rename_i bound ih
  cases text with
  | nil =>
    rw [scan_nil] at stops
    cases stops
  | cons c others =>
    rw [List.length_cons] at length
    by_cases angle : c = '<'
    · subst angle
      cases construct : readConstruct others with
      | none =>
        rw [scan_text finish pending construct] at stops
        obtain ⟨front, rest, cause, rfl, failed, whole⟩ := ih _ (by omega) stops rfl
        refine ⟨'<' :: front, rest, cause, rfl, failed, fun other => ?_⟩
        rw [scan_text other pending ((readConstruct_append_eq_none_iff rest).mp construct)]
        exact whole other
      | some result =>
        cases result with
        | error cause =>
          refine ⟨[], others, cause, rfl, construct, fun other => ?_⟩
          rw [scan_nil]
        | ok taken =>
          obtain ⟨event, after⟩ := taken
          have shorter := readConstruct_length construct
          rw [scan_construct finish pending construct] at stops
          obtain ⟨front, rest, cause, rfl, failed, whole⟩ := ih _ (by omega) stops rfl
          -- the construct leaves the text up to the one that does not end
          obtain ⟨used, rfl⟩ := readConstruct_suffix construct
          rw [← List.append_assoc] at construct
          obtain ⟨own, read, _⟩ :=
            (readConstruct_append_iff rest).mp ⟨event, construct, rfl⟩
          refine ⟨'<' :: (used ++ front), rest, cause, by simp, failed, fun other => ?_⟩
          rw [scan_construct other pending read]
          exact whole other
    · rw [scan_other finish pending angle] at stops
      obtain ⟨front, rest, cause, rfl, failed, whole⟩ := ih _ (by omega) stops rfl
      refine ⟨c :: front, rest, cause, rfl, failed, fun other => ?_⟩
      rw [scan_other other pending angle]
      exact whole other

/-! ### Errors -/

/-- Markup with more nodes than there are ids is not accepted. -/
theorem parse_of_capacity_lt {markup : String} (full : Fragment.capacity < nodeCount markup) :
    parse markup = .error (.tree .tooManyNodes) := by
  have start : Builder.empty.Numbered := ⟨⟨.empty, trivial⟩, rfl⟩
  have size : Builder.empty.fragment.size = 0 := rfl
  rw [nodeCount] at full
  rw [parse]
  rcases start.foldlM_cases (events markup).1 with ⟨_, failed⟩ | ⟨final, _, last, total⟩
  · simp only [failed]
  · have bound := last.sound.grown.size_le
    omega

/-- Where reading stops is the error of other markup. -/
theorem parse_of_le_capacity {markup : String} (few : nodeCount markup ≤ Fragment.capacity)
    (error : MarkupError) : parse markup = .error error ↔ (events markup).2 = some error := by
  rcases parse_cases markup with ⟨full, _⟩ | ⟨found, stops, parsed⟩ | ⟨ends, fragment, parsed, _⟩
  · exact absurd full (Nat.not_lt.mpr few)
  · rw [parsed, stops, Except.error.injEq, Option.some.injEq]
  · rw [parsed, ends]
    exact ⟨nofun, nofun⟩

/-- **Markup is accepted** just if reading does not stop and there are ids for its nodes. -/
theorem exists_parse_iff {markup : String} : (∃ fragment, parse markup = .ok fragment) ↔
    (events markup).2 = none ∧ nodeCount markup ≤ Fragment.capacity := by
  by_cases full : Fragment.capacity < nodeCount markup
  · rw [parse_of_capacity_lt full]
    exact ⟨nofun, fun both => absurd full (Nat.not_lt.mpr both.2)⟩
  · have few := Nat.not_lt.mp full
    rw [and_iff_left few]
    cases ended : (events markup).2 with
    | some error =>
      rw [(parse_of_le_capacity few error).mpr ended]
      exact ⟨nofun, nofun⟩
    | none =>
      refine ⟨fun _ => rfl, fun _ => ?_⟩
      cases parsed : parse markup with
      | ok fragment => exact ⟨fragment, rfl⟩
      | error error =>
        rw [(parse_of_le_capacity few error).mp parsed] at ended
        cases ended

/-- Markup is read up to a construct that does not end as the markup before it is. -/
theorem events_of_unended {markup : String} {front rest : List Char} {cause : Unterminated}
    (split : markup.toList = front ++ '<' :: rest)
    (failed : readConstruct rest = some (.error cause))
    (whole : (events (String.ofList front)).2 = none) :
    (events markup).2 = some (cause.at (byteLength front)) ∧
      nodeCount markup = nodeCount (String.ofList front) := by
  rw [events, String.toList_ofList] at whole
  have position : byteLength markup.toList - byteLength ('<' :: rest) = byteLength front := by
    rw [split, byteLength_append, Nat.add_sub_cancel]
  have both := @scan_append (byteLength markup.toList) _ _ _ _ _ failed whole
  rw [position, ← split] at both
  rw [nodeCount, nodeCount, events, events, String.toList_ofList]
  exact both

/-- **The errors of all markup.** Markup is not accepted just if it has more nodes than there are
ids, or a construct in it does not end and the markup before it is accepted; the error tells what
the construct is, and the place of its `<` in bytes. -/
theorem parse_eq_error_iff (markup : String) (error : MarkupError) :
    parse markup = .error error ↔
      error = .tree .tooManyNodes ∧ Fragment.capacity < nodeCount markup ∨
      ∃ front rest cause, markup.toList = front ++ '<' :: rest ∧
        (∃ fragment, parse (String.ofList front) = .ok fragment) ∧ Unended cause rest ∧
        error = cause.at (byteLength front) := by
  constructor
  · intro failed
    by_cases full : Fragment.capacity < nodeCount markup
    · rw [parse_of_capacity_lt full] at failed
      exact Or.inl ⟨(Except.error.inj failed).symm, full⟩
    · have few := Nat.not_lt.mp full
      have stops := (parse_of_le_capacity few error).mp failed
      obtain ⟨front, rest, cause, split, construct, whole⟩ := exists_of_scan_eq_some stops
      have ends : (events (String.ofList front)).2 = none := by
        rw [events, String.toList_ofList]
        exact whole _
      obtain ⟨place, count⟩ := events_of_unended split construct ends
      rw [stops] at place
      rw [count] at few
      exact Or.inr ⟨front, rest, cause, split, exists_parse_iff.mpr ⟨ends, few⟩,
        readConstruct_eq_error_iff.mp construct, Option.some.inj place⟩
  · rintro (⟨rfl, full⟩ | ⟨front, rest, cause, split, accepted, unended, rfl⟩)
    · exact parse_of_capacity_lt full
    · obtain ⟨ends, few⟩ := exists_parse_iff.mp accepted
      obtain ⟨place, count⟩ :=
        events_of_unended split (readConstruct_eq_error_iff.mpr unended) ends
      rw [← count] at few
      exact (parse_of_le_capacity few _).mpr place

/-- A bracket in the quotes of an attribute does not end a tag. -/
example : (events "<p>a</p><a b='>").2 = some (.unterminatedTag "a" 8) := by
  decide +kernel

end DataBind.Markup
