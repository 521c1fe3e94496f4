/-
**What is read can be written and read again.**

The nodes of markup that has been read meet the conditions under which a written node is read as the
same construct: names consist of the characters of names, and the content of a comment, a
declaration or a raw text element does not contain what ends it.

* `readTag_induction`, `readConstruct_cases`: what the attributes of a start tag keep, and what a
  construct can be;
* `readConstruct_suffix`: what a construct leaves is an end of the text;
* `mem_scan_cases`: an event of a text is text that is not empty, or is read as a construct;
* `Event.Readable`, `readable_of_mem_scan`: the events of a text are readable;
* `nodes_of_parse`: the nodes of markup that has been read are those of its events;
* `Tree.ReadableAll`: the nodes of a forest are readable, and raw text elements have no children;
* `readableAll_of_parse`: so are the nodes of markup that has been read.
-/

import DataBind.Proofs.Markup.Building
import DataBind.Proofs.Text.Trimming
import Mathlib.Data.List.TakeWhile

namespace DataBind.Markup

open DataBind.Text DataBind.Markup.Tree

/-! ### Names -/

theorem readableTag_of_takeWhile {c : Char} (alpha : c.isAlpha = true) (rest : List Char) :
    ReadableTag (nameOf ((c :: rest).takeWhile isTagNameCharacter)) := by
  have first : isTagNameCharacter c = true :=
    forall_isAlpha (motive := fun c => isTagNameCharacter c = true) (by decide) alpha
  rw [List.takeWhile_cons_of_pos first]
  refine ⟨⟨c.toLower, _, String.toList_ofList, ?_⟩, ?_, ?_⟩
  · exact toLower_induction (motive := fun c => c.isAlpha = true) (by decide) alpha
  · rw [nameOf, String.toList_ofList]
    refine all_asciiLower (by decide) fun d member => ?_
    rw [← List.takeWhile_cons_of_pos first] at member
    exact List.mem_takeWhile_imp member
  · rw [nameOf, String.toList_ofList, asciiLower_asciiLower]

/-- The name of an attribute that has been read is read again. -/
theorem readableName_of_readAttribute? {c : Char} {rest after : List Char} {entry : Attribute}
    (solid : isBlank c = false) (slash : c ≠ '/') (angle : c ≠ '>')
    (read : readAttribute? c rest = some (entry, after)) : ReadableName entry.1 := by
  unfold readAttribute? at read
  simp only at read
  split at read
  · rename_i empty
    obtain ⟨⟨value, later⟩, _, same⟩ := Option.map_eq_some_iff.mp read
    cases same
    have equals : c = '=' := by
      by_contra other
      have name : isAttributeNameCharacter c = true := by
        simp [isAttributeNameCharacter, solid, slash, angle, other]
      simp [List.takeWhile_cons_of_pos name] at empty
    rw [equals]
    exact Or.inl rfl
  · rename_i nonempty
    obtain ⟨⟨value, later⟩, _, same⟩ := Option.map_eq_some_iff.mp read
    cases same
    refine Or.inr ⟨fun empty => nonempty ?_, ?_⟩
    · have blank := congrArg String.toList empty
      rw [nameOf, String.toList_ofList] at blank
      rw [List.map_eq_nil_iff.mp blank]
      rfl
    · rw [nameOf, String.toList_ofList]
      exact all_asciiLower (by decide) fun d member => List.mem_takeWhile_imp member

/-- **What holds of the attributes of a start tag**: what each attribute of a new name keeps. -/
theorem readTag_induction {motive : List Attribute → Prop}
    (step : ∀ {known : List Attribute} {c : Char} {rest after : List Char} {entry : Attribute},
      isBlank c = false → c ≠ '/' → c ≠ '>' → readAttribute? c rest = some (entry, after) →
      entry.1 ∉ known.map Prod.fst → motive known → motive (known ++ [entry]))
    {known found : List Attribute} {text rest : List Char} {selfClosing : Bool}
    (read : readTag known text = some ((found, selfClosing), rest)) (start : motive known) :
    motive found := by
  fun_induction readTag known text with
  | case1 => cases read
  | case2 =>
    cases read
    exact start
  | case3 =>
    cases read
    exact start
  | case4 _ _ _ _ _ _ ih => exact ih read start
  | case5 => cases read
  | case6 attributes _ c rest angle _ slash inside entry after named _ _ known ih =>
    refine ih read ?_
    split
    · exact start
    · rename_i new
      exact step (solid_of_trimStart inside) slash angle named (by simpa [known] using new) start

/-- The attributes of a start tag have readable names. -/
theorem readable_of_readTag {found : List Attribute} {text rest : List Char} {selfClosing : Bool}
    (read : readTag [] text = some ((found, selfClosing), rest)) :
    ∀ entry ∈ found, ReadableName entry.1 := by
  refine readTag_induction (motive := fun known => ∀ entry ∈ known, ReadableName entry.1) ?_ read
    fun _ member => absurd member List.not_mem_nil
  intro known c rest after entry solid slash angle named _ readable
  exact List.forall_mem_append.mpr ⟨readable,
    List.forall_mem_singleton.mpr (readableName_of_readAttribute? solid slash angle named)⟩

/-! ### What is left of the text -/

theorem readValue?_suffix {text rest : List Char} {value : String}
    (read : readValue? text = some (value, rest)) : rest <:+ text := by
  refine List.IsSuffix.trans ?_ (trimStart_suffix text)
  unfold readValue? at read
  split at read
  · cases read
    exact List.nil_suffix
  · rename_i c inner same
    rw [same]
    split at read
    · obtain ⟨⟨front, after⟩, cut, same⟩ := Option.map_eq_some_iff.mp read
      cases same
      exact (cutAt_suffix cut).trans (List.suffix_cons c inner)
    · cases read
      exact List.dropWhile_suffix _

theorem readOptionalValue?_suffix {text rest : List Char} {value : String}
    (read : readOptionalValue? text = some (value, rest)) : rest <:+ text := by
  refine List.IsSuffix.trans ?_ (trimStart_suffix text)
  unfold readOptionalValue? at read
  split at read
  · rename_i same
    rw [same]
    exact (readValue?_suffix read).trans (List.suffix_cons _ _)
  · cases read
    exact List.suffix_rfl

theorem readAttribute?_suffix {c : Char} {text rest : List Char} {entry : Attribute}
    (read : readAttribute? c text = some (entry, rest)) : rest <:+ c :: text := by
  unfold readAttribute? at read
  simp only at read
  split at read
  all_goals
    obtain ⟨⟨value, after⟩, found, same⟩ := Option.map_eq_some_iff.mp read
    cases same
  · exact (readOptionalValue?_suffix found).trans (List.suffix_cons c text)
  · exact (readOptionalValue?_suffix found).trans (List.dropWhile_suffix _)

theorem readTag_suffix {attributes found : List Attribute} {text rest : List Char}
    {selfClosing : Bool} (read : readTag attributes text = some ((found, selfClosing), rest)) :
    rest <:+ text := by
  fun_induction readTag attributes text with
  | case1 => cases read
  | case2 _ text _ inside =>
    cases read
    exact (List.suffix_cons _ _).trans (inside ▸ trimStart_suffix text)
  | case3 _ text _ inside =>
    cases read
    exact ((List.suffix_cons _ _).trans (List.suffix_cons _ _)).trans
      (inside ▸ trimStart_suffix text)
  | case4 _ text _ _ inside _ ih =>
    exact ((ih read).trans (List.suffix_cons _ _)).trans (inside ▸ trimStart_suffix text)
  | case5 => cases read
  | case6 _ text _ _ _ _ _ inside _ _ named _ _ _ ih =>
    exact ((ih read).trans (readAttribute?_suffix named)).trans (inside ▸ trimStart_suffix text)

theorem readRaw_suffix {tag content : String} {text rest : List Char}
    (read : readRaw tag text = some (content, rest)) : rest <:+ text := by
  unfold readRaw at read
  simp only at read
  split at read
  · cases read
  · obtain ⟨⟨_, after⟩, cut, same⟩ := Option.map_eq_some_iff.mp read
    cases same
    exact (cutAt_suffix cut).trans (List.drop_suffix _ _)

theorem readOpening_suffix {text rest : List Char} {event : Event}
    (read : readOpening text = .ok (event, rest)) : rest <:+ text := by
  refine List.IsSuffix.trans ?_ (List.dropWhile_suffix isTagNameCharacter)
  unfold readOpening at read
  simp only at read
  split at read
  · cases read
  · rename_i tagged
    refine List.IsSuffix.trans ?_ (readTag_suffix tagged)
    split at read
    · split at read
      · cases read
      · rename_i raw
        cases read
        exact readRaw_suffix raw
    · cases read
      exact List.suffix_rfl

theorem readClosing_suffix {text rest : List Char} {event : Event}
    (read : readClosing text = .ok (event, rest)) : rest <:+ text := by
  refine List.IsSuffix.trans ?_ (List.dropWhile_suffix isTagNameCharacter)
  unfold readClosing at read
  simp only at read
  split at read
  · cases read
  · rename_i cut
    cases read
    exact cutAt_suffix cut

/-- **A construct leaves an end of the text.** -/
theorem readConstruct_suffix {text rest : List Char} {event : Event}
    (read : readConstruct text = some (.ok (event, rest))) : rest <:+ text := by
  unfold readConstruct at read
  split at read
  · rename_i others
    rw [Option.some.injEq] at read
    split at read
    · cases read
    · rename_i cut
      cases read
      exact (cutAtText_suffix cut).trans (List.suffix_append ['!', '-', '-'] others)
  · rename_i c others _
    split at read
    · rw [Option.some.injEq] at read
      split at read
      · cases read
      · rename_i cut
        cases read
        exact cutAt_suffix cut
    · split at read
      · split at read
        · split at read
          · rw [Option.some.injEq] at read
            exact (readClosing_suffix read).trans (List.suffix_cons _ _)
          · cases read
        · cases read
      · split at read
        · rw [Option.some.injEq] at read
          exact readOpening_suffix read
        · cases read
  · cases read

/-! ### Events -/

/-- Whether the construct of an event is read again when it is written. Start tags of raw text
elements stand alone only if they close themselves. -/
def Event.Readable : Event → Prop
  | .text _ | .closing _ => True
  | .comment inner => (Content.comment inner).Readable
  | .declaration inner => (Content.declaration inner).Readable
  | .raw tag attributes inner => (Content.raw tag attributes inner).Readable
  | .opening tag attributes selfClosing =>
    (Content.element tag attributes).Readable ∧ (selfClosing = false → isRawText tag = false)

/-- What is read as a declaration does not start as a comment does. -/
theorem readable_of_declaration {c : Char} {text inner rest : List Char} (mark : c = '!' ∨ c = '?')
    (comment : ∀ others, c = '!' → text = '-' :: '-' :: others → False)
    (cut : cutAt '>' (c :: text) = some (inner, rest)) :
    (Event.declaration (String.ofList inner)).Readable := by
  have whole := cutAt_eq_some cut
  cases inner with
  | nil =>
    have wrong : c = '>' := (List.cons.inj whole).1
    rcases mark with rfl | rfl <;> cases wrong
  | cons d more =>
    obtain ⟨rfl, others⟩ := List.cons.inj whole
    show (∃ d rest, (String.ofList (c :: more)).toList = d :: rest ∧ _) ∧ _ ∧ _
    rw [String.toList_ofList]
    refine ⟨⟨c, more, rfl, mark⟩, (cutAt_eq_some_iff.mp cut).2, fun ⟨tail, same⟩ => ?_⟩
    obtain ⟨bang, dashes⟩ := List.cons.inj same
    refine comment (tail ++ '>' :: rest) bang.symm ?_
    rw [others, ← dashes]
    rfl

/-- The content of a raw text element does not contain an end tag of its name. -/
theorem absent_of_readRaw {tag content : String} {text rest : List Char}
    (read : readRaw tag text = some (content, rest)) :
    ¬ ('<' :: '/' :: tag.toList) <:+: asciiLower content.toList := by
  obtain ⟨_, _, _, _, _, reaches⟩ := readRaw_eq_some_iff.mp read
  exact (UpTo.map_iff.mpr reaches).not_infix_front (List.cons_ne_nil _ _)

theorem readable_of_readOpening {c : Char} {text rest : List Char} {event : Event}
    (alpha : c.isAlpha = true) (read : readOpening (c :: text) = .ok (event, rest)) :
    event.Readable := by
  have tag := readableTag_of_takeWhile alpha text
  unfold readOpening at read
  simp only at read
  split at read
  · cases read
  · rename_i attributes selfClosing _ tagged
    have names := readable_of_readTag tagged
    split at read
    · rename_i raw
      rw [Bool.and_eq_true] at raw
      split at read
      · cases read
      · rename_i found
        cases read
        exact ⟨tag, names, raw.1, absent_of_readRaw found⟩
    · rename_i ordinary
      cases read
      refine ⟨⟨tag, names⟩, fun stands => ?_⟩
      rw [stands] at ordinary
      simpa using ordinary

/-- **What a construct can be**: a comment, a declaration, an end tag, or what starts with a start
tag. -/
theorem readConstruct_cases {motive : Event → Prop} {text rest : List Char} {event : Event}
    (read : readConstruct text = some (.ok (event, rest)))
    (comment : ∀ {others inner after}, cutAtText ['-', '-', '>'] others = some (inner, after) →
      motive (.comment (String.ofList inner)))
    (declaration : ∀ {c others inner after}, c = '!' ∨ c = '?' →
      (∀ more, c = '!' → others = '-' :: '-' :: more → False) →
      cutAt '>' (c :: others) = some (inner, after) → motive (.declaration (String.ofList inner)))
    (closing : ∀ tag, motive (.closing tag))
    (opening : ∀ {c others after}, c.isAlpha = true →
      readOpening (c :: others) = .ok (event, after) → motive event) : motive event := by
  unfold readConstruct at read
  split at read
  · rw [Option.some.injEq] at read
    split at read
    · cases read
    · rename_i cut
      cases read
      exact comment cut
  · rename_i c others apart
    split at read
    · rename_i mark
      rw [Option.some.injEq] at read
      split at read
      · cases read
      · rename_i cut
        cases read
        exact declaration mark apart cut
    · split at read
      · split at read
        · split at read
          · rw [Option.some.injEq] at read
            unfold readClosing at read
            simp only at read
            split at read
            · cases read
            · cases read
              exact closing _
          · cases read
        · cases read
      · split at read
        · rename_i alpha
          rw [Option.some.injEq] at read
          exact opening alpha read
        · cases read
  · cases read

/-- **The event of a construct is readable.** -/
theorem readable_of_readConstruct {text rest : List Char} {event : Event}
    (read : readConstruct text = some (.ok (event, rest))) : event.Readable := by
  refine readConstruct_cases read ?_ readable_of_declaration (fun _ => trivial)
    readable_of_readOpening
  intro others inner after cut
  show ¬ _ <:+: _
  rw [String.toList_ofList]
  exact not_infix_of_cutAtText (by decide) cut

/-- **An event of a text** is text that is not empty, or is read as a construct behind a `<`. -/
theorem mem_scan_cases {finish : Nat} {pending text : List Char} {event : Event}
    (member : event ∈ (scan finish pending text).1) :
    (∃ inner, event = .text inner ∧ inner ≠ "") ∨
      ∃ others rest, '<' :: others <:+ text ∧ readConstruct others = some (.ok (event, rest)) := by
  have written : ∀ {pending : List Char}, event ∈ pendingText pending →
      ∃ inner, event = .text inner ∧ inner ≠ "" := by
    intro pending here
    unfold pendingText at here
    split at here
    · cases here
    · rename_i nonempty
      refine ⟨_, List.mem_singleton.mp here, fun empty => nonempty ?_⟩
      have blank := congrArg String.toList empty
      rw [String.toList_ofList] at blank
      rw [List.reverse_eq_nil_iff.mp blank]
      rfl
  induction length : text.length using Nat.strongRecOn generalizing pending text
  rename_i bound ih
  cases text with
  | nil =>
    rw [scan_nil] at member
    exact Or.inl (written member)
  | cons c rest =>
    rw [List.length_cons] at length
    have later : ∀ {pending after : List Char}, after.length < bound → after <:+ rest →
        event ∈ (scan finish pending after).1 → (∃ inner, event = .text inner ∧ inner ≠ "") ∨
          ∃ others left, '<' :: others <:+ c :: rest ∧
            readConstruct others = some (.ok (event, left)) := by
      intro pending after shorter suffix here
      rcases ih after.length shorter here rfl with text | ⟨others, left, place, construct⟩
      · exact Or.inl text
      · exact Or.inr ⟨others, left, (place.trans suffix).trans (List.suffix_cons c rest), construct⟩
    rw [scan] at member
    split at member
    · rename_i angle
      split at member
      · exact later (by omega) List.suffix_rfl member
      · exact Or.inl (written member)
      · rename_i found after construct
        have shorter := readConstruct_length construct
        rcases List.mem_append.mp member with here | here
        · exact Or.inl (written here)
        · rcases List.mem_cons.mp here with rfl | here
          · exact Or.inr ⟨rest, after, angle ▸ List.suffix_rfl, construct⟩
          · exact later (by omega) (readConstruct_suffix construct) here
    · exact later (by omega) List.suffix_rfl member

/-- **The events of a text are readable.** -/
theorem readable_of_mem_scan {finish : Nat} {pending text : List Char} {event : Event}
    (member : event ∈ (scan finish pending text).1) : event.Readable := by
  rcases mem_scan_cases member with ⟨inner, rfl, _⟩ | ⟨_, _, _, construct⟩
  · trivial
  · exact readable_of_readConstruct construct

/-! ### Nodes -/

namespace Builder

/-- **Every node of a builder is of one kind**, and every node that has children or is open is of
another. -/
structure Holds (kind parent : Content → Prop) (builder : Builder) : Prop where
  contents : ∀ (id : NodeId) (slot : Slot), builder.fragment.slots[id]? = some slot →
    kind slot.content
  parents : ∀ (id : NodeId) (slot : Slot), builder.fragment.slots[id]? = some slot →
    slot.children ≠ [] → parent slot.content
  unclosed : ∀ step ∈ builder.unclosed, ∃ content,
    (builder.fragment.slots[step.1]?).map Slot.content = some content ∧ parent content

variable {kind parent : Content → Prop} {builder next : Builder}

/-- What is open after an event was open before it, or is the element of the event. -/
theorem mem_unclosedAfter {new : NodeId} {unclosed : List (NodeId × String)} {event : Event}
    {step : NodeId × String} (member : step ∈ unclosedAfter new unclosed event) :
    step ∈ unclosed ∨ ∃ attributes, event = .opening step.2 attributes false ∧
      isVoid step.2 = false ∧ step.1 = new := by
  cases event with
  | closing tag => exact Or.inl ((close_suffix tag _).subset member)
  | text _ => exact Or.inl member
  | comment _ => exact Or.inl member
  | declaration _ => exact Or.inl member
  | raw _ _ _ => exact Or.inl member
  | opening tag attributes selfClosing =>
    rw [unclosedAfter] at member
    split at member
    · exact Or.inl member
    · rename_i stays
      rw [Bool.or_eq_true, not_or, Bool.not_eq_true, Bool.not_eq_true] at stays
      rcases List.mem_cons.mp member with rfl | old
      · exact Or.inr ⟨attributes, by rw [stays.1], stays.2, rfl⟩
      · exact Or.inl old

/-- An event keeps the kinds of a builder if the node that it adds, and the element that it opens,
are of these kinds. -/
theorem Holds.add {event : Event} (holds : builder.Holds kind parent)
    (adds : ∀ content ∈ event.content?, kind content)
    (opens : ∀ tag attributes, event = .opening tag attributes false → isVoid tag = false →
      parent (.element tag attributes))
    (added : builder.add event = .ok next) : next.Holds kind parent := by
  rw [add_eq] at added
  cases made : event.content? with
  | none =>
    rw [made] at added
    cases added
    refine ⟨holds.contents, holds.parents, fun step member => ?_⟩
    rcases mem_unclosedAfter member with old | ⟨attributes, rfl, _, _⟩
    · exact holds.unclosed step old
    · cases made
  | some content =>
    rw [made] at added adds
    obtain ⟨fragment, unclosed⟩ := builder
    obtain ⟨opened, appended, rfl⟩ := Text.exists_of_map_eq_ok added
    obtain ⟨grown, succeeds, rfl⟩ := Text.exists_of_map_eq_ok appended
    have newest : grown.newest = fragment.size := by
      rw [Fragment.newest, Fragment.size_append succeeds]
      rfl
    refine ⟨fun id slot found => ?_, fun id slot found nonempty => ?_, fun step member => ?_⟩
    · rcases Fragment.slot_cases_of_append succeeds found with
        ⟨_, same, _⟩ | ⟨before, old, same, _⟩
      · exact same ▸ adds content rfl
      · exact same ▸ holds.contents id before old
    · rcases Fragment.slot_cases_of_append succeeds found with
        ⟨_, _, childless⟩ | ⟨before, old, same, kept | ⟨owner, _⟩⟩
      · exact absurd childless nonempty
      · exact same ▸ holds.parents id before old (kept ▸ nonempty)
      · -- only the innermost open element gets a child
        obtain ⟨step, last, rfl⟩ := Option.map_eq_some_iff.mp owner
        obtain ⟨inner, here, good⟩ := holds.unclosed step (List.mem_of_mem_head? last)
        rw [old] at here
        cases here
        exact same ▸ good
    · show ∃ inner, (grown.slots[step.1]?).map Slot.content = some inner ∧ parent inner
      rw [Fragment.content_of_append succeeds]
      rcases mem_unclosedAfter member with old | ⟨attributes, rfl, ordinary, new⟩
      · obtain ⟨inner, here, good⟩ := holds.unclosed step old
        refine ⟨inner, ?_, good⟩
        rw [if_neg, here]
        intro same
        have absent : fragment.slots[step.1]? = none :=
          Array.getElem?_eq_none (Nat.le_of_eq same.symm)
        rw [show (Builder.mk fragment unclosed).fragment.slots[step.1]? = none from absent] at here
        cases here
      · cases made
        exact ⟨_, if_pos (new.trans newest), opens _ _ rfl ordinary⟩

theorem Holds.foldlM {events : List Event} (holds : builder.Holds kind parent)
    (adds : ∀ event ∈ events, ∀ content ∈ event.content?, kind content)
    (opens : ∀ tag attributes, .opening tag attributes false ∈ events → isVoid tag = false →
      parent (.element tag attributes))
    (built : events.foldlM Builder.add builder = .ok next) : next.Holds kind parent := by
  induction events generalizing builder with
  | nil =>
    cases built
    exact holds
  | cons event rest ih =>
    rw [List.foldlM_cons] at built
    obtain ⟨middle, added, built⟩ := Text.exists_of_bind_eq_ok built
    have kept := holds.add (adds event List.mem_cons_self)
      (fun tag attributes same => opens tag attributes (same ▸ List.mem_cons_self)) added
    exact ih kept (fun other member => adds other (List.mem_cons_of_mem _ member))
      (fun tag attributes member => opens tag attributes (List.mem_cons_of_mem _ member)) built

end Builder

/-- **The nodes of markup that has been read are those of its events**, and only elements whose
start tags are read as open have children. -/
theorem nodes_of_parse (kind parent : Content → Prop) {markup : String} {fragment : Fragment}
    (adds : ∀ event ∈ (events markup).1, ∀ content ∈ event.content?, kind content)
    (opens : ∀ tag attributes, .opening tag attributes false ∈ (events markup).1 →
      isVoid tag = false → parent (.element tag attributes))
    (parsed : parse markup = .ok fragment) :
    ∀ tree ∈ subtreesAll fragment.rootTrees,
      kind tree.content ∧ (tree.children ≠ [] → parent tree.content) := by
  have start : Builder.empty.Holds kind parent := by
    refine ⟨fun id slot found => ?_, fun id slot found => ?_, fun step member => ?_⟩
    · cases found
    · cases found
    · cases member
  unfold parse at parsed
  simp only at parsed
  split at parsed
  · cases parsed
  · rename_i builder built
    split at parsed
    · cases parsed
    · cases parsed
      have holds := start.foldlM adds opens built
      intro tree inside
      obtain ⟨slot, found, content, children⟩ := Fragment.slot_of_mem_subtreesAll inside
      rw [content, children]
      refine ⟨holds.contents _ _ found, fun nonempty => holds.parents _ _ found fun empty => ?_⟩
      rw [empty] at nonempty
      exact nonempty rfl

/-! ### Trees -/

namespace Tree

/-- Whether a node is read again where it stands: raw text elements have no children. -/
structure Readable (tree : Tree) : Prop where
  content : tree.content.Readable
  childless : ∀ tag attributes, tree.content = .element tag attributes → isRawText tag = true →
    tree.children = []

/-- Whether the nodes of a forest are read again. -/
def ReadableAll (nodes : List Tree) : Prop :=
  ∀ tree ∈ subtreesAll nodes, tree.Readable

theorem readableAll_append {first second : List Tree} :
    ReadableAll (first ++ second) ↔ ReadableAll first ∧ ReadableAll second := by
  unfold ReadableAll
  rw [subtreesAll_append]
  exact List.forall_mem_append

theorem readableAll_cons {tree : Tree} {rest : List Tree} :
    ReadableAll (tree :: rest) ↔
      tree.Readable ∧ ReadableAll tree.children ∧ ReadableAll rest := by
  unfold ReadableAll
  rw [subtreesAll_cons, List.forall_mem_cons, List.forall_mem_append]

end Tree

/-- **The nodes of markup that has been read are read again when they are written.** -/
theorem readableAll_of_parse {markup : String} {fragment : Fragment}
    (parsed : parse markup = .ok fragment) : ReadableAll fragment.rootTrees := by
  have nodes := nodes_of_parse Content.Readable
    (fun content => ∀ tag attributes, content = .element tag attributes → isRawText tag = false)
    ?_ ?_ parsed
  · intro tree inside
    obtain ⟨content, parent⟩ := nodes tree inside
    refine ⟨content, fun tag attributes same raw => ?_⟩
    by_contra nonempty
    have ordinary := parent nonempty tag attributes same
    rw [raw] at ordinary
    cases ordinary
  · intro event member content added
    have good := readable_of_mem_scan member
    cases event with
    | closing tag => cases added
    | text inner => cases added; trivial
    | comment inner => cases added; exact good
    | declaration inner => cases added; exact good
    | raw tag attributes inner => cases added; exact good
    | opening tag attributes selfClosing => cases added; exact good.1
  · rintro tag attributes member _ _ _ ⟨⟩
    exact (readable_of_mem_scan member).2 rfl

end DataBind.Markup
