/-
**Writing and reading markup again.**

Markup that has been read is written as text that is read again. Reading and writing once puts the
tree into a form of its own: what is escaped stays escaped, comments are trimmed and padded, texts
side by side are one, and raw text elements that closed themselves have an empty content. Writing it
again changes nothing.

* `canonicalAll`: the form of a forest;
* `printAll_canonicalAll`: it is written like the forest itself;
* `tidy_of_parse`: what holds of the nodes of markup that has been read;
* `settled_canonicalAll`: the form of what has been read is settled;
* `parse_print`: the text written for markup that has been read is read as the form of its tree, and
  written alike again.
-/

import DataBind.Proofs.Markup.Readable
import DataBind.Proofs.Markup.Settled

namespace DataBind.Markup

open DataBind.Text DataBind.Markup.Tree

/-! ### Canonical forests -/

/-- A value without backslashes and control characters. -/
def PlainValue (value : List Char) : Prop :=
  ∀ c ∈ value, c ≠ '\\' ∧ 0x20 ≤ c.toNat

instance (value : List Char) : Decidable (PlainValue value) :=
  List.decidableBAll _ value

/-- What a character of an attribute value becomes, if it is neither a backslash nor a control
character. -/
def escapeQuoted (c : Char) : List Char :=
  if c = '"' then ['&', 'q', 'u', 'o', 't', ';'] else escapeCharacter c

/-- An attribute with its value escaped. -/
def canonicalAttribute (entry : Attribute) : Attribute :=
  (entry.1, String.ofList (entry.2.toList.flatMap escapeQuoted))

namespace Content

/-- What a node becomes when it is written and read. -/
def canonical : Content → Content
  | .element tag attributes =>
    if isRawText tag then .raw tag (attributes.map canonicalAttribute) ""
    else .element tag (attributes.map canonicalAttribute)
  | .text inner => .text (escape inner)
  | .comment inner => .comment (" " ++ trimmed inner ++ " ")
  | .raw tag attributes content => .raw tag (attributes.map canonicalAttribute) content
  | .declaration inner => .declaration inner

/-- The attributes of a node. -/
def attributes : Content → List Attribute
  | .element _ entries | .raw _ entries _ => entries
  | _ => []

/-- No attribute has an opening angle bracket in its name, or a backslash or a control character in
its value. -/
def Plain (content : Content) : Prop :=
  ∀ entry ∈ content.attributes, '<' ∉ entry.1.toList ∧ PlainValue entry.2.toList

instance (content : Content) : Decidable content.Plain :=
  inferInstanceAs (Decidable (∀ entry ∈ content.attributes, _ ∧ _))

/-- Only texts become texts. -/
theorem text_of_canonical {content : Content} {inner : String}
    (same : content.canonical = .text inner) : ∃ own, content = .text own := by
  cases content with
  | text own => exact ⟨own, rfl⟩
  | comment _ => cases same
  | raw _ _ _ => cases same
  | declaration _ => cases same
  | element tag entries =>
    rw [canonical] at same
    split at same <;> cases same

end Content

namespace Tree

/-- A tree before a forest; a text becomes one with a text at its start. -/
def joined (tree : Tree) (rest : List Tree) : List Tree :=
  match tree.content, rest with
  | .text first, .node _ (.text second) _ :: others =>
    .node 0 (.text (first ++ second)) [] :: others
  | _, _ => tree :: rest

mutual

/-- What a tree becomes before a canonical forest. -/
def canonical (rest : List Tree) : Tree → List Tree
  | .node _ content children => joined (.node 0 content.canonical (canonicalAll children)) rest

/-- What a forest becomes when it is written and read. -/
def canonicalAll : List Tree → List Tree
  | [] => []
  | tree :: rest => canonical (canonicalAll rest) tree

end

/-- A text is joined to a text, and nothing else is joined. -/
theorem joined_cases (tree : Tree) (rest : List Tree) :
    (∃ first id second below others, tree.content = .text first ∧
        rest = .node id (.text second) below :: others ∧
        joined tree rest = .node 0 (.text (first ++ second)) [] :: others) ∨
      joined tree rest = tree :: rest ∧
        (tree.IsText → ∀ next ∈ rest.head?, ¬ next.IsText) := by
  unfold joined
  split
  · rename_i first id second below others same
    exact Or.inl ⟨first, id, second, below, others, same, rfl, rfl⟩
  · rename_i apart
    refine Or.inr ⟨rfl, ?_⟩
    rintro ⟨first, same⟩ next head ⟨second, text⟩
    obtain ⟨others, rfl⟩ := List.head?_eq_some_iff.mp head
    obtain ⟨id, content, below⟩ := next
    obtain rfl : content = .text second := text
    exact apart first id second below others same rfl

theorem canonicalAll_cons (id : NodeId) (content : Content) (children rest : List Tree) :
    canonicalAll (.node id content children :: rest) =
      joined (.node 0 content.canonical (canonicalAll children)) (canonicalAll rest) := by
  rw [canonicalAll, canonical]

/-- Canonical forests have no ids. -/
theorem shapeAll_canonicalAll (nodes : List Tree) :
    shapeAll (canonicalAll nodes) = canonicalAll nodes := by
  induction nodes using forestInduction with
  | nil => rw [canonicalAll, shapeAll]
  | cons id content children rest below later =>
    rw [canonicalAll_cons]
    rcases joined_cases (.node 0 content.canonical (canonicalAll children)) (canonicalAll rest) with
      ⟨first, own, second, inside, others, _, same, whole⟩ | ⟨whole, _⟩
    · rw [same, shapeAll] at later
      rw [whole, shapeAll, shape, shapeAll, (List.cons.inj later).2]
    · rw [whole, shapeAll, shape, below, later]

/-- A canonical forest does not have more nodes. -/
theorem length_subtreesAll_canonicalAll (nodes : List Tree) :
    (subtreesAll (canonicalAll nodes)).length ≤ (subtreesAll nodes).length := by
  induction nodes using forestInduction with
  | nil => rw [canonicalAll]
  | cons id content children rest below later =>
    have count : (subtreesAll (.node id content children :: rest)).length =
        (subtreesAll children).length + (subtreesAll rest).length + 1 := by
      rw [subtreesAll_cons, List.length_cons, List.length_append]
      rfl
    rw [canonicalAll_cons, count]
    rcases joined_cases (.node 0 content.canonical (canonicalAll children)) (canonicalAll rest) with
      ⟨first, own, second, inside, others, _, same, whole⟩ | ⟨whole, _⟩
    · rw [same, subtreesAll_cons, List.length_cons, List.length_append] at later
      rw [whole, subtreesAll_cons, List.length_cons, List.length_append]
      show (subtreesAll []).length + _ + 1 ≤ _
      rw [subtreesAll_nil, List.length_nil]
      omega
    · rw [whole, subtreesAll_cons, List.length_cons, List.length_append]
      show (subtreesAll (canonicalAll children)).length + _ + 1 ≤ _
      omega

end Tree

/-! ### Escaping -/

theorem escapeCharacters_of_not_mem {text : List Char} (left : '<' ∉ text) (right : '>' ∉ text) :
    escapeCharacters text = text := by
  induction text with
  | nil => rfl
  | cons c rest ih =>
    rw [List.mem_cons, not_or] at left right
    have own : escapeCharacter c = [c] := by
      rw [escapeCharacter, if_neg (Ne.symm left.1), if_neg (Ne.symm right.1)]
    show escapeCharacter c ++ escapeCharacters rest = c :: rest
    rw [own, ih left.2 right.2, List.singleton_append]

/-- **Escaping twice is escaping once.** -/
theorem escape_escape (text : String) : escape (escape text) = escape text := by
  obtain ⟨left, right⟩ := not_mem_escape text.toList
  rw [escape, escape, String.toList_ofList, escapeCharacters_of_not_mem left right]

theorem escape_string_append (first second : String) :
    escape (first ++ second) = escape first ++ escape second := by
  rw [escape, String.toList_append, escape_append, String.ofList_append]
  rfl

theorem escapeInAttribute_of_plain {c : Char} (backslash : c ≠ '\\') (control : 0x20 ≤ c.toNat) :
    escapeInAttribute c = escapeQuoted c := by
  have visible : ∀ d : Char, d.toNat < 0x20 → ¬ c = d := by
    rintro d low rfl
    exact absurd control (Nat.not_le_of_lt low)
  unfold escapeInAttribute escapeQuoted
  by_cases quote : c = '"'
  · rw [if_pos quote, if_pos quote]
  · rw [if_neg quote, if_neg quote, if_neg backslash, if_neg (visible _ (by decide)),
      if_neg (visible _ (by decide)), if_neg (visible _ (by decide)),
      if_neg (visible _ (by decide)), if_neg (visible _ (by decide)),
      if_neg (Nat.not_lt_of_le control)]

/-- Escaping a value without backslashes and control characters replaces quotes and brackets. -/
theorem flatMap_escapeInAttribute {value : List Char} (plain : PlainValue value) :
    value.flatMap escapeInAttribute = value.flatMap escapeQuoted :=
  List.flatMap_congr fun c member =>
    escapeInAttribute_of_plain (plain c member).1 (plain c member).2

/-- **Escaping an escaped value changes nothing.** -/
theorem flatMap_escapeQuoted {value : List Char} (plain : PlainValue value) :
    (value.flatMap escapeQuoted).flatMap escapeInAttribute = value.flatMap escapeQuoted := by
  rw [List.flatMap_assoc]
  refine List.flatMap_congr fun c member => ?_
  have own := escapeInAttribute_of_plain (plain c member).1 (plain c member).2
  unfold escapeQuoted escapeCharacter at own ⊢
  split_ifs at own ⊢ with quote left right
  · decide
  · decide
  · decide
  · rw [List.flatMap_singleton, own]

/-! ### Printing -/

/-- **An escaped value is written like the value.** -/
theorem attributesText_canonical {attributes : List Attribute}
    (plain : ∀ entry ∈ attributes, PlainValue entry.2.toList) :
    attributesText (attributes.map canonicalAttribute) = attributesText attributes := by
  induction attributes with
  | nil => rfl
  | cons entry rest ih =>
    have own := plain entry List.mem_cons_self
    have value : quotedValue (canonicalAttribute entry).2 = quotedValue entry.2 := by
      rw [quotedValue, quotedValue, canonicalAttribute, String.toList_ofList,
        flatMap_escapeQuoted own, flatMap_escapeInAttribute own]
    rw [List.map_cons]
    show attributesText ((entry.1, (canonicalAttribute entry).2) :: _) =
      attributesText ((entry.1, entry.2) :: rest)
    rw [attributesText_cons, attributesText_cons, attributeText, attributeText, value,
      ih fun other member => plain other (List.mem_cons_of_mem _ member)]

/-- A comment is written alike when it is padded. -/
theorem commentText_padded (inner : String) :
    commentText (" " ++ trimmed inner ++ " ") = commentText inner := by
  have padded : (" " ++ trimmed inner ++ " ").toList = ' ' :: (trim inner.toList ++ [' ']) := by
    simp [trimmed]
  have same : trimmed (" " ++ trimmed inner ++ " ") = trimmed inner := by
    rw [trimmed, padded, trim_padded (trimmed_trim _)]
    rfl
  rw [commentText, commentText, same]

/-- A joined text is written behind the text that it is joined to. -/
theorem printAll_joined (tree : Tree) (rest : List Tree) :
    printAll (joined tree rest) = tree.print ++ printAll rest := by
  rcases joined_cases tree rest with
    ⟨first, id, second, below, others, text, rfl, whole⟩ | ⟨whole, _⟩
  · obtain ⟨own, content, children⟩ := tree
    obtain rfl : content = .text first := text
    rw [whole, printAll, printAll, print, print, print, escape_string_append, String.append_assoc]
  · rw [whole, printAll]

/-! ### What has been read -/

namespace Content

/-- What holds of every node of markup that has been read. -/
structure Tidy (content : Content) : Prop where
  readable : content.Readable
  nonempty : content ≠ .text ""
  lower : ∀ entry ∈ content.attributes, asciiLower entry.1.toList = entry.1.toList
  distinct : (content.attributes.map Prod.fst).Nodup

/-- Whether a node can have children: it is an element that contains markup. -/
def Opens (content : Content) : Prop :=
  ∃ tag attributes, content = .element tag attributes ∧ isVoid tag = false ∧ isRawText tag = false

end Content

theorem lower_of_readAttribute? {c : Char} {rest after : List Char} {entry : Attribute}
    (read : readAttribute? c rest = some (entry, after)) :
    asciiLower entry.1.toList = entry.1.toList := by
  unfold readAttribute? at read
  simp only at read
  split at read
  · obtain ⟨_, _, same⟩ := Option.map_eq_some_iff.mp read
    cases same
    rw [nameOf, String.toList_ofList, asciiLower_asciiLower]
  · obtain ⟨_, _, same⟩ := Option.map_eq_some_iff.mp read
    cases same
    rw [nameOf, String.toList_ofList, asciiLower_asciiLower]

/-- The attributes of a start tag have names in lower case, and no name occurs twice. -/
theorem names_of_readTag {found : List Attribute} {text rest : List Char} {selfClosing : Bool}
    (read : readTag [] text = some ((found, selfClosing), rest)) :
    (∀ entry ∈ found, asciiLower entry.1.toList = entry.1.toList) ∧
      (found.map Prod.fst).Nodup := by
  refine readTag_induction (motive := fun known =>
    (∀ entry ∈ known, asciiLower entry.1.toList = entry.1.toList) ∧ (known.map Prod.fst).Nodup)
    ?_ read ⟨fun _ member => absurd member List.not_mem_nil, List.nodup_nil⟩
  intro known c rest after entry _ _ _ named new ⟨lower, distinct⟩
  refine ⟨List.forall_mem_append.mpr ⟨lower,
    List.forall_mem_singleton.mpr (lower_of_readAttribute? named)⟩, ?_⟩
  rw [List.map_append, List.nodup_append']
  exact ⟨distinct, List.nodup_singleton _, List.disjoint_singleton.mpr new⟩

/-- **The node of a construct is tidy.** -/
theorem tidy_of_readConstruct {text rest : List Char} {event : Event}
    (read : readConstruct text = some (.ok (event, rest))) :
    ∀ content ∈ event.content?, content.Tidy := by
  have plain : ∀ {content : Content}, content.Readable → content.attributes = [] →
      content ≠ .text "" → content.Tidy := by
    intro content readable none nonempty
    refine ⟨readable, nonempty, ?_, ?_⟩
    · rw [none]
      exact fun _ member => absurd member List.not_mem_nil
    · rw [none]
      exact List.nodup_nil
  refine readConstruct_cases (motive := fun event => event.Readable →
    ∀ content ∈ event.content?, content.Tidy) read ?_ ?_ ?_ ?_ (readable_of_readConstruct read)
  · rintro others inner after _ readable content ⟨⟩
    exact plain readable rfl Content.noConfusion
  · rintro c others inner after _ _ _ readable content ⟨⟩
    exact plain readable rfl Content.noConfusion
  · rintro tag _ content ⟨⟩
  · intro c others after _ opened readable
    unfold readOpening at opened
    simp only at opened
    split at opened
    · cases opened
    · rename_i tagged
      obtain ⟨lower, distinct⟩ := names_of_readTag tagged
      split at opened
      · split at opened
        · cases opened
        · cases opened
          rintro content ⟨⟩
          exact ⟨readable, Content.noConfusion, lower, distinct⟩
      · cases opened
        rintro content ⟨⟩
        exact ⟨readable.1, Content.noConfusion, lower, distinct⟩

/-- **The nodes of markup that has been read are tidy**, and only elements that contain markup have
children. -/
theorem tidy_of_parse {markup : String} {fragment : Fragment}
    (parsed : parse markup = .ok fragment) : ∀ tree ∈ subtreesAll fragment.rootTrees,
      tree.content.Tidy ∧ (tree.children ≠ [] → tree.content.Opens) := by
  refine nodes_of_parse Content.Tidy Content.Opens ?_ ?_ parsed
  · intro event member content added
    rcases mem_scan_cases member with ⟨inner, rfl, nonempty⟩ | ⟨_, _, _, construct⟩
    · cases added
      refine ⟨trivial, ?_, fun _ member => absurd member List.not_mem_nil, List.nodup_nil⟩
      rintro ⟨⟩
      exact nonempty rfl
    · exact tidy_of_readConstruct construct content added
  · intro tag attributes member ordinary
    exact ⟨tag, attributes, rfl, ordinary, (readable_of_mem_scan member).2 rfl⟩

/-! ### Canonical forests are settled -/

/-- The names of attributes that can be read are not changed by escaping. -/
theorem escapeCharacters_name {name : String} (readable : ReadableName name)
    (plain : '<' ∉ name.toList) : escapeCharacters name.toList = name.toList := by
  refine escapeCharacters_of_not_mem plain fun angle => ?_
  rcases readable with rfl | ⟨_, all⟩
  · exact absurd angle (by decide)
  · have wrong := all '>' angle
    revert wrong
    decide

theorem Content.Readable.names {content : Content} (readable : content.Readable) :
    ∀ entry ∈ content.attributes, ReadableName entry.1 := by
  cases content with
  | element _ _ => exact readable.2
  | raw _ _ _ => exact readable.2.1
  | text _ => exact fun _ member => absurd member List.not_mem_nil
  | comment _ => exact fun _ member => absurd member List.not_mem_nil
  | declaration _ => exact fun _ member => absurd member List.not_mem_nil

/-- **The attributes of a tidy node are settled once their values are escaped.** -/
theorem Content.Tidy.settledAttributes {content : Content} (tidy : content.Tidy)
    (plain : content.Plain) : SettledAttributes (content.attributes.map canonicalAttribute) where
  each := by
    intro escaped member
    obtain ⟨entry, inside, rfl⟩ := List.mem_map.mp member
    obtain ⟨name, value⟩ := plain entry inside
    have readable := tidy.readable.names entry inside
    refine ⟨readable, escapeCharacters_name readable name, tidy.lower entry inside, ?_⟩
    rw [canonicalAttribute, String.toList_ofList]
    exact flatMap_escapeQuoted value
  distinct := by
    rw [List.map_map]
    exact tidy.distinct

theorem readableName_canonical {attributes : List Attribute}
    (readable : ∀ entry ∈ attributes, ReadableName entry.1) :
    ∀ entry ∈ attributes.map canonicalAttribute, ReadableName entry.1 := by
  intro escaped member
  obtain ⟨entry, inside, rfl⟩ := List.mem_map.mp member
  exact readable entry inside

/-- **A node other than a text is settled before a settled forest**, in its canonical form with
settled children. -/
theorem settled_cons {content : Content} (tidy : content.Tidy) (plain : content.Plain)
    (structural : ∀ inner, content ≠ .text inner) {children rest : List Tree}
    {inside events : List Event} (parent : children ≠ [] → content.Opens)
    (below : Settled children inside) (later : Settled rest events) :
    ∃ found, Settled (.node 0 content.canonical children :: rest) found := by
  have attributes := tidy.settledAttributes plain
  have readable := tidy.readable
  have childless : ¬ content.Opens → children = [] := by
    intro closed
    by_contra nonempty
    exact closed (parent nonempty)
  cases content with
  | text inner => exact absurd rfl (structural inner)
  | comment inner =>
    rw [childless (by rintro ⟨_, _, ⟨⟩, _⟩)]
    refine ⟨_, .single (.comment ?_ ?_) later⟩
    · show ¬ _ <:+: _
      simpa [trimmed] using not_infix_padded readable
    · have padded : (" " ++ trimmed inner ++ " ").toList = ' ' :: (trim inner.toList ++ [' ']) := by
        simp [trimmed]
      rw [trimmed, padded, trim_padded (trimmed_trim _)]
      rfl
  | declaration inner =>
    rw [childless (by rintro ⟨_, _, ⟨⟩, _⟩)]
    exact ⟨_, .single (.declaration readable) later⟩
  | raw tag entries inner =>
    rw [childless (by rintro ⟨_, _, ⟨⟩, _⟩)]
    obtain ⟨named, names, raw, absent⟩ := readable
    exact ⟨_, .single (.raw ⟨named, readableName_canonical names, raw, absent⟩ attributes) later⟩
  | element tag entries =>
    obtain ⟨named, names⟩ := readable
    rw [Content.canonical]
    by_cases raw : isRawText tag = true
    · rw [if_pos raw, childless (by rintro ⟨_, _, ⟨⟩, _, ordinary⟩; simp [raw] at ordinary)]
      refine ⟨_, .single (.raw ⟨named, readableName_canonical names, raw, ?_⟩ attributes) later⟩
      exact fun wrong => List.cons_ne_nil _ _ (List.infix_nil.mp wrong)
    · rw [if_neg raw]
      rw [Bool.not_eq_true] at raw
      cases void : isVoid tag with
      | true =>
        rw [childless (by rintro ⟨_, _, ⟨⟩, ordinary, _⟩; simp [void] at ordinary)]
        exact ⟨_, .single (.void named void attributes) later⟩
      | false => exact ⟨_, .element named void raw attributes below later⟩

/-- **A text is settled before a settled forest**, joined to the text at its start. -/
theorem settled_joined {inner : String} (nonempty : inner ≠ "") {rest : List Tree}
    {events : List Event} (later : Settled rest events) :
    ∃ found, Settled (joined (.node 0 (.text (escape inner)) []) rest) found := by
  have written : escape inner ≠ "" := by
    intro empty
    have blank := congrArg String.toList empty
    rw [escape, String.toList_ofList] at blank
    exact nonempty (String.toList_eq_nil_iff.mp (eq_nil_of_escapeCharacters blank))
  rcases joined_cases (.node 0 (.text (escape inner)) []) rest with
    ⟨first, id, second, below, others, same, rfl, whole⟩ | ⟨whole, apart⟩
  · obtain rfl : escape inner = first := Content.text.inj same
    rw [whole]
    cases later with
    | text _ plain next settled =>
      refine ⟨_, .text ?_ ?_ next settled⟩
      · intro empty
        exact written (String.append_eq_empty_iff.mp empty).1
      · rw [escape_string_append, escape_escape, plain]
    | single one _ => cases one
  · rw [whole]
    exact ⟨_, .text written (escape_escape inner) (apart ⟨_, rfl⟩) later⟩

/-- **What has been read is settled in its canonical form.** -/
theorem settled_canonicalAll {nodes : List Tree}
    (tidy : ∀ tree ∈ subtreesAll nodes, tree.content.Tidy ∧
      (tree.children ≠ [] → tree.content.Opens))
    (plain : ∀ tree ∈ subtreesAll nodes, tree.content.Plain) :
    ∃ found, Settled (canonicalAll nodes) found := by
  induction nodes using forestInduction with
  | nil => exact ⟨[], .nil⟩
  | cons id content children rest below later =>
    rw [subtreesAll_cons, List.forall_mem_cons, List.forall_mem_append] at tidy plain
    obtain ⟨⟨own, parent⟩, within, others⟩ := tidy
    obtain ⟨inside, settled⟩ := below within plain.2.1
    obtain ⟨events, behind⟩ := later others plain.2.2
    have empty : children = [] → canonicalAll children = [] := by
      rintro rfl
      rw [canonicalAll]
    rw [canonicalAll_cons]
    by_cases text : ∃ inner, content = .text inner
    · obtain ⟨inner, rfl⟩ := text
      have leaf : children = [] := by
        by_contra nonempty
        obtain ⟨_, _, wrong, _⟩ := parent nonempty
        cases wrong
      rw [empty leaf]
      exact settled_joined (fun same => own.nonempty (congrArg Content.text same)) behind
    · have structural : ∀ inner, content ≠ .text inner := fun inner same => text ⟨inner, same⟩
      rcases joined_cases (.node 0 content.canonical (canonicalAll children))
        (canonicalAll rest) with ⟨_, _, _, _, _, same, _⟩ | ⟨whole, _⟩
      · exact absurd (Content.text_of_canonical same) text
      · rw [whole]
        exact settled_cons own plain.1 structural
          (fun nonempty => parent fun leaf => nonempty (empty leaf)) settled behind

/-! ### The round trip -/

/-- **A canonical forest is written like the forest itself.** -/
theorem printAll_canonicalAll {nodes : List Tree}
    (tidy : ∀ tree ∈ subtreesAll nodes, tree.content.Tidy ∧
      (tree.children ≠ [] → tree.content.Opens))
    (plain : ∀ tree ∈ subtreesAll nodes, tree.content.Plain) :
    printAll (canonicalAll nodes) = printAll nodes := by
  induction nodes using forestInduction with
  | nil => rw [canonicalAll]
  | cons id content children rest below later =>
    rw [subtreesAll_cons, List.forall_mem_cons, List.forall_mem_append] at tidy plain
    obtain ⟨⟨_, parent⟩, within, others⟩ := tidy
    have values := attributesText_canonical fun entry member => (plain.1 entry member).2
    rw [canonicalAll_cons, printAll_joined, later others plain.2.2, printAll]
    refine congrArg (· ++ printAll rest) ?_
    cases content with
    | text inner => rw [Content.canonical, print, print, escape_escape]
    | comment inner => rw [Content.canonical, print, print, commentText_padded]
    | declaration inner => rw [Content.canonical, print, print]
    | raw tag attributes inner =>
      rw [Content.canonical, print, print, rawText, rawText, tagStart, tagStart]
      exact congrArg (fun written => "<" ++ tag ++ written ++ ">" ++ inner ++ tagEnd tag) values
    | element tag attributes =>
      have start : tagStart tag (attributes.map canonicalAttribute) = tagStart tag attributes :=
        congrArg (fun written => "<" ++ tag ++ written) values
      rw [Content.canonical]
      by_cases raw : isRawText tag = true
      · have leaf : children = [] := by
          by_contra nonempty
          obtain ⟨_, _, ⟨⟩, _, ordinary⟩ := parent nonempty
          simp [raw] at ordinary
        rw [if_pos raw, leaf, print, print, not_isVoid_of_isRawText raw, rawText, start, printAll]
        rfl
      · rw [if_neg raw, print, print, start, below within plain.2.1]

/-- **The text written for markup that has been read is read again**: the tree is the canonical form
of the one before, and it is written as the same text. -/
theorem parse_print {markup : String} {fragment : Fragment} (parsed : parse markup = .ok fragment)
    (plain : ∀ tree ∈ subtreesAll fragment.rootTrees, tree.content.Plain) :
    ∃ again, parse fragment.print = .ok again ∧
      shapeAll again.rootTrees = canonicalAll fragment.rootTrees ∧
      again.print = fragment.print := by
  have tidy := tidy_of_parse parsed
  have grown := grown_of_parse parsed
  obtain ⟨found, settled⟩ := settled_canonicalAll tidy plain
  have room : (subtreesAll (canonicalAll fragment.rootTrees)).length ≤ Fragment.capacity :=
    (length_subtreesAll_canonicalAll _).trans (grown.length_le.trans grown.size_le)
  have printed := printAll_canonicalAll tidy plain
  obtain ⟨again, parsedAgain, same⟩ := parse_of_settled settled room
  rw [printed] at parsedAgain
  rw [shapeAll_canonicalAll] at same
  refine ⟨again, parsedAgain, same, ?_⟩
  calc again.print = printAll (shapeAll again.rootTrees) := (printAll_shapeAll _).symm
    _ = printAll (canonicalAll fragment.rootTrees) := by rw [same]
    _ = fragment.print := printed

/-- A page with a stray end tag between texts, an attribute given twice, a stray equals sign, a
script that closes itself, style, an unclosed element, a comment and a declaration. -/
def lenientPage : String :=
  "<!DOCTYPE html><P A='\"<b>' a=2 ==x / c>1 < 2</i> > 0<!--x--><script src=s />" ++
    "<style>a > b</STYLE><br></p><e<f>"

/-- It is read, written and read again. -/
theorem parse_print_lenientPage : ∃ fragment again, parse lenientPage = .ok fragment ∧
    fragment.rootTrees.map Tree.content = [.declaration "!DOCTYPE html",
      .element "p" [("a", "\"<b>"), ("=", "x"), ("c", "")], .element "e<f" []] ∧
    parse fragment.print = .ok again ∧
    shapeAll again.rootTrees = [.node 0 (.declaration "!DOCTYPE html") [],
      .node 0 (.element "p" [("a", "&quot;&lt;b&gt;"), ("=", "x"), ("c", "")])
        [.node 0 (.text "1 &lt; 2 &gt; 0") [], .node 0 (.comment " x ") [],
          .node 0 (.raw "script" [("src", "s")] "") [], .node 0 (.raw "style" [] "a > b") [],
          .node 0 (.element "br" []) []],
      .node 0 (.element "e<f" []) []] ∧
    again.print = fragment.print := by
  have reads : ((parse lenientPage).toOption.any fun fragment : Fragment => decide (
      (∀ tree ∈ subtreesAll fragment.rootTrees, tree.content.Plain) ∧
      fragment.rootTrees.map Tree.content = [.declaration "!DOCTYPE html",
        .element "p" [("a", "\"<b>"), ("=", "x"), ("c", "")], .element "e<f" []] ∧
      canonicalAll fragment.rootTrees = [.node 0 (.declaration "!DOCTYPE html") [],
        .node 0 (.element "p" [("a", "&quot;&lt;b&gt;"), ("=", "x"), ("c", "")])
          [.node 0 (.text "1 &lt; 2 &gt; 0") [], .node 0 (.comment " x ") [],
            .node 0 (.raw "script" [("src", "s")] "") [], .node 0 (.raw "style" [] "a > b") [],
            .node 0 (.element "br" []) []],
        .node 0 (.element "e<f" []) []])) = true := by decide +kernel
  obtain ⟨fragment, parsed, tested⟩ := exists_of_parse_any reads
  obtain ⟨plain, roots, canonical⟩ := of_decide_eq_true tested
  obtain ⟨again, parsedAgain, same, printed⟩ := parse_print parsed plain
  exact ⟨fragment, again, parsed, roots, parsedAgain, same.trans canonical, printed⟩

end DataBind.Markup
