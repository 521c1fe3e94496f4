/-
**Forests that are read back as they are.**

A forest is settled if what is written for it is read as its own nodes: nothing in it is escaped or
trimmed, no two texts stand side by side, and raw text elements are not kept as elements. Reading
what is written for a settled forest and building the tree from the events gives the forest again,
but for its ids.

* `Settled`: a settled forest, and the events that it is read as;
* `scan_printAll`: what is written for a settled forest is read as these events;
* `Builder.Shows`: the trees of a builder, cut open at its open elements;
* `Builds`: events that add a forest to what is there; `Settled.builds`: those of a settled forest;
* `parse_of_builds`: a text that is read as such events is read as this forest;
* `parse_of_settled`: what is written for a settled forest is read as this forest.
-/

import DataBind.Proofs.Markup.Building
import DataBind.Proofs.Markup.Removal

namespace DataBind.Markup

open DataBind.Text DataBind.Markup.Tree

/-! ### Attributes -/

/-- Whether an attribute is read back as it is: its name is in lower case, and nothing in it is
escaped. -/
structure SettledAttribute (entry : Attribute) : Prop where
  readable : ReadableName entry.1
  plain : escapeCharacters entry.1.toList = entry.1.toList
  lower : asciiLower entry.1.toList = entry.1.toList
  value : entry.2.toList.flatMap escapeInAttribute = entry.2.toList

/-- Whether attributes are read back as they are: no name occurs twice. -/
structure SettledAttributes (attributes : List Attribute) : Prop where
  each : ∀ entry ∈ attributes, SettledAttribute entry
  distinct : (attributes.map Prod.fst).Nodup

/-- A settled attribute of a new name is added as it is. -/
theorem SettledAttribute.readTag_eq {entry : Attribute} (settled : SettledAttribute entry)
    {known : List Attribute} (new : entry.1 ∉ known.map Prod.fst) (rest : List Char) :
    readTag known ((attributeText entry.1 entry.2).toList ++ rest) =
      readTag (known ++ [entry]) rest := by
  have name : nameOf (escapeCharacters entry.1.toList) = entry.1 := by
    rw [settled.plain, nameOf, settled.lower, String.ofList_toList]
  rw [readTag_attributeText settled.readable, name, settled.value, String.ofList_toList, if_neg]
  simpa using new

/-- **Settled attributes are read back as they are.** -/
theorem readTag_attributesText {attributes known : List Attribute}
    (settled : ∀ entry ∈ attributes, SettledAttribute entry)
    (distinct : ((known ++ attributes).map Prod.fst).Nodup) (rest : List Char) :
    readTag known ((attributesText attributes).toList ++ rest) =
      readTag (known ++ attributes) rest := by
  induction attributes generalizing known with
  | nil => rw [List.append_nil]; rfl
  | cons entry others ih =>
    have new : entry.1 ∉ known.map Prod.fst := by
      rw [List.map_append, List.map_cons, List.nodup_append'] at distinct
      exact fun member => distinct.2.2 member List.mem_cons_self
    have shifted : known ++ entry :: others = known ++ [entry] ++ others := by simp
    rw [shifted] at distinct ⊢
    rw [attributesText_cons, String.toList_append, List.append_assoc,
      (settled entry List.mem_cons_self).readTag_eq new,
      ih (fun other member => settled other (List.mem_cons_of_mem _ member)) distinct]

theorem SettledAttributes.reads {attributes : List Attribute}
    (settled : SettledAttributes attributes) :
    ReadsAttributes (attributesText attributes) attributes where
  separated := by
    cases attributes with
    | nil => rintro c ⟨⟩
    | cons entry others =>
      rw [attributesText_cons]
      intro c found
      have start := head_attributeText entry.1 entry.2
      cases text : (attributeText entry.1 entry.2).toList with
      | nil =>
        rw [attributeText, String.toList_append, String.toList_append, String.toList_append] at text
        cases text
      | cons d rest =>
        rw [text] at start
        rw [String.toList_append, text] at found
        exact start c found
  reads := readTag_attributesText settled.each settled.distinct

/-! ### Settled forests -/

/-- **What is written for a node without children is one construct**, which is read as an event. -/
inductive Single : Content → Event → Prop
  | void {tag : String} {attributes : List Attribute} :
      ReadableTag tag → isVoid tag = true → SettledAttributes attributes →
      Single (.element tag attributes) (.opening tag attributes true)
  | comment {inner : String} :
      (Content.comment inner).Readable → " " ++ trimmed inner ++ " " = inner →
      Single (.comment inner) (.comment inner)
  | raw {tag : String} {attributes : List Attribute} {content : String} :
      (Content.raw tag attributes content).Readable → SettledAttributes attributes →
      Single (.raw tag attributes content) (.raw tag attributes content)
  | declaration {inner : String} :
      (Content.declaration inner).Readable → Single (.declaration inner) (.declaration inner)

/-- Whether a tree is a text. -/
def Tree.IsText (tree : Tree) : Prop :=
  ∃ inner, tree.content = .text inner

/-- **A settled forest, and the events that it is read as.** -/
inductive Settled : List Tree → List Event → Prop
  | nil : Settled [] []
  | text {id : NodeId} {inner : String} {rest : List Tree} {events : List Event} :
      inner ≠ "" → escape inner = inner → (∀ next ∈ rest.head?, ¬ next.IsText) →
      Settled rest events → Settled (.node id (.text inner) [] :: rest) (.text inner :: events)
  | single {id : NodeId} {content : Content} {event : Event} {rest : List Tree}
      {events : List Event} :
      Single content event → Settled rest events →
      Settled (.node id content [] :: rest) (event :: events)
  | element {id : NodeId} {tag : String} {attributes : List Attribute} {children rest : List Tree}
      {inner events : List Event} :
      ReadableTag tag → isVoid tag = false → isRawText tag = false →
      SettledAttributes attributes → Settled children inner → Settled rest events →
      Settled (.node id (.element tag attributes) children :: rest)
        (.opening tag attributes false :: (inner ++ .closing tag :: events))

theorem Single.constructs {content : Content} {event : Event} (single : Single content event)
    (id : NodeId) : Constructs (Tree.print (.node id content [])) event := by
  cases single with
  | void named void settled =>
    rw [Tree.print, if_pos void]
    exact constructs_voidTag named settled.reads (Or.inl rfl)
  | comment readable padded =>
    have construct := constructs_commentText readable
    rw [padded] at construct
    rw [Tree.print]
    exact construct
  | raw readable settled =>
    obtain ⟨named, _, raw, absent⟩ := readable
    rw [Tree.print]
    exact constructs_rawElement named raw settled.reads absent
  | declaration readable =>
    rw [Tree.print]
    exact constructs_declarationText readable

/-! ### Reading -/

/-- **Text before the rest ends there.** -/
def Breaks (rest : List Char) : Prop :=
  ∀ finish pending, scan finish pending rest =
    (pendingText pending ++ (scan finish [] rest).1, (scan finish [] rest).2)

theorem breaks_nil : Breaks [] := by
  intro finish pending
  rw [scan_nil, scan_nil]
  exact congrArg (·, none) (List.append_nil _).symm

theorem Constructs.breaks {text : String} {event : Event} (constructs : Constructs text event)
    (rest : List Char) : Breaks (text.toList ++ rest) := by
  intro finish pending
  rw [constructs.scan_eq, constructs.scan_eq finish []]
  rfl

/-- The start tag of a settled element is a construct. -/
theorem constructs_tagStart {tag : String} {attributes : List Attribute} (named : ReadableTag tag)
    (ordinary : isRawText tag = false) (settled : SettledAttributes attributes) :
    Constructs (tagStart tag attributes ++ ">") (.opening tag attributes false) :=
  constructs_startTag named ordinary settled.reads

/-- An element is written as its tags with its children between them. -/
theorem printAll_element {tag : String} (ordinary : isVoid tag = false) (id : NodeId)
    (attributes : List Attribute) (children others : List Tree) (rest : List Char) :
    (printAll (.node id (.element tag attributes) children :: others)).toList ++ rest =
      (tagStart tag attributes ++ ">").toList ++ ((printAll children).toList ++
        ((tagEnd tag).toList ++ ((printAll others).toList ++ rest))) := by
  rw [printAll, print, if_neg (by simp [ordinary])]
  simp only [String.toList_append, List.append_assoc]

/-- Text ends where a settled forest starts, unless it starts with text. -/
theorem Settled.breaks {nodes : List Tree} {events : List Event} (settled : Settled nodes events)
    (first : ∀ next ∈ nodes.head?, ¬ next.IsText) {rest : List Char} (breaks : Breaks rest) :
    Breaks ((printAll nodes).toList ++ rest) := by
  cases settled with
  | nil => exact breaks
  | text _ _ _ _ => exact absurd ⟨_, rfl⟩ (first _ rfl)
  | single one _ =>
    rw [printAll, String.toList_append, List.append_assoc]
    exact (one.constructs _).breaks _
  | element named ordinary raw attributes _ _ =>
    rw [printAll_element ordinary]
    exact (constructs_tagStart named raw attributes).breaks _

/-- Characters other than an opening angle bracket are text. -/
theorem scan_append_of_not_mem {text : List Char} (plain : '<' ∉ text) (finish : Nat)
    (pending rest : List Char) :
    scan finish pending (text ++ rest) = scan finish (text.reverse ++ pending) rest := by
  induction text generalizing pending with
  | nil => rfl
  | cons c others ih =>
    rw [List.mem_cons, not_or] at plain
    rw [List.cons_append, scan_other finish pending (Ne.symm plain.1), ih plain.2,
      List.reverse_cons, List.append_assoc, List.singleton_append]

/-- **What is written for a settled forest is read as its events**, where text ends behind it. -/
theorem Settled.scan_printAll {nodes : List Tree} {events : List Event}
    (settled : Settled nodes events) (finish : Nat) {rest : List Char} (breaks : Breaks rest) :
    scan finish [] ((printAll nodes).toList ++ rest) =
      (events ++ (scan finish [] rest).1, (scan finish [] rest).2) := by
  induction settled generalizing rest with
  | nil => rfl
  | @text id inner others events nonempty plain next settled ih =>
    have angle : '<' ∉ inner.toList := by
      rw [← plain, escape, String.toList_ofList]
      exact (not_mem_escape _).1
    have characters : ¬ inner.toList.reverse.isEmpty = true := by
      rw [List.isEmpty_reverse, List.isEmpty_iff, String.toList_eq_nil_iff]
      exact nonempty
    rw [printAll, print, plain, String.toList_append, List.append_assoc,
      scan_append_of_not_mem angle, List.append_nil, settled.breaks next breaks, ih breaks,
      pendingText, if_neg characters, List.reverse_reverse, String.ofList_toList]
    rfl
  | single one _ ih =>
    rw [printAll, String.toList_append, List.append_assoc, (one.constructs _).scan_eq, ih breaks]
    rfl
  | element named ordinary raw attributes _ settled inside ih =>
    have ended := constructs_tagEnd named
    rw [printAll_element ordinary, (constructs_tagStart named raw attributes).scan_eq,
      inside (ended.breaks _), ended.scan_eq, ih breaks]
    simp [pendingText]

/-- What is written for a settled forest is read as its events. -/
theorem Settled.events_printAll {nodes : List Tree} {found : List Event}
    (settled : Settled nodes found) : events (printAll nodes) = (found, none) := by
  have whole := settled.scan_printAll (byteLength (printAll nodes).toList) breaks_nil
  rw [List.append_nil, scan_nil] at whole
  rw [events, whole]
  exact congrArg (·, none) (List.append_nil _)

/-! ### Building -/

/-- Ids are not written. -/
theorem Tree.printAll_shapeAll (nodes : List Tree) :
    printAll (shapeAll nodes) = printAll nodes := by
  induction nodes using forestInduction with
  | nil => rw [shapeAll]
  | cons id content children rest below later =>
    rw [shapeAll, shape, printAll, printAll, later]
    cases content with
    | element tag attributes => rw [print, print, below]
    | text _ => rw [print, print]
    | comment _ => rw [print, print]
    | raw _ _ _ => rw [print, print]
    | declaration _ => rw [print, print]

/-- An open element, with the siblings before it. -/
structure Layer where
  before : List Tree
  tag : String
  attributes : List Attribute

/-- The forest in which open elements, outermost first, have `inner` in the innermost one. -/
def plug : List Layer → List Tree → List Tree
  | [], inner => inner
  | ⟨before, tag, attributes⟩ :: deeper, inner =>
    before ++ [.node 0 (.element tag attributes) (plug deeper inner)]

theorem plug_append (outer deeper : List Layer) (inner : List Tree) :
    plug (outer ++ deeper) inner = plug outer (plug deeper inner) := by
  induction outer with
  | nil => rfl
  | cons layer rest ih =>
    obtain ⟨before, tag, attributes⟩ := layer
    rw [List.cons_append, plug, ih, plug]

/-- **Placing a node in the innermost open element puts it behind what is there.** -/
theorem shapeAll_place {nodes : List Tree} {path : List (NodeId × String)}
    (spine : Spine nodes path) (distinct : Distinct nodes) {layers : List Layer}
    {inner : List Tree} (shown : shapeAll nodes = plug layers inner)
    (depth : path.length = layers.length) (new : Tree) :
    shapeAll (place new nodes (innermost path)) = plug layers (inner ++ [shape new]) := by
  induction path generalizing nodes layers with
  | nil =>
    obtain rfl : layers = [] := List.eq_nil_of_length_eq_zero depth.symm
    show shapeAll (nodes ++ [new]) = inner ++ [shape new]
    rw [shapeAll_append, shown]
    rfl
  | cons outer deeper ih =>
    obtain ⟨own, tag⟩ := outer
    obtain ⟨front, attributes, children, rfl, below⟩ := spine
    cases layers with
    | nil => cases depth
    | cons layer rest =>
      obtain ⟨before, name, entries⟩ := layer
      rw [shapeAll_append] at shown
      obtain ⟨fronts, last⟩ := List.append_inj' shown rfl
      rw [shapeAll, shapeAll, shape] at last
      injection last with head _
      injection head with _ contents inside
      have placed := ih below distinct.append.2.1.cons.2.2.1 inside (Nat.succ.inj depth)
      rw [place_concat distinct below, shapeAll_append, fronts, shapeAll, shapeAll,
        shape, placed, contents]
      rfl

namespace Builder

/-- **The trees of a builder, cut open at its open elements**: these with what stands before each of
them, outermost first, and what is in the innermost one. -/
structure Shows (builder : Builder) (layers : List Layer) (inner : List Tree) : Prop where
  sound : builder.Sound
  trees : shapeAll builder.fragment.rootTrees = plug layers inner
  unclosed : builder.unclosed.reverse.map Prod.snd = layers.map Layer.tag

variable {builder : Builder} {layers : List Layer} {inner : List Tree}

/-- **A node is added behind what is in the innermost open element**, as long as there are ids. -/
theorem Shows.add_content (shows : builder.Shows layers inner) {event : Event} {content : Content}
    (adds : event.content? = some content) (room : builder.fragment.size < Fragment.capacity) :
    ∃ next, builder.add event = .ok next ∧ next.Sound ∧
      next.fragment.size ≤ builder.fragment.size + 1 ∧
      next.unclosed = unclosedAfter builder.fragment.size builder.unclosed event ∧
      shapeAll next.fragment.rootTrees = plug layers (inner ++ [.node 0 content []]) := by
  rcases shows.sound.add_cases event with ⟨full, _⟩ | ⟨next, added, sound, size, unclosed, trees⟩
  · exact absurd full (Nat.not_le_of_lt room)
  · have depth : builder.unclosed.reverse.length = layers.length := by
      have lengths := congrArg List.length shows.unclosed
      rwa [List.length_map, List.length_map] at lengths
    refine ⟨next, added, sound, size, unclosed, ?_⟩
    rw [trees, treesAfter, adds]
    exact shapeAll_place shows.sound.spine shows.sound.grown.distinct shows.trees depth _

/-- The event of a node that stays closed adds this node. -/
theorem Shows.add_closed (shows : builder.Shows layers inner) {event : Event} {content : Content}
    (adds : event.content? = some content)
    (closed : ∀ new, unclosedAfter new builder.unclosed event = builder.unclosed)
    (room : builder.fragment.size < Fragment.capacity) :
    ∃ next, builder.add event = .ok next ∧
      next.fragment.size ≤ builder.fragment.size + 1 ∧
      next.Shows layers (inner ++ [.node 0 content []]) := by
  obtain ⟨next, added, sound, size, unclosed, trees⟩ := shows.add_content adds room
  refine ⟨next, added, size, sound, trees, ?_⟩
  rw [unclosed, closed]
  exact shows.unclosed

/-- **A start tag opens an empty element.** -/
theorem Shows.add_opening (shows : builder.Shows layers inner) {tag : String}
    (ordinary : isVoid tag = false) (attributes : List Attribute)
    (room : builder.fragment.size < Fragment.capacity) :
    ∃ next, builder.add (.opening tag attributes false) = .ok next ∧
      next.fragment.size ≤ builder.fragment.size + 1 ∧
      next.Shows (layers ++ [⟨inner, tag, attributes⟩]) [] := by
  have adds : (Event.opening tag attributes false).content? = some (.element tag attributes) := rfl
  obtain ⟨next, added, sound, size, unclosed, trees⟩ := shows.add_content adds room
  refine ⟨next, added, size, sound, ?_, ?_⟩
  · rw [trees, plug_append]
    rfl
  · rw [unclosed, unclosedAfter, if_neg (by simp [ordinary]), List.reverse_cons, List.map_append,
      List.map_append, shows.unclosed]
    rfl

/-- **An end tag closes the innermost open element, if it has the same name.** -/
theorem Shows.add_closing {before : List Tree} {tag : String} {attributes : List Attribute}
    (shows : builder.Shows (layers ++ [⟨before, tag, attributes⟩]) inner) :
    ∃ next, builder.add (.closing tag) = .ok next ∧
      next.fragment.size = builder.fragment.size ∧
      next.Shows layers (before ++ [.node 0 (.element tag attributes) inner]) := by
  obtain ⟨fragment, unclosed⟩ := builder
  have names := shows.unclosed
  have trees := shows.trees
  rw [plug_append] at trees
  rw [List.map_append] at names
  simp only at names
  cases unclosed with
  | nil => cases (List.append_eq_nil_iff.mp names.symm).2
  | cons last outer =>
    rw [List.reverse_cons, List.map_append] at names
    obtain ⟨others, same⟩ := List.append_inj' names rfl
    have innermost : last.2 = tag := (List.cons.inj same).1
    have closed : close tag (last :: outer) = outer := by
      rw [close, List.dropWhile_cons_of_neg (by simp [innermost])]
    rcases shows.sound.add_cases (.closing tag) with ⟨_, failed⟩ | ⟨next, added, sound, _⟩
    · cases failed
    · cases added
      refine ⟨_, rfl, rfl, sound, trees, ?_⟩
      show (close tag (last :: outer)).reverse.map Prod.snd = _
      rw [closed]
      exact others

end Builder

/-- **Events add a forest** of a number of nodes behind what is in the innermost open element of
every builder that has ids for them. -/
def Builds (events : List Event) (count : Nat) (nodes : List Tree) : Prop :=
  ∀ (builder : Builder) (layers : List Layer) (inner : List Tree), builder.Shows layers inner →
    builder.fragment.size + count ≤ Fragment.capacity →
    ∃ next, events.foldlM Builder.add builder = .ok next ∧
      next.fragment.size ≤ builder.fragment.size + count ∧
      next.Shows layers (inner ++ nodes)

namespace Builds

variable {events others : List Event} {count more : Nat} {nodes last : List Tree}

theorem nil : Builds [] 0 [] := by
  intro builder layers inner shows _
  refine ⟨builder, rfl, Nat.le_refl _, ?_⟩
  rw [List.append_nil]
  exact shows

theorem append (first : Builds events count nodes) (second : Builds others more last) :
    Builds (events ++ others) (count + more) (nodes ++ last) := by
  intro builder layers inner shows room
  obtain ⟨middle, built, size, here⟩ := first builder layers inner shows (by omega)
  obtain ⟨next, done, grown, final⟩ := second middle layers _ here (by omega)
  refine ⟨next, ?_, by omega, ?_⟩
  · rw [List.foldlM_append, built]
    exact done
  · rw [← List.append_assoc]
    exact final

/-- A node without children is added by one event. -/
theorem of_content {event : Event} {content : Content} (adds : event.content? = some content)
    (closed : ∀ new unclosed, Builder.unclosedAfter new unclosed event = unclosed) :
    Builds [event] 1 [.node 0 content []] := by
  intro builder layers inner shows room
  obtain ⟨next, added, size, final⟩ :=
    shows.add_closed adds (fun new => closed new _) (Nat.lt_of_succ_le room)
  refine ⟨next, ?_, size, final⟩
  rw [List.foldlM_cons, added]
  rfl

/-- **An element is added by its tags with the events of its children between them.** -/
theorem element {tag : String} (ordinary : isVoid tag = false) (attributes : List Attribute)
    (children : Builds events count nodes) :
    Builds (.opening tag attributes false :: (events ++ [Event.closing tag])) (count + 1)
      [.node 0 (.element tag attributes) nodes] := by
  intro builder layers inner shows room
  obtain ⟨opened, opens, size, start⟩ := shows.add_opening ordinary attributes (by omega)
  obtain ⟨middle, built, grown, filled⟩ := children opened _ _ start (by omega)
  obtain ⟨next, closes, same, final⟩ := filled.add_closing
  refine ⟨next, ?_, by omega, final⟩
  rw [List.foldlM_cons, opens]
  show (events ++ [Event.closing tag]).foldlM Builder.add opened = _
  rw [List.foldlM_append, built]
  show [Event.closing tag].foldlM Builder.add middle = _
  rw [List.foldlM_cons, closes]
  rfl

end Builds

theorem Single.builds {content : Content} {event : Event} (single : Single content event) :
    Builds [event] 1 [.node 0 content []] := by
  cases single with
  | void _ _ _ => exact .of_content rfl fun _ _ => rfl
  | comment _ _ => exact .of_content rfl fun _ _ => rfl
  | raw _ _ => exact .of_content rfl fun _ _ => rfl
  | declaration _ => exact .of_content rfl fun _ _ => rfl

/-- **The events of a settled forest add this forest.** -/
theorem Settled.builds {nodes : List Tree} {events : List Event} (settled : Settled nodes events) :
    Builds events (subtreesAll nodes).length (shapeAll nodes) := by
  have count : ∀ (id : NodeId) (content : Content) (children rest : List Tree),
      (subtreesAll (.node id content children :: rest)).length =
        (subtreesAll children).length + 1 + (subtreesAll rest).length := by
    intro id content children rest
    rw [subtreesAll_cons, List.length_cons, List.length_append]
    exact Nat.add_right_comm _ _ 1
  induction settled with
  | nil => exact .nil
  | text _ _ _ _ ih =>
    rw [count]
    exact Builds.append (.of_content rfl fun _ _ => rfl) ih
  | single one _ ih =>
    rw [count]
    exact one.builds.append ih
  | @element _ tag attributes _ _ inner events _ ordinary _ _ _ _ inside ih =>
    have split : Event.opening tag attributes false :: (inner ++ .closing tag :: events) =
        Event.opening tag attributes false :: (inner ++ [.closing tag]) ++ events := by simp
    rw [count, split]
    exact (Builds.element ordinary attributes inside).append ih

/-- A text that is read as events which add a forest is read as this forest, but for its ids. -/
theorem parse_of_builds {text : String} {found : List Event} {count : Nat} {nodes : List Tree}
    (read : events text = (found, none)) (builds : Builds found count nodes)
    (room : count ≤ Fragment.capacity) :
    ∃ fragment, parse text = .ok fragment ∧ shapeAll fragment.rootTrees = nodes := by
  have start : Builder.empty.Shows [] [] := ⟨⟨.empty, trivial⟩, rfl, rfl⟩
  have size : Builder.empty.fragment.size = 0 := rfl
  obtain ⟨builder, built, _, shows⟩ := builds _ _ _ start (by omega)
  refine ⟨builder.fragment, ?_, shows.trees⟩
  rw [parse, read]
  simp only [built]

/-- **What is written for a settled forest is read as this forest**, but for its ids. -/
theorem parse_of_settled {nodes : List Tree} {found : List Event} (settled : Settled nodes found)
    (room : (subtreesAll nodes).length ≤ Fragment.capacity) :
    ∃ fragment, parse (printAll nodes) = .ok fragment ∧
      shapeAll fragment.rootTrees = shapeAll nodes :=
  parse_of_builds settled.events_printAll settled.builds room

end DataBind.Markup
