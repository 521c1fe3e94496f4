/-
**Inserted markup stays inside of its element.**

Markup from the data is read and written again before it is inserted. What is written for it ends
every construct and closes every element that it starts, whatever the data says: read again in any
surroundings, it adds whole nodes behind what is in the innermost open element.

* `Whole`: a text is read as events that add a forest, wherever text ends behind it;
* `Whole.construct`, `Whole.element`: one more construct or element in front of such a text;
* `exists_whole`: what is written for readable nodes is such a text;
* `EnclosedIn`: markup between the tags of an element is all that is in this element;
* `parse_between`: so is what is written for readable nodes;
* `inserted_enclosed`: and therefore what is inserted, if the data can be read at all.
-/

import DataBind.Proofs.Markup.Forest
import DataBind.Template.Render

namespace DataBind.Markup

open DataBind.Text DataBind.Markup.Tree

/-! ### Texts that are whole -/

/-- **A text behind pending text is read as events that add a forest**, wherever text ends behind
it. -/
structure Whole (pending text : List Char) (found : List Event) (nodes : List Tree) : Prop where
  builds : Builds found (Event.nodeCount found) nodes
  scans : ∀ finish rest, Breaks rest → scan finish pending (text ++ rest) =
    (found ++ (scan finish [] rest).1, (scan finish [] rest).2)

/-- Pending text adds one text, or nothing. -/
theorem exists_builds_pendingText (pending : List Char) :
    ∃ nodes, Builds (pendingText pending) (Event.nodeCount (pendingText pending)) nodes := by
  unfold pendingText
  split
  · exact ⟨[], .nil⟩
  · exact ⟨_, .of_content rfl fun _ _ => rfl⟩

theorem nodeCount_pendingText (pending : List Char) : Event.nodeCount (pendingText pending) ≤ 1 := by
  unfold pendingText
  split
  · exact Nat.zero_le 1
  · exact Nat.le_refl 1

/-- An element adds one node more than what is in it. -/
theorem nodeCount_element (tag : String) (attributes : List Attribute) (found others : List Event) :
    Event.nodeCount (.opening tag attributes false :: (found ++ .closing tag :: others)) =
      Event.nodeCount found + 1 + Event.nodeCount others := by
  rw [Event.nodeCount_cons, Event.nodeCount_append, Event.nodeCount_cons]
  simp only [Event.content?, Option.toList_some, Option.toList_none, List.length_singleton,
    List.length_nil]
  omega

namespace Whole

variable {text rest : List Char} {found others : List Event} {nodes last : List Tree}

theorem nil : Whole [] [] [] [] :=
  ⟨.nil, fun _ _ _ => rfl⟩

/-- A construct that adds a closed node stands before a whole text. -/
theorem construct {start : String} {event : Event} {content : Content}
    (constructs : Constructs start event) (adds : event.content? = some content)
    (closed : ∀ new unclosed, Builder.unclosedAfter new unclosed event = unclosed)
    (later : Whole [] rest others last) :
    Whole [] (start.toList ++ rest) (event :: others) (.node 0 content [] :: last) where
  builds := by
    rw [Event.nodeCount_cons, adds]
    exact (Builds.of_content adds closed).append later.builds
  scans finish behind ends := by
    rw [List.append_assoc, constructs.scan_eq, later.scans finish behind ends]
    rfl

/-- **An element with a whole text inside** stands before a whole text. -/
theorem element {start tag : String} {attributes : List Attribute}
    (opens : Constructs start (.opening tag attributes false))
    (closes : Constructs (tagEnd tag) (.closing tag)) (ordinary : isVoid tag = false)
    (inside : Whole [] text found nodes) (later : Whole [] rest others last) :
    Whole [] (start.toList ++ (text ++ ((tagEnd tag).toList ++ rest)))
      (.opening tag attributes false :: (found ++ .closing tag :: others))
      (.node 0 (.element tag attributes) nodes :: last) where
  builds := by
    have split : Event.opening tag attributes false :: (found ++ .closing tag :: others) =
        Event.opening tag attributes false :: (found ++ [.closing tag]) ++ others := by simp
    rw [nodeCount_element, split]
    exact (inside.builds.element ordinary attributes).append later.builds
  scans finish behind ends := by
    rw [List.append_assoc, List.append_assoc, List.append_assoc, opens.scan_eq,
      inside.scans finish _ (closes.breaks _), closes.scan_eq, later.scans finish behind ends]
    simp [pendingText]

/-- Pending text before a whole text is a text of its own, if it ends there. -/
theorem behind (whole : Whole [] text found nodes) (breaks : ∀ rest, Breaks (text ++ rest))
    (pending : List Char) : ∃ all, Whole pending text (pendingText pending ++ found) all := by
  obtain ⟨before, builds⟩ := exists_builds_pendingText pending
  refine ⟨before ++ nodes, ?_, fun finish rest ends => ?_⟩
  · rw [Event.nodeCount_append]
    exact builds.append whole.builds
  · rw [breaks rest finish pending, whole.scans finish rest ends, List.append_assoc]

end Whole

/-- Text ends before what starts with a construct. -/
theorem Constructs.breaks_append {start : String} {event : Event}
    (constructs : Constructs start event) (text rest : List Char) :
    Breaks (start.toList ++ text ++ rest) := by
  rw [List.append_assoc]
  exact constructs.breaks _

/-! ### What is written for readable nodes -/

/-- What is written for the attributes of a readable node is read as attributes. -/
theorem exists_readsAttributes {attributes : List Attribute}
    (readable : ∀ entry ∈ attributes, ReadableName entry.1) :
    ∃ found, ReadsAttributes (attributesText attributes) found := by
  obtain ⟨found, _, reads⟩ := (readsNames_attributesText readable).attributes
  exact ⟨found, reads⟩

/-- **A readable node other than a text and an element with an inside** is written as one construct,
which adds a closed node. -/
theorem Tree.Readable.constructs {tree : Tree} (readable : tree.Readable)
    (structural : ¬ tree.IsText) (closed : ¬ tree.content.Opens) :
    ∃ event content, Constructs tree.print event ∧ event.content? = some content ∧
      ∀ new unclosed, Builder.unclosedAfter new unclosed event = unclosed := by
  obtain ⟨good, childless⟩ := readable
  obtain ⟨own, content, children⟩ := tree
  cases content with
  | text inner => exact absurd ⟨inner, rfl⟩ structural
  | comment inner =>
    rw [print]
    exact ⟨_, _, constructs_commentText good, rfl, fun _ _ => rfl⟩
  | declaration inner =>
    rw [print]
    exact ⟨_, _, constructs_declarationText good, rfl, fun _ _ => rfl⟩
  | raw tag attributes inner =>
    obtain ⟨named, names, raw, absent⟩ := good
    obtain ⟨found, reads⟩ := exists_readsAttributes names
    rw [print]
    exact ⟨_, _, constructs_rawElement named raw reads absent, rfl, fun _ _ => rfl⟩
  | element tag attributes =>
    obtain ⟨named, names⟩ := good
    obtain ⟨found, reads⟩ := exists_readsAttributes names
    rw [print]
    cases void : isVoid tag with
    | true =>
      rw [if_pos rfl]
      exact ⟨_, _, constructs_voidTag named reads (Or.inl rfl), rfl, fun _ _ => rfl⟩
    | false =>
      cases raw : isRawText tag with
      | false => exact absurd ⟨tag, attributes, rfl, void, raw⟩ closed
      | true =>
        -- a raw text element that closed itself gets an end tag, and is empty
        have empty : ¬ ('<' :: '/' :: tag.toList) <:+: asciiLower "".toList :=
          fun wrong => List.cons_ne_nil _ _ (List.infix_nil.mp wrong)
        obtain rfl : children = [] := childless tag attributes rfl raw
        rw [if_neg (by decide), printAll]
        exact ⟨_, _, constructs_rawElement named raw reads empty, rfl, fun _ _ => rfl⟩

/-- **What is written for readable nodes is whole**, and adds as many nodes at most. -/
theorem exists_whole {nodes : List Tree} (readable : ReadableAll nodes) (pending : List Char) :
    ∃ found all, Whole pending (printAll nodes).toList found all ∧
      Event.nodeCount found ≤
        Event.nodeCount (pendingText pending) + (subtreesAll nodes).length := by
  induction nodes using forestInduction generalizing pending with
  | nil =>
    obtain ⟨all, builds⟩ := exists_builds_pendingText pending
    exact ⟨_, all, ⟨builds, fun finish rest ends => ends finish pending⟩, Nat.le_add_right _ _⟩
  | cons id content children rest below later =>
    obtain ⟨own, within, others⟩ := readableAll_cons.mp readable
    have total : (subtreesAll (.node id content children :: rest)).length =
        (subtreesAll children).length + 1 + (subtreesAll rest).length := by
      rw [subtreesAll_cons, List.length_cons, List.length_append]
      exact Nat.add_right_comm _ _ 1
    rw [total]
    by_cases text : ∃ inner, content = .text inner
    · -- the text goes on until a construct or the end of what is written
      obtain ⟨inner, rfl⟩ := text
      have plain : '<' ∉ (escape inner).toList := by
        rw [escape, String.toList_ofList]
        exact (not_mem_escape _).1
      obtain ⟨found, all, whole, count⟩ := later others ((escape inner).toList.reverse ++ pending)
      refine ⟨found, all, ⟨whole.builds, fun finish behind ends => ?_⟩, ?_⟩
      · rw [printAll, print, String.toList_append, List.append_assoc,
          scan_append_of_not_mem plain, whole.scans finish behind ends]
      · have one := nodeCount_pendingText ((escape inner).toList.reverse ++ pending)
        omega
    · have none : Event.nodeCount (pendingText []) = 0 := rfl
      obtain ⟨events, last, after, countAfter⟩ := later others []
      by_cases opens : content.Opens
      · obtain ⟨tag, attributes, rfl, ordinary, raw⟩ := opens
        obtain ⟨named, names⟩ := own.content
        obtain ⟨entries, reads⟩ := exists_readsAttributes names
        obtain ⟨found, inner, inside, countInside⟩ := below within []
        have start := constructs_startTag named raw reads
        have written := printAll_element ordinary id attributes children rest []
        rw [List.append_nil, List.append_nil] at written
        have whole := Whole.element start (constructs_tagEnd named) ordinary inside after
        obtain ⟨nodes, all⟩ := whole.behind (start.breaks_append _) pending
        refine ⟨_, nodes, written ▸ all, ?_⟩
        rw [Event.nodeCount_append, nodeCount_element]
        omega
      · obtain ⟨event, added, constructs, adds, closed⟩ := own.constructs text opens
        have whole := Whole.construct constructs adds closed after
        obtain ⟨nodes, all⟩ := whole.behind (constructs.breaks_append _) pending
        refine ⟨pendingText pending ++ event :: events, nodes, ?_, ?_⟩
        · rw [printAll, String.toList_append]
          exact all
        · rw [Event.nodeCount_append, Event.nodeCount_cons, adds, Option.toList_some,
            List.length_singleton]
          omega

/-! ### Markup between tags -/

/-- Markup between the tags of an element. -/
def between (tag inner : String) : String :=
  "<" ++ tag ++ ">" ++ inner ++ "</" ++ tag ++ ">"

/-- **Markup between the tags of an element is all that is in this element**: it is read as one
element, with nothing around it, which contains what the markup is read as on its own. -/
def EnclosedIn (tag inner : String) : Prop :=
  ∃ whole alone own children, parse (between tag inner) = .ok whole ∧
    whole.rootTrees = [.node own (.element tag []) children] ∧
    parse inner = .ok alone ∧ shapeAll children = shapeAll alone.rootTrees

/-- A whole text is read as its events. -/
theorem Whole.events_eq {text : String} {found : List Event} {nodes : List Tree}
    (whole : Whole [] text.toList found nodes) : events text = (found, none) := by
  have scanned := whole.scans (byteLength text.toList) [] breaks_nil
  rw [List.append_nil, scan_nil] at scanned
  rw [events, scanned]
  exact congrArg (·, none) (List.append_nil _)

/-- A forest of the shape of one node is one node. -/
theorem exists_of_shapeAll_eq_singleton {nodes inner : List Tree} {content : Content}
    (same : shapeAll nodes = [.node 0 content inner]) :
    ∃ own children, nodes = [.node own content children] ∧ shapeAll children = inner := by
  rw [shapeAll_eq_map, List.map_eq_singleton_iff] at same
  obtain ⟨⟨own, other, children⟩, rfl, same⟩ := same
  rw [shape] at same
  cases same
  exact ⟨own, children, rfl, rfl⟩

/-- **What is written for readable nodes stays between the tags of an element**, unless it has as
many nodes as there are ids. -/
theorem parse_between {nodes : List Tree} (readable : ReadableAll nodes) {tag : String}
    (named : ReadableTag tag) (ordinary : isVoid tag = false) (raw : isRawText tag = false) :
    EnclosedIn tag (printAll nodes) ∨
      parse (between tag (printAll nodes)) = .error (.tree .tooManyNodes) ∧
        Fragment.capacity ≤ (subtreesAll nodes).length := by
  obtain ⟨found, inner, inside, few⟩ := exists_whole readable []
  have none : Event.nodeCount (pendingText []) = 0 := rfl
  rw [none, Nat.zero_add] at few
  have text : (between tag (printAll nodes)).toList = ("<" ++ tag ++ "" ++ ">").toList ++
      ((printAll nodes).toList ++ ((tagEnd tag).toList ++ [])) := by
    simp [between, tagEnd]
  have bare : ReadsAttributes "" [] := ⟨fun _ found => (by cases found), fun _ => rfl⟩
  have start := constructs_startTag named raw bare
  have whole := Whole.element start (constructs_tagEnd named) ordinary inside .nil
  rw [← text] at whole
  have count := nodeCount_element tag [] found []
  by_cases room : Event.nodeCount found + 1 ≤ Fragment.capacity
  · left
    obtain ⟨alone, readAlone, shape⟩ := parse_of_builds inside.events_eq inside.builds (by omega)
    obtain ⟨fragment, readWhole, shapes⟩ :=
      parse_of_builds whole.events_eq whole.builds (count.trans_le room)
    obtain ⟨own, children, root, same⟩ := exists_of_shapeAll_eq_singleton shapes
    exact ⟨fragment, alone, own, children, readWhole, root, readAlone, same.trans shape.symm⟩
  · right
    have many : Event.nodeCount found + 1 = nodeCount (between tag (printAll nodes)) := by
      rw [nodeCount, whole.events_eq, count]
      rfl
    rcases parse_cases (between tag (printAll nodes)) with
      ⟨_, failed⟩ | ⟨error, ended, _⟩ | ⟨_, fragment, parsed, size, _⟩
    · exact ⟨failed, by omega⟩
    · rw [whole.events_eq] at ended
      cases ended
    · have fits := (grown_of_parse parsed).size_le
      exact absurd (many.trans_le (size ▸ fits)) room

/-! ### Known elements -/

/-- Whether characters in lower case make the name of a tag. -/
def isTagName : List Char → Bool
  | [] => false
  | c :: rest => c.isAlpha && (c :: rest).all fun d => isTagNameCharacter d && d.toLower == d

theorem readableTag_of_isTagName {tag : String} (name : isTagName tag.toList = true) :
    ReadableTag tag := by
  cases characters : tag.toList with
  | nil =>
    rw [characters] at name
    cases name
  | cons c rest =>
    rw [characters, isTagName, Bool.and_eq_true, List.all_eq_true] at name
    obtain ⟨alpha, each⟩ := name
    have both : ∀ d ∈ tag.toList, isTagNameCharacter d = true ∧ d.toLower = d := by
      intro d member
      simpa using each d (characters ▸ member)
    refine ⟨⟨c, rest, characters, alpha⟩, fun d member => (both d member).1, ?_⟩
    rw [asciiLower, List.map_congr_left fun d member => (both d member).2, List.map_id']

/-- The names of known elements are read again. -/
theorem readableTag_of_tagInfo? {tag : String} {info : TagInfo} (known : tagInfo? tag = some info) :
    ReadableTag tag := by
  have all : (knownTags.all fun info => isTagName info.name.toList) = true := by decide +kernel
  obtain rfl : info.name = tag := by simpa using List.find?_some known
  exact readableTag_of_isTagName (List.all_eq_true.mp all info (List.mem_of_find?_eq_some known))

/-- What is known about an element is whether it is void and whether its content is raw text. -/
theorem kind_of_tagInfo? {tag : String} {info : TagInfo} (known : tagInfo? tag = some info) :
    isVoid tag = !info.hasEndTag ∧ isRawText tag = info.isRawText := by
  have all : (knownTags.all fun info =>
      isVoid info.name == !info.hasEndTag && isRawText info.name == info.isRawText) = true := by
    decide +kernel
  obtain rfl : info.name = tag := by simpa using List.find?_some known
  simpa using List.all_eq_true.mp all info (List.mem_of_find?_eq_some known)

end DataBind.Markup

namespace DataBind.Template

open Markup Markup.Tree

/-! ### Inserted markup -/

/-- The markup that is written for an expression whose value is inserted as markup. -/
def inserted (runtime : Runtime) (context : Context) (expression : Expression) : String :=
  (renderStep runtime context (.html expression)).markup

/-- What is inserted is what is written for readable nodes, or nothing. -/
theorem inserted_cases (runtime : Runtime) (context : Context) (expression : Expression) :
    inserted runtime context expression = "" ∨
      ∃ fragment, parse (runtime.evaluate context expression).1.toText = .ok fragment ∧
        inserted runtime context expression = fragment.print := by
  have written : inserted runtime context expression =
      (htmlOutput expression.source (runtime.evaluate context expression).1).markup := by
    rw [inserted, renderStep, Runtime.withValue]
    exact String.empty_append
  rw [written, htmlOutput]
  split
  · exact Or.inl rfl
  · split
    · rename_i fragment parsed
      exact Or.inr ⟨fragment, parsed, rfl⟩
    · exact Or.inl rfl

/-- **Inserted markup cannot leave its element.** Whatever text an expression gives, if it can be
read as markup, what is inserted for it is all that is in any known element around it that can
contain markup; only a text with as many nodes as there are ids leaves no id for this element. If it
cannot be read, nothing is inserted. -/
theorem inserted_enclosed (runtime : Runtime) (context : Context) (expression : Expression) :
    (∀ fragment, parse (runtime.evaluate context expression).1.toText = .ok fragment →
      ∀ tag info, tagInfo? tag = some info → info.hasEndTag = true → info.isRawText = false →
        EnclosedIn tag (inserted runtime context expression) ∨
          parse (between tag (inserted runtime context expression)) =
              .error (.tree .tooManyNodes) ∧
            fragment.size = Fragment.capacity) ∧
    ∀ error, parse (runtime.evaluate context expression).1.toText = .error error →
      inserted runtime context expression = "" := by
  refine ⟨fun fragment parsed tag info known ends plain => ?_, fun error failed => ?_⟩
  · obtain ⟨void, raw⟩ := kind_of_tagInfo? known
    rw [ends, Bool.not_true] at void
    rw [plain] at raw
    have named := readableTag_of_tagInfo? known
    have grown := grown_of_parse parsed
    have empty : ReadableAll [] := fun _ member => by cases member
    rcases inserted_cases runtime context expression with
      nothing | ⟨again, parsedAgain, written⟩
    · rw [nothing]
      rcases parse_between empty named void raw with
        enclosed | ⟨_, full⟩
      · exact Or.inl enclosed
      · cases full
    · obtain rfl : again = fragment := Except.ok.inj (parsedAgain.symm.trans parsed)
      rw [written]
      rcases parse_between (readableAll_of_parse parsed) named void raw with
        enclosed | ⟨failed, full⟩
      · exact Or.inl enclosed
      · exact Or.inr ⟨failed, Nat.le_antisymm grown.size_le (full.trans grown.length_le)⟩
  · rcases inserted_cases runtime context expression with nothing | ⟨_, parsed, _⟩
    · exact nothing
    · rw [failed] at parsed
      cases parsed

/-- A runtime in which every expression gives one text. -/
def constantRuntime (text : String) : Runtime where
  evaluator := fun _ _ => .ok (.string text)
  config := {}

/-- Markup that closes its surroundings and leaves elements open is inserted with its own end tags
only, and markup with an open comment is not inserted. -/
theorem inserted_enclosed_stray :
    inserted (constantRuntime "</div><b a=1>x</i><script/><div>y") (.root .null) (.parse "page") =
        "<b a=\"1\">x<script></script><div>y</div></b>" ∧
      EnclosedIn "div" "<b a=\"1\">x<script></script><div>y</div></b>" ∧
      inserted (constantRuntime "</div><!-- y") (.root .null) (.parse "page") = "" := by
  have reads : ((parse "</div><b a=1>x</i><script/><div>y").toOption.any
      fun fragment : Fragment => decide (fragment.size = 5)) = true := by decide +kernel
  obtain ⟨fragment, parsed, size⟩ := exists_of_parse_any reads
  have written : inserted (constantRuntime "</div><b a=1>x</i><script/><div>y") (.root .null)
      (.parse "page") = "<b a=\"1\">x<script></script><div>y</div></b>" := by decide +kernel
  have refused : ∃ error, parse "</div><!-- y" = .error error := by
    have nothing : (parse "</div><!-- y").toOption.isNone = true := by decide +kernel
    cases read : parse "</div><!-- y" with
    | error error => exact ⟨error, rfl⟩
    | ok other =>
      rw [read] at nothing
      cases nothing
  obtain ⟨error, failed⟩ := refused
  refine ⟨written, ?_, (inserted_enclosed (constantRuntime "</div><!-- y") (.root .null)
    (.parse "page")).2 error failed⟩
  rcases (inserted_enclosed (constantRuntime "</div><b a=1>x</i><script/><div>y") (.root .null)
    (.parse "page")).1 fragment parsed "div" ⟨"div", true, false⟩ (by decide +kernel) rfl rfl with
    enclosed | ⟨_, full⟩
  · exact written ▸ enclosed
  · rw [of_decide_eq_true size] at full
    exact absurd full (by decide)

end DataBind.Template
