/-
**Expressions in object literals.**

Every expression of the language can stand as a value in an object literal. Its brackets match, its
strings end where a scan for separators takes them to end, and its commas stand in brackets.

* `Passed`: texts that a scan for commas passes over;
* `passed_of_matched`: what spells tokens with matching brackets is passed over;
* `parseObjectLiteral_join`: an object literal is read entry by entry, with or without braces;
* `parseObjectLiteral_expressions`: keys and expressions are read back as they were written;
* `parseIteration_expression`: so are the items of an iteration and the name of each of them.
-/

import DataBind.Binding.Iteration
import DataBind.Proofs.Binding.Entry
import DataBind.Proofs.Expr.Bracketing
import DataBind.Proofs.Expr.Tokens

namespace DataBind.Binding

open DataBind.Text

/-! ### Texts that a scan passes over -/

/-- Whether a character has no meaning for a scan for commas. -/
def isInert (c : Char) : Bool :=
  !isQuote c && (closerOf? c).isNone && !isCloser c && c != ','

/-- With these brackets open, a scan for commas passes over a text: it finds none, and goes on
behind the text with the same brackets open. -/
def Passed (closers : List (Char × Nat)) (text : List Char) : Prop :=
  ∀ offset, ∃ next, ∀ rest, positionsFrom ',' ⟨offset, .plain, closers⟩ (text ++ rest) =
    positionsFrom ',' ⟨next, .plain, closers⟩ rest

/-- A character that does not count is passed over. -/
theorem positionsFrom_cons {state next : Scan} {c : Char} (stepped : state.step c = .ok next)
    (apart : state.separates ',' c = false) (rest : List Char) :
    positionsFrom ',' state (c :: rest) = positionsFrom ',' next rest := by
  rw [positionsFrom, stepped]
  simp only [bind, Except.bind, apart, Bool.false_eq_true, if_false, pure, Except.pure]
  cases positionsFrom ',' next rest <;> rfl

section

variable {closers : List (Char × Nat)} {first second text : List Char}

theorem Passed.nil : Passed closers [] :=
  fun offset => ⟨offset, fun _ => rfl⟩

theorem Passed.append (front : Passed closers first) (back : Passed closers second) :
    Passed closers (first ++ second) := by
  intro offset
  obtain ⟨middle, before⟩ := front offset
  obtain ⟨next, after⟩ := back middle
  refine ⟨next, fun rest => ?_⟩
  rw [List.append_assoc, before, after]

/-- Outside of quotes a character without meaning is passed over. -/
theorem Scan.step_inert {c : Char} (inert : isInert c = true) (offset : Nat)
    (closers : List (Char × Nat)) :
    Scan.step ⟨offset, .plain, closers⟩ c = .ok ⟨offset + c.utf8Size, .plain, closers⟩ := by
  simp only [isInert, Bool.and_eq_true, Bool.not_eq_true', Option.isNone_iff_eq_none] at inert
  obtain ⟨⟨⟨plain, opens⟩, closes⟩, _⟩ := inert
  simp [Scan.step, plain, opens, closes]

theorem passed_inert {c : Char} (inert : isInert c = true) : Passed closers [c] := by
  intro offset
  have other : c ≠ ',' := by
    rintro rfl
    cases inert
  exact ⟨_, positionsFrom_cons (Scan.step_inert inert offset closers)
    (by simp [Scan.separates, other])⟩

theorem passed_of_inert (inert : text.all isInert = true) : Passed closers text := by
  induction text with
  | nil => exact .nil
  | cons c text ih =>
    rw [List.all_cons, Bool.and_eq_true] at inert
    exact Passed.append (passed_inert inert.1) (ih inert.2)

/-- In brackets no comma counts. -/
theorem passed_comma (inside : closers ≠ []) : Passed closers [','] := by
  intro offset
  have apart : Scan.separates ',' ⟨offset, .plain, closers⟩ ',' = false := by
    simp [Scan.separates, inside]
  exact ⟨_, positionsFrom_cons rfl apart⟩

/-- **A string is passed over**: the scan and the reader of strings find the same end. -/
theorem passed_string {quote : Char} (mark : Expr.isStringQuote quote = true)
    (quoted : Expr.Quoted quote text) : Passed closers (quote :: text) := by
  have opened : isQuote quote = true := by
    rw [Expr.isStringQuote, Bool.or_eq_true] at mark
    rw [isQuote, Bool.or_eq_true, Bool.or_eq_true]
    exact Or.inl mark
  have slash : quote ≠ '\\' := by
    rintro rfl
    cases mark
  have within : ∀ start offset, ∃ next, ∀ rest,
      positionsFrom ',' ⟨offset, .inside quote start, closers⟩ (text ++ rest) =
        positionsFrom ',' ⟨next, .plain, closers⟩ rest := by
    intro start
    induction quoted with
    | close =>
      intro offset
      have closed : Scan.step ⟨offset, .inside quote start, closers⟩ quote =
          .ok ⟨offset + quote.utf8Size, .plain, closers⟩ := by
        simp [Scan.step, slash]
      exact ⟨_, positionsFrom_cons closed (by simp [Scan.separates])⟩
    | escape c _ ih =>
      intro offset
      obtain ⟨next, later⟩ := ih (offset + 1 + c.utf8Size)
      refine ⟨next, fun rest => ?_⟩
      rw [← later]
      exact (positionsFrom_cons rfl (by simp [Scan.separates]) _).trans
        (positionsFrom_cons rfl (by simp [Scan.separates]) _)
    | @other c _ different noSlash _ ih =>
      intro offset
      have passed : Scan.step ⟨offset, .inside quote start, closers⟩ c =
          .ok ⟨offset + c.utf8Size, .inside quote start, closers⟩ := by
        simp [Scan.step, different, noSlash]
      obtain ⟨next, later⟩ := ih (offset + c.utf8Size)
      refine ⟨next, fun rest => ?_⟩
      rw [← later]
      exact positionsFrom_cons passed (by simp [Scan.separates]) _
  intro offset
  have stepped : Scan.step ⟨offset, .plain, closers⟩ quote =
      .ok ⟨offset + quote.utf8Size, .inside quote offset, closers⟩ := by
    simp [Scan.step, opened]
  obtain ⟨next, later⟩ := within offset (offset + quote.utf8Size)
  refine ⟨next, fun rest => ?_⟩
  rw [← later]
  exact positionsFrom_cons stepped (by simp [Scan.separates, opened]) _

/-- What is passed over in a pair of brackets is passed over with them. -/
theorem passed_group {opener closer : Char} (pair : closerOf? opener = some closer)
    (inner : ∀ offset, Passed ((closer, offset) :: closers) text) :
    Passed closers (opener :: (text ++ [closer])) := by
  have marks : isQuote opener = false ∧ isQuote closer = false ∧ closerOf? closer = none ∧
      isCloser closer = true := by
    unfold closerOf? at pair
    split at pair <;> cases pair <;> decide
  obtain ⟨plain, plainCloser, single, closes⟩ := marks
  intro offset
  obtain ⟨place, body⟩ := inner offset (offset + opener.utf8Size)
  have opened : Scan.step ⟨offset, .plain, closers⟩ opener =
      .ok ⟨offset + opener.utf8Size, .plain, (closer, offset) :: closers⟩ := by
    simp [Scan.step, plain, pair]
  have closed : Scan.step ⟨place, .plain, (closer, offset) :: closers⟩ closer =
      .ok ⟨place + closer.utf8Size, .plain, closers⟩ := by
    simp [Scan.step, plainCloser, single, closes]
  refine ⟨place + closer.utf8Size, fun rest => ?_⟩
  calc positionsFrom ',' ⟨offset, .plain, closers⟩ (opener :: (text ++ [closer]) ++ rest)
      = positionsFrom ',' ⟨offset + opener.utf8Size, .plain, (closer, offset) :: closers⟩
          (text ++ [closer] ++ rest) :=
        positionsFrom_cons opened (by simp [Scan.separates, pair]) _
    _ = positionsFrom ',' ⟨place, .plain, (closer, offset) :: closers⟩ (closer :: rest) := by
        rw [List.append_assoc, body]
        rfl
    _ = positionsFrom ',' ⟨place + closer.utf8Size, .plain, closers⟩ rest :=
        positionsFrom_cons closed (by simp [Scan.separates]) _

end

/-! ### Characters and tokens -/

/-- The characters that are not inert. -/
def signs : List Char :=
  ['"', '\x27', '\x60', '(', '[', '\x7b', ')', ']', '\x7d', ',']

theorem mem_signs {c : Char} (counts : isInert c = false) : c ∈ signs := by
  have opener : (closerOf? c).isNone = true ∨ c = '(' ∨ c = '[' ∨ c = '\x7b' := by
    unfold closerOf?
    split
    · exact Or.inr (Or.inl rfl)
    · exact Or.inr (Or.inr (Or.inl rfl))
    · exact Or.inr (Or.inr (Or.inr rfl))
    · exact Or.inl rfl
  rcases opener with single | rfl | rfl | rfl
  · simp only [isInert, single, isQuote, isCloser, Bool.and_true, Bool.and_eq_false_iff,
      Bool.not_eq_false', Bool.or_eq_true, beq_iff_eq, bne_eq_false_iff_eq] at counts
    simp only [signs, List.mem_cons, List.not_mem_nil, or_false]
    rcases counts with ((((same | same) | same) | (same | same) | same) | same) <;> simp [same]
  · decide
  · decide
  · decide

/-- The characters of a class without signs are inert. -/
theorem inert_of_class {among : Char → Bool} (none : signs.any among = false) {c : Char}
    (member : among c = true) : isInert c = true := by
  cases inert : isInert c with
  | true => rfl
  | false => exact absurd member (List.any_eq_false.mp none c (mem_signs inert))

theorem inert_of_blank {c : Char} (blank : isBlank c = true) : isInert c = true :=
  inert_of_class (by decide) blank

theorem inert_of_continuesWord {c : Char} (word : Expr.continuesWord c = true) :
    isInert c = true :=
  inert_of_class (by decide +kernel) word

/-- **Words are bare.** -/
theorem bare_of_isWord {word : List Char} (whole : Expr.isWord word = true) :
    word ≠ [] ∧ word.all isBare = true := by
  cases word with
  | nil => cases whole
  | cons c rest =>
    have bare : ∀ c, Expr.continuesWord c = true → isBare c = true := by
      intro c continues
      have inert := inert_of_continuesWord continues
      have other : c ≠ ':' := by
        rintro rfl
        exact absurd continues (by decide +kernel)
      have solid := Expr.isBlank_of_continuesWord continues
      simp only [isInert, Bool.and_eq_true] at inert
      simp [isBare, inert, other, solid]
    rw [Expr.isWord, Bool.and_eq_true, List.all_eq_true] at whole
    refine ⟨List.cons_ne_nil _ _, List.all_eq_true.mpr (List.forall_mem_cons.mpr ⟨?_, ?_⟩)⟩
    · exact bare c (Expr.continuesWord_of_startsWord whole.1)
    · exact fun d member => bare d (whole.2 d member)

section

variable {closers : List (Char × Nat)} {text : List Char}

theorem passed_of_blank (blank : ∀ c ∈ text, isBlank c = true) : Passed closers text :=
  passed_of_inert (List.all_eq_true.mpr fun c member => inert_of_blank (blank c member))

/-- A token other than brackets and commas is passed over. -/
theorem passed_of_lexeme {token : Expr.Token} (plain : token.isPlain = true)
    (lexeme : Expr.Lexeme token text) : Passed closers text := by
  cases lexeme with
  | number _ _ all =>
    refine passed_of_inert (List.all_eq_true.mpr fun c member => ?_)
    have none : signs.any Expr.isNumeral = false := by decide
    exact inert_of_class none (List.all_eq_true.mp all c member)
  | string _ mark quoted => exact passed_string mark quoted
  | word word =>
    cases text with
    | nil => cases word
    | cons c rest =>
      rw [Expr.isWord, Bool.and_eq_true, List.all_eq_true] at word
      have first := Expr.continuesWord_of_startsWord word.1
      refine passed_of_inert (List.all_eq_true.mpr (List.forall_mem_cons.mpr ⟨?_, ?_⟩))
      · exact inert_of_continuesWord first
      · exact fun d member => inert_of_continuesWord (word.2 d member)
  | symbol mark =>
    refine passed_of_inert ?_
    revert plain
    cases mark <;> decide

/-- The text of a single token is passed over with its lexeme. -/
theorem passed_of_single {token : Expr.Token} (spells : Expr.Spells [token] text)
    (passed : ∀ lexeme, Expr.Lexeme token lexeme → Passed closers lexeme) :
    Passed closers text := by
  cases spells with
  | cons before lexeme rest =>
    cases rest with
    | nil after =>
      exact (passed_of_blank before).append ((passed _ lexeme).append (passed_of_blank after))

/-- The marks of a pair of brackets are a character each. -/
theorem exists_bracket {opener closer : Expr.Punctuation}
    (pair : (opener, closer) ∈ Expr.bracketMarks) :
    ∃ first last, opener.lexeme.toList = [first] ∧ closer.lexeme.toList = [last] ∧
      closerOf? first = some last := by
  simp only [Expr.bracketMarks, List.mem_cons, Prod.mk.injEq, List.not_mem_nil, or_false] at pair
  rcases pair with ⟨rfl, rfl⟩ | ⟨rfl, rfl⟩ | ⟨rfl, rfl⟩ <;> exact ⟨_, _, rfl, rfl, rfl⟩

/-- **Tokens with matching brackets are passed over**, where their commas stand in brackets. -/
theorem passed_of_matched {inside : Bool} {tokens : List Expr.Token}
    (matched : Expr.Matched inside tokens) (spells : Expr.Spells tokens text)
    (allowed : inside = true → closers ≠ []) : Passed closers text := by
  induction matched generalizing text closers with
  | nil =>
    cases spells with
    | nil blank => exact passed_of_blank blank
  | plain plain => exact passed_of_single spells fun _ lexeme => passed_of_lexeme plain lexeme
  | comma =>
    refine passed_of_single spells fun _ lexeme => ?_
    cases lexeme
    exact passed_comma (allowed rfl)
  | append _ _ firstIh secondIh =>
    obtain ⟨first, second, rfl, front, back⟩ := spells.append
    exact (firstIh front allowed).append (secondIh back allowed)
  | group pair _ ih =>
    obtain ⟨first, last, opened, closed, bracket⟩ := exists_bracket pair
    cases spells with
    | cons before opener later =>
      obtain ⟨inner, back, rfl, spelled, closing⟩ := later.append
      cases closing with
      | cons between closer none =>
        cases none with
        | nil after =>
          cases opener
          cases closer
          have body : ∀ offset, Passed ((last, offset) :: closers) _ := fun offset =>
            (ih spelled fun _ => List.cons_ne_nil _ _).append (passed_of_blank between)
          have whole := (passed_of_blank before).append
            ((passed_group bracket body).append (passed_of_blank after))
          rw [opened, closed]
          simpa using whole

end

/-! ### Values -/

/-- A text that can be a value in a list of entries, as it is or without the white space at its
end. -/
structure Carried (text : List Char) : Prop where
  passed : Passed [] text
  passedEnd : Passed [] (trimEnd text)
  solid : trimEnd text ≠ []

theorem Passed.closed {text : List Char} (passed : Passed [] text) :
    topLevelPositions ',' text = .ok [] := by
  obtain ⟨next, found⟩ := passed 0
  have whole := found []
  rw [List.append_nil] at whole
  exact whole

/-- What spells at least one token, with matching brackets, can be a value. -/
theorem carried_of_spells {token : Expr.Token} {tokens : List Expr.Token} {text : List Char}
    (matched : Expr.Matched false (token :: tokens)) (spells : Expr.Spells (token :: tokens) text) :
    Carried text := by
  obtain ⟨kept, solid⟩ := spells.trimEnd
  have passed : ∀ {text}, Expr.Spells (token :: tokens) text → Passed [] text := fun spells =>
    passed_of_matched matched spells fun inside => absurd inside Bool.false_ne_true
  exact ⟨passed spells, passed kept, solid⟩

/-- **Every expression can be a value.** -/
theorem carried_of_parse {source : String} {tree : Expr} (parsed : Expr.parse source = .ok tree) :
    Carried source.toList := by
  obtain ⟨tokens, read, derives⟩ := Expr.parse_eq_ok_iff.mp parsed
  have spells := Expr.spells_of_tokensOf? read
  obtain ⟨first, rest, rfl, _⟩ := derives.head
  exact carried_of_spells (Expr.matched_of_derives derives) spells

/-- A name in quotes can be a value. -/
theorem carried_quoted {name : List Char} (plain : ∀ c ∈ name, c ≠ '\x27' ∧ c ≠ '\\') :
    Carried ('\x27' :: (name ++ ['\x27'])) := by
  have lexeme : Expr.Lexeme (.string "") ('\x27' :: (name ++ ['\x27'])) :=
    .string "" rfl (Expr.Quoted.close.prepend plain)
  have spells := Expr.Spells.cons (List.forall_mem_nil _) lexeme (.nil (List.forall_mem_nil _))
  rw [List.nil_append, List.append_nil] at spells
  exact carried_of_spells (.plain rfl) spells

/-! ### Lists of entries -/

/-- **Texts joined by commas** are the parts of the whole, all but the first after a space. -/
theorem split_join {piece : List Char} {pieces : List (List Char)}
    (closed : ∀ text ∈ piece :: pieces, topLevelPositions ',' text = .ok []) (offset : Nat) :
    splitFrom ',' ⟨offset, .plain, []⟩ ([',', ' '].intercalate (piece :: pieces)) =
      .ok (piece :: pieces.map (' ' :: ·)) := by
  induction pieces generalizing piece offset with
  | nil =>
    rw [List.intercalate_singleton]
    exact splitFrom_of_alike (Scan.alike_start offset)
      (splitFrom_of_positions (closed piece List.mem_cons_self))
  | cons next pieces ih =>
    obtain ⟨first, later⟩ := List.forall_mem_cons.mp closed
    have rest : ∀ offset, splitFrom ',' ⟨offset, .plain, []⟩
        (',' :: ' ' :: [',', ' '].intercalate (next :: pieces)) =
        .ok ([] :: (' ' :: next) :: pieces.map (' ' :: ·)) := by
      intro offset
      have spaced : splitFrom ',' ⟨offset + 1, .plain, []⟩
          (' ' :: [',', ' '].intercalate (next :: pieces)) =
          .ok ((' ' :: next) :: pieces.map (' ' :: ·)) :=
        splitFrom_bare (by decide) (by decide) (by decide) (by decide) (ih later)
      rw [splitFrom_cons rfl spaced]
      rfl
    have whole := splitFrom_of_alike (Scan.alike_start offset) (splitFrom_append first rest)
    rw [List.append_nil] at whole
    rw [List.intercalate_cons_cons, List.append_assoc]
    exact whole

/-- Entries are read without the white space around them. -/
theorem parseEntries_congr {parts others : List (List Char)}
    (same : parts.map trim = others.map trim) : parseEntries parts = parseEntries others := by
  induction parts generalizing others with
  | nil => rw [List.map_eq_nil_iff.mp same.symm]
  | cons part parts ih =>
    obtain ⟨other, others, rfl, first, later⟩ := List.map_eq_cons_iff.mp same.symm
    rw [parseEntries, parseEntries, first, ih later.symm]

/-- A text that can be an entry: it starts solid and with no brace, and no comma of it counts, with
or without the white space at its end. -/
structure Piece (text : List Char) : Prop where
  carried : Carried text
  opens : ∃ c rest, text = c :: rest ∧ isBlank c = false ∧ c ≠ '\x7b'

/-- The last of some joined texts stands at the end. -/
theorem intercalate_concat (pieces : List (List Char)) (last : List Char) :
    [',', ' '].intercalate (pieces ++ [last]) = pieces.flatMap (· ++ [',', ' ']) ++ last := by
  induction pieces with
  | nil => rw [List.nil_append, List.intercalate_singleton, List.flatMap_nil, List.nil_append]
  | cons piece pieces ih =>
    rw [List.cons_append, List.intercalate_cons_of_ne_nil (by simp), ih, List.flatMap_cons,
      List.append_assoc, List.append_assoc, List.append_assoc]

/-- Joined texts are split where they were joined. -/
theorem parseEntries_join {pieces : List (List Char)}
    (closed : ∀ piece ∈ pieces, topLevelPositions ',' piece = .ok []) :
    ∃ parts, splitTopLevel ',' ([',', ' '].intercalate pieces) = .ok parts ∧
      parseEntries parts = parseEntries pieces := by
  cases pieces with
  | nil => exact ⟨[[]], rfl, rfl⟩
  | cons piece pieces =>
    refine ⟨_, split_join closed 0, parseEntries_congr ?_⟩
    rw [List.map_cons, List.map_map, List.map_cons]
    exact congrArg _ (List.map_congr_left fun text _ => trim_space text)

/-- Joined pieces are joined pieces also without the white space at the end. -/
theorem trim_join {pieces : List (List Char)} (whole : ∀ piece ∈ pieces, Piece piece) :
    ∃ others, trim ([',', ' '].intercalate pieces) = [',', ' '].intercalate others ∧
      others.map trim = pieces.map trim ∧
      (∀ other ∈ others, topLevelPositions ',' other = .ok []) ∧
      ([',', ' '].intercalate others).head? ≠ some '\x7b' := by
  rcases List.eq_nil_or_concat pieces with rfl | ⟨front, last, rfl⟩
  · exact ⟨[], rfl, rfl, List.forall_mem_nil _, by simp⟩
  · rw [List.concat_eq_append] at whole ⊢
    obtain ⟨before, ending⟩ := List.forall_mem_append.mp whole
    have ending := ending last List.mem_cons_self
    have starts : ∃ c rest, [',', ' '].intercalate (front ++ [last]) = c :: rest ∧
        isBlank c = false ∧ c ≠ '\x7b' := by
      cases front with
      | nil =>
        rw [List.nil_append, List.intercalate_singleton]
        exact ending.opens
      | cons piece front =>
        obtain ⟨c, rest, rfl, solid, brace⟩ := (before piece List.mem_cons_self).opens
        rw [List.cons_append, List.intercalate_cons_of_ne_nil (by simp)]
        exact ⟨c, _, rfl, solid, brace⟩
    obtain ⟨c, rest, start, solid, brace⟩ := starts
    have joined : [',', ' '].intercalate (front ++ [trimEnd last]) =
        trimEnd ([',', ' '].intercalate (front ++ [last])) := by
      rw [intercalate_concat, intercalate_concat, trimEnd_append_of_ne_nil ending.carried.solid]
    refine ⟨front ++ [trimEnd last], ?_, ?_, ?_, ?_⟩
    · rw [joined, trim, start, trimStart_eq_self rest solid]
    · rw [List.map_append, List.map_append, List.map_singleton, List.map_singleton, trim_trimEnd]
    · refine List.forall_mem_append.mpr
        ⟨fun piece member => (before piece member).carried.passed.closed, ?_⟩
      exact List.forall_mem_singleton.mpr ending.carried.passedEnd.closed
    · obtain ⟨blank, split, _⟩ := exists_trimEnd ([',', ' '].intercalate (front ++ [last]))
      have nonempty : trimEnd ([',', ' '].intercalate (front ++ [last])) ≠ [] := by
        rw [← joined, intercalate_concat]
        exact List.append_ne_nil_of_right_ne_nil _ ending.carried.solid
      rw [joined]
      cases kept : trimEnd ([',', ' '].intercalate (front ++ [last])) with
      | nil => exact absurd kept nonempty
      | cons d more =>
        rw [kept, start] at split
        obtain ⟨rfl, _⟩ := List.cons.inj split
        exact fun same => brace (Option.some.inj same)

/-- **An object literal is read entry by entry**, without braces around it. -/
theorem parseObjectLiteral_join {pieces : List (List Char)}
    (whole : ∀ piece ∈ pieces, Piece piece) :
    parseObjectLiteral (String.ofList ([',', ' '].intercalate pieces)) = parseEntries pieces := by
  obtain ⟨others, kept, same, closed, brace⟩ := trim_join whole
  obtain ⟨parts, split, entries⟩ := parseEntries_join closed
  have bare : stripBraces ([',', ' '].intercalate others) = [',', ' '].intercalate others := by
    unfold stripBraces
    split
    · rename_i rest start
      rw [start] at brace
      exact absurd rfl brace
    · rfl
  rw [parseObjectLiteral, String.toList_ofList, kept, bare, split]
  exact entries.trans (parseEntries_congr same)

/-- **Braces around an object literal** change nothing. -/
theorem parseObjectLiteral_braces {pieces : List (List Char)}
    (closed : ∀ piece ∈ pieces, topLevelPositions ',' piece = .ok []) :
    parseObjectLiteral (String.ofList ('\x7b' :: ([',', ' '].intercalate pieces ++ ['\x7d']))) =
      parseEntries pieces := by
  obtain ⟨parts, split, same⟩ := parseEntries_join closed
  obtain ⟨positions, found⟩ := exists_positionsFrom (check_of_splitFrom split) ','
  have level : topLevelPositions ',' ([',', ' '].intercalate pieces) = .ok positions := found
  have kept : trim ('\x7b' :: ([',', ' '].intercalate pieces ++ ['\x7d'])) =
      '\x7b' :: ([',', ' '].intercalate pieces ++ ['\x7d']) :=
    trim_append (by decide) (by decide) (by decide) _
  have inside : stripBraces ('\x7b' :: ([',', ' '].intercalate pieces ++ ['\x7d'])) =
      [',', ' '].intercalate pieces := by
    simp only [stripBraces, List.getLast?_concat, if_true, List.dropLast_concat, level]
  rw [parseObjectLiteral, String.toList_ofList, kept, inside, split]
  exact same

/-! ### Keys and expressions -/

/-- An entry as it is written: a key, a colon, a space and a value. -/
def written (entry : String × String) : String :=
  entry.1 ++ ": " ++ entry.2

theorem toList_written (entry : String × String) :
    (written entry).toList = entry.1.toList ++ ':' :: ' ' :: entry.2.toList := by
  rw [written, String.toList_append, String.toList_append, List.append_assoc]
  rfl

section

variable {key : List Char} {value : List Char}

theorem trimEnd_entry (solid : trimEnd value ≠ []) :
    trimEnd (key ++ ':' :: ' ' :: value) = key ++ ':' :: ' ' :: trimEnd value := by
  have split := trimEnd_append_of_ne_nil solid (key ++ [':', ' '])
  rwa [List.append_assoc, List.append_assoc] at split

/-- A word starts with a character that is neither white space nor a brace. -/
theorem exists_cons_of_isWord (word : Expr.isWord key = true) :
    ∃ c rest, key = c :: rest ∧ isBlank c = false ∧ c ≠ '\x7b' := by
  obtain ⟨nonempty, bare⟩ := bare_of_isWord word
  cases key with
  | nil => exact absurd rfl nonempty
  | cons c rest =>
    rw [List.all_cons, Bool.and_eq_true] at bare
    have solid : isBlank c = false := by
      have first := bare.1
      simp only [isBare, Bool.and_eq_true, Bool.not_eq_true'] at first
      exact first.2
    refine ⟨c, rest, rfl, solid, ?_⟩
    rintro rfl
    exact absurd bare.1 (by decide)

/-- **A word, a colon and a value** can be an entry. -/
theorem piece_of_carried (word : Expr.isWord key = true) (carried : Carried value) :
    Piece (key ++ ':' :: ' ' :: value) := by
  have inert : key.all isInert = true := by
    obtain ⟨_, bare⟩ := bare_of_isWord word
    refine List.all_eq_true.mpr fun c member => ?_
    have first := List.all_eq_true.mp bare c member
    simp only [isBare, Bool.and_eq_true] at first
    simp only [isInert, Bool.and_eq_true]
    exact ⟨first.1.1.1, first.1.2⟩
  have front : ∀ {text}, Passed [] text → Passed [] (key ++ ':' :: ' ' :: text) := fun passed =>
    (passed_of_inert inert).append
      ((passed_inert (by decide)).append ((passed_inert (by decide)).append passed))
  refine ⟨⟨front carried.passed, ?_, ?_⟩, ?_⟩
  · rw [trimEnd_entry carried.solid]
    exact front carried.passedEnd
  · rw [trimEnd_entry carried.solid]
    exact List.append_ne_nil_of_right_ne_nil _ (List.cons_ne_nil _ _)
  · obtain ⟨c, rest, rfl, solid, brace⟩ := exists_cons_of_isWord word
    exact ⟨c, _, rfl, solid, brace⟩

/-- **The entry of a word and a value** is read back, the value trimmed. -/
theorem parseEntry_carried (word : Expr.isWord key = true) (carried : Carried value) :
    parseEntry (trim (key ++ ':' :: ' ' :: value)) =
      .ok (String.ofList key, String.ofList (trim value)) := by
  obtain ⟨nonempty, bare⟩ := bare_of_isWord word
  have kept : trim (key ++ ':' :: ' ' :: value) = key ++ ':' :: ' ' :: trimEnd value := by
    rw [← trimEnd_entry carried.solid]
    obtain ⟨c, rest, rfl, solid, _⟩ := exists_cons_of_isWord word
    rw [trim, List.cons_append, trimStart_eq_self _ solid]
  rw [kept, parseEntry_named bare nonempty carried.passedEnd.closed, trim_trimEnd]

/-- The entries of words and values are read back in order. -/
theorem parseEntries_written {entries : List (String × String)}
    (words : ∀ entry ∈ entries, Expr.isWord entry.1.toList = true)
    (carried : ∀ entry ∈ entries, Carried entry.2.toList) :
    parseEntries (entries.map fun entry => (written entry).toList) =
      .ok (entries.map fun entry => (entry.1, trimmed entry.2)) := by
  induction entries with
  | nil => rfl
  | cons entry entries ih =>
    obtain ⟨word, words⟩ := List.forall_mem_cons.mp words
    obtain ⟨value, values⟩ := List.forall_mem_cons.mp carried
    have read := parseEntry_carried word value
    rw [← toList_written, String.ofList_toList] at read
    have nonempty : (trim (written entry).toList).isEmpty = false := by
      refine List.isEmpty_eq_false_iff.mpr fun empty => ?_
      rw [empty] at read
      cases read
    rw [List.map_cons, List.map_cons, parseEntries]
    simp only [nonempty, read, ih words values]
    rfl

end

/-- Words and values are read back in order, with or without braces around them. -/
theorem parseObjectLiteral_written {entries : List (String × String)}
    (words : ∀ entry ∈ entries, Expr.isWord entry.1.toList = true)
    (carried : ∀ entry ∈ entries, Carried entry.2.toList) :
    parseObjectLiteral (", ".intercalate (entries.map written)) =
        .ok (entries.map fun entry => (entry.1, trimmed entry.2)) ∧
      parseObjectLiteral ("\x7b" ++ ", ".intercalate (entries.map written) ++ "\x7d") =
        .ok (entries.map fun entry => (entry.1, trimmed entry.2)) := by
  have whole : ∀ piece ∈ entries.map fun entry => (written entry).toList, Piece piece := by
    intro piece member
    obtain ⟨entry, found, rfl⟩ := List.mem_map.mp member
    rw [toList_written]
    exact piece_of_carried (words entry found) (carried entry found)
  have text : (", ".intercalate (entries.map written)).toList =
      [',', ' '].intercalate (entries.map fun entry => (written entry).toList) := by
    rw [String.toList_intercalate, List.map_map]
    rfl
  have bare := parseObjectLiteral_join whole
  have braced := parseObjectLiteral_braces fun piece member =>
    (whole piece member).carried.passed.closed
  rw [parseEntries_written words carried] at bare braced
  rw [← text, String.ofList_toList] at bare
  refine ⟨bare, Eq.trans (congrArg parseObjectLiteral ?_) braced⟩
  rw [← text, ← String.toList_inj]
  simp only [String.toList_append, String.toList_ofList]
  rfl

/-! ### Iterations -/

theorem unquote?_quoted (name : List Char) :
    unquote? ('\x27' :: (name ++ ['\x27'])) = some name := by
  rw [unquote?, trim_enclosed (by decide) (by decide)]
  simp

/-- **An iteration with a name** gives its items and the name of each of them. -/
theorem parseIteration_carried {items name : String} (carried : Carried items.toList)
    (plain : ∀ c ∈ name.toList, c ≠ '\x27' ∧ c ≠ '\\') :
    parseIteration ("\x7bdata: " ++ items ++ ", as: \x27" ++ name ++ "\x27\x7d") =
      .ok ⟨trimmed items, some name⟩ := by
  have quotes : ("\x27" ++ name ++ "\x27").toList = '\x27' :: (name.toList ++ ['\x27']) := by
    simp
  -- the object form is a literal of two entries, the second with the name in quotes
  have entries : "\x7bdata: " ++ items ++ ", as: \x27" ++ name ++ "\x27\x7d" =
      "\x7b" ++ ", ".intercalate
        ([("data", items), ("as", "\x27" ++ name ++ "\x27")].map written) ++ "\x7d" := by
    rw [← String.toList_inj]
    simp [written]
  obtain ⟨inner, braces⟩ : ∃ inner,
      ("\x7bdata: " ++ items ++ ", as: \x27" ++ name ++ "\x27\x7d").toList =
        '\x7b' :: (inner ++ ['\x7d']) :=
    ⟨"data: ".toList ++ items.toList ++ ", as: \x27".toList ++ name.toList ++ ['\x27'], by simp⟩
  have read : parseObjectLiteral
      ("\x7bdata: " ++ items ++ ", as: \x27" ++ name ++ "\x27\x7d") =
      .ok [("data", trimmed items), ("as", trimmed ("\x27" ++ name ++ "\x27"))] := by
    rw [entries]
    refine (parseObjectLiteral_written ?_ ?_).2
    · have words : Expr.isWord "data".toList = true ∧ Expr.isWord "as".toList = true := by
        decide +kernel
      exact List.forall_mem_cons.mpr ⟨words.1, List.forall_mem_singleton.mpr words.2⟩
    · refine List.forall_mem_cons.mpr ⟨carried, List.forall_mem_singleton.mpr ?_⟩
      rw [quotes]
      exact carried_quoted plain
  have whole : trimmed ("\x7bdata: " ++ items ++ ", as: \x27" ++ name ++ "\x27\x7d") =
      "\x7bdata: " ++ items ++ ", as: \x27" ++ name ++ "\x27\x7d" := by
    rw [trimmed, braces, trim_enclosed (by decide) (by decide), ← braces, String.ofList_toList]
  have kept : (trimmed ("\x27" ++ name ++ "\x27")).toList =
      '\x27' :: (name.toList ++ ['\x27']) := by
    rw [trimmed, String.toList_ofList, quotes, trim_enclosed (by decide) (by decide)]
  rw [parseIteration]
  simp only [whole, braces, read]
  simp [Except.map, Iteration.add, kept, unquote?_quoted]

/-- **Expressions are values of object literals, and the items of iterations.** Keys that are words
and expressions are read back in order as they were written, with or without braces around them; so
are the items of an iteration and the name of each of them. -/
theorem parseObjectLiteral_expressions (entries : List (String × String))
    (words : ∀ entry ∈ entries, Expr.isWord entry.1.toList = true)
    (parsed : ∀ entry ∈ entries, ∃ tree, Expr.parse entry.2 = .ok tree) :
    parseObjectLiteral (", ".intercalate (entries.map fun entry => entry.1 ++ ": " ++ entry.2)) =
        .ok (entries.map fun entry => (entry.1, trimmed entry.2)) ∧
      parseObjectLiteral
          ("\x7b" ++ ", ".intercalate (entries.map fun entry => entry.1 ++ ": " ++ entry.2) ++
            "\x7d") =
        .ok (entries.map fun entry => (entry.1, trimmed entry.2)) ∧
      ∀ (items name : String) (tree : Expr), Expr.parse items = .ok tree →
        (∀ c ∈ name.toList, c ≠ '\x27' ∧ c ≠ '\\') →
        parseIteration ("\x7bdata: " ++ items ++ ", as: \x27" ++ name ++ "\x27\x7d") =
          .ok ⟨trimmed items, some name⟩ := by
  have carried : ∀ entry ∈ entries, Carried entry.2.toList := by
    intro entry member
    obtain ⟨tree, read⟩ := parsed entry member
    exact carried_of_parse read
  obtain ⟨bare, braced⟩ := parseObjectLiteral_written words carried
  exact ⟨bare, braced, fun items name tree read plain =>
    parseIteration_carried (carried_of_parse read) plain⟩

/-- A list keeps its comma, and a name loses the space before it. -/
theorem parseObjectLiteral_list :
    parseObjectLiteral "\x7bif: [b,c], with:  x\x7d" = .ok [("if", "[b,c]"), ("with", "x")] ∧
      parseIteration "\x7bdata: [b,c], as: \x27item\x27\x7d" = .ok ⟨"[b,c]", some "item"⟩ := by
  have list : Expr.parse "[b,c]" = .ok (.array [.ident "b", .ident "c"]) := by
    refine Expr.parse_eq_ok_iff.mpr ⟨[.symbol .openBracket, .word "b", .symbol .comma, .word "c",
      .symbol .closeBracket], ?_, ?_⟩
    · show Expr.tokensOf? ['[', 'b', ',', 'c', ']'] = _
      rw [Expr.tokensOf?_mark rfl rfl rfl (by decide) rfl,
        Expr.tokensOf?_word [] [',', 'c', ']'] rfl rfl rfl (by decide) rfl rfl,
        Expr.tokensOf?_mark rfl rfl rfl (by decide) rfl,
        Expr.tokensOf?_word [] [']'] rfl rfl rfl (by decide) rfl rfl,
        Expr.tokensOf?_mark rfl rfl rfl (by decide) rfl, Expr.tokensOf?_nil]
      rfl
    · have items : ∀ item ∈ [([Expr.Token.word "b"], Expr.ident "b"), ([.word "c"], .ident "c")],
          Expr.Derives .conditional item.1 item.2 :=
        List.forall_mem_cons.mpr
          ⟨.ident (by decide), List.forall_mem_singleton.mpr (.ident (by decide))⟩
      exact (Expr.Derives.array items (.more (.last _))).loosen (by decide)
  have name : Expr.parse " x" = .ok (.ident "x") := by
    refine Expr.parse_eq_ok_iff.mpr ⟨[.word "x"], ?_, ?_⟩
    · show Expr.tokensOf? [' ', 'x'] = _
      rw [Expr.tokensOf?_blank rfl, Expr.tokensOf?_word [] [] rfl rfl rfl (by decide) rfl rfl,
        Expr.tokensOf?_nil]
      rfl
    · exact .ident (by decide)
  have words : Expr.isWord "if".toList = true ∧ Expr.isWord "with".toList = true := by
    decide +kernel
  obtain ⟨_, braced, iteration⟩ :=
    parseObjectLiteral_expressions [("if", "[b,c]"), ("with", " x")]
      (List.forall_mem_cons.mpr ⟨words.1, List.forall_mem_singleton.mpr words.2⟩)
      (List.forall_mem_cons.mpr ⟨⟨_, list⟩, List.forall_mem_singleton.mpr ⟨_, name⟩⟩)
  exact ⟨braced, iteration "[b,c]" "item" _ list (by simp)⟩

end DataBind.Binding
