/-
**The lexemes of a source.**

A source that can be read is its lexemes with white space around them. Each stands at the offset of
its token and is read as that token wherever white space or nothing follows it, so that the lexemes
keep their tokens when they are set apart. No mark stands where a longer one could.

* `readMark?_eq_some_iff`: a mark is read where no longer one could be;
* `exists_lexeme`: a token is read from its lexeme, and again wherever the lexeme stands apart;
* `LaidOut`, `exists_laidOut`: a text as lexemes with white space around them;
* `LaidOut.increasing`: the offsets increase;
* `Spaced`, `Spaced.tokensOf?`: lexemes with white space between each two;
* `fault_ne_invalidNumber`: no fault is about a number;
* `tokenize_exact`: the layout of every source, and no fault about a number.
-/

import DataBind.Proofs.Expr.Closing
import DataBind.Proofs.Expr.Escapes
import DataBind.Proofs.Expr.Numbers

namespace DataBind.Expr

open DataBind.Text

/-! ### Marks -/

/-- No mark of the table is the beginning of a later one. -/
theorem Punctuation.all_pairwise :
    Punctuation.all.Pairwise fun mark later => ¬ mark.lexeme.toList <+: later.lexeme.toList := by
  decide +kernel

theorem Punctuation.lexeme_injective {mark other : Punctuation}
    (same : mark.lexeme.toList = other.lexeme.toList) : mark = other := by
  revert same
  cases mark <;> cases other <;> decide

/-- White space is in no mark. -/
theorem Punctuation.isBlank_of_mem (mark : Punctuation) :
    ∀ c ∈ mark.lexeme.toList, isBlank c = false := by
  have solid : mark.lexeme.toList.all (fun c => !isBlank c) = true := by
    cases mark <;> decide
  exact fun c member => by simpa using List.all_eq_true.mp solid c member

/-- **A mark is read where no longer one could be.** -/
theorem readMark?_eq_some_iff {text after : List Char} {mark : Punctuation} :
    readMark? text = some (mark, after) ↔ text = mark.lexeme.toList ++ after ∧
      ∀ longer : Punctuation, mark.lexeme.toList <+: longer.lexeme.toList →
        longer.lexeme.toList <+: text → longer = mark := by
  have leads : ∀ found : Punctuation, (afterLead? found.lexeme.toList text).map (found, ·) = none ↔
      ¬ found.lexeme.toList <+: text := by
    intro found
    rw [Option.map_eq_none_iff, Option.eq_none_iff_forall_ne_some]
    constructor
    · rintro none ⟨rest, whole⟩
      exact none rest (afterLead?_eq_some.mpr whole.symm)
    · intro other rest lead
      exact other ⟨rest, (afterLead?_eq_some.mp lead).symm⟩
  rw [readMark?, List.findSome?_eq_some_iff]
  constructor
  · rintro ⟨before, found, later, table, lead, earlier⟩
    obtain ⟨rest, lead, same⟩ := Option.map_eq_some_iff.mp lead
    cases same
    refine ⟨afterLead?_eq_some.mp lead, fun longer starts here => ?_⟩
    have ordered := Punctuation.all_pairwise
    have member := Punctuation.all_complete longer
    rw [table, List.pairwise_append, List.pairwise_cons] at ordered
    rw [table, List.mem_append, List.mem_cons] at member
    rcases member with first | same | last
    · exact absurd here ((leads longer).mp (earlier longer first))
    · exact same
    · exact absurd starts (ordered.2.1.1 longer last)
  · rintro ⟨whole, longest⟩
    obtain ⟨before, later, table⟩ := List.append_of_mem (Punctuation.all_complete mark)
    refine ⟨before, mark, later, table, ?_, fun found first => (leads found).mpr fun here => ?_⟩
    · rw [afterLead?_eq_some.mpr whole]
      rfl
    · have ordered := Punctuation.all_pairwise
      rw [table, List.pairwise_append] at ordered
      have apart := ordered.2.2 found first mark List.mem_cons_self
      rcases List.prefix_or_prefix_of_prefix here ⟨after, whole.symm⟩ with shorter | starts
      · exact apart shorter
      · exact apart (longest found starts here ▸ List.prefix_rfl)

/-! ### Lexemes that stand apart -/

/-- A text that can follow a lexeme set apart: white space first, or nothing. -/
def Apart (text : List Char) : Prop :=
  ∀ c ∈ text.head?, isBlank c = true

theorem apart_nil : Apart [] := nofun

/-- A character class without white space ends where a lexeme stands apart. -/
theorem Apart.stop {text : List Char} {among : Char → Bool} (apart : Apart text)
    (solid : ∀ c, among c = true → isBlank c = false) : ∀ c ∈ text.head?, among c = false := by
  intro c member
  cases inside : among c with
  | false => rfl
  | true => exact absurd (solid c inside) (by rw [apart c member]; exact Bool.noConfusion)

/-- A mark that stands apart is read. -/
theorem readMark?_apart (mark : Punctuation) {other : List Char} (apart : Apart other) :
    readMark? (mark.lexeme.toList ++ other) = some (mark, other) := by
  refine readMark?_eq_some_iff.mpr ⟨rfl, fun longer starts here => ?_⟩
  obtain ⟨tail, whole⟩ := starts
  rw [← whole, List.prefix_append_right_inj] at here
  cases tail with
  | nil => exact Punctuation.lexeme_injective (by rw [← whole, List.append_nil])
  | cons d tail =>
    -- the longer mark would go on with white space
    obtain ⟨rest, rfl⟩ := here
    have blank := apart d rfl
    rw [longer.isBlank_of_mem d (by rw [← whole]; simp)] at blank
    cases blank

/-! ### Tokens that stand apart -/

/-- A lexeme that is read as a token, all of it, wherever it stands apart. -/
def ReadAlone (token : Token) (lexeme : List Char) : Prop :=
  ∃ c rest, lexeme = c :: rest ∧
    ∀ other, Apart other → readToken? c (rest ++ other) = some (token, other)

section Alone

variable {c : Char} {rest other : List Char}

/-- Whether a number starts does not depend on what follows, unless it is with a point. -/
theorem not_startsNumber (different : c ≠ '.') (number : ¬ startsNumber (c :: rest) = true)
    (other : List Char) : ¬ startsNumber (c :: other) = true := by
  have first : ∀ text, startsNumber (c :: text) = c.isDigit := fun text => by
    simp [startsNumber, different]
  rw [first] at number ⊢
  exact number

theorem readAlone_number {amount : Float} (starts : startsNumber (c :: rest) = true)
    (value : Number.readNumber? (spanNumber (c :: rest)).1 = some amount) :
    ReadAlone (.number amount) (spanNumber (c :: rest)).1 := by
  have number := isNumber_spanNumber starts
  generalize (spanNumber (c :: rest)).1 = lexeme at number value
  obtain ⟨d, first, _⟩ := (number.starts []).2
  cases lexeme with
  | nil => cases first
  | cons d text =>
    refine ⟨d, text, rfl, fun other apart => ?_⟩
    rw [readToken?_eq, ← List.cons_append, if_pos (number.starts other).1,
      spanNumber_append_stop number (apart.stop fun _ => isBlank_of_isNumeral), value]
    rfl

theorem exists_readAlone_string {text after : List Char}
    (number : ¬ startsNumber (c :: rest) = true) (quote : c = '"' ∨ c = '\x27')
    (read : readString c rest = .ok (text, after)) :
    ∃ used, rest = used ++ after ∧ ReadAlone (.string (String.ofList text)) (c :: used) := by
  have mark : isStringQuote c = true := by rcases quote with rfl | rfl <;> rfl
  obtain ⟨inner, rfl, written⟩ := exists_written read
  refine ⟨inner ++ [c], (List.append_cons inner c after), c, _, rfl, fun other _ => ?_⟩
  have different : c ≠ '.' := by rcases quote with rfl | rfl <;> decide
  rw [readToken?_eq, if_neg (not_startsNumber different number _), if_pos quote,
    ← List.append_cons, readString_written mark written]
  rfl

theorem readAlone_word (number : ¬ startsNumber (c :: rest) = true)
    (quote : ¬(c = '"' ∨ c = '\x27')) (starts : startsWord c = true) :
    ReadAlone (.word (String.ofList (c :: rest.takeWhile continuesWord)))
      (c :: rest.takeWhile continuesWord) := by
  refine ⟨c, _, rfl, fun other apart => ?_⟩
  have different : c ≠ '.' := by
    rintro rfl
    revert starts
    decide +kernel
  have all : ∀ d ∈ rest.takeWhile continuesWord, continuesWord d = true :=
    fun d member => List.mem_takeWhile_imp member
  have stop := apart.stop fun _ => isBlank_of_continuesWord
  rw [readToken?_eq, if_neg (not_startsNumber different number _), if_neg quote,
    if_pos starts, takeWhile_append_stop all stop, dropWhile_append_stop all stop]

theorem readAlone_mark {mark : Punctuation} {after : List Char}
    (number : ¬ startsNumber (c :: rest) = true) (quote : ¬(c = '"' ∨ c = '\x27'))
    (word : ¬ startsWord c = true) (read : readMark? (c :: rest) = some (mark, after)) :
    ReadAlone (.symbol mark) mark.lexeme.toList := by
  have whole := (readMark?_eq_some_iff.mp read).1
  cases lexeme : mark.lexeme.toList with
  | nil => exact absurd lexeme (by cases mark <;> decide)
  | cons d text =>
    rw [lexeme, List.cons_append, List.cons.injEq] at whole
    obtain ⟨rfl, rfl⟩ := whole
    refine ⟨c, text, rfl, fun other apart => ?_⟩
    have unstarted : ¬ startsNumber (c :: (text ++ other)) = true := by
      by_cases point : c = '.'
      · -- a point is a mark by itself, and no digit is white space
        subst point
        have single : text = [] := by
          revert lexeme
          cases mark <;> simp [Punctuation.lexeme]
        have stop : ∀ d ∈ other.head?, d.isDigit = false :=
          apart.stop fun d digit => isBlank_of_isNumeral (by simp [isNumeral, digit])
        subst single
        cases other with
        | nil => decide
        | cons d others =>
          show ¬ d.isDigit = true
          rw [stop d rfl]
          exact Bool.false_ne_true
      · exact not_startsNumber point number _
    have again := readMark?_apart mark apart
    rw [lexeme, List.cons_append] at again
    rw [readToken?_eq, if_neg unstarted, if_neg quote, if_neg word, again]
    rfl

/-- **A token is read from its lexeme**, and again wherever the lexeme stands apart. -/
theorem exists_readAlone {after : List Char} {token : Token}
    (read : readToken? c rest = some (token, after)) :
    ∃ lexeme, c :: rest = lexeme ++ after ∧ ReadAlone token lexeme := by
  rw [readToken?_eq] at read
  split at read
  · rename_i starts
    obtain ⟨amount, value, same⟩ := Option.map_eq_some_iff.mp read
    cases same
    exact ⟨_, (spanNumber_append _).symm, readAlone_number starts value⟩
  · rename_i number
    split at read
    · rename_i quote
      cases result : readString c rest with
      | error fault =>
        rw [result] at read
        cases read
      | ok taken =>
        rw [result] at read
        cases read
        obtain ⟨used, whole, alone⟩ := exists_readAlone_string number quote result
        exact ⟨c :: used, congrArg (c :: ·) whole, alone⟩
    · rename_i quote
      split at read
      · rename_i starts
        cases read
        refine ⟨_, ?_, readAlone_word number quote starts⟩
        rw [List.cons_append, List.takeWhile_append_dropWhile]
      · rename_i word
        obtain ⟨⟨mark, left⟩, found, same⟩ := Option.map_eq_some_iff.mp read
        cases same
        exact ⟨_, (readMark?_eq_some_iff.mp found).1, readAlone_mark number quote word found⟩

/-- A token that is a mark is read from the table. -/
theorem readMark?_of_readToken? {after : List Char} {mark : Punctuation}
    (read : readToken? c rest = some (.symbol mark, after)) :
    readMark? (c :: rest) = some (mark, after) := by
  rw [readToken?_eq] at read
  split_ifs at read with number quote word
  · obtain ⟨amount, _, same⟩ := Option.map_eq_some_iff.mp read
    cases same
  · obtain ⟨taken, _, same⟩ := Option.map_eq_some_iff.mp read
    cases same
  · cases read
  · obtain ⟨taken, found, same⟩ := Option.map_eq_some_iff.mp read
    cases same
    exact found

/-- **A token has a lexeme**: one of its texts, which is read as the token wherever it stands
apart; and a mark is no beginning of another one that stands there. -/
theorem exists_lexeme {after : List Char} {token : Token}
    (read : readToken? c rest = some (token, after)) :
    ∃ lexeme, c :: rest = lexeme ++ after ∧ Lexeme token lexeme ∧ ReadAlone token lexeme ∧
      ∀ mark, token = .symbol mark → ∀ longer : Punctuation, longer ≠ mark →
        mark.lexeme.toList <+: longer.lexeme.toList →
        ¬ longer.lexeme.toList <+: lexeme ++ after := by
  obtain ⟨lexeme, whole, alone⟩ := exists_readAlone read
  refine ⟨lexeme, whole, ?_, alone, ?_⟩
  · obtain ⟨taken, found, same⟩ := Option.map_eq_some_iff.mp read
    cases same
    cases result : readToken c rest with
    | error fault =>
      rw [result] at found
      cases found
    | ok other =>
      rw [result] at found
      cases found
      obtain ⟨own, split, form⟩ := lexeme_of_readToken result
      rw [List.append_cancel_right (whole.symm.trans split)]
      exact form
  · rintro mark rfl longer other starts here
    rw [← whole] at here
    exact other ((readMark?_eq_some_iff.mp (readMark?_of_readToken? read)).2 longer starts here)

end Alone

/-! ### The layout of a source -/

/-- A token with its offset and its lexeme. -/
structure Piece where
  spanned : Spanned
  lexeme : List Char

/-- **A text as lexemes with white space around them.** Each stands at the offset of its token, and
a mark is no beginning of another one that stands there. -/
inductive LaidOut : Nat → List Char → List Piece → Prop
  | nil {offset : Nat} : LaidOut offset [] []
  | blank {offset : Nat} {c : Char} {rest : List Char} {pieces : List Piece} :
      isBlank c = true → LaidOut (offset + c.utf8Size) rest pieces →
      LaidOut offset (c :: rest) pieces
  | lexeme {offset : Nat} {token : Token} {lexeme rest : List Char} {pieces : List Piece} :
      Lexeme token lexeme →
      (∀ mark, token = .symbol mark → ∀ longer : Punctuation, longer ≠ mark →
        mark.lexeme.toList <+: longer.lexeme.toList → ¬ longer.lexeme.toList <+: lexeme ++ rest) →
      LaidOut (offset + byteLength lexeme) rest pieces →
      LaidOut offset (lexeme ++ rest) (⟨⟨token, offset⟩, lexeme⟩ :: pieces)

/-- A token at the start of a text, and what is read behind it. -/
theorem tokensFrom_cons {c : Char} {rest after : List Char} {token : Token} (offset : Nat)
    (solid : isBlank c = false) (read : readToken? c rest = some (token, after)) :
    tokensFrom offset (c :: rest) =
      (tokensFrom (offset + (byteLength (c :: rest) - byteLength after)) after).map
        (⟨token, offset⟩ :: ·) := by
  rw [tokensFrom, if_neg (by rw [solid]; exact Bool.false_ne_true)]
  obtain ⟨taken, found, same⟩ := Option.map_eq_some_iff.mp read
  cases same
  cases result : readToken c rest with
  | error fault =>
    rw [result] at found
    cases found
  | ok other =>
    rw [result] at found
    cases found
    rfl

/-- **A source that can be read is laid out**, and its lexemes are read as its tokens wherever they
stand apart. -/
theorem exists_laidOut {offset : Nat} {text : List Char} {tokens : List Spanned}
    (read : tokensFrom offset text = .ok tokens) :
    ∃ pieces, pieces.map Piece.spanned = tokens ∧ LaidOut offset text pieces ∧
      ∀ piece ∈ pieces, ReadAlone piece.spanned.token piece.lexeme := by
  fun_induction tokensFrom offset text generalizing tokens with
  | case1 =>
    cases read
    exact ⟨[], rfl, .nil, List.forall_mem_nil _⟩
  | case2 _ c rest blank ih =>
    obtain ⟨pieces, spanned, laid, apart⟩ := ih read
    exact ⟨pieces, spanned, .blank blank laid, apart⟩
  | case3 => cases read
  | case4 offset c rest _ taken result =>
    rename_i ih
    obtain ⟨others, later, same⟩ := exists_of_map_eq_ok read
    cases same
    obtain ⟨pieces, spanned, laid, apart⟩ := ih later
    have found : readToken? c rest = some (taken.value, taken.rest) := by
      rw [readToken?, result]
      rfl
    obtain ⟨lexeme, whole, form, alone, longest⟩ := exists_lexeme found
    have width : byteLength (c :: rest) - byteLength taken.rest = byteLength lexeme :=
      Nat.sub_eq_of_eq_add ((congrArg byteLength whole).trans (byteLength_append _ _))
    refine ⟨⟨⟨taken.value, offset⟩, lexeme⟩ :: pieces, congrArg _ spanned, ?_,
      List.forall_mem_cons.mpr ⟨alone, apart⟩⟩
    generalize taken.value = token at form longest ⊢
    rw [whole]
    exact .lexeme form longest (by rw [← width]; exact laid)

theorem Lexeme.byteLength_pos {token : Token} {text : List Char} (lexeme : Lexeme token text) :
    0 < byteLength text := by
  cases text with
  | nil => exact absurd rfl lexeme.ne_nil
  | cons c text => exact Nat.add_pos_left c.utf8Size_pos _

/-- **Offsets increase** from one lexeme to the next. -/
theorem LaidOut.increasing {offset : Nat} {text : List Char} {pieces : List Piece}
    (laid : LaidOut offset text pieces) :
    (∀ piece ∈ pieces, offset ≤ piece.spanned.offset) ∧
      (pieces.map Piece.spanned).Pairwise fun token later => token.offset < later.offset := by
  induction laid with
  | nil => exact ⟨List.forall_mem_nil _, List.Pairwise.nil⟩
  | blank _ _ ih =>
    exact ⟨fun piece member => le_trans (Nat.le_add_right _ _) (ih.1 piece member), ih.2⟩
  | @lexeme offset token lexeme rest pieces form _ _ ih =>
    have behind : ∀ piece ∈ pieces, offset < piece.spanned.offset := fun piece member =>
      lt_of_lt_of_le (Nat.lt_add_of_pos_right form.byteLength_pos) (ih.1 piece member)
    refine ⟨List.forall_mem_cons.mpr ⟨le_rfl, fun piece member => (behind piece member).le⟩, ?_⟩
    exact List.pairwise_cons.mpr ⟨List.forall_mem_map.mpr behind, ih.2⟩

/-! ### Lexemes set apart -/

/-- A lexeme that stands apart is the first token. -/
theorem ReadAlone.tokensOf? {token : Token} {lexeme other : List Char}
    (alone : ReadAlone token lexeme) (solid : ∀ c ∈ lexeme.head?, isBlank c = false)
    (apart : Apart other) :
    tokensOf? (lexeme ++ other) = (Expr.tokensOf? other).map (token :: ·) := by
  obtain ⟨c, rest, rfl, read⟩ := alone
  rw [List.cons_append, tokensOf?_cons (solid c rfl), read other apart]
  rfl

/-- **A lexeme on its own** is read as its token. -/
theorem ReadAlone.tokenize {token : Token} {lexeme : List Char} (alone : ReadAlone token lexeme)
    (solid : ∀ c ∈ lexeme.head?, isBlank c = false) :
    tokenize (String.ofList lexeme) = .ok [⟨token, 0⟩] := by
  obtain ⟨c, rest, rfl, read⟩ := alone
  have single := read [] apart_nil
  rw [List.append_nil] at single
  rw [Expr.tokenize, String.toList_ofList, tokensFrom_cons 0 (solid c rfl) single, tokensFrom]
  rfl

/-- Lexemes with white space between each two. -/
inductive Spaced : List (List Char) → List Char → Prop
  | nil : Spaced [] []
  | single {lexeme : List Char} : Spaced [lexeme] lexeme
  | cons {lexeme gap next text : List Char} {others : List (List Char)} :
      gap ≠ [] → (∀ c ∈ gap, isBlank c = true) → Spaced (next :: others) text →
      Spaced (lexeme :: next :: others) (lexeme ++ (gap ++ text))

theorem tokensOf?_blanks {blank : List Char} (all : ∀ c ∈ blank, isBlank c = true)
    (text : List Char) : tokensOf? (blank ++ text) = tokensOf? text := by
  induction blank with
  | nil => rfl
  | cons c blank ih =>
    obtain ⟨first, others⟩ := List.forall_mem_cons.mp all
    rw [List.cons_append, tokensOf?_blank first, ih others]

/-- **Lexemes set apart** are read as the tokens that they are read as alone. -/
theorem Spaced.tokensOf? {pieces : List Piece} {text : List Char}
    (spaced : Spaced (pieces.map Piece.lexeme) text)
    (solid : ∀ piece ∈ pieces, ∀ c ∈ piece.lexeme.head?, isBlank c = false)
    (alone : ∀ piece ∈ pieces, ReadAlone piece.spanned.token piece.lexeme) :
    tokensOf? text = some (pieces.map fun piece => piece.spanned.token) := by
  induction pieces generalizing text with
  | nil =>
    cases spaced
    exact tokensOf?_nil
  | cons piece pieces ih =>
    obtain ⟨here, later⟩ := List.forall_mem_cons.mp solid
    obtain ⟨own, others⟩ := List.forall_mem_cons.mp alone
    cases pieces with
    | nil =>
      cases spaced
      have read := own.tokensOf? here apart_nil
      rw [List.append_nil, tokensOf?_nil] at read
      exact read
    | cons next pieces =>
      cases spaced with
      | @cons _ gap _ text _ nonempty blank spaced =>
        have apart : Apart (gap ++ text) := by
          cases gap with
          | nil => exact absurd rfl nonempty
          | cons d gap => exact fun c member => by cases member; exact blank _ List.mem_cons_self
        rw [own.tokensOf? here apart, tokensOf?_blanks blank, ih spaced later others]
        rfl

/-! ### Faults -/

/-- A result that fails after a map has failed before it. -/
theorem eq_error_of_map {ε α β : Type} {f : α → β} {result : Except ε α} {error : ε}
    (failed : result.map f = .error error) : result = .error error := by
  cases result with
  | error other =>
    cases failed
    rfl
  | ok value => cases failed

/-- No fault of a string is about a number. -/
theorem string_ne_invalidNumber {quote : Char} {text : List Char} {fault : SyntaxFault}
    (read : readString quote text = .error fault) (lexeme : String) :
    fault ≠ .invalidNumber lexeme := by
  rintro rfl
  fun_induction readString quote text with
  | case1 => cases read
  | case2 => cases read
  | case3 tail other escape =>
    cases read
    unfold readEscape at escape
    split at escape
    · cases escape
    · split at escape <;> cases escape
    · cases escape
  | case4 _ _ _ _ _ _ ih => exact ih (eq_error_of_map read)
  | case5 _ _ _ _ ih => exact ih (eq_error_of_map read)

/-- **No fault of the reader is about a number.** -/
theorem fault_ne_invalidNumber {c : Char} {rest : List Char} {fault : SyntaxFault}
    (read : readToken c rest = .error fault) (lexeme : String) : fault ≠ .invalidNumber lexeme := by
  rintro rfl
  unfold readToken at read
  split at read
  · rename_i starts
    obtain ⟨amount, value⟩ := exists_readNumber? (isNumber_spanNumber starts)
    simp only at read
    split at read
    · cases read
    · rename_i none
      rw [value] at none
      cases none
  · split at read
    · split at read
      · rename_i failed
        cases read
        exact string_ne_invalidNumber failed lexeme rfl
      · cases read
    · split at read
      · cases read
      · split at read <;> cases read

theorem tokensFrom_ne_invalidNumber {offset : Nat} {text : List Char} {error : SyntaxError}
    (read : tokensFrom offset text = .error error) (lexeme : String) :
    error.fault ≠ .invalidNumber lexeme := by
  fun_induction tokensFrom offset text with
  | case1 => cases read
  | case2 _ _ _ _ ih => exact ih read
  | case3 _ _ _ _ _ failed =>
    cases read
    exact fault_ne_invalidNumber failed lexeme
  | case4 =>
    rename_i ih
    exact ih (eq_error_of_map read)

/-! ### Sources -/

/-- What starts a lexeme is no white space. -/
theorem Lexeme.solid {token : Token} {text : List Char} (lexeme : Lexeme token text) :
    ∀ c ∈ text.head?, isBlank c = false := by
  intro c first
  cases text with
  | nil => cases first
  | cons d rest =>
    cases first
    exact solid_of_trimStart lexeme.trimmed.ends.1

/-- No lexeme of a layout starts with white space. -/
theorem LaidOut.solid {offset : Nat} {text : List Char} {pieces : List Piece}
    (laid : LaidOut offset text pieces) :
    ∀ piece ∈ pieces, ∀ c ∈ piece.lexeme.head?, isBlank c = false := by
  induction laid with
  | nil => exact List.forall_mem_nil _
  | blank _ _ ih => exact ih
  | lexeme form _ _ ih => exact List.forall_mem_cons.mpr ⟨form.solid, ih⟩

/-- **The layout of every source.** A source that can be read is its lexemes with white space around
them, at the offsets of their tokens, which increase; a mark is no beginning of another one that
stands there. Each lexeme is read as its token on its own, and with white space between each two
all of them are read as the same tokens. A source that cannot be read has another fault than a
number. -/
theorem tokenize_exact (source : String) :
    (∀ tokens, tokenize source = .ok tokens →
      (tokens.Pairwise fun token later => token.offset < later.offset) ∧
      ∃ pieces, pieces.map Piece.spanned = tokens ∧ LaidOut 0 source.toList pieces ∧
        (∀ piece ∈ pieces,
          tokenize (String.ofList piece.lexeme) = .ok [⟨piece.spanned.token, 0⟩]) ∧
        ∀ text, Spaced (pieces.map Piece.lexeme) text →
          ∃ others, tokenize (String.ofList text) = .ok others ∧
            others.map Spanned.token = tokens.map Spanned.token) ∧
    ∀ error, tokenize source = .error error →
      ∀ lexeme, error.fault ≠ .invalidNumber lexeme := by
  refine ⟨fun tokens read => ?_, fun error failed => tokensFrom_ne_invalidNumber failed⟩
  obtain ⟨pieces, rfl, laid, alone⟩ := exists_laidOut read
  refine ⟨laid.increasing.2, pieces, rfl, laid, fun piece member => ?_, fun text spaced => ?_⟩
  · exact (alone piece member).tokenize (laid.solid piece member)
  · obtain ⟨others, found, same⟩ := Option.map_eq_some_iff.mp (spaced.tokensOf? laid.solid alone)
    refine ⟨others, ?_, by rw [same, List.map_map]; rfl⟩
    rw [tokenize, String.toList_ofList]
    cases result : tokensFrom 0 text with
    | error error =>
      rw [result] at found
      cases found
    | ok read =>
      rw [result] at found
      cases found
      rfl

/-- The layout of ` a>=b`, where the mark is not read as `>`. -/
theorem tokenize_exact_comparison :
    ∃ pieces, pieces.map Piece.spanned =
        [⟨.word "a", 1⟩, ⟨.symbol .greaterEqual, 2⟩, ⟨.word "b", 4⟩] ∧
      LaidOut 0 " a>=b".toList pieces := by
  have first : readToken? 'a' ['>', '=', 'b'] = some (.word "a", ['>', '=', 'b']) :=
    readToken?_word rfl rfl (by decide)
  have second : readToken? '>' ['=', 'b'] = some (.symbol .greaterEqual, ['b']) :=
    readToken?_mark rfl rfl (by decide) rfl
  have third : readToken? 'b' [] = some (.word "b", []) :=
    readToken?_word rfl rfl (by decide)
  have read : tokenize " a>=b" =
      .ok [⟨.word "a", 1⟩, ⟨.symbol .greaterEqual, 2⟩, ⟨.word "b", 4⟩] := by
    rw [tokenize]
    show tokensFrom 0 [' ', 'a', '>', '=', 'b'] = _
    rw [tokensFrom_blank 0 _ rfl, tokensFrom_cons _ rfl first, tokensFrom_cons _ rfl second,
      tokensFrom_cons _ rfl third, tokensFrom]
    rfl
  obtain ⟨_, pieces, spanned, laid, _⟩ := (tokenize_exact " a>=b").1 _ read
  exact ⟨pieces, spanned, laid⟩

end DataBind.Expr
