/-
**Expressions written as tokens.**

An expression is written with parentheses only where it stands at a tighter level than its own. The
grammar derives it from what is written, so that the parser reads it back.

* `write`: the tokens of an expression;
* `Writable`: expressions that tokens can be written for: every literal is a primitive value, and no
  name is a reserved word;
* `derives_write`: what is written derives the expression;
* `writable_of_derives`: the expressions that tokens derive are writable;
* `ofTokens_exact`: the parser and the grammar agree, and what is written is read back.
-/

import DataBind.Proofs.Expr.Parsing

namespace DataBind.Expr

/-! ### Writing -/

/-- The level of the expression that an operator makes. -/
def Operator.home : Operator → Level
  | .logical .either | .logical .otherwise => .disjunction
  | .logical .both => .conjunction
  | .binary .equal | .binary .notEqual | .binary .equalStrict | .binary .notEqualStrict => .equality
  | .binary .less | .binary .lessEqual | .binary .greater | .binary .greaterEqual => .relational
  | .binary .add | .binary .subtract => .additive
  | .binary .multiply | .binary .divide | .binary .remainder => .multiplicative

/-- The tightest level of an expression. -/
def level : Expr → Level
  | .conditional _ _ _ => .conditional
  | .binary op _ _ => Operator.home (.binary op)
  | .logical op _ _ => Operator.home (.logical op)
  | .unary _ _ => .unary
  | .member _ _ | .index _ _ | .call _ _ => .access
  | .literal _ | .ident _ | .array _ | .object _ => .primary

/-- The tokens of an expression of one level where one of another is required. -/
def enclose (required own : Level) (tokens : List Token) : List Token :=
  if required.rank ≤ own.rank then tokens
  else .symbol .openParen :: (tokens ++ [.symbol .closeParen])

/-- The token of a primitive value. -/
def valueTokens : Value → List Token
  | .number amount => [.number amount]
  | .string text => [.string text]
  | .bool true => [.word "true"]
  | .bool false => [.word "false"]
  | .null => [.word "null"]
  | .undefined => [.word "undefined"]
  | _ => []

mutual

/-- The tokens of an expression. -/
def write : Expr → List Token
  | .literal value => valueTokens value
  | .ident name => [.word name]
  | .array items => .symbol .openBracket :: (writeItems items ++ [.symbol .closeBracket])
  | .object entries => .symbol .openBrace :: (writeEntries entries ++ [.symbol .closeBrace])
  | .member base property =>
    enclose .access base.level (write base) ++ [.symbol .dot, .word property]
  | .index base key =>
    enclose .access base.level (write base) ++
      .symbol .openBracket :: (write key ++ [.symbol .closeBracket])
  | .call callee arguments =>
    enclose .access callee.level (write callee) ++
      .symbol .openParen :: (writeItems arguments ++ [.symbol .closeParen])
  | .unary op operand => unaryToken op :: enclose .unary operand.level (write operand)
  | .binary op left right =>
    let own := Operator.home (.binary op)
    enclose own left.level (write left) ++
      .symbol (Operator.mark (.binary op)) :: enclose own.next right.level (write right)
  | .logical op left right =>
    let own := Operator.home (.logical op)
    enclose own left.level (write left) ++
      .symbol (Operator.mark (.logical op)) :: enclose own.next right.level (write right)
  | .conditional test yes no =>
    enclose .disjunction test.level (write test) ++
      .symbol .question :: (write yes ++ .symbol .colon :: write no)

/-- Expressions with commas between them. -/
def writeItems : List Expr → List Token
  | [] => []
  | [item] => write item
  | item :: next :: rest => write item ++ .symbol .comma :: writeItems (next :: rest)

/-- Entries with commas between them, their keys as strings. -/
def writeEntries : List (String × Expr) → List Token
  | [] => []
  | [(property, value)] => .string property :: .symbol .colon :: write value
  | (property, value) :: next :: rest =>
    .string property :: .symbol .colon ::
      (write value ++ .symbol .comma :: writeEntries (next :: rest))

end

/-- The expressions that tokens can be written for. -/
inductive Writable : Expr → Prop
  | number (amount : Float) : Writable (.literal (.number amount))
  | string (text : String) : Writable (.literal (.string text))
  | keyword {word : String} {value : Value} :
      (word, value) ∈ keywords → Writable (.literal value)
  | name {name : String} : name ∉ reserved → Writable (.ident name)
  | array {items : List Expr} : (∀ item ∈ items, Writable item) → Writable (.array items)
  | object {entries : List (String × Expr)} :
      (∀ entry ∈ entries, Writable entry.2) → Writable (.object entries)
  | member {base : Expr} (property : String) : Writable base → Writable (.member base property)
  | index {base key : Expr} : Writable base → Writable key → Writable (.index base key)
  | call {callee : Expr} {arguments : List Expr} :
      Writable callee → (∀ argument ∈ arguments, Writable argument) →
      Writable (.call callee arguments)
  | unary (op : UnaryOp) {operand : Expr} : Writable operand → Writable (.unary op operand)
  | joined (operator : Operator) {left right : Expr} :
      Writable left → Writable right → Writable (operator.apply left right)
  | conditional {test yes no : Expr} :
      Writable test → Writable yes → Writable no → Writable (.conditional test yes no)

/-! ### What is written is derived -/

theorem Operator.mem_home (operator : Operator) : operator ∈ operator.home.operators := by
  cases operator with
  | binary op => cases op <;> decide
  | logical op => cases op <;> decide

theorem level_apply (operator : Operator) (left right : Expr) :
    (operator.apply left right).level = operator.home := by
  cases operator <;> rfl

theorem write_apply (operator : Operator) (left right : Expr) :
    write (operator.apply left right) =
      enclose operator.home left.level (write left) ++
        .symbol operator.mark :: enclose operator.home.next right.level (write right) := by
  cases operator <;> rw [Operator.apply, write]

/-- Enclosed where it is required, an expression is of the required level. -/
theorem derives_enclose {required own : Level} {tokens : List Token} {value : Expr}
    (derives : Derives own tokens value) :
    Derives required (enclose required own tokens) value := by
  unfold enclose
  by_cases fits : required.rank ≤ own.rank
  · rw [if_pos fits]
    exact derives.loosen fits
  · rw [if_neg fits]
    have whole : Derives .conditional tokens value := derives.loosen (Nat.zero_le _)
    refine (Derives.parentheses whole).loosen ?_
    cases required <;> decide

theorem listed_writeItems (items : List Expr) : Listed (items.map write) (writeItems items) := by
  induction items with
  | nil => exact .empty
  | cons item rest ih =>
    cases rest with
    | nil => exact .last _
    | cons next rest => exact .more ih

/-- An entry as it is written. -/
def writtenEntry (entry : String × Expr) : Entry :=
  ⟨.string entry.1, entry.1, write entry.2, entry.2⟩

theorem listed_writeEntries (entries : List (String × Expr)) :
    Listed ((entries.map writtenEntry).map Entry.written) (writeEntries entries) := by
  induction entries with
  | nil => exact .empty
  | cons entry rest ih =>
    obtain ⟨property, value⟩ := entry
    cases rest with
    | nil => exact .last _
    | cons next rest => exact .more ih

/-- Items that are derived from what is written for them. -/
theorem map_snd_written (items : List Expr) :
    (items.map fun item => (write item, item)).map Prod.snd = items := by
  rw [List.map_map]
  exact List.map_id items

theorem map_fst_written (items : List Expr) :
    (items.map fun item => (write item, item)).map Prod.fst = items.map write := by
  rw [List.map_map]
  rfl

theorem map_property_written (entries : List (String × Expr)) :
    ((entries.map writtenEntry).map fun entry => (entry.property, entry.value)) = entries := by
  rw [List.map_map]
  exact List.map_id entries

/-- **What is written derives the expression**, at its own level. -/
theorem derives_write {value : Expr} (writable : Writable value) :
    Derives value.level (write value) value := by
  have loose : ∀ {expression : Expr}, Derives expression.level (write expression) expression →
      Derives .conditional (write expression) expression := fun derives =>
    derives.loosen (Nat.zero_le _)
  have items : ∀ {items : List Expr},
      (∀ item ∈ items, Derives item.level (write item) item) →
      ∀ pair ∈ items.map fun item => (write item, item), Derives .conditional pair.1 pair.2 := by
    intro items all pair member
    obtain ⟨item, inside, rfl⟩ := List.mem_map.mp member
    exact loose (all item inside)
  induction writable with
  | number amount => rw [write]; exact .number amount
  | string text => rw [write]; exact .string text
  | @keyword word value member =>
    rw [write]
    have written : valueTokens value = [.word word] := by
      simp only [keywords, List.mem_cons, Prod.mk.injEq, List.not_mem_nil, or_false] at member
      rcases member with ⟨rfl, rfl⟩ | ⟨rfl, rfl⟩ | ⟨rfl, rfl⟩ | ⟨rfl, rfl⟩ <;> rfl
    rw [written]
    exact .keyword member
  | name free => rw [write]; exact .name free
  | @array parts _ ih =>
    rw [write]
    have listed := map_fst_written parts ▸ listed_writeItems parts
    have derives := Derives.array (items ih) listed
    rw [map_snd_written] at derives
    exact derives
  | @object entries _ ih =>
    rw [write]
    have keyed : ∀ entry ∈ entries.map writtenEntry, Keyed entry.key entry.property := by
      intro entry member
      obtain ⟨⟨property, value⟩, _, rfl⟩ := List.mem_map.mp member
      exact .string property
    have values : ∀ entry ∈ entries.map writtenEntry,
        Derives .conditional entry.tokens entry.value := by
      intro entry member
      obtain ⟨pair, inside, rfl⟩ := List.mem_map.mp member
      exact loose (ih pair inside)
    have derives := Derives.object keyed values (listed_writeEntries entries)
    rw [map_property_written] at derives
    exact derives
  | member property _ ih => rw [write]; exact .member property (derives_enclose ih)
  | index _ _ ih keyIh => rw [write]; exact .index (derives_enclose ih) (loose keyIh)
  | @call callee arguments _ _ ih argumentsIh =>
    rw [write]
    have listed := map_fst_written arguments ▸ listed_writeItems arguments
    have derives := Derives.call (derives_enclose ih) (items argumentsIh) listed
    rw [map_snd_written] at derives
    exact derives
  | unary op _ ih => rw [write]; exact .unary (derives_enclose ih)
  | joined operator _ _ left right =>
    rw [level_apply, write_apply]
    exact .joined operator.mem_home (derives_enclose left) (derives_enclose right)
  | conditional _ _ _ test yes no =>
    rw [write]
    exact .conditional (derives_enclose test) (loose yes) (loose no)

/-- The expressions that tokens derive are writable. -/
theorem writable_of_derives {level : Level} {tokens : List Token} {value : Expr}
    (derives : Derives level tokens value) : Writable value := by
  induction derives with
  | tighter _ ih => exact ih
  | conditional _ _ _ test yes no => exact .conditional test yes no
  | joined _ _ _ left right => exact .joined _ left right
  | unary _ ih => exact .unary _ ih
  | member property _ ih => exact .member property ih
  | index _ _ ih keyIh => exact .index ih keyIh
  | call _ _ _ ih argumentsIh => exact .call ih (List.forall_mem_map.mpr argumentsIh)
  | number amount => exact .number amount
  | string text => exact .string text
  | keyword member => exact .keyword member
  | name free => exact .name free
  | parentheses _ ih => exact ih
  | array _ _ ih => exact .array (List.forall_mem_map.mpr ih)
  | object _ _ _ ih => exact .object (List.forall_mem_map.mpr ih)

/-! ### The parser and the grammar -/

/-- **The parser accepts exactly the grammar**: it gives an expression if and only if the tokens
derive it, no tokens derive two, and every expression of the language is read back from what is
written for it. -/
theorem ofTokens_exact :
    (∀ finish tokens value, ofTokens finish tokens = .ok value ↔
      Derives .conditional (tokens.map Spanned.token) value) ∧
    (∀ tokens value other, Derives .conditional tokens value → Derives .conditional tokens other →
      value = other) ∧
    ∀ value, ((∃ tokens, Derives .conditional tokens value) ↔ Writable value) ∧
      (Writable value → ∀ finish tokens, tokens.map Spanned.token = write value →
        ofTokens finish tokens = .ok value) := by
  have written : ∀ value, Writable value → Derives .conditional (write value) value :=
    fun value writable => (derives_write writable).loosen (Nat.zero_le _)
  refine ⟨fun finish tokens value => ofTokens_eq_ok_iff, fun tokens value other => Derives.unique,
    fun value => ⟨⟨?_, fun writable => ⟨_, written value writable⟩⟩, ?_⟩⟩
  · rintro ⟨tokens, derives⟩
    exact writable_of_derives derives
  · intro writable finish tokens same
    exact ofTokens_eq_ok_iff.mpr (same ▸ written value writable)

/-- A conditional with a sum in a product, a call and an object, which needs parentheses twice. -/
def sample : Expr :=
  .conditional (.logical .either (.ident "a") (.conditional (.ident "b") (.ident "c") (.ident "d")))
    (.binary .multiply (.binary .add (.ident "a") (.unary .typeOf (.ident "b")))
      (.call (.member (.ident "c") "typeof") [.literal .null, .array []]))
    (.object [("k", .index (.ident "a") (.literal (.bool true)))])

/-- It is written with parentheses around its inner conditional and its sum, and read back. -/
theorem ofTokens_exact_sample :
    write sample = [.word "a", .symbol .either, .symbol .openParen, .word "b", .symbol .question,
      .word "c", .symbol .colon, .word "d", .symbol .closeParen, .symbol .question,
      .symbol .openParen, .word "a", .symbol .plus, .word "typeof", .word "b",
      .symbol .closeParen, .symbol .star, .word "c", .symbol .dot, .word "typeof",
      .symbol .openParen, .word "null", .symbol .comma, .symbol .openBracket,
      .symbol .closeBracket, .symbol .closeParen, .symbol .colon, .symbol .openBrace, .string "k",
      .symbol .colon, .word "a", .symbol .openBracket, .word "true", .symbol .closeBracket,
      .symbol .closeBrace] ∧
    ofTokens 0 ((write sample).map fun token => ⟨token, 0⟩) = .ok sample := by
  have name : ∀ {name : String}, name ∉ reserved → Writable (.ident name) := .name
  have writable : Writable sample := by
    refine .conditional (.joined (.logical .either) (name (by decide)) (.conditional
      (name (by decide)) (name (by decide)) (name (by decide)))) (.joined (.binary .multiply)
        (.joined (.binary .add) (name (by decide)) (.unary .typeOf (name (by decide))))
        (.call (.member _ (name (by decide))) ?_)) (.object ?_)
    · intro argument member
      simp only [List.mem_cons, List.not_mem_nil, or_false] at member
      rcases member with rfl | rfl
      · exact .keyword (List.mem_cons_of_mem _ (List.mem_cons_of_mem _ List.mem_cons_self))
      · exact .array (by simp)
    · intro entry member
      cases List.mem_singleton.mp member
      exact .index (name (by decide)) (.keyword List.mem_cons_self)
  refine ⟨rfl, (ofTokens_exact.2.2 sample).2 writable 0 _ ?_⟩
  rw [List.map_map]
  exact List.map_id _

end DataBind.Expr
