/-
**Two runs of a plan.**

Two runs of a plan with other evaluators and other data agree when they take the same decisions:
which parts are written, how often, and which attributes are omitted. What the steps of a plan write
in two such runs is read alike if its parts are.

* `ConfinedAll`: plans in which data only becomes text and values of attributes;
* `AgreeAll`: two runs take the same decisions;
* `Alike`, `AlikeNames`: two texts leave the same marks, or add the same names;
* `Steady`, `SteadyNames`: steps that write alike in two runs that agree;
* `Modular`: properties of steps that bindings keep, which `Steady` and `Silent` are.
-/

import DataBind.Proofs.Markup.Readable
import DataBind.Proofs.Template.Interpretation

namespace DataBind.Template

open Markup

/-! ### Runs -/

/-- What a plan is rendered with. -/
structure Run where
  runtime : Runtime
  context : Context

namespace Run

/-- The value of an expression. -/
def value (run : Run) (expression : Expression) : Value :=
  (run.runtime.evaluate run.context expression).1

/-- The markup that steps write. -/
def write (run : Run) (steps : List Step) : String :=
  (renderAll run.runtime run.context steps).markup

/-- The run for an item of a repeated part. -/
def item (run : Run) (value : Value) (index : Nat) (alias? : Option String) : Run :=
  ⟨run.runtime, run.context.deriveForIteration value index alias?⟩

/-- The run for other data. -/
def scope (run : Run) (value : Value) : Run :=
  ⟨run.runtime, run.context.deriveFor value⟩

end Run

/-- The run of a template for its data. -/
def run (template : Template) (data : Value) : Run :=
  ⟨template.runtime, Context.root data⟩

/-- Whether a value omits the attribute it is bound to. -/
def isSuppressed : Value → Bool
  | .undefined | .null | .bool false => true
  | _ => false

mutual

/-- **Data only becomes text and values of attributes**: no markup is inserted, and the names of
bound attributes consist of characters of such names. -/
def Confined : Step → Prop
  | .attribute name _ => ∀ c ∈ name.toList, isAttributeNameCharacter c = true
  | .html _ => False
  | .guarded _ plan | .repeated _ _ plan | .scoped _ plan => ConfinedAll plan
  | _ => True

/-- Data only becomes text and values of attributes in a plan. -/
def ConfinedAll : List Step → Prop
  | [] => True
  | step :: rest => Confined step ∧ ConfinedAll rest

end

mutual

/-- **Two runs take the same decisions in a step**: whether a condition holds, how many items there
are, and whether an attribute is omitted. -/
def Agree (first second : Run) : Step → Prop
  | .attribute _ value => isSuppressed (first.value value) = isSuppressed (second.value value)
  | .guarded condition plan =>
    (first.value condition).isTruthy = (second.value condition).isTruthy ∧
      ((first.value condition).isTruthy = true → AgreeAll first second plan)
  | .repeated items alias? plan =>
    (itemsOf (first.value items)).length = (itemsOf (second.value items)).length ∧
      ∀ index item other, (itemsOf (first.value items))[index]? = some item →
        (itemsOf (second.value items))[index]? = some other →
          AgreeAll (first.item item index alias?) (second.item other index alias?) plan
  | .scoped data plan =>
    AgreeAll (first.scope (first.value data)) (second.scope (second.value data)) plan
  | _ => True

/-- Two runs take the same decisions in a plan. -/
def AgreeAll (first second : Run) : List Step → Prop
  | [] => True
  | step :: rest => Agree first second step ∧ AgreeAll first second rest

end

/-! ### Deciding -/

/-- What holds of the items of two lists at each index holds of the pairs of their items. -/
theorem forall_index_iff {α : Type} {left right : List α} (property : Nat → α → α → Prop) :
    (∀ (index : Nat) item other, left[index]? = some item → right[index]? = some other →
      property index item other) ↔
      ∀ entry ∈ (left.zip right).zipIdx, property entry.2 entry.1.1 entry.1.2 := by
  constructor
  · rintro each ⟨⟨item, other⟩, index⟩ member
    obtain ⟨here, there⟩ :=
      List.getElem?_zip_eq_some.mp (List.mk_mem_zipIdx_iff_getElem?.mp member)
    exact each index item other here there
  · intro each index item other here there
    exact each ((item, other), index)
      (List.mk_mem_zipIdx_iff_getElem?.mpr (List.getElem?_zip_eq_some.mpr ⟨here, there⟩))

mutual

/-- Whether data only becomes text and values of attributes can be decided. -/
def decideConfined : (step : Step) → Decidable (Confined step)
  | .literal _ | .escapedText _ | .attributes _ | .raw _ => .isTrue trivial
  | .classes _ _ | .styles _ _ | .text _ => .isTrue trivial
  | .attribute name _ =>
    decidable_of_iff (name.toList.all isAttributeNameCharacter = true) List.all_eq_true
  | .html _ => .isFalse not_false
  | .guarded _ plan => decideConfinedAll plan
  | .repeated _ _ plan => decideConfinedAll plan
  | .scoped _ plan => decideConfinedAll plan

/-- Whether data only becomes text and values of attributes in a plan can be decided. -/
def decideConfinedAll : (steps : List Step) → Decidable (ConfinedAll steps)
  | [] => .isTrue trivial
  | step :: rest => @instDecidableAnd _ _ (decideConfined step) (decideConfinedAll rest)

end

mutual

/-- Whether two runs take the same decisions in a step can be decided. -/
def decideAgree (first second : Run) : (step : Step) → Decidable (Agree first second step)
  | .literal _ | .escapedText _ | .attributes _ | .raw _ => .isTrue trivial
  | .classes _ _ | .styles _ _ | .text _ | .html _ => .isTrue trivial
  | .attribute _ value =>
    inferInstanceAs
      (Decidable (isSuppressed (first.value value) = isSuppressed (second.value value)))
  | .guarded condition plan =>
    have := decideAgreeAll first second plan
    inferInstanceAs (Decidable
      ((first.value condition).isTruthy = (second.value condition).isTruthy ∧
        ((first.value condition).isTruthy = true → AgreeAll first second plan)))
  | .repeated items alias? plan =>
    have := fun (item other : Value) (index : Nat) =>
      decideAgreeAll (first.item item index alias?) (second.item other index alias?) plan
    decidable_of_iff
      ((itemsOf (first.value items)).length = (itemsOf (second.value items)).length ∧
        ∀ entry ∈ ((itemsOf (first.value items)).zip (itemsOf (second.value items))).zipIdx,
          AgreeAll (first.item entry.1.1 entry.2 alias?) (second.item entry.1.2 entry.2 alias?)
            plan)
      (and_congr_right fun _ => (forall_index_iff fun index item other =>
        AgreeAll (first.item item index alias?) (second.item other index alias?) plan).symm)
  | .scoped data plan =>
    decideAgreeAll (first.scope (first.value data)) (second.scope (second.value data)) plan

/-- Whether two runs take the same decisions in a plan can be decided. -/
def decideAgreeAll (first second : Run) :
    (steps : List Step) → Decidable (AgreeAll first second steps)
  | [] => .isTrue trivial
  | step :: rest =>
    @instDecidableAnd _ _ (decideAgree first second step) (decideAgreeAll first second rest)

end

instance (steps : List Step) : Decidable (ConfinedAll steps) :=
  decideConfinedAll steps

instance (first second : Run) (steps : List Step) : Decidable (AgreeAll first second steps) :=
  decideAgreeAll first second steps

/-! ### Joined markup -/

theorem confinedAll_iff {steps : List Step} :
    ConfinedAll steps ↔ ∀ step ∈ steps, Confined step := by
  induction steps with
  | nil => simp [ConfinedAll]
  | cons step rest ih => rw [ConfinedAll, ih, List.forall_mem_cons]

theorem agreeAll_iff {first second : Run} {steps : List Step} :
    AgreeAll first second steps ↔ ∀ step ∈ steps, Agree first second step := by
  induction steps with
  | nil => simp [AgreeAll]
  | cons step rest ih => rw [AgreeAll, ih, List.forall_mem_cons]

/-- Taking in a step keeps the steps that are no markup. -/
theorem mem_extend_singleton {draft : Draft} {step first : Step}
    (plain : ∀ markup, step ≠ .literal markup) (here : step ∈ draft.plan ∨ step = first) :
    step ∈ (draft.extend [first]).plan := by
  cases first
  case literal markup =>
    have old : step ∈ draft.reversed := by
      rcases here with old | wrong
      · exact List.mem_reverse.mp old
      · exact absurd wrong (plain markup)
    show step ∈ (draft.pushLiteral markup).plan
    rw [Draft.plan, List.mem_reverse]
    unfold Draft.pushLiteral
    split
    · rename_i last others same
      rw [same] at old
      rcases List.mem_cons.mp old with wrong | other
      · exact absurd wrong (plain last)
      · exact List.mem_cons_of_mem _ other
    · exact List.mem_cons_of_mem _ old
  all_goals
    show step ∈ (draft.push _).plan
    rw [Draft.plan, Draft.push, List.reverse_cons, List.mem_append, List.mem_singleton]
    exact here

/-- Joining markup keeps the steps that are no markup. -/
theorem mem_merge {steps : List Step} {step : Step} (plain : ∀ markup, step ≠ .literal markup)
    (member : step ∈ steps) : step ∈ merge steps := by
  have extended : ∀ (steps : List Step) (draft : Draft), step ∈ draft.plan ∨ step ∈ steps →
      step ∈ (draft.extend steps).plan := by
    intro steps
    induction steps with
    | nil =>
      rintro draft (here | here)
      · exact here
      · cases here
    | cons first rest ih =>
      intro draft here
      show step ∈ ((draft.extend [first]).extend rest).plan
      rw [List.mem_cons, ← or_assoc] at here
      rcases here with here | later
      · exact ih _ (Or.inl (mem_extend_singleton plain here))
      · exact ih _ (Or.inr later)
  exact extended steps .empty (Or.inr member)

/-- What holds of the steps of a plan and of all markup holds of the steps before joining. -/
theorem forall_mem_of_merge {property : Step → Prop} (markup : ∀ text, property (.literal text))
    {steps : List Step} (merged : ∀ step ∈ merge steps, property step) :
    ∀ step ∈ steps, property step := by
  intro step member
  by_cases literal : ∃ text, step = .literal text
  · obtain ⟨text, rfl⟩ := literal
    exact markup text
  · exact merged step (mem_merge (fun text same => literal ⟨text, same⟩) member)

theorem ConfinedAll.of_merge {steps : List Step} (confined : ConfinedAll (merge steps)) :
    ConfinedAll steps :=
  confinedAll_iff.mpr (forall_mem_of_merge (fun _ => trivial) (confinedAll_iff.mp confined))

theorem AgreeAll.of_merge {first second : Run} {steps : List Step}
    (agree : AgreeAll first second (merge steps)) : AgreeAll first second steps :=
  agreeAll_iff.mpr (forall_mem_of_merge (fun _ => trivial) (agreeAll_iff.mp agree))

/-! ### What steps write -/

namespace Run

variable (run : Run)

theorem markup_withValue (expression : Expression) (output : Value → Output) :
    (run.runtime.withValue run.context expression output).markup =
      (output (run.value expression)).markup := by
  rw [Runtime.withValue]
  exact String.empty_append

theorem markup_join (outputs : List Output) :
    (Output.join outputs).markup = String.join (outputs.map Output.markup) := by
  induction outputs with
  | nil => rfl
  | cons output rest ih =>
    rw [join_cons, List.map_cons, String.join_cons, ← ih]
    rfl

@[simp] theorem write_nil : run.write [] = "" := by
  rw [write, renderAll]
  rfl

@[simp] theorem write_append (first second : List Step) :
    run.write (first ++ second) = run.write first ++ run.write second := by
  rw [write, renderAll_append]
  rfl

theorem write_singleton (step : Step) :
    run.write [step] = (renderStep run.runtime run.context step).markup := by
  rw [write, renderAll_singleton]

@[simp] theorem write_merge (steps : List Step) : run.write (merge steps) = run.write steps := by
  rw [write, renderAll_merge, write]

@[simp] theorem write_literal (markup : String) : run.write [.literal markup] = markup := by
  rw [write_singleton, renderStep]
  rfl

@[simp] theorem write_escapedText (markup : String) :
    run.write [.escapedText markup] = markup := by
  rw [write_singleton, renderStep]
  rfl

@[simp] theorem write_attributes (markup : String) : run.write [.attributes markup] = markup := by
  rw [write_singleton, renderStep]
  rfl

@[simp] theorem write_raw (markup : String) : run.write [.raw markup] = markup := by
  rw [write_singleton, renderStep]
  rfl

theorem write_attribute (name : String) (value : Expression) :
    run.write [.attribute name value] = (attributeOutput name (run.value value)).markup := by
  rw [write_singleton, renderStep, markup_withValue]

theorem write_text (value : Expression) :
    run.write [.text value] = (textOutput (run.value value)).markup := by
  rw [write_singleton, renderStep, markup_withValue]

theorem write_guarded (condition : Expression) (plan : Plan) :
    run.write [.guarded condition plan] =
      if (run.value condition).isTruthy then run.write plan else "" := by
  rw [write_singleton, renderStep, markup_withValue]
  split <;> rfl

theorem write_scoped (data : Expression) (plan : Plan) :
    run.write [.scoped data plan] = (run.scope (run.value data)).write plan := by
  rw [write_singleton, renderStep, markup_withValue]
  rfl

theorem write_repeated (items : Expression) (alias? : Option String) (plan : Plan) :
    run.write [.repeated items alias? plan] =
      String.join ((itemsOf (run.value items)).mapIdx fun index item =>
        (run.item item index alias?).write plan) := by
  rw [write_singleton, renderStep, markup_withValue, markup_join, List.mapIdx_eq_zipIdx_map,
    List.mapIdx_eq_zipIdx_map, List.map_map]
  rfl

end Run

/-! ### Texts that are read alike -/

/-- Two pieces of markup leave the same marks. -/
def Alike (first second : String) : Prop :=
  ∃ marks, Reads first marks ∧ Reads second marks

/-- Two pieces of a start tag add the same names. -/
def AlikeNames (first second : String) : Prop :=
  ∃ names, ReadsNames first names ∧ ReadsNames second names

theorem Alike.empty : Alike "" "" :=
  ⟨[], .empty, .empty⟩

theorem Alike.append {first second third fourth : String} (head : Alike first second)
    (tail : Alike third fourth) : Alike (first ++ third) (second ++ fourth) := by
  obtain ⟨marks, left, right⟩ := head
  obtain ⟨others, leftRest, rightRest⟩ := tail
  exact ⟨marks ++ others, left.append leftRest, right.append rightRest⟩

theorem AlikeNames.empty : AlikeNames "" "" :=
  ⟨[], .empty, .empty⟩

theorem AlikeNames.append {first second third fourth : String} (head : AlikeNames first second)
    (tail : AlikeNames third fourth) : AlikeNames (first ++ third) (second ++ fourth) := by
  obtain ⟨names, left, right⟩ := head
  obtain ⟨others, leftRest, rightRest⟩ := tail
  exact ⟨names ++ others, left.append leftRest, right.append rightRest⟩

/-- As many pieces, each read as its counterpart, are read alike together. -/
theorem Alike.join {firsts seconds : List String} (count : firsts.length = seconds.length)
    (each : ∀ (index : Nat) (first second : String), firsts[index]? = some first →
      seconds[index]? = some second → Alike first second) :
    Alike (String.join firsts) (String.join seconds) := by
  induction firsts generalizing seconds with
  | nil =>
    rw [List.length_eq_zero_iff.mp count.symm]
    exact .empty
  | cons first rest ih =>
    cases seconds with
    | nil => cases count
    | cons second others =>
      rw [String.join_cons, String.join_cons]
      exact (each 0 first second rfl rfl).append
        (ih (Nat.succ.inj count) fun index => each (index + 1))

/-- Text without an opening angle bracket is read as any other such text. -/
theorem alike_of_not_mem {first second : String} (plain : '<' ∉ first.toList)
    (other : '<' ∉ second.toList) : Alike first second :=
  ⟨[], reads_of_not_mem plain, reads_of_not_mem other⟩

section Elements

variable {tag attributes others content between : String}

/-- **Two void elements of one name are read alike** if their attributes are. -/
theorem alike_voidTag (readable : ReadableTag tag) (names : AlikeNames attributes others) :
    Alike ("<" ++ tag ++ attributes ++ " />") ("<" ++ tag ++ others ++ " />") := by
  obtain ⟨found, left, right⟩ := names
  exact ⟨_, reads_voidTag readable left, reads_voidTag readable right⟩

/-- **Two elements of one name are read alike** if their attributes and contents are. What is in a
raw text element may not have an opening angle bracket. -/
theorem alike_element (readable : ReadableTag tag) (names : AlikeNames attributes others)
    (contents : Alike content between)
    (plain : isRawText tag = true → '<' ∉ content.toList ∧ '<' ∉ between.toList) :
    Alike ("<" ++ tag ++ attributes ++ ">" ++ content ++ tagEnd tag)
      ("<" ++ tag ++ others ++ ">" ++ between ++ tagEnd tag) := by
  obtain ⟨found, left, right⟩ := names
  cases raw : isRawText tag with
  | true =>
    obtain ⟨first, second⟩ := plain raw
    have absent : ∀ {inner : String}, '<' ∉ inner.toList →
        ¬ ('<' :: '/' :: tag.toList) <:+: Text.asciiLower inner.toList := fun none inside =>
      none ((Text.mem_asciiLower_iff (by decide)).mp (inside.subset List.mem_cons_self))
    exact ⟨_, reads_rawElement readable raw left (absent first),
      reads_rawElement readable raw right (absent second)⟩
  | false =>
    obtain ⟨marks, inner, outer⟩ := contents
    have ended := (constructs_tagEnd readable).reads
    exact ⟨_, ((reads_startTag readable raw left).append inner).append ended,
      ((reads_startTag readable raw right).append outer).append ended⟩

end Elements

/-! ### Steps that write alike -/

/-- **Steps that write alike in two runs that agree.** -/
def Steady (steps : List Step) : Prop :=
  ∀ first second, ConfinedAll steps → AgreeAll first second steps →
    Alike (first.write steps) (second.write steps)

/-- Steps that write the same attributes, apart from their values, in two runs that agree. -/
def SteadyNames (steps : List Step) : Prop :=
  ∀ first second, ConfinedAll steps → AgreeAll first second steps →
    AlikeNames (first.write steps) (second.write steps)

/-- Steps that write no opening angle bracket. -/
def Silent (steps : List Step) : Prop :=
  ∀ run : Run, ConfinedAll steps → '<' ∉ (run.write steps).toList

theorem confinedAll_append {first second : List Step} :
    ConfinedAll (first ++ second) ↔ ConfinedAll first ∧ ConfinedAll second := by
  simp only [confinedAll_iff, List.forall_mem_append]

theorem agreeAll_append {run other : Run} {first second : List Step} :
    AgreeAll run other (first ++ second) ↔
      AgreeAll run other first ∧ AgreeAll run other second := by
  simp only [agreeAll_iff, List.forall_mem_append]

theorem Steady.append {first second : List Step} (head : Steady first) (tail : Steady second) :
    Steady (first ++ second) := by
  intro run other confined agree
  rw [confinedAll_append] at confined
  rw [agreeAll_append] at agree
  rw [Run.write_append, Run.write_append]
  exact (head run other confined.1 agree.1).append (tail run other confined.2 agree.2)

theorem SteadyNames.append {first second : List Step} (head : SteadyNames first)
    (tail : SteadyNames second) : SteadyNames (first ++ second) := by
  intro run other confined agree
  rw [confinedAll_append] at confined
  rw [agreeAll_append] at agree
  rw [Run.write_append, Run.write_append]
  exact (head run other confined.1 agree.1).append (tail run other confined.2 agree.2)

/-- Steps that always write one piece of markup are steady. -/
theorem steady_of_write {steps : List Step} {markup : String} {marks : List Mark}
    (written : ∀ run : Run, run.write steps = markup) (reads : Reads markup marks) :
    Steady steps := by
  intro run other _ _
  rw [written, written]
  exact ⟨marks, reads, reads⟩

/-- **A property of steps that bindings keep.** -/
structure Modular (property : List Step → Prop) : Prop where
  nil : property []
  merge : ∀ {steps}, property steps → property (merge steps)
  text : ∀ value, property [.text value]
  html : ∀ value, property [.html value]
  guarded : ∀ condition {plan}, property plan → property [.guarded condition plan]
  repeated : ∀ items alias? {plan}, property plan → property [.repeated items alias? plan]
  rescoped : ∀ data {plan}, property plan → property [.scoped data plan]

theorem not_mem_textOutput (value : Value) : '<' ∉ (textOutput value).markup.toList := by
  unfold textOutput
  split
  · exact List.not_mem_nil
  · show '<' ∉ (escape value.toText).toList
    rw [escape, String.toList_ofList]
    exact (not_mem_escape _).1

/-- **Writing alike is kept by bindings.** -/
theorem modular_steady : Modular Steady where
  nil run other _ _ := by
    rw [Run.write_nil, Run.write_nil]
    exact .empty
  merge steady run other confined agree := by
    rw [Run.write_merge, Run.write_merge]
    exact steady run other confined.of_merge agree.of_merge
  text value run other _ _ := by
    rw [Run.write_text, Run.write_text]
    exact alike_of_not_mem (not_mem_textOutput _) (not_mem_textOutput _)
  html value run other confined _ := confined.1.elim
  guarded condition plan steady run other confined agree := by
    obtain ⟨⟨same, inside⟩, _⟩ := agree
    rw [Run.write_guarded, Run.write_guarded, ← same]
    by_cases holds : (run.value condition).isTruthy = true
    · rw [if_pos holds, if_pos holds]
      exact steady run other confined.1 (inside holds)
    · rw [if_neg holds, if_neg holds]
      exact .empty
  repeated items alias? plan steady run other confined agree := by
    obtain ⟨⟨count, inside⟩, _⟩ := agree
    rw [Run.write_repeated, Run.write_repeated]
    refine Alike.join (by simpa using count) fun index first second found also => ?_
    rw [List.getElem?_mapIdx] at found also
    obtain ⟨item, here, rfl⟩ := Option.map_eq_some_iff.mp found
    obtain ⟨counterpart, there, rfl⟩ := Option.map_eq_some_iff.mp also
    exact steady _ _ confined.1 (inside index item counterpart here there)
  rescoped data plan steady run other confined agree := by
    rw [Run.write_scoped, Run.write_scoped]
    exact steady _ _ confined.1 agree.1

/-- **Writing no opening angle bracket is kept by bindings.** -/
theorem modular_silent : Modular Silent where
  nil run _ := by
    rw [Run.write_nil]
    exact List.not_mem_nil
  merge silent run confined := by
    rw [Run.write_merge]
    exact silent run confined.of_merge
  text value run _ := by
    rw [Run.write_text]
    exact not_mem_textOutput _
  html value run confined := confined.1.elim
  guarded condition plan silent run confined := by
    rw [Run.write_guarded]
    split
    · exact silent run confined.1
    · exact List.not_mem_nil
  repeated items alias? plan silent run confined := by
    rw [Run.write_repeated, String.toList_join, List.mem_flatMap]
    rintro ⟨text, member, inside⟩
    obtain ⟨index, bound, rfl⟩ := List.mem_mapIdx.mp member
    exact silent _ confined.1 inside
  rescoped data plan silent run confined := by
    rw [Run.write_scoped]
    exact silent _ confined.1

end DataBind.Template
