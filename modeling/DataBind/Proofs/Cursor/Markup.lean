/-
**The cursor in markup.**

Markup is read in one loop: up to the next `<`, which starts a construct or is text. The text in
front of a construct becomes a node before the construct is read, so that errors come in the order of
the places they are at.

* `flush_eq`: the pending text is the part between the last construct and the cursor;
* `built`: the fragment of a sequence of events after those of a builder;
* `runsTo_scan`: from every place the loop comes to an end, with what is built from the events after
  it;
* `runsTo_parse`: so it does from the start, with the fragment of the markup or its error.
-/

import DataBind.Proofs.Cursor.Construct
import DataBind.Proofs.Markup.Settled

namespace DataBind.Cursor

open DataBind.Text DataBind.Markup Scanned

/-! ### The loop -/

/-- How far markup has been read: the cursor, the start of the pending text, and what has been
built. -/
structure Progress where
  cursor : Nat
  textStart : Nat
  builder : Builder

/-- The outcome of building. -/
def ofAppend {α : Type} : Except AppendError α → Scanned MarkupError α
  | .ok grown => pure grown
  | .error cause => fault (.tree cause)

/-- Adds the pending text, if there is any. -/
def flush (text : List Char) (progress : Progress) : Scanned MarkupError Builder :=
  if progress.textStart < progress.cursor then do
    let pending ← slice text progress.textStart progress.cursor
    ofAppend (progress.builder.append (.text (String.ofList pending)))
  else pure progress.builder

/-- One iteration of the loop over the markup. -/
noncomputable def markupStep (text : List Char) (progress : Progress) :
    Scanned MarkupError (Progress ⊕ Fragment) := do
  let rest ← sliceFrom text progress.cursor
  match placeOf? '<' rest with
  | none =>
    let builder ← flush text { progress with cursor := byteLength text }
    return .inr builder.fragment
  | some ahead =>
    let position := progress.cursor + ahead
    let rest ← sliceFrom text position
    match ← constructKind rest with
    | none => return .inl { progress with cursor := position + 1 }
    | some kind =>
      let builder ← flush text { progress with cursor := position }
      let (event, cursor) ← construct text position rest kind
      let builder ← ofAppend (builder.add event)
      return .inl ⟨cursor, cursor, builder⟩

/-- The fragment of a sequence of events after those of a builder. Building goes on up to the place
where reading stopped. -/
def built (builder : Builder) : List Event × Option MarkupError → Except MarkupError Fragment
  | (events, error) =>
    match events.foldlM Builder.add builder with
    | .error cause => .error (.tree cause)
    | .ok builder =>
      match error with
      | some error => .error error
      | none => .ok builder.fragment

theorem parse_eq (markup : String) : parse markup = built .empty (events markup) := rfl

/-- What is built from one sequence of events after another. -/
theorem built_append (builder : Builder) (first events : List Event) (error : Option MarkupError) :
    built builder (first ++ events, error) =
      match first.foldlM Builder.add builder with
      | .error cause => .error (.tree cause)
      | .ok grown => built grown (events, error) := by
  rw [built, List.foldlM_append]
  cases first.foldlM Builder.add builder with
  | error cause => rfl
  | ok grown => rfl

theorem built_cons (builder : Builder) (event : Event) (events : List Event)
    (error : Option MarkupError) :
    built builder (event :: events, error) =
      match builder.add event with
      | .error cause => .error (.tree cause)
      | .ok grown => built grown (events, error) := by
  rw [built, List.foldlM_cons]
  cases builder.add event with
  | error cause => rfl
  | ok grown => rfl

/-! ### Agreement -/

section Agreement

variable {text pending rest : List Char}

theorem flush_eq (suffix : pending.reverse ++ rest <:+ text) (builder : Builder) :
    flush text ⟨offsetOf text rest, offsetOf text (pending.reverse ++ rest), builder⟩ =
      ofAppend ((pendingText pending).foldlM Builder.add builder) := by
  cases pending with
  | nil => exact if_neg (Nat.lt_irrefl _)
  | cons c others =>
    have nonempty : (c :: others).reverse ≠ [] := by simp
    have passed := byteLength_pos nonempty
    have further := offsetOf_add _ suffix
    rw [flush, if_pos (by simp only; omega), slice_offsetOf suffix, pure_bind]
    simp only [pendingText, List.isEmpty_cons, Bool.false_eq_true, if_false, List.foldlM_cons,
      List.foldlM_nil, bind_pure, Builder.add_text]

/-- At a `<`, a construct is read or the `<` is passed over. -/
theorem markupStep_angle {inner : List Char} (suffix : pending.reverse ++ '<' :: inner <:+ text)
    (builder : Builder) :
    markupStep text
        ⟨offsetOf text ('<' :: inner), offsetOf text (pending.reverse ++ '<' :: inner), builder⟩ =
      match start? inner with
      | none =>
        pure (.inl ⟨offsetOf text inner, offsetOf text (pending.reverse ++ '<' :: inner), builder⟩)
      | some kind =>
        ofAppend ((pendingText pending).foldlM Builder.add builder) >>= fun builder =>
          settled text (offsetOf text ('<' :: inner)) (kind.read inner) >>= fun (event, cursor) =>
            ofAppend (builder.add event) >>= fun builder =>
              pure (.inl ⟨cursor, cursor, builder⟩) := by
  have ahead : '<' :: inner <:+ text := (List.suffix_append _ _).trans suffix
  have here : placeOf? '<' ('<' :: inner) = some 0 := rfl
  simp only [markupStep, sliceFrom_offsetOf ahead, pure_bind, here, Nat.add_zero,
    constructKind_eq]
  cases told : start? inner with
  | none =>
    have further : offsetOf text ('<' :: inner) + 1 = offsetOf text inner := offsetOf_add_cons ahead
    simp only [further]
  | some kind => simp only [flush_eq suffix, construct_eq ahead told]

/-- At the end of the markup the pending text is added. -/
theorem markupStep_nil (suffix : pending.reverse ++ [] <:+ text) (builder : Builder) :
    markupStep text ⟨offsetOf text [], offsetOf text (pending.reverse ++ []), builder⟩ =
      ofAppend ((pendingText pending).foldlM Builder.add builder) >>= fun builder =>
        pure (.inr builder.fragment) := by
  have missing : placeOf? '<' [] = none := rfl
  simp only [markupStep, sliceFrom_offsetOf (List.nil_suffix : [] <:+ text), pure_bind, missing]
  rw [← offsetOf_nil text, flush_eq suffix]

/-- Other characters are passed over on the way to the next `<`. -/
theorem markupStep_other {c : Char} (suffix : c :: rest <:+ text) (other : c ≠ '<')
    (textStart : Nat) (builder : Builder) :
    markupStep text ⟨offsetOf text (c :: rest), textStart, builder⟩ =
      markupStep text ⟨offsetOf text rest, textStart, builder⟩ := by
  have behind : rest <:+ text := (List.suffix_cons c rest).trans suffix
  simp only [markupStep, sliceFrom_offsetOf suffix, sliceFrom_offsetOf behind, pure_bind,
    placeOf?_cons other]
  cases placeOf? '<' rest with
  | none => rfl
  | some ahead => simp only [Option.map_some, ← Nat.add_assoc, offsetOf_add_cons suffix]

theorem exists_start {inner : List Char} {read : Except Unterminated (Event × List Char)}
    (found : readConstruct inner = some read) :
    ∃ kind, start? inner = some kind ∧ kind.read inner = read := by
  rw [readConstruct_eq] at found
  exact Option.map_eq_some_iff.mp found

/-- **From every place the loop over markup comes to an end**, with what is built from the events
after it. -/
theorem runsTo_scan (suffix : pending.reverse ++ rest <:+ text) (builder : Builder) :
    RunsTo Progress.cursor (markupStep text)
      ⟨offsetOf text rest, offsetOf text (pending.reverse ++ rest), builder⟩
      (built builder (scan (byteLength text) pending rest)) := by
  fun_induction scan (byteLength text) pending rest generalizing builder with
  | case1 pending =>
    have stepped := markupStep_nil suffix builder
    rw [built]
    generalize (pendingText pending).foldlM Builder.add builder = flushed at stepped
    cases flushed with
    | error cause => exact .fails stepped
    | ok grown => exact .ends stepped
  | case2 pending inner none ih =>
    have ahead : '<' :: inner <:+ text := (List.suffix_append _ _).trans suffix
    have stepped := markupStep_angle suffix builder
    rw [readConstruct_eq, Option.map_eq_none_iff] at none
    have same : pending.reverse ++ '<' :: inner = ('<' :: pending).reverse ++ inner := by simp
    rw [none, same] at stepped
    rw [same] at suffix ⊢
    refine .goesOn stepped ?_ (ih suffix builder)
    exact offsetOf_lt ahead (List.suffix_cons '<' inner) (Nat.lt_succ_self _)
  | case3 pending inner cause failed =>
    have stepped := markupStep_angle suffix builder
    obtain ⟨kind, told, read⟩ := exists_start failed
    rw [told] at stepped
    simp only [read] at stepped
    rw [built]
    generalize (pendingText pending).foldlM Builder.add builder = flushed at stepped
    cases flushed with
    | error cause => exact .fails stepped
    | ok grown => exact .fails stepped
  | case4 pending inner event after read _ events error scanned ih =>
    have ahead : '<' :: inner <:+ text := (List.suffix_append _ _).trans suffix
    have stepped := markupStep_angle suffix builder
    obtain ⟨kind, told, known⟩ := exists_start read
    rw [told] at stepped
    simp only [known] at stepped
    rw [built_append]
    generalize (pendingText pending).foldlM Builder.add builder = flushed at stepped
    cases flushed with
    | error cause => exact .fails stepped
    | ok grown =>
      have further : after <:+ '<' :: inner :=
        (readConstruct_suffix read).trans (List.suffix_cons '<' inner)
      have forward := offsetOf_lt ahead further (Nat.lt_succ_of_lt (readConstruct_length read))
      simp only [ofAppend, settled, placed, pure_bind] at stepped
      simp only [built_cons]
      generalize grown.add event = added at stepped
      cases added with
      | error cause => exact .fails stepped
      | ok larger =>
        refine .goesOn stepped forward ?_
        rw [← scanned]
        exact ih (further.trans ahead) larger
  | case5 pending c rest other ih =>
    have ahead : c :: rest <:+ text := (List.suffix_append _ _).trans suffix
    have same : pending.reverse ++ c :: rest = (c :: pending).reverse ++ rest := by simp
    rw [same] at suffix ⊢
    refine (ih suffix builder).of_step_eq (markupStep_other ahead other _ builder) ?_
    simp only [← offsetOf_add_cons ahead, Nat.le_add_right]

/-- **The loop over markup comes to an end**, with its fragment or its error. -/
theorem runsTo_parse (markup : String) :
    RunsTo Progress.cursor (markupStep markup.toList) ⟨0, 0, .empty⟩ (parse markup) := by
  have whole : [].reverse ++ markup.toList <:+ markup.toList := List.suffix_rfl
  have runs := runsTo_scan whole .empty
  rw [List.reverse_nil, List.nil_append, offsetOf_self] at runs
  rw [parse_eq]
  exact runs

end Agreement

end DataBind.Cursor
