/-
**Rendering a plan.**

Every step writes markup. An expression that fails counts as undefined; whether it is noted as well
depends on the options. Markup that is inserted from the data is read and written again, and
noted when it cannot be read.

* `renderAll_append`: the steps of a plan write one after the other;
* `Output.append_assoc`: outputs can be joined in any grouping.
-/

import DataBind.Config
import DataBind.Expr.Eval
import DataBind.Markup.Parse
import DataBind.Template.Plan
import DataBind.Text.Search

namespace DataBind.Template

open Markup

/-- What is noted during a render. -/
inductive Notice where
  /-- An expression whose evaluation failed. -/
  | evaluation (source : String) (error : EvalError)
  /-- Markup from the data that cannot be read. -/
  | markup (source : String) (error : MarkupError)

/-- The wording of a notice. -/
def Notice.message : Notice → String
  | .evaluation source error => "evaluating " ++ Text.quoted source ++ ": " ++ error.message
  | .markup source error => "html binding " ++ Text.quoted source ++ ": " ++ error.message

/-- The markup that a render writes, and what it notes, in order. -/
structure Output where
  markup : String
  notices : List Notice

namespace Output

/-- No output. -/
def empty : Output :=
  ⟨"", []⟩

/-- Markup without a notice. -/
def write (markup : String) : Output :=
  ⟨markup, []⟩

/-- One output after another. -/
def append (first second : Output) : Output :=
  ⟨first.markup ++ second.markup, first.notices ++ second.notices⟩

instance : Append Output := ⟨append⟩

/-- Outputs one after another. -/
def join (outputs : List Output) : Output :=
  outputs.foldl append empty

theorem append_def (first second : Output) :
    first ++ second = ⟨first.markup ++ second.markup, first.notices ++ second.notices⟩ := rfl

@[simp] theorem empty_append (output : Output) : empty ++ output = output := by
  simp [append_def, empty]

@[simp] theorem append_empty (output : Output) : output ++ empty = output := by
  simp [append_def, empty]

/-- Outputs can be joined in any grouping. -/
theorem append_assoc (first second third : Output) :
    first ++ second ++ third = first ++ (second ++ third) := by
  simp [append_def, String.append_assoc]

end Output

/-- What a render needs besides the plan and the context. -/
structure Runtime where
  evaluator : Evaluator
  config : Config

namespace Runtime

/-- The value of an expression, undefined if it fails, and what is noted. -/
def evaluate (runtime : Runtime) (context : Context) (expression : Expression) :
    Value × List Notice :=
  match runtime.evaluator expression context with
  | .ok value => (value, [])
  | .error error =>
    (.undefined,
      if runtime.config.warnEval then [.evaluation expression.source error] else [])

/-- The output that a value makes, after what is noted of its expression. -/
def withValue (runtime : Runtime) (context : Context) (expression : Expression)
    (output : Value → Output) : Output :=
  let (value, notices) := runtime.evaluate context expression
  ⟨"", notices⟩ ++ output value

end Runtime

/-! ### The steps that depend on a value -/

/-- An attribute with the text of a value. Undefined, null and false omit it. -/
def attributeOutput (name : String) (value : Value) : Output :=
  match value with
  | .undefined | .null | .bool false => .empty
  | value => .write (attributeText name value.toText)

/-- The escaped text of a value. -/
def textOutput (value : Value) : Output :=
  if value.isNullish then .empty else .write (escape value.toText)

/-- The text of a value, read as markup and written again. -/
def htmlOutput (source : String) (value : Value) : Output :=
  if value.isNullish || value.toText == "" then .empty
  else
    match Markup.parse value.toText with
    | .ok fragment => .write fragment.print
    | .error error => ⟨"", [.markup source error]⟩

/-- The classes whose conditions hold, and what is noted. -/
def conditionalClasses (runtime : Runtime) (context : Context) :
    List (String × Expression) → List String × List Notice
  | [] => ([], [])
  | (names, condition) :: rest =>
    let (value, notices) := runtime.evaluate context condition
    let (others, more) := conditionalClasses runtime context rest
    ((if value.isTruthy then Text.words names else []) ++ others, notices ++ more)

/-- The classes that a binding gives, and what is noted. -/
def dynamicClasses (runtime : Runtime) (context : Context) :
    ClassBinding → List String × List Notice
  | .conditional entries => conditionalClasses runtime context entries
  | .expression names =>
    let (value, notices) := runtime.evaluate context names
    (if value.isTruthy then Text.words value.toText else [], notices)

/-- The class attribute; every class stands in it once. -/
def classesOutput (runtime : Runtime) (context : Context) (fixed : List String)
    (dynamic : ClassBinding) : Output :=
  let (names, notices) := dynamicClasses runtime context dynamic
  ⟨attributeText "class" (" ".intercalate (Text.distinct (fixed ++ names))), notices⟩

/-- A declaration as it stands in a style attribute. -/
def styleText (property value : String) : String :=
  property ++ ":" ++ value ++ ";"

/-- The declarations whose values are truthy, and what is noted. -/
def dynamicDeclarations (runtime : Runtime) (context : Context) :
    List (String × Expression) → List String × List Notice
  | [] => ([], [])
  | (property, expression) :: rest =>
    let (value, notices) := runtime.evaluate context expression
    let (others, more) := dynamicDeclarations runtime context rest
    ((if value.isTruthy then [styleText property value.toText] else []) ++ others,
      notices ++ more)

/-- The style attribute. -/
def stylesOutput (runtime : Runtime) (context : Context) (fixed : List Style.Declaration)
    (dynamic : List (String × Expression)) : Output :=
  let (declarations, notices) := dynamicDeclarations runtime context dynamic
  let literal := fixed.map fun (property, value) => styleText property value
  ⟨attributeText "style" (" ".intercalate (literal ++ declarations)), notices⟩

/-- The items of a value; only arrays have any. -/
def itemsOf : Value → List Value
  | .array _ items => items
  | _ => []

/-! ### Plans -/

mutual

/-- The output of a step in a context. -/
def renderStep (runtime : Runtime) (context : Context) : Step → Output
  | .literal markup | .escapedText markup | .attributes markup | .raw markup => .write markup
  | .attribute name value => runtime.withValue context value (attributeOutput name)
  | .classes fixed dynamic => classesOutput runtime context fixed dynamic
  | .styles fixed dynamic => stylesOutput runtime context fixed dynamic
  | .guarded condition plan =>
    runtime.withValue context condition fun value =>
      if value.isTruthy then renderAll runtime context plan else .empty
  | .repeated items alias? plan =>
    runtime.withValue context items fun value =>
      Output.join ((itemsOf value).mapIdx fun index item =>
        renderAll runtime (context.deriveForIteration item index alias?) plan)
  | .scoped data plan =>
    runtime.withValue context data fun value => renderAll runtime (context.deriveFor value) plan
  | .text value => runtime.withValue context value textOutput
  | .html value => runtime.withValue context value (htmlOutput value.source)

/-- The output of a plan in a context. -/
def renderAll (runtime : Runtime) (context : Context) : List Step → Output
  | [] => .empty
  | step :: rest => renderStep runtime context step ++ renderAll runtime context rest

end

/-- The steps of a plan write one after the other. -/
theorem renderAll_append (runtime : Runtime) (context : Context) (first second : List Step) :
    renderAll runtime context (first ++ second) =
      renderAll runtime context first ++ renderAll runtime context second := by
  induction first with
  | nil => simp [renderAll]
  | cons step rest ih => simp [renderAll, ih, Output.append_assoc]

end DataBind.Template
