/-
**Templates without bindings.**

A template in which nothing is bound writes its own markup back, whatever the data. Only void
elements are closed differently: printing a fragment closes them with `/>`, a template with ` />`.

* `Tree.writeAll`: a forest as markup, its void elements closed in a given way;
* `printAll_eq_writeAll`: printing is writing with void elements closed with `/>`;
* `Literal`: no element has the binding attribute, and no comment is a marker;
* `assemble_of_literal`: the steps of a forest in which nothing is bound;
* `render_of_literal`: a literal template is compiled, and writes its markup.
-/

import DataBind.Proofs.Template.Interpretation

namespace DataBind

namespace Markup.Tree

mutual

/-- A tree as markup, its void elements closed in a given way. -/
def write (closer : String) : Tree → String
  | .node _ (.element tag attributes) children =>
    if isVoid tag then tagStart tag attributes ++ closer
    else tagStart tag attributes ++ ">" ++ writeAll closer children ++ tagEnd tag
  | .node _ (.text text) _ => escape text
  | .node _ (.comment text) _ => commentText text
  | .node _ (.raw tag attributes content) _ => rawText tag attributes content
  | .node _ (.declaration text) _ => declarationText text

/-- A forest as markup, its void elements closed in a given way. -/
def writeAll (closer : String) : List Tree → String
  | [] => ""
  | tree :: rest => write closer tree ++ writeAll closer rest

end

/-- **Printing closes void elements with `/>`.** -/
theorem printAll_eq_writeAll (nodes : List Tree) : printAll nodes = writeAll "/>" nodes := by
  induction nodes using forestInduction with
  | nil => rw [printAll, writeAll]
  | cons id content children rest below later =>
    rw [printAll, writeAll, later]
    cases content with
    | element tag attributes => rw [print, write, below]
    | text _ => rw [print, write]
    | comment _ => rw [print, write]
    | raw _ _ _ => rw [print, write]
    | declaration _ => rw [print, write]

end Markup.Tree

namespace Template

open Markup Markup.Tree Block Checked

variable {config : Config}

/-- **Nothing is bound**: no node is a marker, and no element has the binding attribute. -/
def Literal (config : Config) (nodes : List Tree) : Prop :=
  ∀ tree ∈ subtreesAll nodes, directive? config tree = none ∧
    tree.content.attribute? config.bindingAttribute = none

instance (config : Config) (nodes : List Tree) : Decidable (Literal config nodes) :=
  inferInstanceAs (Decidable (∀ tree ∈ subtreesAll nodes, _ ∧ _))

theorem Literal.cons {tree : Tree} {rest : List Tree} (literal : Literal config (tree :: rest)) :
    (directive? config tree = none ∧
        tree.content.attribute? config.bindingAttribute = none) ∧
      Literal config tree.children ∧ Literal config rest := by
  unfold Literal at literal ⊢
  rw [subtreesAll_cons, List.forall_mem_cons, List.forall_mem_append] at literal
  exact literal

theorem nested_of_literal {nodes : List Tree} (literal : Literal config nodes) :
    Nested config false nodes := by
  unfold Nested
  induction nodes using forestInduction with
  | nil => rfl
  | cons id content children rest below later =>
    obtain ⟨⟨plain, _⟩, inside, others⟩ := literal.cons
    rw [nestedFrom_plain plain, Bool.and_eq_true]
    exact ⟨below inside, later others⟩

/-- **The steps of a node that is not bound** write its markup. -/
theorem nodeSteps_of_literal {node : Tree} {inside : List Step}
    (plain : directive? config node = none)
    (unbound : node.content.attribute? config.bindingAttribute = none)
    (written : ∀ runtime context,
      renderAll runtime context inside = .write (writeAll " />" node.children)) :
    ∃ steps, nodeSteps config (assembled config) (pure inside) node = pure steps ∧
      ∀ runtime context, renderAll runtime context steps = .write (write " />" node) := by
  obtain ⟨id, content, children⟩ := node
  cases content with
  | text text =>
    refine ⟨_, rfl, fun runtime context => ?_⟩
    rw [renderAll_singleton, renderStep, write]
  | raw tag attributes content =>
    refine ⟨_, rfl, fun runtime context => ?_⟩
    rw [renderAll_singleton, renderStep, write]
  | declaration text =>
    refine ⟨_, rfl, fun runtime context => ?_⟩
    rw [renderAll_singleton, renderStep, write]
  | comment text =>
    have said : Binding.parseDirective text config = none := plain
    refine ⟨[.literal (commentText text)], ?_, fun runtime context => ?_⟩
    · rw [nodeSteps, said]
    · rw [renderAll_singleton, renderStep, write]
  | element tag attributes =>
    have missing : attributes.lookup config.bindingAttribute = none := unbound
    rw [nodeSteps, missing]
    by_cases void : isVoid tag = true
    · refine ⟨[.literal (literalTag tag attributes)], if_pos void, fun runtime context => ?_⟩
      rw [renderAll_singleton, renderStep, write, literalTag, if_pos void, if_pos void]
    · refine ⟨[.literal (literalTag tag attributes)] ++ (inside ++ [.literal (tagEnd tag)]), ?_,
        fun runtime context => ?_⟩
      · simp only [if_neg void, both_pure]
      · have children : renderAll runtime context inside = .write (writeAll " />" children) :=
          written runtime context
        rw [renderAll_append, renderAll_append, children, renderAll_singleton,
          renderAll_singleton, renderStep, renderStep, literalTag, write, if_neg void, if_neg void]
        simp only [write_append, Output.append_assoc]

/-- **The steps of a literal forest** write its markup. -/
theorem assemble_of_literal {nodes : List Tree} (literal : Literal config nodes) :
    ∃ steps, assemble config nodes = pure steps ∧ ∀ runtime context,
      renderAll runtime context steps = .write (writeAll " />" nodes) := by
  induction nodes using forestInduction with
  | nil =>
    refine ⟨[], assemble_nil, fun runtime context => ?_⟩
    rw [renderAll, writeAll]
    rfl
  | cons id content children rest below later =>
    obtain ⟨⟨plain, unbound⟩, inside, others⟩ := literal.cons
    obtain ⟨more, restMade, restWritten⟩ := later others
    obtain ⟨inner, childrenMade, childrenWritten⟩ := below inside
    have word : ∀ binding,
        directive? config (.node id content children) ≠ some (.opening binding) := by
      rw [plain]
      simp
    obtain ⟨steps, made, written⟩ := nodeSteps_of_literal plain unbound childrenWritten
    refine ⟨steps ++ more, ?_, fun runtime context => ?_⟩
    · rw [assemble_cons word, Tree.children, childrenMade, made, restMade, both_pure]
    · rw [renderAll_append, written, restWritten, writeAll, write_append]

/-- **A literal template is compiled without a warning and writes its own markup**, whatever the
evaluator and the data: what printing its fragment gives, but for void elements, which printing
closes with `/>` and the template with ` />`. -/
theorem render_of_literal (evaluator : Evaluator) {config : Config} {markup : String}
    {fragment : Fragment} (parsed : Markup.parse markup = .ok fragment)
    (literal : Literal config fragment.rootTrees) :
    fragment.print = writeAll "/>" fragment.rootTrees ∧
      ∃ template, ofMarkup evaluator config markup = ⟨[], .ok template⟩ ∧ ∀ data,
        template.render data = .write (writeAll " />" fragment.rootTrees) := by
  have grown := grown_of_parse parsed
  obtain ⟨steps, made, written⟩ := assemble_of_literal literal
  have planned : planOf config fragment.rootTrees = pure (merge steps) := by
    rw [planOf_of_nested grown.distinct grown.leafy (nested_of_literal literal), assembled, made]
    rfl
  refine ⟨printAll_eq_writeAll _, ⟨merge steps, config, evaluator, []⟩, ?_, fun data => ?_⟩
  · rw [ofMarkup, parsed]
    show ofTrees evaluator config fragment.rootTrees = _
    rw [ofTrees, planned]
    rfl
  · show renderAll ⟨evaluator, config⟩ (Context.root data) (merge steps) = _
    rw [renderAll_merge, written]

/-- A page with a declaration, comments, style, a script without an end tag, void elements, a
stray end tag and an attribute that binds only where names may conflict. -/
def unboundPage : String :=
  "<!DOCTYPE html><!-- ko if: a --><style>a > b</style><script src=x /><P data-bind='text: a'>" ++
    "1 < 2<br>3</div><img alt=\"<\"></p><!--/ko-->"

/-- A page that is not bound is written as it was printed, but for its void elements. -/
theorem render_of_literal_unboundPage : ∃ fragment template,
    Markup.parse unboundPage = .ok fragment ∧
    ofMarkup CommandLine.evaluator ⟨true, false⟩ unboundPage = ⟨[], .ok template⟩ ∧
    fragment.print = "<!DOCTYPE html><!-- ko if: a --><style>a > b</style><script src=\"x\">" ++
      "</script><p data-bind=\"text: a\">1 &lt; 2<br/>3<img alt=\"&lt;\"/></p><!-- /ko -->" ∧
    ∀ data, template.render data = .write ("<!DOCTYPE html><!-- ko if: a --><style>a > b</style>" ++
      "<script src=\"x\"></script><p data-bind=\"text: a\">1 &lt; 2<br />3<img alt=\"&lt;\" />" ++
      "</p><!-- /ko -->") := by
  have reads : ((Markup.parse unboundPage).toOption.any fun fragment : Fragment => decide (
      Literal ⟨true, false⟩ fragment.rootTrees ∧
      writeAll "/>" fragment.rootTrees = "<!DOCTYPE html><!-- ko if: a -->" ++
        "<style>a > b</style><script src=\"x\"></script><p data-bind=\"text: a\">" ++
        "1 &lt; 2<br/>3<img alt=\"&lt;\"/></p><!-- /ko -->" ∧
      writeAll " />" fragment.rootTrees = "<!DOCTYPE html><!-- ko if: a -->" ++
        "<style>a > b</style><script src=\"x\"></script><p data-bind=\"text: a\">" ++
        "1 &lt; 2<br />3<img alt=\"&lt;\" /></p><!-- /ko -->")) = true := by decide +kernel
  obtain ⟨fragment, parsed, tested⟩ := exists_of_parse_any reads
  obtain ⟨literal, printed, written⟩ := of_decide_eq_true tested
  obtain ⟨same, template, compiled, rendered⟩ :=
    render_of_literal CommandLine.evaluator parsed literal
  refine ⟨fragment, template, parsed, compiled, ?_, fun data => ?_⟩
  · rw [same, printed]
    rfl
  · rw [rendered, written]
    rfl

end Template

end DataBind
