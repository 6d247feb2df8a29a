import SqlTemplate.Parameters
import SqlTemplate.Rendering.Application
import SqlTemplate.Rendering.Connective
import SqlTemplate.Template.Basic

/-!
# Rendering

A renderer turns a template and parameters into a statement and the values to bind to its marks. The
directives of a line decide whether the line is dropped and what goes where they stood. A line with
a parenthesised span that renders nothing is dropped as well. The texts of the lines that are left
are joined with single spaces, and connectives that would be left over at an end of a block of lines
are removed: `Block.assemble` is this cleaning, on the results of the lines alone.
-/

namespace SqlTemplate

/-- A piece of a statement, and the values to bind to its marks. -/
structure Fragment where
  sql : Text
  values : List Value
deriving Repr

namespace Fragment

def empty : Fragment := ⟨[], []⟩

def append (f g : Fragment) : Fragment := ⟨f.sql ++ g.sql, f.values ++ g.values⟩

instance : Append Fragment := ⟨append⟩

@[simp] theorem sql_append (f g : Fragment) : (f ++ g).sql = f.sql ++ g.sql := rfl

@[simp] theorem values_append (f g : Fragment) : (f ++ g).values = f.values ++ g.values := rfl

end Fragment

/-- How templates are rendered: what counts as absent, which functions are known, and how many
values a list may have. -/
structure Renderer where
  negatives : Negatives
  registry : Registry
  limit : Int
deriving Repr

namespace Renderer

/-- The longest list that is not split. -/
def standardLimit : Int := 1000

/-- The renderer for which nothing is set. -/
def standard : Renderer := ⟨.none, .standard, standardLimit⟩

/-- A renderer for which further values are negative. -/
def withNegatives (r : Renderer) (values : List Value) : Renderer :=
  { r with negatives := r.negatives.extend values }

/-- A renderer for which the empty text is negative. -/
def emptyAsNegative (r : Renderer) : Renderer := r.withNegatives [.text []]

end Renderer

/-- What a template is rendered with. -/
structure Scope where
  renderer : Renderer
  resource : Option Text
  parameters : Parameters

/-- What a reference contributes to a directive. -/
def Reference.evaluate (s : Scope) (d : Directive) (kind : Reference) (key : Text)
    (negated : Bool) : Except RenderError Contribution :=
  let v := s.parameters.get key
  let negative := s.renderer.negatives.isNegative v
  if negative != negated then .ok (.drop false)
  else if kind = .presence ∨ negative then .ok .keep
  else
    match kind, d.comparison with
    | .condition, some comparison =>
      let multi := v.resolve.isSequence
      match Marks.condition comparison v.flatten.length multi d.sample s.renderer.limit with
      | .ok t => .ok { Contribution.ofValues v.flatten with replacement := some t }
      | .error .zeroLimit => .error .zeroLimit
    | _, _ => .ok (.ofValues v.flatten)

section Terms

variable [Runtime]

mutual

/-- What a term contributes to a directive. -/
def Term.evaluate (s : Scope) (d : Directive) : Term → Except RenderError Contribution
  | .reference kind key negated => kind.evaluate s d key negated
  | .required key =>
    if s.renderer.negatives.isNegative (s.parameters.get key) then
      .error (.missingParameter key s.resource)
    else .ok (.ofValues (s.parameters.get key).flatten)
  | .literal t => .ok (.ofText t)
  | .group chain => do return .merge (← Term.evaluateAll s d chain)
  | .call name negated inside chain =>
    match s.renderer.registry.find? name with
    | none => .error (.unknownFunction name)
    | some f => do
      let inside ← Term.evaluateInside s d inside
      let chain ← Term.evaluateAll s d chain
      f.apply s.renderer.negatives negated inside chain

/-- What the terms inside of the parentheses of a call contribute. -/
def Term.evaluateInside (s : Scope) (d : Directive) :
    Option (List Term) → Except RenderError (Option (List Contribution))
  | none => .ok none
  | some chain => do return some (← Term.evaluateAll s d chain)

def Term.evaluateAll (s : Scope) (d : Directive) :
    List Term → Except RenderError (List Contribution)
  | [] => .ok []
  | t :: ts => do
    let c ← Term.evaluate s d t
    let cs ← Term.evaluateAll s d ts
    return c :: cs

end

end Terms

namespace Directive

/-- What a directive contributes to its line. -/
def evaluate [Runtime] (s : Scope) (d : Directive) : Except RenderError Contribution := do
  return .merge (← Term.evaluateAll s d d.expression)

/-- What goes where a directive stood. -/
def output (d : Directive) (c : Contribution) : Fragment :=
  if c.disposed then .empty
  else if c.keepsSample then
    let sample := d.sample.getD []
    match d.comparison with
    | some comparison => ⟨comparison.subject ++ ' ' :: comparison.operator ++ ' ' :: sample, []⟩
    | none => ⟨sample, []⟩
  else
    match c.replacement, d.sample with
    | some t, _ => ⟨t, c.values⟩
    | none, none => ⟨[], c.values⟩
    | none, some sample => ⟨Marks.bind c.values.length (some sample), c.values⟩

end Directive

namespace Contribution

/-- Whether the line of a directive with this contribution is dropped. -/
def dropsLine (c : Contribution) : Bool := !c.keepsLine && !c.disposed

end Contribution

namespace Block

/-- The text of the result of a line; a dropped line has none. -/
def textOf (result : Option Fragment) : Text := (result.map Fragment.sql).getD []

/-- The values of the result of a line. -/
def valuesOf (result : Option Fragment) : List Value := (result.map Fragment.values).getD []

/-- Changes the first text that is not empty. -/
def editFirst (f : Text → Text) : List Text → List Text
  | [] => []
  | t :: ts => if t.isEmpty then t :: editFirst f ts else f t :: ts

/-- Changes the last text that is not empty. -/
def editLast (f : Text → Text) (ts : List Text) : List Text := (editFirst f ts.reverse).reverse

/-- Removes the connective in front of the first text, if a first line is missing that was written
without one. -/
def cleanStart (lines : List Line) (texts : List Text) : List Text :=
  match lines.head?, texts.head? with
  | some l, some [] =>
    if Connective.startsWith l.sql then texts else editFirst Connective.dropLeading texts
  | _, _ => texts

/-- Removes the connective behind the last text, if a last line is missing that was written without
one. -/
def cleanEnd (lines : List Line) (texts : List Text) : List Text :=
  match lines.getLast?, texts.getLast? with
  | some l, some [] =>
    if Connective.endsWith l.sql then texts else editLast Connective.dropTrailing texts
  | _, _ => texts

/-- Texts that are not empty, joined with single spaces. -/
def join (texts : List Text) : Text :=
  List.intercalate [' '] (texts.filter fun t => !t.isEmpty)

/-- The result of a block of lines: nothing if there is neither text nor value. -/
def assemble (lines : List Line) (results : List (Option Fragment)) : Option Fragment :=
  let values := results.flatMap valuesOf
  let texts := results.map textOf
  if texts.all List.isEmpty then
    if values.isEmpty then none else some ⟨[], values⟩
  else some ⟨join (cleanEnd lines (cleanStart lines texts)), values⟩

/-- The result of a line with the result of the lines that belong to it. -/
def attach (own : Fragment) (children : Option Fragment) : Option Fragment :=
  let below := children.getD .empty
  let values := own.values ++ below.values
  if below.sql.isEmpty then
    let text := strip (Connective.dropIntroduction own.sql)
    if text.isEmpty && values.isEmpty then none else some ⟨text, values⟩
  else
    some ⟨if own.sql.isEmpty then below.sql else own.sql ++ ' ' :: below.sql, values⟩

end Block

section Lines

variable [Runtime]

mutual

/-- The result of a line, or nothing if it is dropped. -/
def Line.render (s : Scope) : Line → Except RenderError (Option Fragment)
  | .mk sql _ _ splices block => do
    match ← Line.renderSplices s 0 sql splices with
    | none => return none
    | some own =>
      let own : Fragment := { own with sql := strip own.sql }
      match block with
      | none => return some own
      | some children =>
        if children.isEmpty then return some own
        else
          let results ← Line.renderAll s children
          return Block.attach own (Block.assemble children results)

/-- The rest `rest` of the text of a line, which begins at the offset `from`, with the output of the
splices in it, or nothing if one of them drops the line. -/
def Line.renderSplices (s : Scope) (start : Nat) (rest : Text) :
    List Splice → Except RenderError (Option Fragment)
  | [] => .ok (some ⟨rest, []⟩)
  | .directive offset d :: splices => do
    let before : Fragment := ⟨rest.take (offset - start), []⟩
    let c ← d.evaluate s
    if c.dropsLine then return none
    else
      let after ← Line.renderSplices s offset (rest.drop (offset - start)) splices
      return after.map fun f => before ++ d.output c ++ f
  | .group offset lines :: splices => do
    let before : Fragment := ⟨rest.take (offset - start), []⟩
    let results ← Line.renderAll s lines
    match Block.assemble lines results, lines with
    | none, _ :: _ => return none
    | content, _ =>
      let after ← Line.renderSplices s offset (rest.drop (offset - start)) splices
      return after.map fun f => before ++ content.getD .empty ++ f

/-- The results of lines, one by one. -/
def Line.renderAll (s : Scope) : List Line → Except RenderError (List (Option Fragment))
  | [] => .ok []
  | l :: ls => do
    let result ← Line.render s l
    let results ← Line.renderAll s ls
    return result :: results

end

end Lines

namespace Renderer

/-- The statement that a template becomes with the given parameters, and the values to bind. -/
def render [Runtime] (r : Renderer) (t : Template) (parameters : Parameters) :
    Except RenderError Fragment := do
  let results ← Line.renderAll ⟨r, t.resource, parameters⟩ t.lines
  return (Block.assemble t.lines results).getD .empty

end Renderer

end SqlTemplate
