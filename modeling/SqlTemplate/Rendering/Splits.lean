import SqlTemplate.Rendering.Basic

/-!
# Lists that are split

A report of rendering names the lists that had to be split because they were longer than the limit,
in the order in which they were met. `Trace` follows the course of rendering: it goes on over terms,
splices and lines until a line is dropped or an error ends it, and reads off what was split on the
way. What drops a line is not decided here but taken from the rendering itself.
-/

namespace SqlTemplate

/-- A list that is split: how many values it has, and into how many parts. -/
structure Split where
  values : Nat
  parts : Nat
deriving DecidableEq, Repr

/-- Lists that were split, and whether rendering goes on behind them. -/
structure Trace where
  splits : List Split
  goesOn : Bool
deriving Repr

namespace Trace

def empty : Trace := ⟨[], true⟩

/-- Rendering ends here. -/
def halt : Trace := ⟨[], false⟩

/-- One stretch of rendering after another, as far as the first one goes on. -/
def andThen (t : Trace) (next : Trace) : Trace :=
  if t.goesOn then ⟨t.splits ++ next.splits, next.goesOn⟩ else t

/-- Whether rendering goes on behind something that may end it. -/
def ofResult {α : Type} : Except RenderError α → Trace
  | .ok _ => empty
  | .error _ => halt

end Trace

def Marks.split? (c : Comparison) (count : Nat) (multi : Bool) (sample : Option Text)
    (limit : Int) : Option Split :=
  if (count = 1 ∧ multi = false) ∨ (Membership.ofOperator? c.operator).isNone ∨
      (rows? sample count).isSome ∨ (count : Int) ≤ limit then none
  else
    match parts limit count with
    | .ok sizes => some ⟨count, sizes.length⟩
    | .error _ => none

def Reference.splits (s : Scope) (d : Directive) (kind : Reference) (key : Text) (negated : Bool) :
    List Split :=
  let v := s.parameters.get key
  let negative := s.renderer.negatives.isNegative v
  match kind, d.comparison with
  | .condition, some c =>
    if negative || negated then []
    else (Marks.split? c v.flatten.length v.resolve.isSequence d.sample s.renderer.limit).toList
  | _, _ => []

section Traces

variable [Runtime]

mutual

def Term.trace (s : Scope) (d : Directive) : Term → Trace
  | .reference kind key negated =>
    ⟨kind.splits s d key negated, (Trace.ofResult (kind.evaluate s d key negated)).goesOn⟩
  | .required key => Trace.ofResult (Term.evaluate s d (.required key))
  | .literal _ => .empty
  | .group chain => Term.traceAll s d chain
  | .call name negated inside chain =>
    if s.renderer.registry.contains name then
      let operands := (Term.traceInside s d inside).andThen (Term.traceAll s d chain)
      let applied := Trace.ofResult (Term.evaluate s d (.call name negated inside chain))
      ⟨operands.splits, applied.goesOn⟩
    else .halt

/-- What the terms inside of the parentheses of a call split. -/
def Term.traceInside (s : Scope) (d : Directive) : Option (List Term) → Trace
  | none => .empty
  | some chain => Term.traceAll s d chain

/-- What terms split, one after the other. -/
def Term.traceAll (s : Scope) (d : Directive) : List Term → Trace
  | [] => .empty
  | t :: ts => (Term.trace s d t).andThen (Term.traceAll s d ts)

end

/-- What a directive splits; behind it rendering goes on unless it drops the line. -/
def Directive.trace (s : Scope) (d : Directive) : Trace :=
  let goesOn :=
    match d.evaluate s with
    | .ok c => !c.dropsLine
    | .error _ => false
  (Term.traceAll s d d.expression).andThen ⟨[], goesOn⟩

mutual

/-- What a line splits. A dropped line ends only itself. -/
def Line.trace (s : Scope) : Line → Trace
  | .mk sql first last splices block =>
    let own := Line.traceSplices s splices
    let below :=
      match block with
      | none => .empty
      | some children => Line.traceAll s children
    let goesOn := (Trace.ofResult (Line.render s (.mk sql first last splices block))).goesOn
    ⟨(own.andThen below).splits, goesOn⟩

/-- What splices split; a splice that drops the line ends them. -/
def Line.traceSplices (s : Scope) : List Splice → Trace
  | [] => .empty
  | .directive _ d :: splices => (d.trace s).andThen (Line.traceSplices s splices)
  | .group _ lines :: splices =>
    let content := Line.traceAll s lines
    let goesOn :=
      match Line.renderAll s lines with
      | .ok results => (Block.assemble lines results).isSome || lines.isEmpty
      | .error _ => false
    (content.andThen ⟨[], goesOn⟩).andThen (Line.traceSplices s splices)

/-- What lines split, one after the other. -/
def Line.traceAll (s : Scope) : List Line → Trace
  | [] => .empty
  | l :: ls => (Line.trace s l).andThen (Line.traceAll s ls)

end

end Traces

/-- The lists that rendering a template splits. -/
def Renderer.splits [Runtime] (r : Renderer) (t : Template) (parameters : Parameters) :
    List Split :=
  (Line.traceAll ⟨r, t.resource, parameters⟩ t.lines).splits

end SqlTemplate
