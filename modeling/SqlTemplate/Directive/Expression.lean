import SqlTemplate.Directive.Term
import SqlTemplate.Directive.Token
import SqlTemplate.Function.Registry

/-!
# Compiling directives

The tokens of a directive are read from left to right. `Unfinished` is what has been read so far:
the chain of the directive itself, and the groups and calls that are still open, the innermost one
first. A bar finishes the innermost open call, if the innermost open term is one, and means nothing
otherwise. A closing parenthesis first finishes the calls that are open inside of it. A call is
checked against the registry when it is finished.
-/

namespace SqlTemplate

namespace Function

/-- What is wrong with a call of a function under a name. Conditional functions need a condition,
inside of their parentheses or as their first operand. -/
def problem? (f : Function) (name : Text) (inside : Option (List Term)) (chain : List Term) :
    Option Problem :=
  match f with
  | ifPresent | ifOutput =>
    if inside.isNone && chain.isEmpty then some (.missingCondition name) else none
  | _ => none

end Function

/-- A group or a call that is not finished, with the terms read so far. -/
inductive OpenTerm where
  | group (chain : List Term)
  /-- The parentheses right behind the name of a function. -/
  | inside (name : Text) (negated : Bool) (chain : List Term)
  /-- The operands of a function. -/
  | operands (name : Text) (negated : Bool) (inside : Option (List Term)) (chain : List Term)

namespace OpenTerm

/-- An open term with further terms read. -/
def append (more : List Term) : OpenTerm → OpenTerm
  | group chain => group (chain ++ more)
  | inside name negated chain => inside name negated (chain ++ more)
  | operands name negated ins chain => operands name negated ins (chain ++ more)

end OpenTerm

/-- A finished call, if its function is known and it is a valid call of it. -/
def Term.ofCall (registry : Registry) (name : Text) (negated : Bool) (inside : Option (List Term))
    (chain : List Term) : Except Problem Term :=
  match registry.find? name with
  | none => .error (.unknownFunction name)
  | some f =>
    match f.problem? name inside chain with
    | some problem => .error problem
    | none => .ok (.call name negated inside chain)

/-- A reference with the given sign. A parameter that is required cannot be negated. -/
def Term.ofKey (sigil : Option Sigil) (negated : Bool) (key : Text) : Except Problem Term :=
  match sigil with
  | none | some .dollar => .ok (.reference .param key negated)
  | some .ampersand => .ok (.reference .presence key negated)
  | some .question => .ok (.reference .condition key negated)
  | some .atSign => if negated then .error .negatedRequired else .ok (.required key)

/-- What has been read of a directive. -/
structure Unfinished where
  opened : List OpenTerm
  chain : List Term

namespace Unfinished

def start : Unfinished := ⟨[], []⟩

def push (u : Unfinished) (t : Term) : Unfinished :=
  match u.opened with
  | [] => ⟨[], u.chain ++ [t]⟩
  | o :: opened => ⟨o.append [t] :: opened, u.chain⟩

def enter (u : Unfinished) (o : OpenTerm) : Unfinished := ⟨o :: u.opened, u.chain⟩

/-- Finishes the calls whose operands are being read, from the innermost one on, and appends `more`
to what is open then. -/
def settle (registry : Registry) (chain : List Term) :
    List Term → List OpenTerm → Except Problem Unfinished
  | more, [] => .ok ⟨[], chain ++ more⟩
  | more, .operands name negated inside operands :: opened =>
    match Term.ofCall registry name negated inside (operands ++ more) with
    | .ok call => settle registry chain [call] opened
    | .error problem => .error problem
  | more, o :: opened => .ok ⟨o.append more :: opened, chain⟩

def close (registry : Registry) (u : Unfinished) : Except Problem Unfinished :=
  match settle registry u.chain [] u.opened with
  | .error problem => .error problem
  | .ok ⟨.group chain :: opened, outer⟩ => .ok (push ⟨opened, outer⟩ (.group chain))
  | .ok ⟨.inside name negated chain :: opened, outer⟩ =>
    .ok ⟨.operands name negated (some chain) [] :: opened, outer⟩
  | .ok _ => .error .unbalancedClosing

def bar (registry : Registry) (u : Unfinished) : Except Problem Unfinished :=
  match u.opened with
  | .operands name negated inside operands :: opened =>
    match Term.ofCall registry name negated inside operands with
    | .ok call => .ok (push ⟨opened, u.chain⟩ call)
    | .error problem => .error problem
  | _ => .ok u

/-- What the end of a directive does. -/
def finish (registry : Registry) (u : Unfinished) : Except Problem Expression :=
  match settle registry u.chain [] u.opened with
  | .error problem => .error problem
  | .ok ⟨[], chain⟩ => if chain.isEmpty then .error .emptyDirective else .ok chain
  | .ok _ => .error .missingClosing

/-- Reads the tokens of a directive to their end. -/
def read (registry : Registry) (u : Unfinished) : List Placed → Except Problem Expression
  | [] => u.finish registry
  | p :: ps =>
    match p.token with
    | .literal q body =>
      read registry (u.push (.literal (Quoted.decodeBody q.char body.dropLast))) ps
    | .colon body => read registry (u.push (.literal (strip body))) ps
    | .opening => read registry (u.enter (.group [])) ps
    | .closing =>
      match u.close registry with
      | .ok u => read registry u ps
      | .error problem => .error problem
    | .bar _ =>
      match u.bar registry with
      | .ok u => read registry u ps
      | .error problem => .error problem
    | .function _ negated name =>
      match ps with
      | [] => read registry (u.enter (.operands name negated none [])) []
      | q :: qs =>
        if q.token = .opening ∧ q.start = p.stop then
          read registry (u.enter (.inside name negated [])) qs
        else read registry (u.enter (.operands name negated none [])) (q :: qs)
    | .key sigil negated key =>
      match Term.ofKey sigil negated key with
      | .ok t => read registry (u.push t) ps
      | .error problem => .error problem

end Unfinished

namespace Expression

def compile (registry : Registry) (source : Text) : Except Problem Expression :=
  match tokens source with
  | .ok tokens => Unfinished.start.read registry tokens
  | .error problem => .error problem

end Expression

end SqlTemplate
