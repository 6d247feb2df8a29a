import SqlTemplate.Proofs.Attempt
import SqlTemplate.Proofs.Directive.Printing

/-!
# Compiling directives by descent

The tokens of a directive can be read by functions that call each other, one for each kind of term,
with what is left of the tokens as their cursor. `Descent.term` has no case for a token that begins
no term, and nothing bounds how deep the functions call each other. They end all the same, without
coming to such a token, and compile what is compiled from left to right (`Descent.ends_compile`).
-/

namespace SqlTemplate

namespace Unfinished

variable {registry : Registry} {u : Unfinished} {name : Text} {negated : Bool}
  {inside : Option (List Term)} {operands : List Term}

/-- The innermost open term is no call whose operands are read, so a bar means nothing. -/
def IsOutsideCall (u : Unfinished) : Prop :=
  ∀ name negated inside operands, OpenTerm.operands name negated inside operands ∉ u.opened.head?

theorem IsOutsideCall.push (h : u.IsOutsideCall) (t : Term) : (u.push t).IsOutsideCall := by
  obtain ⟨opened, chain⟩ := u
  cases opened with
  | nil => exact h
  | cons o opened =>
      intro name negated inside operands heq
      cases o with
      | operands n b i c => exact h n b i c rfl
      | _ => exact absurd heq (by simp [Unfinished.push, OpenTerm.append])

theorem IsOutsideCall.bar (h : u.IsOutsideCall) : u.bar registry = .ok u := by
  obtain ⟨opened, chain⟩ := u
  cases opened with
  | nil => rfl
  | cons o opened =>
      cases o with
      | operands n b i c => exact absurd rfl (h n b i c)
      | _ => rfl

/-- A call is settled by finishing it and settling what is open around it. -/
theorem settle_operands (registry : Registry) (u : Unfinished) (name : Text) (negated : Bool)
    (inside : Option (List Term)) (operands : List Term) :
    settle registry (u.enter (.operands name negated inside operands)).chain []
        (u.enter (.operands name negated inside operands)).opened =
      match Term.ofCall registry name negated inside operands with
      | .ok t => settle registry (u.push t).chain [] (u.push t).opened
      | .error problem => .error problem := by
  rw [enter, settle, List.append_nil]
  cases Term.ofCall registry name negated inside operands with
  | error problem => rfl
  | ok t =>
      obtain ⟨opened, chain⟩ := u
      cases opened with
      | nil => simp [push, settle]
      | cons o opened => cases o <;> simp [push, settle, OpenTerm.append]

theorem finish_operands (registry : Registry) (u : Unfinished) (name : Text) (negated : Bool)
    (inside : Option (List Term)) (operands : List Term) :
    (u.enter (.operands name negated inside operands)).finish registry =
      match Term.ofCall registry name negated inside operands with
      | .ok t => (u.push t).finish registry
      | .error problem => .error problem := by
  rw [finish, settle_operands]
  cases Term.ofCall registry name negated inside operands <;> rfl

theorem close_operands (registry : Registry) (u : Unfinished) (name : Text) (negated : Bool)
    (inside : Option (List Term)) (operands : List Term) :
    (u.enter (.operands name negated inside operands)).close registry =
      match Term.ofCall registry name negated inside operands with
      | .ok t => (u.push t).close registry
      | .error problem => .error problem := by
  rw [close, settle_operands]
  cases Term.ofCall registry name negated inside operands <;> rfl

end Unfinished

namespace Descent

mutual

/-- Reads terms behind `terms`, up to the end or to a closing parenthesis. If `stops`, a bar ends
them, and it means nothing otherwise. -/
def chain (registry : Registry) (stops : Bool) (terms : List Term) (c : List Placed) :
    Attempt Problem (List Term × List Placed) := do
  match c with
  | [] => return (terms, [])
  | p :: behind =>
    match p.token with
    | .closing => return (terms, c)
    | .bar _ =>
      if stops then return (terms, behind) else (chain (c := behind)) registry stops terms
    | _ =>
      let (t, c) ← (term (c := c)) registry
      (chain (c := c)) registry stops (terms ++ [t])
partial_fixpoint

def term (registry : Registry) (c : List Placed) : Attempt Problem (Term × List Placed) := do
  match c with
  | [] => .gap (.noTerm none)
  | p :: behind =>
    match p.token with
    | .literal q body => return (.literal (Quoted.decodeBody q.char body.dropLast), behind)
    | .colon body => return (.literal (strip body), behind)
    | .opening =>
      let (terms, c) ← (group (c := behind)) registry
      return (.group terms, c)
    | .function _ negated name => (call (c := behind)) registry p.stop negated name
    | .key sigil negated key =>
      let t ← .ofExcept (Term.ofKey sigil negated key)
      return (t, behind)
    | .closing => .gap (.noTerm (some .closing))
    | .bar mark => .gap (.noTerm (some (.bar mark)))
partial_fixpoint

/-- Reads terms up to a closing parenthesis, and the parenthesis. -/
def group (registry : Registry) (c : List Placed) :
    Attempt Problem (List Term × List Placed) := do
  let (terms, c) ← (chain (c := c)) registry false []
  match c with
  | [] => .flaw .missingClosing
  | p :: behind => if p.token = .closing then return (terms, behind) else .flaw .missingClosing
partial_fixpoint

/-- Reads the terms in the parentheses that begin at `stop`, if any do. -/
def inside (registry : Registry) (stop : Nat) (c : List Placed) :
    Attempt Problem (Option (List Term) × List Placed) := do
  match c with
  | [] => return (none, [])
  | p :: behind =>
    if p.token = .opening ∧ p.start = stop then
      let (terms, c) ← (group (c := behind)) registry
      return (some terms, c)
    else return (none, c)
partial_fixpoint

/-- Reads the call of a function whose name ends at `stop`. -/
def call (registry : Registry) (stop : Nat) (negated : Bool) (name : Text) (c : List Placed) :
    Attempt Problem (Term × List Placed) := do
  let (inside, c) ← (inside (c := c)) registry stop
  let (operands, c) ← (chain (c := c)) registry true []
  let t ← .ofExcept (Term.ofCall registry name negated inside operands)
  return (t, c)
partial_fixpoint

end

/-- Compiles the source of a directive. -/
def compile (registry : Registry) (source : Text) : Attempt Problem Expression := do
  let c ← .ofExcept (tokens source)
  if c.isEmpty then .flaw .emptyDirective
  else
    let (terms, c) ← chain registry false [] c
    if c.head?.map Placed.token = some .closing then .flaw .unbalancedClosing
    else if terms.isEmpty then .flaw .emptyDirective
    else return terms

/-- What is known of reading a chain from `c` on: what it takes is taken from left to right in the
same way, wherever a bar means nothing and inside of a call. -/
structure Reads (registry : Registry) (c : List Placed) : Prop where
  chain : ∀ terms, (chain registry false terms c).Ends
    (fun (read, behind) => ∃ ts, read = terms ++ ts ∧ behind.length ≤ c.length ∧
      (∀ p ∈ behind.head?, p.token = .closing) ∧
      ∀ u : Unfinished, u.IsOutsideCall →
        u.read registry c = (u.pushAll ts).read registry behind)
    (fun problem => ∀ u : Unfinished, u.IsOutsideCall → u.read registry c = .error problem)
  operands : ∀ terms, (Descent.chain registry true terms c).Ends
    (fun (read, behind) => ∃ ts, read = terms ++ ts ∧ behind.length ≤ c.length ∧
      ∀ (u : Unfinished) name negated inside before,
        (u.enter (.operands name negated inside before)).read registry c =
          match Term.ofCall registry name negated inside (before ++ ts) with
          | .ok t => (u.push t).read registry behind
          | .error problem => .error problem)
    (fun problem => ∀ (u : Unfinished) name negated inside before,
      (u.enter (.operands name negated inside before)).read registry c = .error problem)

section Steps

variable {registry : Registry} {c : List Placed} {p : Placed} {behind : List Placed}

/-- Reading a group ends behind its closing parenthesis. -/
theorem ends_group (h : Reads registry c) :
    (group registry c).Ends
      (fun (ts, behind) => behind.length ≤ c.length ∧ ∀ u : Unfinished,
        (u.enter (.group [])).read registry c = (u.push (.group ts)).read registry behind ∧
        ∀ name negated, (u.enter (.inside name negated [])).read registry c =
          (u.enter (.operands name negated (some ts) [])).read registry behind)
      (fun problem => ∀ u : Unfinished,
        (u.enter (.group [])).read registry c = .error problem ∧
        ∀ name negated, (u.enter (.inside name negated [])).read registry c = .error problem) := by
  have hgroup : ∀ u : Unfinished, (u.enter (.group [])).IsOutsideCall := by
    intro u name negated inside operands heq
    exact absurd heq (by simp [Unfinished.enter])
  have hinside : ∀ (u : Unfinished) name negated,
      (u.enter (.inside name negated [])).IsOutsideCall := by
    intro u n b name negated inside operands heq
    exact absurd heq (by simp [Unfinished.enter])
  rw [group.eq_1]
  refine ((h.chain []).mono (fun _ hx => hx) ?_).bind ?_
  · exact fun problem hproblem u =>
      ⟨hproblem _ (hgroup u), fun name negated => hproblem _ (hinside u name negated)⟩
  · rintro ⟨terms, behind⟩ ⟨ts, rfl, hlength, hstop, hread⟩
    cases behind with
    | nil =>
        refine fun u => ⟨?_, fun name negated => ?_⟩
        · rw [hread _ (hgroup u), Unfinished.pushAll_enter]
          rfl
        · rw [hread _ (hinside u name negated), Unfinished.pushAll_enter]
          rfl
    | cons p behind =>
        have hp : p.token = .closing := hstop p rfl
        simp only [if_pos hp]
        refine ⟨Nat.le_of_succ_le hlength, fun u => ⟨?_, fun name negated => ?_⟩⟩
        · rw [hread _ (hgroup u), Unfinished.pushAll_enter, Unfinished.read]
          simp only [hp, OpenTerm.append, List.nil_append, Unfinished.close_enter_group]
        · rw [hread _ (hinside u name negated), Unfinished.pushAll_enter, Unfinished.read]
          simp only [hp, OpenTerm.append, List.nil_append, Unfinished.close_enter_inside]

/-- Whatever stands behind the name of a function, its operands are read next. -/
theorem ends_inside (h : ∀ c, c.length ≤ behind.length → Reads registry c) {start : Nat}
    {mark : Char} {negated : Bool} {name : Text} :
    (inside registry (Placed.stop ⟨start, .function mark negated name⟩) behind).Ends
      (fun (ins, rest) => rest.length ≤ behind.length ∧ ∀ u : Unfinished,
        u.read registry (⟨start, .function mark negated name⟩ :: behind) =
          (u.enter (.operands name negated ins [])).read registry rest)
      (fun problem => ∀ u : Unfinished,
        u.read registry (⟨start, .function mark negated name⟩ :: behind) = .error problem) := by
  cases behind with
  | nil =>
      rw [inside.eq_1]
      exact ⟨Nat.le_refl _, fun u => rfl⟩
  | cons q behind =>
      rw [inside.eq_2]
      by_cases hq : q.token = .opening ∧
          q.start = Placed.stop ⟨start, .function mark negated name⟩
      · have hread : ∀ u : Unfinished,
            u.read registry (⟨start, .function mark negated name⟩ :: q :: behind) =
              (u.enter (.inside name negated [])).read registry behind := by
          intro u
          rw [Unfinished.read_function, if_pos]
          exact hq
        rw [if_pos hq]
        refine ((ends_group (h behind (Nat.le_succ _))).mono (fun _ hx => hx) ?_).bind ?_
        · exact fun problem hproblem u => (hread u).trans ((hproblem u).2 name negated)
        · rintro ⟨ts, rest⟩ ⟨hlength, hts⟩
          exact ⟨Nat.le_succ_of_le hlength, fun u => (hread u).trans ((hts u).2 name negated)⟩
      · rw [if_neg hq]
        refine ⟨Nat.le_refl _, fun u => ?_⟩
        rw [Unfinished.read_function, if_neg]
        exact hq

/-- Reading a call ends behind its operands. -/
theorem ends_call (h : ∀ c, c.length ≤ behind.length → Reads registry c) {start : Nat}
    {mark : Char} {negated : Bool} {name : Text} :
    (call registry (Placed.stop ⟨start, .function mark negated name⟩) negated name behind).Ends
      (fun (t, rest) => rest.length ≤ behind.length ∧ ∀ u : Unfinished,
        u.read registry (⟨start, .function mark negated name⟩ :: behind) =
          (u.push t).read registry rest)
      (fun problem => ∀ u : Unfinished,
        u.read registry (⟨start, .function mark negated name⟩ :: behind) = .error problem) := by
  rw [call.eq_1]
  refine (ends_inside h).bind ?_
  rintro ⟨ins, c⟩ ⟨hc, hins⟩
  refine (((h c hc).operands []).mono (fun _ hx => hx) ?_).bind ?_
  · exact fun problem hproblem u => (hins u).trans (hproblem u name negated ins [])
  · rintro ⟨operands, rest⟩ ⟨ts, rfl, hrest, hread⟩
    refine (Attempt.ends_ofExcept (fun _ hx => hx) ?_).bind ?_
    · intro problem hproblem u
      rw [hins, hread]
      simp only [List.nil_append, hproblem]
    · intro t ht
      refine ⟨hrest.trans hc, fun u => ?_⟩
      rw [hins, hread]
      simp only [List.nil_append, ht]

/-- Reading a term ends behind it, where a term begins. -/
theorem ends_term (h : ∀ c, c.length ≤ behind.length → Reads registry c)
    (hclosing : p.token ≠ .closing) (hbar : ∀ mark, p.token ≠ .bar mark) :
    (term registry (p :: behind)).Ends
      (fun (t, rest) => rest.length ≤ behind.length ∧
        ∀ u : Unfinished, u.read registry (p :: behind) = (u.push t).read registry rest)
      (fun problem => ∀ u : Unfinished, u.read registry (p :: behind) = .error problem) := by
  obtain ⟨start, token⟩ := p
  rw [term.eq_2]
  cases token with
  | literal q body => exact ⟨Nat.le_refl _, fun u => rfl⟩
  | colon body => exact ⟨Nat.le_refl _, fun u => rfl⟩
  | opening =>
      refine ((ends_group (h behind (Nat.le_refl _))).mono (fun _ hx => hx) ?_).bind ?_
      · exact fun problem hproblem u => (hproblem u).1
      · rintro ⟨ts, rest⟩ ⟨hlength, hread⟩
        exact ⟨hlength, fun u => (hread u).1⟩
  | closing => exact absurd rfl hclosing
  | bar mark => exact absurd rfl (hbar mark)
  | function mark negated name => exact ends_call h
  | key sigil negated key =>
      refine (Attempt.ends_ofExcept (fun _ hx => hx) ?_).bind ?_
      · intro problem hproblem u
        rw [Unfinished.read]
        simp only [hproblem]
      · intro t ht
        refine ⟨Nat.le_refl _, fun u => ?_⟩
        rw [Unfinished.read]
        simp only [ht]

/-- Where a term begins, a chain goes on behind it. -/
theorem chain_cons (stops : Bool) (terms : List Term) (hclosing : p.token ≠ .closing)
    (hbar : ∀ mark, p.token ≠ .bar mark) :
    chain registry stops terms (p :: behind) = (do
      let (t, c) ← term registry (p :: behind)
      chain registry stops (terms ++ [t]) c) := by
  rw [chain.eq_2]
  split
  · exact absurd ‹_› hclosing
  · exact absurd ‹_› (hbar _)
  · rfl

theorem reads_nil (registry : Registry) : Reads registry [] := by
  refine ⟨fun terms => ?_, fun terms => ?_⟩
  · rw [chain.eq_1]
    exact ⟨[], (List.append_nil _).symm, Nat.le_refl _, by simp, fun u _ => rfl⟩
  · rw [chain.eq_1]
    refine ⟨[], (List.append_nil _).symm, Nat.le_refl _, ?_⟩
    intro u name negated inside before
    rw [List.append_nil]
    exact Unfinished.finish_operands registry u name negated inside before

theorem reads_closing (hp : p.token = .closing) : Reads registry (p :: behind) := by
  refine ⟨fun terms => ?_, fun terms => ?_⟩
  · rw [chain.eq_2, hp]
    exact ⟨[], (List.append_nil _).symm, Nat.le_refl _,
      fun q hq => Option.some.inj hq ▸ hp, fun u _ => rfl⟩
  · rw [chain.eq_2, hp]
    refine ⟨[], (List.append_nil _).symm, Nat.le_refl _, ?_⟩
    intro u name negated inside before
    rw [List.append_nil, Unfinished.read]
    simp only [hp, Unfinished.close_operands]
    cases Term.ofCall registry name negated inside before with
    | error problem => rfl
    | ok t => simp only [Unfinished.read, hp]

theorem reads_bar {mark : Char} (hp : p.token = .bar mark) (h : Reads registry behind) :
    Reads registry (p :: behind) := by
  refine ⟨fun terms => ?_, fun terms => ?_⟩
  · have hskip : ∀ u : Unfinished, u.IsOutsideCall →
        u.read registry (p :: behind) = u.read registry behind := by
      intro u hu
      rw [Unfinished.read]
      simp only [hp, hu.bar]
    rw [chain.eq_2, hp]
    refine (h.chain terms).mono ?_ fun problem hproblem u hu => (hskip u hu).trans (hproblem u hu)
    rintro ⟨read, rest⟩ ⟨ts, hts, hlength, hstop, hread⟩
    exact ⟨ts, hts, Nat.le_succ_of_le hlength, hstop, fun u hu => (hskip u hu).trans (hread u hu)⟩
  · rw [chain.eq_2, hp]
    refine ⟨[], (List.append_nil _).symm, Nat.le_succ _, ?_⟩
    intro u name negated inside before
    rw [List.append_nil, Unfinished.read]
    simp only [hp, Unfinished.bar, Unfinished.enter]
    cases Term.ofCall registry name negated inside before <;> rfl

theorem reads_term (hclosing : p.token ≠ .closing) (hbar : ∀ mark, p.token ≠ .bar mark)
    (h : ∀ c, c.length ≤ behind.length → Reads registry c) : Reads registry (p :: behind) := by
  refine ⟨fun terms => ?_, fun terms => ?_⟩
  · rw [chain_cons false terms hclosing hbar]
    refine ((ends_term h hclosing hbar).mono (fun _ hx => hx) ?_).bind ?_
    · exact fun problem hproblem u _ => hproblem u
    · rintro ⟨t, c⟩ ⟨hc, ht⟩
      refine ((h c hc).chain (terms ++ [t])).mono ?_ ?_
      · rintro ⟨read, rest⟩ ⟨ts, rfl, hlength, hstop, hread⟩
        refine ⟨t :: ts, by simp, Nat.le_succ_of_le (hlength.trans hc), hstop, fun u hu => ?_⟩
        rw [ht, hread _ (hu.push t), Unfinished.pushAll_cons]
      · exact fun problem hproblem u hu => (ht u).trans (hproblem _ (hu.push t))
  · rw [chain_cons true terms hclosing hbar]
    refine ((ends_term h hclosing hbar).mono (fun _ hx => hx) ?_).bind ?_
    · exact fun problem hproblem u _ _ _ _ => hproblem _
    · rintro ⟨t, c⟩ ⟨hc, ht⟩
      refine ((h c hc).operands (terms ++ [t])).mono ?_ ?_
      · rintro ⟨read, rest⟩ ⟨ts, rfl, hlength, hread⟩
        refine ⟨t :: ts, by simp, Nat.le_succ_of_le (hlength.trans hc), ?_⟩
        intro u name negated inside before
        rw [ht, List.append_cons]
        exact hread u name negated inside (before ++ [t])
      · intro problem hproblem u name negated inside before
        exact (ht _).trans (hproblem u name negated inside (before ++ [t]))

end Steps

/-- Reading a chain ends, from wherever it begins. -/
theorem reads (registry : Registry) (c : List Placed) : Reads registry c := by
  induction hn : c.length using Nat.strongRecOn generalizing c with
  | ind n ih =>
      subst hn
      cases c with
      | nil => exact reads_nil registry
      | cons p behind =>
          have hbehind : ∀ c, c.length ≤ behind.length → Reads registry c :=
            fun c hc => ih c.length (Nat.lt_succ_of_le hc) c rfl
          by_cases hclosing : p.token = .closing
          · exact reads_closing hclosing
          · by_cases hbar : ∃ mark, p.token = .bar mark
            · obtain ⟨mark, hmark⟩ := hbar
              exact reads_bar hmark (hbehind behind (Nat.le_refl _))
            · exact reads_term hclosing (fun mark hmark => hbar ⟨mark, hmark⟩) hbehind

/-- Compiling by descent ends, never looks for a term where none begins, and compiles what is
compiled from left to right. -/
theorem ends_compile (registry : Registry) (source : Text) :
    (compile registry source).Ends (fun e => Expression.compile registry source = .ok e)
      (fun problem => Expression.compile registry source = .error problem) := by
  rw [compile, Expression.compile]
  refine (Attempt.ends_ofExcept (fun _ hx => hx) ?_).bind ?_
  · intro problem hproblem
    rw [hproblem]
  · intro c hc
    rw [hc]
    cases c with
    | nil => rfl
    | cons p ps =>
        have hstart : Unfinished.start.IsOutsideCall := fun _ _ _ _ h =>
          absurd h (by simp [Unfinished.start])
        refine (((reads registry (p :: ps)).chain []).mono (fun _ hx => hx) ?_).bind ?_
        · exact fun problem hproblem => hproblem _ hstart
        · rintro ⟨terms, rest⟩ ⟨ts, rfl, -, hstop, hread⟩
          have hall := hread _ hstart
          rw [Unfinished.start, Unfinished.pushAll_outside, List.nil_append] at hall
          cases rest with
          | nil =>
              cases terms with
              | nil => exact hall
              | cons t ts =>
                  exact hall.trans (Unfinished.read_outside_nil registry (List.cons_ne_nil t ts))
          | cons q qs =>
              have hq : q.token = .closing := hstop q rfl
              have hflaw : Unfinished.read registry ⟨[], terms⟩ (q :: qs) =
                  .error .unbalancedClosing := by
                rw [Unfinished.read]
                simp only [hq, Unfinished.close, Unfinished.settle]
              simp only [List.head?_cons, Option.map_some, hq]
              exact hall.trans hflaw

end Descent

end SqlTemplate
