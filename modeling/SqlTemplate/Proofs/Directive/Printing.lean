import SqlTemplate.Proofs.Directive.Subterms

/-!
# Printing directives

`Term.print` writes a term down: a reference with its sign, a literal between quotes, a group
between parentheses, and a call with its operands up to a bar. Compiling reads what was printed as
the same terms (`Expression.compile_print`).

The proof follows the text. `Unfinished.LeadsTo` says that reading goes on behind a piece of text as
if the piece had never been there, but with more read: a printed term leads to the same state with
the term pushed, whatever is open around it. So a bar finishes the call that it was printed for, and
a parenthesis is attached to a name only where it was printed right behind it.
-/

namespace SqlTemplate

/-- The sign of a reference. -/
def Reference.sigil : Reference → Sigil
  | param => .dollar
  | presence => .ampersand
  | condition => .question

mutual

/-- A term as it is written in a directive. -/
def Term.print : Term → Text
  | .reference kind key negated => kind.sigil.char :: (Token.negation negated ++ key)
  | .required key => Sigil.atSign.char :: key
  | .literal t => Quoted.encode .single t
  | .group chain => '(' :: (Term.printAll chain ++ [')'])
  | .call name negated inside chain =>
      '%' :: (Token.negation negated ++
        (name ++ (Term.printInside inside ++ ' ' :: (Term.printAll chain ++ [' ', '|']))))

/-- The terms in the parentheses of a call, right behind its name. -/
def Term.printInside : Option (List Term) → Text
  | none => []
  | some chain => '(' :: (Term.printAll chain ++ [')'])

/-- Terms separated by spaces. -/
def Term.printAll : List Term → Text
  | [] => []
  | t :: ts => Term.print t ++ (if ts.isEmpty then [] else ' ' :: Term.printAll ts)

end

/-- A directive as it is written. -/
def Expression.print (e : Expression) : Text := Term.printAll e

namespace OpenTerm

theorem append_append (o : OpenTerm) (more others : List Term) :
    (o.append more).append others = o.append (more ++ others) := by
  cases o <;> simp [append]

theorem append_nil (o : OpenTerm) : o.append [] = o := by
  cases o <;> simp [append]

end OpenTerm

namespace Unfinished

/-- Pushes terms in their order. -/
def pushAll (u : Unfinished) (ts : List Term) : Unfinished := ts.foldl push u

theorem pushAll_cons (u : Unfinished) (t : Term) (ts : List Term) :
    u.pushAll (t :: ts) = (u.push t).pushAll ts := rfl

theorem pushAll_enter (u : Unfinished) (o : OpenTerm) (ts : List Term) :
    (u.enter o).pushAll ts = u.enter (o.append ts) := by
  induction ts generalizing o with
  | nil => rw [OpenTerm.append_nil]; rfl
  | cons t ts ih =>
      have hpush : (u.enter o).push t = u.enter (o.append [t]) := rfl
      rw [pushAll_cons, hpush, ih, OpenTerm.append_append]
      rfl

theorem pushAll_outside (chain ts : List Term) :
    pushAll ⟨[], chain⟩ ts = ⟨[], chain ++ ts⟩ := by
  induction ts generalizing chain with
  | nil => rw [List.append_nil]; rfl
  | cons t ts ih =>
      have hpush : push ⟨[], chain⟩ t = ⟨[], chain ++ [t]⟩ := rfl
      rw [pushAll_cons, hpush, ih, List.append_assoc]
      rfl

theorem close_enter_group (registry : Registry) (u : Unfinished) (chain : List Term) :
    (u.enter (.group chain)).close registry = .ok (u.push (.group chain)) := by
  simp only [close, enter, settle, OpenTerm.append, List.append_nil]

theorem close_enter_inside (registry : Registry) (u : Unfinished) (name : Text) (negated : Bool)
    (chain : List Term) :
    (u.enter (.inside name negated chain)).close registry =
      .ok (u.enter (.operands name negated (some chain) [])) := by
  simp only [close, enter, settle, OpenTerm.append, List.append_nil]

/-- Reads a text from a place on. -/
def readFrom (registry : Registry) (u : Unfinished) (position : Nat) (t : Text) :
    Except Problem Expression :=
  match tokensFrom position t with
  | .ok ps => u.read registry ps
  | .error problem => .error problem

/-- Reading `t` goes on as reading `rest` does when `v` has been read. -/
def LeadsTo (registry : Registry) (u : Unfinished) (t : Text) (v : Unfinished) (rest : Text) :
    Prop :=
  ∀ position, ∃ next, u.readFrom registry position t = v.readFrom registry next rest

variable {registry : Registry} {u v w : Unfinished} {t rest more : Text} {c : Char}

theorem LeadsTo.refl (registry : Registry) (u : Unfinished) (t : Text) :
    LeadsTo registry u t u t :=
  fun position => ⟨position, rfl⟩

theorem LeadsTo.trans (h : LeadsTo registry u t v rest) (h' : LeadsTo registry v rest w more) :
    LeadsTo registry u t w more := by
  intro position
  obtain ⟨next, heq⟩ := h position
  obtain ⟨last, heq'⟩ := h' next
  exact ⟨last, heq.trans heq'⟩

theorem leadsTo_space (registry : Registry) (u : Unfinished) (rest : Text) :
    LeadsTo registry u (' ' :: rest) u rest := by
  intro position
  refine ⟨position + 1, ?_⟩
  rw [readFrom, readFrom, tokensFrom, if_pos (by decide)]

theorem tokensFrom_cons_of_take? {position : Nat} {token : Token} (hc : isBlank c = false)
    (htake : Token.take? c t = some (token, rest)) :
    tokensFrom position (c :: t) =
      match tokensFrom (position + token.source.length) rest with
      | .ok tokens => .ok (⟨position, token⟩ :: tokens)
      | .error problem => .error problem := by
  rw [tokensFrom, if_neg (by rw [hc]; exact Bool.false_ne_true)]
  split
  · rename_i hnone
    rw [htake] at hnone
    exact absurd hnone (Option.some_ne_none _)
  · rename_i token' rest' hsome
    rw [htake] at hsome
    obtain ⟨rfl, rfl⟩ := Prod.mk.inj (Option.some.inj hsome)
    rfl

/-- A token leads to what it does to what has been read. -/
theorem leadsTo_of_take? {token : Token} (hc : isBlank c = false)
    (htake : Token.take? c t = some (token, rest))
    (hread : ∀ start ps, u.read registry (⟨start, token⟩ :: ps) = v.read registry ps) :
    LeadsTo registry u (c :: t) v rest := by
  intro position
  refine ⟨position + token.source.length, ?_⟩
  rw [readFrom, readFrom, tokensFrom_cons_of_take? hc htake]
  cases tokensFrom (position + token.source.length) rest with
  | ok ps => exact hread position ps
  | error problem => rfl

theorem leadsTo_opening (registry : Registry) (u : Unfinished) (rest : Text) :
    LeadsTo registry u ('(' :: rest) (u.enter (.group [])) rest := by
  have htake : Token.take? '(' rest = some (.opening, rest) := rfl
  exact leadsTo_of_take? (by decide) htake fun _ _ => rfl

theorem leadsTo_closing (h : u.close registry = .ok v) :
    LeadsTo registry u (')' :: rest) v rest := by
  have htake : Token.take? ')' rest = some (.closing, rest) := rfl
  exact leadsTo_of_take? (by decide) htake fun _ _ => by simp only [read, h]

theorem leadsTo_bar (h : u.bar registry = .ok v) : LeadsTo registry u ('|' :: rest) v rest := by
  have htake : Token.take? '|' rest = some (.bar '|', rest) := rfl
  exact leadsTo_of_take? (by decide) htake fun _ _ => by simp only [read, h]

theorem leadsTo_key {sigil : Sigil} {negated : Bool} {key : Text} {term : Term}
    (hkey : Token.IsKey key) (hrest : ∀ c ∈ rest.head?, Token.isKeyChar c = false)
    (h : Term.ofKey (some sigil) negated key = .ok term) :
    LeadsTo registry u (sigil.char :: (Token.negation negated ++ (key ++ rest))) (u.push term)
      rest := by
  refine leadsTo_of_take? ?_ (Token.take?_key sigil hkey hrest) fun _ _ => by simp only [read, h]
  cases sigil <;> decide

theorem leadsTo_literal (t : Text) (hrest : rest.head? ≠ some '\'') :
    LeadsTo registry u (Quoted.encode .single t ++ rest) (u.push (.literal t)) rest := by
  have htake := Token.take?_literal .single t hrest
  rw [List.append_cons] at htake
  refine leadsTo_of_take? (by decide) htake fun start ps => ?_
  simp only [read, List.dropLast_concat, Quoted.decodeBody_encodeBody]

/-- Tokens begin where their text does or further on. -/
theorem le_start_of_tokensFrom {position : Nat} {ps : List Placed}
    (h : tokensFrom position t = .ok ps) : ∀ p ∈ ps.head?, position ≤ p.start := by
  fun_induction tokensFrom position t generalizing ps with
  | case1 =>
      obtain rfl := Except.ok.inj h
      simp
  | case2 position c t hc ih => exact fun p hp => Nat.le_of_succ_le (ih h p hp)
  | case3 => exact absurd h (by simp)
  | case4 position c t hc token rest htake tokens htokens ih =>
      obtain rfl := Except.ok.inj h
      intro p hp
      obtain rfl := Option.some.inj hp
      exact Nat.le_refl _
  | case5 => exact absurd h (by simp)

/-- What follows the name of a function decides whether the call has terms inside. -/
theorem read_function (registry : Registry) (u : Unfinished) (start : Nat) (c : Char)
    (negated : Bool) (name : Text) (p : Placed) (ps : List Placed) :
    u.read registry (⟨start, .function c negated name⟩ :: p :: ps) =
      if p.token = .opening ∧ p.start = start + (Token.function c negated name).source.length then
        (u.enter (.inside name negated [])).read registry ps
      else (u.enter (.operands name negated none [])).read registry (p :: ps) := by
  rw [read.eq_def]
  rfl

/-- A name with a space behind it begins a call without parentheses. -/
theorem leadsTo_function {name : Text} (negated : Bool) (hname : Token.IsName name) :
    LeadsTo registry u ('%' :: (Token.negation negated ++ (name ++ ' ' :: rest)))
      (u.enter (.operands name negated none [])) rest := by
  have htake : Token.take? '%' (Token.negation negated ++ (name ++ ' ' :: rest)) =
      some (.function '%' negated name, ' ' :: rest) :=
    Token.take?_function hname fun c hc => by
      obtain rfl := Option.some.inj hc
      decide
  intro position
  refine ⟨position + (Token.function '%' negated name).source.length + 1, ?_⟩
  rw [readFrom, readFrom, tokensFrom_cons_of_take? (by decide) htake, tokensFrom,
    if_pos (by decide)]
  cases hps : tokensFrom (position + (Token.function '%' negated name).source.length + 1) rest with
  | error problem => rfl
  | ok ps =>
      cases ps with
      | nil => rfl
      | cons p ps =>
          have hle := le_start_of_tokensFrom hps p rfl
          simp only
          rw [read_function, if_neg]
          rintro ⟨-, hstart⟩
          rw [hstart] at hle
          exact Nat.not_succ_le_self _ hle

/-- A name with a parenthesis right behind it begins a call with the terms inside. -/
theorem leadsTo_attached {name : Text} (negated : Bool) (hname : Token.IsName name) :
    LeadsTo registry u ('%' :: (Token.negation negated ++ (name ++ '(' :: rest)))
      (u.enter (.inside name negated [])) rest := by
  have htake : Token.take? '%' (Token.negation negated ++ (name ++ '(' :: rest)) =
      some (.function '%' negated name, '(' :: rest) :=
    Token.take?_function hname fun c hc => by
      obtain rfl := Option.some.inj hc
      decide
  have hopening : Token.take? '(' rest = some (.opening, rest) := rfl
  intro position
  refine ⟨position + (Token.function '%' negated name).source.length + 1, ?_⟩
  rw [readFrom, readFrom, tokensFrom_cons_of_take? (by decide) htake,
    tokensFrom_cons_of_take? (by decide) hopening]
  simp only [Token.source, List.length_singleton]
  cases tokensFrom (position + ('%' :: (Token.negation negated ++ name)).length + 1) rest with
  | error problem => rfl
  | ok ps =>
      simp only
      rw [read_function, if_pos ⟨rfl, rfl⟩]

theorem bar_enter {name : Text} {negated : Bool} {inside : Option (List Term)}
    {chain : List Term} {f : Function} (hf : registry.find? name = some f)
    (hproblem : f.problem? name inside chain = none) :
    (u.enter (.operands name negated inside chain)).bar registry =
      .ok (u.push (.call name negated inside chain)) := by
  have hcall : Term.ofCall registry name negated inside chain =
      .ok (.call name negated inside chain) := Term.ofCall_eq_ok_iff.2 ⟨rfl, f, hf, hproblem⟩
  simp only [bar, enter, hcall]

theorem read_outside_nil (registry : Registry) {e : Expression} (hne : e ≠ []) :
    read registry ⟨[], e⟩ [] = .ok e := by
  simp only [read, finish, settle, List.append_nil, List.isEmpty_iff, hne, if_false]

end Unfinished

open Unfinished

namespace Term

variable {registry : Registry}

/-- A text that goes on with nothing that could belong to a term. -/
def Separated (rest : Text) : Prop := ∀ c ∈ rest.head?, c = ' ' ∨ c = ')'

theorem separated_space (rest : Text) : Separated (' ' :: rest) :=
  fun _ hc => .inl (Option.some.inj hc).symm

theorem separated_closing (rest : Text) : Separated (')' :: rest) :=
  fun _ hc => .inr (Option.some.inj hc).symm

theorem Separated.isKeyChar {rest : Text} (h : Separated rest) :
    ∀ c ∈ rest.head?, Token.isKeyChar c = false := by
  intro c hc
  rcases h c hc with rfl | rfl
  · decide
  · decide

theorem Separated.head?_ne_quote {rest : Text} (h : Separated rest) : rest.head? ≠ some '\'' := by
  intro hc
  rcases h _ hc with h | h
  · exact absurd h (by decide)
  · exact absurd h (by decide)

mutual

/-- A printed term is read as the term. -/
theorem leadsTo_print (t : Term) (ht : t.Writable registry) (u : Unfinished) (rest : Text)
    (hrest : Separated rest) : LeadsTo registry u (t.print ++ rest) (u.push t) rest := by
  cases t with
  | reference kind key negated =>
      have hkey := writable_reference_iff.1 ht
      have hread : ofKey (some kind.sigil) negated key = .ok (.reference kind key negated) := by
        cases kind <;> rfl
      rw [print, List.cons_append, List.append_assoc]
      exact leadsTo_key hkey hrest.isKeyChar hread
  | required key =>
      have hkey := writable_required_iff.1 ht
      have hread : ofKey (some .atSign) false key = .ok (.required key) := rfl
      exact leadsTo_key hkey hrest.isKeyChar hread
  | literal t => exact leadsTo_literal t hrest.head?_ne_quote
  | group chain =>
      have hchain := writable_group_iff.1 ht
      rw [print, List.cons_append, List.append_assoc]
      refine (leadsTo_opening registry u _).trans ?_
      refine (leadsTo_printAll chain hchain _ _ (separated_closing rest)).trans ?_
      rw [pushAll_enter]
      exact leadsTo_closing (close_enter_group registry u chain)
  | call name negated inside chain =>
      obtain ⟨⟨hname, f, hf, hproblem⟩, hinside, hchain⟩ := writable_call_iff.1 ht
      rw [print, List.cons_append, List.append_assoc, List.append_assoc, List.append_assoc,
        List.cons_append, List.append_assoc]
      refine (leadsTo_printInside inside hinside hname u negated _).trans ?_
      refine (leadsTo_printAll chain hchain _ _ (separated_space _)).trans ?_
      rw [pushAll_enter]
      refine (leadsTo_space registry _ _).trans ?_
      exact leadsTo_bar (bar_enter hf hproblem)

/-- A printed name with the terms in its parentheses begins the call. -/
theorem leadsTo_printInside (inside : Option (List Term))
    (h : ∀ t ∈ inside.getD [], t.Writable registry) {name : Text} (hname : Token.IsName name)
    (u : Unfinished) (negated : Bool) (rest : Text) :
    LeadsTo registry u
      ('%' :: (Token.negation negated ++ (name ++ (printInside inside ++ ' ' :: rest))))
      (u.enter (.operands name negated inside [])) rest := by
  cases inside with
  | none => exact leadsTo_function negated hname
  | some chain =>
      rw [printInside, List.cons_append, List.append_assoc]
      refine (leadsTo_attached negated hname).trans ?_
      refine (leadsTo_printAll chain h _ _ (separated_closing _)).trans ?_
      rw [pushAll_enter]
      refine (leadsTo_closing (close_enter_inside registry u name negated chain)).trans ?_
      exact leadsTo_space registry _ rest

theorem leadsTo_printAll (ts : List Term) (h : ∀ t ∈ ts, t.Writable registry) (u : Unfinished)
    (rest : Text) (hrest : Separated rest) :
    LeadsTo registry u (printAll ts ++ rest) (u.pushAll ts) rest := by
  cases ts with
  | nil => exact LeadsTo.refl registry u rest
  | cons t ts =>
      rw [List.forall_mem_cons] at h
      rw [printAll, List.append_assoc, pushAll_cons]
      cases ts with
      | nil => exact leadsTo_print t h.1 u rest hrest
      | cons t' ts =>
          refine (leadsTo_print t h.1 u _ (separated_space _)).trans ?_
          refine (leadsTo_space registry _ _).trans ?_
          exact leadsTo_printAll (t' :: ts) h.2 _ rest hrest

end

end Term

namespace Expression

/-- The end of a directive closes a call that is open, as a bar does. -/
theorem compile_openCall {registry : Registry} {name : Text} {f : Function} {chain : List Term}
    (negated : Bool) (hname : Token.IsName name) (hf : registry.find? name = some f)
    (hproblem : f.problem? name none chain = none) (hchain : ∀ t ∈ chain, t.Writable registry) :
    compile registry ('%' :: (Token.negation negated ++ (name ++ ' ' :: Term.printAll chain))) =
      .ok [.call name negated none chain] := by
  have hcall : Term.ofCall registry name negated none chain = .ok (.call name negated none chain) :=
    Term.ofCall_eq_ok_iff.2 ⟨rfl, f, hf, hproblem⟩
  obtain ⟨next, hread⟩ := ((leadsTo_function (u := start) negated hname).trans
    (Term.leadsTo_printAll chain hchain _ [] (by simp [Term.Separated]))) 0
  rw [List.append_nil, pushAll_enter] at hread
  refine Eq.trans hread ?_
  simp [readFrom, tokensFrom, Unfinished.read, Unfinished.finish, enter, start, settle,
    OpenTerm.append, hcall]

/-- Compiling undoes printing, for every directive that can be written. What a source is compiled to
can be written, so printing and compiling it again changes nothing. -/
theorem compile_print (registry : Registry) :
    (∀ e : Expression, e ≠ [] → (∀ t ∈ e, t.Writable registry) →
      compile registry e.print = .ok e) ∧
      ∀ source e, compile registry source = .ok e →
        compile registry e.print = compile registry source := by
  have hprint : ∀ e : Expression, e ≠ [] → (∀ t ∈ e, t.Writable registry) →
      compile registry e.print = .ok e := by
    intro e hne hwritable
    obtain ⟨next, hread⟩ := Term.leadsTo_printAll e hwritable start [] (by simp [Term.Separated]) 0
    rw [List.append_nil, start, pushAll_outside, List.nil_append] at hread
    have hcompile : compile registry e.print = readFrom registry ⟨[], []⟩ 0 (Term.printAll e) := rfl
    rw [hcompile, hread, readFrom, tokensFrom]
    exact read_outside_nil registry hne
  refine ⟨hprint, fun source e he => ?_⟩
  obtain ⟨hne, hwritable⟩ := writable_of_compile he
  rw [he]
  exact hprint e hne hwritable

/-- A call with a condition in its parentheses, a quote in a literal and a group among its
operands. -/
def nestedCall : Expression :=
  [.call "IF".toList true (some [.reference .presence "a".toList true])
      [.literal "it's".toList, .group [.required "b[0]".toList], .call "C".toList false none []],
    .reference .condition "c.d".toList false]

theorem compile_print_nestedCall :
    (nestedCall ≠ [] ∧ ∀ t ∈ nestedCall, t.Writable .standard) ∧
      nestedCall.print = "%!IF(&!a) 'it''s' (@b[0]) %C  | | ?c.d".toList ∧
      compile .standard "%!IF(&!a) 'it''s' (@b[0]) %C  | | ?c.d".toList = .ok nestedCall := by
  have hkeys : Token.IsKey "a".toList ∧ Token.IsKey "b[0]".toList ∧ Token.IsKey "c.d".toList := by
    refine ⟨?_, ?_, ?_⟩ <;> decide
  have hnames : Token.IsName "IF".toList ∧ Token.IsName "C".toList := by
    exact ⟨⟨'I', ['F'], rfl, by decide, List.forall_mem_singleton.2 (by decide)⟩,
      ⟨'C', [], rfl, by decide, List.forall_mem_nil _⟩⟩
  have hwritable : ∀ t ∈ nestedCall, t.Writable .standard := by
    simp only [nestedCall, List.forall_mem_cons, Term.writable_call_iff, Term.writable_group_iff,
      Term.writable_reference_iff, Term.writable_required_iff, Option.getD_some, Option.getD_none]
    refine ⟨⟨⟨hnames.1, .ifPresent, by decide, rfl⟩, ⟨hkeys.1, by simp⟩, Term.writable_literal _,
      ⟨hkeys.2.1, by simp⟩, ⟨⟨hnames.2, .concat, by decide, rfl⟩, by simp, by simp⟩, by simp⟩,
      hkeys.2.2, by simp⟩
  have hne : nestedCall ≠ [] := List.cons_ne_nil _ _
  have hprint : nestedCall.print = "%!IF(&!a) 'it''s' (@b[0]) %C  | | ?c.d".toList := by
    decide
  refine ⟨⟨hne, hwritable⟩, hprint, ?_⟩
  rw [← hprint]
  exact (compile_print .standard).1 nestedCall hne hwritable

end Expression

end SqlTemplate
