import SqlTemplate.Proofs.Directive.Printing
import SqlTemplate.Proofs.Source.Signs

/-!
# Conditions as plain references

Where a directive is compiled, a question mark is the sign of a condition and a dollar sign that of a
plain reference, and otherwise the two are characters like any other. So the source of a directive with
all question marks written as dollar signs is compiled to the same expression with plain references
in place of the conditions and with the signs of its literals changed (`compile_plainSigns`).
-/

namespace SqlTemplate

section Texts

variable {q : Char}

theorem takeWhile_plainSigns {p : Char → Bool} (hquestion : p '?' = false) (hdollar : p '$' = false)
    (t : Text) : (plainSigns t).takeWhile p = t.takeWhile p ∧
      (plainSigns t).dropWhile p = plainSigns (t.dropWhile p) := by
  induction t with
  | nil => exact ⟨rfl, rfl⟩
  | cons c t ih =>
    by_cases hc : c = '?'
    · subst hc
      have hsign : plainSign '?' = '$' := rfl
      simp [hsign, hquestion, hdollar]
    · cases hp : p c <;> simp [plainSign_of_ne hc, hp, ih]

theorem stripStart_plainSigns (t : Text) : stripStart (plainSigns t) = plainSigns (stripStart t) := by
  rw [stripStart, plainSigns, List.dropWhile_map, isBlank_comp_plainSign]
  rfl

theorem strip_plainSigns (t : Text) : strip (plainSigns t) = plainSigns (strip t) := by
  have hreverse (u : Text) : (plainSigns u).reverse = plainSigns u.reverse := List.map_reverse.symm
  rw [strip, stripStart_plainSigns, stripEnd, hreverse, stripStart_plainSigns, hreverse]
  rfl

theorem Quoted.decodeBody_plainSigns (hq : q ≠ '?' ∧ q ≠ '$') (t : Text) :
    decodeBody q (plainSigns t) = plainSigns (decodeBody q t) := by
  fun_induction decodeBody q t with
  | case1 => rfl
  | case2 => rfl
  | case3 c d t h ih =>
    have hsame : plainSign q = q := (plainSign_eq_iff hq).2 rfl
    rw [h.1, h.2, plainSigns_cons, plainSigns_cons, hsame, decodeBody, if_pos ⟨rfl, rfl⟩, ih,
      plainSigns_cons, hsame]
  | case4 c d t h ih =>
    have h' : ¬(plainSign c = q ∧ plainSign d = q) := by rwa [plainSign_eq_iff hq, plainSign_eq_iff hq]
    rw [plainSigns_cons, plainSigns_cons, decodeBody, if_neg h', ← plainSigns_cons, ih, plainSigns_cons]

end Texts

/-! ### Tokens -/

/-- The sign of a condition becomes that of a plain reference. -/
def Sigil.plain : Sigil → Sigil
  | question => dollar
  | s => s

namespace Token

/-- The token of a source with its signs changed. -/
def plainSigned : Token → Token
  | literal q body => literal q (plainSigns body)
  | colon body => colon (plainSigns body)
  | key sigil negated name => key (sigil.map Sigil.plain) negated name
  | k => k

theorem plainSigned_eq_opening_iff {k : Token} : k.plainSigned = opening ↔ k = opening := by
  cases k <;> simp [plainSigned]

def plainPair (p : Token × Text) : Token × Text := (p.1.plainSigned, plainSigns p.2)

theorem length_source_plainSigned (k : Token) : k.plainSigned.source.length = k.source.length := by
  cases k with
  | key sigil negated name => cases sigil <;> rfl
  | _ => simp [plainSigned, source]

theorem takeNegation_plainSigns (t : Text) :
    takeNegation (plainSigns t) = ((takeNegation t).1, plainSigns (takeNegation t).2) := by
  cases t with
  | nil => rfl
  | cons c t =>
    by_cases hc : c = '?'
    · subst hc
      rfl
    · rw [plainSigns_cons, plainSign_of_ne hc]
      unfold takeNegation
      split <;> simp_all [plainSign_of_ne]

theorem ofFunctionMark?_plainSigns (c : Char) (t : Text) :
    ofFunctionMark? c (plainSigns t) = (ofFunctionMark? c t).map plainPair := by
  unfold ofFunctionMark?
  rw [takeNegation_plainSigns]
  rcases takeNegation t with ⟨negated, _ | ⟨d, r⟩⟩
  · cases negated <;> rfl
  · obtain ⟨htake, hdrop⟩ := takeWhile_plainSigns (p := isWord) (by decide) (by decide) r
    have hstart := apply_plainSign (f := isNameStart) (by decide) d
    simp only [plainSigns_cons, hstart, htake, hdrop]
    split
    · rename_i hd
      have hsame : plainSign d = d := plainSign_of_ne (by rintro rfl; exact absurd hd (by decide))
      rw [hsame]
      rfl
    · cases negated <;> rfl

theorem take_sigil_plainSigns (t : Text) :
    Sigil.take (plainSigns t) = ((Sigil.take t).1.map Sigil.plain, plainSigns (Sigil.take t).2) := by
  cases t with
  | nil => rfl
  | cons c t =>
    by_cases hc : c = '?'
    · subst hc
      rfl
    · rw [plainSigns_cons, plainSign_of_ne hc]
      unfold Sigil.take
      split <;> simp_all [plainSign_of_ne, Sigil.plain]

theorem key?_plainSigns (t : Text) : key? (plainSigns t) = (key? t).map plainPair := by
  obtain ⟨htake, hdrop⟩ := takeWhile_plainSigns (p := isKeyChar) (by decide) (by decide)
    (takeNegation (Sigil.take t).2).2
  unfold key?
  simp only [take_sigil_plainSigns, takeNegation_plainSigns, htake, hdrop]
  split <;> rfl

theorem take?_plainSigns (c : Char) (t : Text) :
    take? (plainSign c) (plainSigns t) = (take? c t).map plainPair := by
  obtain ⟨htake, hdrop⟩ : (plainSigns t).takeWhile (· != '|') = plainSigns (t.takeWhile (· != '|')) ∧
      (plainSigns t).dropWhile (· != '|') = plainSigns (t.dropWhile (· != '|')) := by
    have hbar : (· != '|') ∘ plainSign = (· != '|') :=
      funext fun c => apply_plainSign (f := (· != '|')) (by decide) c
    rw [plainSigns, List.takeWhile_map, List.dropWhile_map, hbar]
    exact ⟨rfl, rfl⟩
  have hsign {x : Char} (hx : x ≠ '?' ∧ x ≠ '$') : (plainSign c = x) = (c = x) :=
    propext (plainSign_eq_iff hx)
  unfold take?
  simp only [apply_plainSign (f := Quote.ofChar?) rfl, apply_plainSign (f := isFunctionMark) (by decide),
    hsign (x := ':') (by decide), hsign (x := '(') (by decide), hsign (x := ')') (by decide),
    hsign (x := '|') (by decide), htake, hdrop, ← plainSigns_cons, key?_plainSigns]
  cases Quote.ofChar? c with
  | some q =>
    simp only [Quoted.closing?_plainSigns q.char_ne]
    cases Quoted.closing? q.char t <;> rfl
  | none =>
    dsimp only
    split
    · rfl
    · split
      · rfl
      · split
        · rfl
        · split
          · rename_i hc
            subst hc
            rfl
          · split
            · rename_i hmark
              have hc : c ≠ '?' := by rintro rfl; exact absurd hmark (by decide)
              rw [plainSign_of_ne hc, ofFunctionMark?_plainSigns]
            · rfl

end Token

/-- A token in its place, with its signs changed. -/
def Placed.plainSigned (p : Placed) : Placed := ⟨p.start, p.token.plainSigned⟩

theorem Placed.stop_plainSigned (p : Placed) : p.plainSigned.stop = p.stop :=
  congrArg (p.start + ·) p.token.length_source_plainSigned

theorem tokensFrom_plainSigns {position : Nat} {t : Text} {ps : List Placed}
    (h : tokensFrom position t = .ok ps) :
    tokensFrom position (plainSigns t) = .ok (ps.map Placed.plainSigned) := by
  fun_induction tokensFrom position t generalizing ps with
  | case1 =>
    obtain rfl := Except.ok.inj h
    rw [plainSigns_nil, tokensFrom]
    rfl
  | case2 position c t hc ih =>
    rw [plainSigns_cons, tokensFrom, if_pos ((apply_plainSign (f := isBlank) (by decide) c).trans hc)]
    exact ih h
  | case3 => cases h
  | case4 position c t hc token rest htake tokens htokens ih =>
    obtain rfl := Except.ok.inj h
    have hblank : isBlank (plainSign c) = false := by
      rw [apply_plainSign (f := isBlank) (by decide)]
      exact Bool.eq_false_iff.2 hc
    have htoken : Token.take? (plainSign c) (plainSigns t) =
        some (token.plainSigned, plainSigns rest) := by
      rw [Token.take?_plainSigns, htake]
      rfl
    rw [plainSigns_cons, Unfinished.tokensFrom_cons_of_take? hblank htoken,
      Token.length_source_plainSigned, ih htokens]
    rfl
  | case5 => cases h

/-! ### Terms -/

/-- A condition becomes a plain reference. -/
def Reference.plain : Reference → Reference
  | condition => param
  | kind => kind

namespace Term

mutual

/-- The term of a source with its signs changed. -/
def plainSigned : Term → Term
  | reference kind key negated => reference kind.plain key negated
  | required key => required key
  | literal t => literal (plainSigns t)
  | group chain => group (plainSignedAll chain)
  | call name negated inside chain =>
    call name negated (plainSignedInside inside) (plainSignedAll chain)

def plainSignedInside : Option (List Term) → Option (List Term)
  | none => none
  | some chain => some (plainSignedAll chain)

def plainSignedAll : List Term → List Term
  | [] => []
  | t :: ts => plainSigned t :: plainSignedAll ts

end

theorem plainSignedAll_append (ts us : List Term) :
    plainSignedAll (ts ++ us) = plainSignedAll ts ++ plainSignedAll us := by
  induction ts with
  | nil => rfl
  | cons t ts ih => rw [List.cons_append, plainSignedAll, ih, plainSignedAll, List.cons_append]

theorem isEmpty_plainSignedAll (ts : List Term) : (plainSignedAll ts).isEmpty = ts.isEmpty := by
  cases ts <;> rfl

theorem isNone_plainSignedInside (inside : Option (List Term)) :
    (plainSignedInside inside).isNone = inside.isNone := by
  cases inside <;> rfl

theorem ofKey_plain (sigil : Option Sigil) (negated : Bool) (key : Text) :
    ofKey (sigil.map Sigil.plain) negated key = (ofKey sigil negated key).map plainSigned := by
  rcases sigil with _ | (_ | _ | _ | _)
  case some.atSign => cases negated <;> rfl
  all_goals rfl

/-- A call is valid with the same problems. -/
theorem ofCall_plainSigned (registry : Registry) (name : Text) (negated : Bool)
    (inside : Option (List Term)) (chain : List Term) :
    ofCall registry name negated (plainSignedInside inside) (plainSignedAll chain) =
      (ofCall registry name negated inside chain).map plainSigned := by
  unfold ofCall
  cases registry.find? name with
  | none => rfl
  | some f =>
    have hproblem : f.problem? name (plainSignedInside inside) (plainSignedAll chain) =
        f.problem? name inside chain := by
      unfold Function.problem?
      simp only [isNone_plainSignedInside, isEmpty_plainSignedAll]
    dsimp only
    rw [hproblem]
    cases f.problem? name inside chain <;> rfl

end Term

namespace OpenTerm

def plainSigned : OpenTerm → OpenTerm
  | group chain => group (Term.plainSignedAll chain)
  | inside name negated chain => inside name negated (Term.plainSignedAll chain)
  | operands name negated ins chain =>
    operands name negated (Term.plainSignedInside ins) (Term.plainSignedAll chain)

theorem append_plainSigned (o : OpenTerm) (more : List Term) :
    o.plainSigned.append (Term.plainSignedAll more) = (o.append more).plainSigned := by
  cases o <;> simp only [plainSigned, append, Term.plainSignedAll_append]

end OpenTerm

namespace Unfinished

/-- What has been read of a source with its signs changed. -/
def plainSigned (u : Unfinished) : Unfinished :=
  ⟨u.opened.map OpenTerm.plainSigned, Term.plainSignedAll u.chain⟩

variable {registry : Registry}

theorem push_plainSigned (u : Unfinished) (t : Term) :
    u.plainSigned.push t.plainSigned = (u.push t).plainSigned := by
  obtain ⟨opened, chain⟩ := u
  cases opened with
  | nil => exact congrArg (Unfinished.mk []) (Term.plainSignedAll_append chain [t]).symm
  | cons o opened =>
    exact congrArg (fun o => Unfinished.mk (o :: _) _) (o.append_plainSigned [t])

theorem settle_plainSigned (registry : Registry) (chain more : List Term) (opened : List OpenTerm) :
    settle registry (Term.plainSignedAll chain) (Term.plainSignedAll more)
        (opened.map OpenTerm.plainSigned) =
      (settle registry chain more opened).map plainSigned := by
  fun_induction settle registry chain more opened with
  | case1 more =>
    rw [List.map_nil, settle, ← Term.plainSignedAll_append]
    rfl
  | case2 more name negated inside operands opened call hcall ih =>
    rw [List.map_cons, OpenTerm.plainSigned, settle, ← Term.plainSignedAll_append,
      Term.ofCall_plainSigned, hcall]
    exact ih
  | case3 more name negated inside operands opened problem hproblem =>
    rw [List.map_cons, OpenTerm.plainSigned, settle, ← Term.plainSignedAll_append,
      Term.ofCall_plainSigned, hproblem]
    rfl
  | case4 more o opened ho =>
    have happend := o.append_plainSigned more
    cases o with
    | operands name negated inside operands => exact absurd rfl (ho name negated inside operands)
    | group terms => exact congrArg (fun o => Except.ok (Unfinished.mk (o :: _) _)) happend
    | inside name negated terms => exact congrArg (fun o => Except.ok (Unfinished.mk (o :: _) _)) happend

theorem close_plainSigned (u : Unfinished) :
    u.plainSigned.close registry = (u.close registry).map plainSigned := by
  have hsettled := settle_plainSigned registry u.chain [] u.opened
  unfold close
  rw [plainSigned, Term.plainSignedAll] at *
  rw [hsettled]
  cases settle registry u.chain [] u.opened with
  | error problem => rfl
  | ok v =>
    obtain ⟨_ | ⟨_ | _ | _, opened⟩, outer⟩ := v
    case cons.group chain => exact congrArg Except.ok (push_plainSigned ⟨opened, outer⟩ (.group chain))
    all_goals rfl

theorem bar_plainSigned (u : Unfinished) :
    u.plainSigned.bar registry = (u.bar registry).map plainSigned := by
  obtain ⟨_ | ⟨_ | _ | ⟨name, negated, inside, operands⟩, opened⟩, chain⟩ := u
  case cons.operands =>
    simp only [plainSigned, List.map_cons, OpenTerm.plainSigned, bar, Term.ofCall_plainSigned]
    cases Term.ofCall registry name negated inside operands with
    | error problem => rfl
    | ok call => exact congrArg Except.ok (push_plainSigned ⟨opened, chain⟩ call)
  all_goals rfl

theorem finish_plainSigned (u : Unfinished) :
    u.plainSigned.finish registry = (u.finish registry).map Term.plainSignedAll := by
  have hsettled := settle_plainSigned registry u.chain [] u.opened
  unfold finish
  rw [plainSigned, Term.plainSignedAll] at *
  rw [hsettled]
  cases settle registry u.chain [] u.opened with
  | error problem => rfl
  | ok v =>
    obtain ⟨_ | ⟨o, opened⟩, chain⟩ := v
    · cases chain <;> rfl
    · rfl

theorem read_plainSigned (registry : Registry) (u : Unfinished) (ps : List Placed) :
    u.plainSigned.read registry (ps.map Placed.plainSigned) =
      (u.read registry ps).map Term.plainSignedAll := by
  fun_induction Unfinished.read registry u ps with
  | case1 u => exact u.finish_plainSigned
  | case2 u p ps q body hp ih =>
    have htoken : p.plainSigned.token = .literal q (plainSigns body) :=
      congrArg Token.plainSigned hp
    have hdecoded : Quoted.decodeBody q.char (plainSigns body).dropLast =
        plainSigns (Quoted.decodeBody q.char body.dropLast) := by
      rw [← Quoted.decodeBody_plainSigns q.char_ne, plainSigns, ← List.map_dropLast]
      rfl
    rw [← ih, ← push_plainSigned, List.map_cons, read]
    simp only [htoken, hdecoded]
    rfl
  | case3 u p ps body hp ih =>
    have htoken : p.plainSigned.token = .colon (plainSigns body) := congrArg Token.plainSigned hp
    rw [← ih, ← push_plainSigned, List.map_cons, read]
    simp only [htoken, strip_plainSigns]
    rfl
  | case4 u p ps hp ih =>
    have htoken : p.plainSigned.token = .opening := congrArg Token.plainSigned hp
    rw [← ih, List.map_cons, read]
    simp only [htoken]
    rfl
  | case5 u p ps hp w hw ih =>
    have htoken : p.plainSigned.token = .closing := congrArg Token.plainSigned hp
    rw [← ih, List.map_cons, read]
    simp only [htoken, close_plainSigned, hw, Except.map]
  | case6 u p ps hp problem hw =>
    have htoken : p.plainSigned.token = .closing := congrArg Token.plainSigned hp
    rw [List.map_cons, read]
    simp only [htoken, close_plainSigned, hw, Except.map]
  | case7 u p ps c hp w hw ih =>
    have htoken : p.plainSigned.token = .bar c := congrArg Token.plainSigned hp
    rw [← ih, List.map_cons, read]
    simp only [htoken, bar_plainSigned, hw, Except.map]
  | case8 u p ps c hp problem hw =>
    have htoken : p.plainSigned.token = .bar c := congrArg Token.plainSigned hp
    rw [List.map_cons, read]
    simp only [htoken, bar_plainSigned, hw, Except.map]
  | case9 u p c negated name hp ih =>
    have htoken : p.plainSigned.token = .function c negated name := congrArg Token.plainSigned hp
    rw [← ih, List.map_cons, read]
    simp only [htoken, List.map_nil]
    rfl
  | case10 u p c negated name hp q qs hq ih =>
    have htoken : p.plainSigned.token = .function c negated name := congrArg Token.plainSigned hp
    have hopening : q.plainSigned.token = .opening ∧ q.plainSigned.start = p.plainSigned.stop :=
      ⟨congrArg Token.plainSigned hq.1, hq.2.trans p.stop_plainSigned.symm⟩
    rw [← ih, List.map_cons, List.map_cons, read]
    simp only [htoken, if_pos hopening]
    rfl
  | case11 u p c negated name hp q qs hq ih =>
    have htoken : p.plainSigned.token = .function c negated name := congrArg Token.plainSigned hp
    have hopening : ¬(q.plainSigned.token = .opening ∧ q.plainSigned.start = p.plainSigned.stop) := by
      rwa [p.stop_plainSigned, Placed.plainSigned, Token.plainSigned_eq_opening_iff]
    rw [List.map_cons, List.map_cons, read]
    simp only [htoken, if_neg hopening]
    exact ih
  | case12 u p ps sigil negated key hp t ht ih =>
    have htoken : p.plainSigned.token = .key (sigil.map Sigil.plain) negated key :=
      congrArg Token.plainSigned hp
    rw [← ih, ← push_plainSigned, List.map_cons, read]
    simp only [htoken, Term.ofKey_plain, ht, Except.map]
  | case13 u p ps sigil negated key hp problem ht =>
    have htoken : p.plainSigned.token = .key (sigil.map Sigil.plain) negated key :=
      congrArg Token.plainSigned hp
    rw [List.map_cons, read]
    simp only [htoken, Term.ofKey_plain, ht, Except.map]

end Unfinished

/-- The source of a directive with its signs changed is compiled to plain references. -/
theorem Expression.compile_plainSigns {registry : Registry} {source : Text} {e : Expression}
    (h : compile registry source = .ok e) :
    compile registry (plainSigns source) = .ok (Term.plainSignedAll e) := by
  unfold compile at h ⊢
  split at h
  · rename_i ps hps
    have hread := Unfinished.read_plainSigned registry Unfinished.start ps
    rw [h] at hread
    rw [tokens, tokensFrom_plainSigns hps]
    exact hread
  · cases h

end SqlTemplate
