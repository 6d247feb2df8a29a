import SqlTemplate.Directive.Problem
import SqlTemplate.Text.Word

/-!
# Tokens of directives

The source of a directive is a sequence of tokens with blanks between them. A token is told by its
first character; only after `%` and `#` the next one decides whether a function follows. `tokens`
cuts a source into tokens with their places, so that a parenthesis right behind a function can be
told from one that stands apart.
-/

namespace SqlTemplate

/-- The signs in front of the name of a parameter. -/
inductive Sigil where
  | dollar
  | ampersand
  | question
  | atSign
deriving DecidableEq, Repr

namespace Sigil

def char : Sigil → Char
  | dollar => '$'
  | ampersand => '&'
  | question => '?'
  | atSign => '@'

/-- The sign that a text begins with, if it does, and what follows. -/
def take : Text → Option Sigil × Text
  | '$' :: t => (some dollar, t)
  | '&' :: t => (some ampersand, t)
  | '?' :: t => (some question, t)
  | '@' :: t => (some atSign, t)
  | t => (none, t)

theorem append_take (t : Text) :
    ((take t).1.map char).toList ++ (take t).2 = t := by
  unfold take
  split <;> rfl

end Sigil

/-- A token of the source of a directive. -/
inductive Token where
  /-- A quoted literal after its opening quote, closing quote included. -/
  | literal (q : Quote) (body : Text)
  /-- A literal that goes on to the next bar. -/
  | colon (body : Text)
  | opening
  | closing
  /-- A bar, or a function mark that no name follows. -/
  | bar (c : Char)
  /-- A function mark and the name of a function. -/
  | function (c : Char) (negated : Bool) (name : Text)
  /-- The name of a parameter with its sign. -/
  | key (sigil : Option Sigil) (negated : Bool) (key : Text)
deriving DecidableEq, Repr

namespace Token

/-- The exclamation mark of what is negated. -/
def negation (negated : Bool) : Text := if negated then ['!'] else []

def source : Token → Text
  | literal q body => q.char :: body
  | colon body => ':' :: body
  | opening => ['(']
  | closing => [')']
  | bar c => [c]
  | function c negated name => c :: (negation negated ++ name)
  | key sigil negated name => (sigil.map Sigil.char).toList ++ negation negated ++ name

def isFunctionMark (c : Char) : Bool := c == '%' || c == '#'

/-- The characters that names of functions begin with. -/
def isNameStart (c : Char) : Bool := c.isAlpha || c == '_'

def isKeyChar (c : Char) : Bool := isWord c || ".-[]".toList.contains c

/-- An exclamation mark that a text may begin with, and what follows. -/
def takeNegation : Text → Bool × Text
  | '!' :: t => (true, t)
  | t => (false, t)

/-- The token that a function mark begins. -/
def ofFunctionMark? (c : Char) (t : Text) : Option (Token × Text) :=
  match takeNegation t with
  | (negated, d :: r) =>
    if isNameStart d then
      some (function c negated (d :: r.takeWhile isWord), r.dropWhile isWord)
    else if negated then none
    else some (bar c, t)
  | (negated, []) => if negated then none else some (bar c, t)

/-- The name of a parameter that a text begins with. -/
def key? (t : Text) : Option (Token × Text) :=
  let (sigil, afterSigil) := Sigil.take t
  let (negated, name) := takeNegation afterSigil
  match name.takeWhile isKeyChar with
  | [] => none
  | k => some (key sigil negated k, name.dropWhile isKeyChar)

/-- The token that the text `c :: t` begins with, and what follows it. -/
def take? (c : Char) (t : Text) : Option (Token × Text) :=
  match Quote.ofChar? c with
  | some q => (Quoted.closing? q.char t).map fun (body, rest) => (literal q body, rest)
  | none =>
    if c = ':' then some (colon (t.takeWhile (· != '|')), t.dropWhile (· != '|'))
    else if c = '(' then some (opening, t)
    else if c = ')' then some (closing, t)
    else if c = '|' then some (bar c, t)
    else if isFunctionMark c then ofFunctionMark? c t
    else key? (c :: t)

theorem append_takeNegation (t : Text) :
    negation (takeNegation t).1 ++ (takeNegation t).2 = t := by
  unfold takeNegation
  split <;> rfl

theorem source_ofFunctionMark? {c : Char} {t r : Text} {k : Token}
    (h : ofFunctionMark? c t = some (k, r)) : k.source ++ r = c :: t := by
  have hn := append_takeNegation t
  unfold ofFunctionMark? at h
  split at h
  · rename_i negated d u hd
    rw [hd] at hn
    split at h
    · obtain ⟨rfl, rfl⟩ := Prod.mk.inj (Option.some.inj h)
      simp [source, ← hn]
    · split at h
      · simp at h
      · obtain ⟨rfl, rfl⟩ := Prod.mk.inj (Option.some.inj h)
        rfl
  · split at h
    · simp at h
    · obtain ⟨rfl, rfl⟩ := Prod.mk.inj (Option.some.inj h)
      rfl

theorem source_key? {t r : Text} {k : Token} (h : key? t = some (k, r)) :
    k.source ++ r = t := by
  have hs := Sigil.append_take t
  have hn := append_takeNegation (Sigil.take t).2
  unfold key? at h
  simp only at h
  split at h
  · simp at h
  · obtain ⟨rfl, rfl⟩ := Prod.mk.inj (Option.some.inj h)
    simp only [source, List.append_assoc, List.takeWhile_append_dropWhile, hn, hs]

/-- A token and what follows it are the text. -/
theorem source_take? {c : Char} {t r : Text} {k : Token} (h : take? c t = some (k, r)) :
    k.source ++ r = c :: t := by
  unfold take? at h
  split at h
  · rename_i q hq
    obtain ⟨⟨body, rest⟩, hb, he⟩ := Option.map_eq_some_iff.1 h
    obtain ⟨rfl, rfl⟩ := Prod.mk.inj he
    simp [source, Quote.char_eq_of_ofChar? hq, Quoted.append_of_closing? hb]
  · split at h
    · obtain ⟨rfl, rfl⟩ := Prod.mk.inj (Option.some.inj h)
      simp_all [source]
    · split at h
      · obtain ⟨rfl, rfl⟩ := Prod.mk.inj (Option.some.inj h)
        simp_all [source]
      · split at h
        · obtain ⟨rfl, rfl⟩ := Prod.mk.inj (Option.some.inj h)
          simp_all [source]
        · split at h
          · obtain ⟨rfl, rfl⟩ := Prod.mk.inj (Option.some.inj h)
            rfl
          · split at h
            · exact source_ofFunctionMark? h
            · exact source_key? h

theorem source_ne_nil_of_take? {c : Char} {t r : Text} {k : Token}
    (h : take? c t = some (k, r)) : k.source ≠ [] := by
  cases k with
  | key sigil negated name =>
    intro hs
    have hname : name = [] := by
      simp only [source, List.append_eq_nil_iff] at hs
      exact hs.2
    subst hname
    unfold take? at h
    split at h
    · obtain ⟨⟨body, rest⟩, _, he⟩ := Option.map_eq_some_iff.1 h
      simp at he
    · split at h
      · simp at h
      · split at h
        · simp at h
        · split at h
          · simp at h
          · split at h
            · simp at h
            · split at h
              · unfold ofFunctionMark? at h
                split at h
                · split at h
                  · simp at h
                  · split at h <;> simp at h
                · split at h <;> simp at h
              · unfold key? at h
                simp only at h
                split at h
                · simp at h
                · rename_i hk
                  obtain ⟨he, _⟩ := Prod.mk.inj (Option.some.inj h)
                  exact hk (Token.key.inj he).2.2
  | _ => simp [source]

/-- A token takes at least one character. -/
theorem length_lt_of_take? {c : Char} {t r : Text} {k : Token}
    (h : take? c t = some (k, r)) : r.length < (c :: t).length := by
  have hs := congrArg List.length (source_take? h)
  have := List.length_pos_iff.2 (source_ne_nil_of_take? h)
  simp only [List.length_append] at hs
  omega

end Token

/-- A token and the place where it begins. -/
structure Placed where
  start : Nat
  token : Token
deriving DecidableEq, Repr

namespace Placed

def stop (p : Placed) : Nat := p.start + p.token.source.length

end Placed

/-- The tokens of the source of a directive from the place `position` on; blanks are left out. -/
def tokensFrom (position : Nat) (t : Text) : Except Problem (List Placed) :=
  match t with
  | [] => .ok []
  | c :: t =>
    if isBlank c then tokensFrom (position + 1) t
    else
      match _h : Token.take? c t with
      | none => .error (.unexpectedCharacter c position)
      | some (token, rest) =>
        match tokensFrom (position + token.source.length) rest with
        | .ok tokens => .ok (⟨position, token⟩ :: tokens)
        | .error problem => .error problem
termination_by t.length
decreasing_by
  · simp
  · exact Token.length_lt_of_take? _h

/-- The tokens of the source of a directive. -/
def tokens (source : Text) : Except Problem (List Placed) := tokensFrom 0 source

end SqlTemplate
