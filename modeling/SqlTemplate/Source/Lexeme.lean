import SqlTemplate.Source.Comment
import SqlTemplate.Source.Sample

/-!
# Lexemes

`lexemes` cuts a template text into its meaningful pieces: plain characters, line ends, parentheses,
quoted literals and comments. A comment is a hint that stays in the text, a directive, or nothing at
all; a block directive takes the sample value right behind it along. A piece that is never closed
takes the rest of the text as a lexeme of its own, so that a text always has lexemes and what is
wrong with it is decided by whoever reads them in order.

`Lexeme.source` is the text that a lexeme was cut from. The sources of the lexemes of a text are the
text (`source_lexemes`).
-/

namespace SqlTemplate

/-- A meaningful piece of a template text. -/
inductive Lexeme where
  /-- A character that means nothing to templates. -/
  | plain (c : Char)
  | lineEnd (e : LineEnd)
  | opening
  | closing
  /-- A quoted literal after its opening quote, closing quote included. -/
  | quoted (q : Quote) (body : Text)
  /-- A line comment that is no directive. -/
  | remark (body : Text)
  /-- A block comment that is no directive. -/
  | comment (body : Text)
  /-- A block comment that stays in the text. -/
  | hint (body : Text)
  /-- A directive in a line comment. -/
  | lineDirective (body : Text)
  /-- A directive in a block comment, and the sample value behind it. -/
  | blockDirective (body : Text) (sample : Option Text)
  /-- A comment closing outside of any comment. -/
  | strayClose
  /-- A literal that is never closed. -/
  | openQuote (q : Quote) (rest : Text)
  /-- A block comment that is never closed. -/
  | openComment (rest : Text)
  /-- A directive in a block comment with a parenthesised sample that is never closed. -/
  | openSample (body rest : Text)
deriving DecidableEq, Repr

namespace Lexeme

/-- The text that a lexeme was cut from. -/
def source : Lexeme → Text
  | plain c => [c]
  | lineEnd e => e.chars
  | opening => ['(']
  | closing => [')']
  | quoted q body => q.char :: body
  | remark body | lineDirective body => '-' :: '-' :: body
  | comment body | hint body => '/' :: '*' :: (body ++ ['*', '/'])
  | blockDirective body sample => '/' :: '*' :: (body ++ '*' :: '/' :: sample.getD [])
  | strayClose => ['*', '/']
  | openQuote q rest => q.char :: rest
  | openComment rest => '/' :: '*' :: rest
  | openSample body rest => '/' :: '*' :: (body ++ '*' :: '/' :: rest)

/-- The characters that introduce a directive in a line comment, after one space. -/
def isIntroducer (c : Char) : Bool := "$@&?#%'\":|".toList.contains c

/-- Whether the body of a line comment is a directive. -/
def isLineDirective : Text → Bool
  | ' ' :: c :: _ => isIntroducer c
  | _ => false

/-- The three uses of block comments. -/
inductive Use where
  | nothing
  | hint
  | directive
deriving DecidableEq, Repr

/-- The use of a block comment with the given body. -/
def useOf (body : Text) : Use :=
  if isBlankText body then .nothing
  else
    match body with
    | '*' :: _ => .nothing
    | '!' :: _ | '+' :: _ => .hint
    | _ => .directive

/-- The lexeme of a block comment with the given body, and what is left of the text behind it. -/
def ofBlock (body rest : Text) : Lexeme × Text :=
  match useOf body with
  | .nothing => (comment body, rest)
  | .hint => (hint body, rest)
  | .directive =>
    match Sample.read rest with
    | .absent => (blockDirective body none, rest)
    | .taken sample rest => (blockDirective body (some sample), rest)
    | .unclosed => (openSample body rest, [])

/-- The lexeme of a line comment with the given body. -/
def ofLine (body : Text) : Lexeme :=
  if isLineDirective body then lineDirective body else remark body

/-- The lexeme that a delimiter begins, and what is left of the text behind it. -/
def ofDelimiter (d : Delimiter) (t : Text) : Lexeme × Text :=
  match d with
  | .lineEnd e => (lineEnd e, t)
  | .opening => (opening, t)
  | .closing => (closing, t)
  | .commentClose => (strayClose, t)
  | .quote q =>
    match Quoted.closing? q.char t with
    | some (body, rest) => (quoted q body, rest)
    | none => (openQuote q t, [])
  | .dashes =>
    let (body, rest) := restOfLine t
    (ofLine body, rest)
  | .commentOpen =>
    match Comment.close? 0 t with
    | some (body, rest) => ofBlock body rest
    | none => (openComment t, [])

/-- The first lexeme of the text `c :: t`, and what is left of the text. -/
def first (c : Char) (t : Text) : Lexeme × Text :=
  match Delimiter.take? (c :: t) with
  | some (d, rest) => ofDelimiter d rest
  | none => (plain c, t)

theorem source_ofLine (body : Text) : (ofLine body).source = '-' :: '-' :: body := by
  unfold ofLine
  split <;> rfl

theorem source_ofBlock (body rest : Text) :
    (ofBlock body rest).1.source ++ (ofBlock body rest).2 =
      '/' :: '*' :: (body ++ '*' :: '/' :: rest) := by
  unfold ofBlock
  split
  · simp [source]
  · simp [source]
  · split
    · simp [source]
    · rename_i h
      simp [source, Sample.append_of_read h]
    · simp [source]

/-- A lexeme that a delimiter begins and what is left behind it are the text. -/
theorem source_ofDelimiter (d : Delimiter) (t : Text) :
    (ofDelimiter d t).1.source ++ (ofDelimiter d t).2 = d.chars ++ t := by
  cases d with
  | lineEnd e => rfl
  | opening => rfl
  | closing => rfl
  | commentClose => rfl
  | quote q =>
    simp only [ofDelimiter]
    split
    · rename_i h
      simp [source, Delimiter.chars, Quoted.append_of_closing? h]
    · simp [source, Delimiter.chars]
  | dashes =>
    simp [ofDelimiter, source_ofLine, Delimiter.chars, restOfLine]
  | commentOpen =>
    simp only [ofDelimiter]
    split
    · rename_i h
      simp [source_ofBlock, Delimiter.chars, Comment.append_of_close? h]
    · simp [source, Delimiter.chars]

/-- The first lexeme and what is left are the text. -/
theorem source_first (c : Char) (t : Text) :
    (first c t).1.source ++ (first c t).2 = c :: t := by
  unfold first
  split
  · rename_i h
    rw [source_ofDelimiter, ← Delimiter.chars_append_of_take? h]
  · rfl

theorem source_ne_nil (l : Lexeme) : l.source ≠ [] := by
  cases l with
  | lineEnd e => cases e <;> simp [source, LineEnd.chars]
  | _ => simp [source]

theorem length_first_lt (c : Char) (t : Text) : (first c t).2.length < (c :: t).length := by
  have h := congrArg List.length (source_first c t)
  have := List.length_pos_iff.2 (source_ne_nil (first c t).1)
  simp only [List.length_append] at h
  omega

end Lexeme

/-- The lexemes of a text, in order. -/
def lexemes : Text → List Lexeme
  | [] => []
  | c :: t => (Lexeme.first c t).1 :: lexemes (Lexeme.first c t).2
termination_by t => t.length
decreasing_by exact Lexeme.length_first_lt c t

@[simp] theorem lexemes_nil : lexemes [] = [] := by rw [lexemes]

theorem lexemes_cons (c : Char) (t : Text) :
    lexemes (c :: t) = (Lexeme.first c t).1 :: lexemes (Lexeme.first c t).2 := by rw [lexemes]

/-- Nothing of a text is lost, repeated or moved by cutting it into lexemes. -/
theorem source_lexemes (t : Text) : (lexemes t).flatMap Lexeme.source = t := by
  fun_induction lexemes t with
  | case1 => rfl
  | case2 c t ih => rw [List.flatMap_cons, ih, Lexeme.source_first]

end SqlTemplate
