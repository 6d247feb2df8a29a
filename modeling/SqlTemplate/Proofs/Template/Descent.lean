import SqlTemplate.Proofs.Directive.Descent
import SqlTemplate.Proofs.Line.Building
import SqlTemplate.Proofs.Source.Closing
import SqlTemplate.Proofs.Source.Plain

/-!
# Parsing templates by descent

A template can be parsed with a cursor: what is found next decides which function goes on, and the
function moves the cursor as far as it reads, sometimes beyond and back again. Nothing in the text
of these functions says that something is always found, that the cursor gets on, or that a flaw is
reported on a line of the text. The innermost of their loops, the search for the end of a comment
with others inside of it, is settled here (`Descent.ends_commentEnd`).
-/

namespace SqlTemplate

namespace Descent

variable (registry : Registry) (resource : Option Text)

/-- The flaw of a template on the lines from `first` to `last`. -/
def fail {α : Type} (flaw : Flaw) (first : Nat) (last : Option Nat) : Attempt FormatError α :=
  .flaw ⟨flaw, resource, some first, last⟩

/-- The expression of a directive on a line. -/
def expression (line : Nat) (source : Text) : Attempt FormatError Expression :=
  (compile registry source).mapFlaw fun problem =>
    ⟨.directive problem source, resource, some line, none⟩

/-- Reads a line comment. The line end behind it is left to be found again. -/
def lineComment (d : Draft) (c : Cursor) : Attempt FormatError (Draft × Cursor) := do
  match c.find .restOfLine with
  | (_, none) => .gap .nothingFound
  | (c, some found) =>
    let comment := found.taken.parts.getD 0 []
    let ending := found.taken.parts.getD 1 []
    let c := (c.back ending.length).remember
    if Lexeme.isLineDirective comment then
      let line := c.line.toNat
      let source := strip comment
      let e ← expression registry resource line source
      let (sample, d) := d.takeMark
      return (d.addCompiled line source e sample, c)
    else return (d, c)

/-- Moves the cursor behind the end of the comment that was opened on `line`. -/
def commentEnd (line : Nat) (c : Cursor) : Attempt FormatError Cursor := do
  match c.find .commentDelimiter with
  | (c, none) => fail resource .openComment line (some c.line.toNat)
  | (c, some found) =>
    if found.taken.text = Delimiter.commentClose.chars then return c
    else if found.taken.text = Delimiter.commentOpen.chars then
      let c ← (commentEnd (c := c)) c.line.toNat
      (commentEnd (c := c)) line
    else (commentEnd (c := c)) line
partial_fixpoint

/-- Reads the sample right behind a directive. -/
def sampleBehind (c : Cursor) : Attempt FormatError (Option Text × Cursor) := do
  if c.peek 1 = Delimiter.opening.chars then
    match Sample.balanced? 0 none c.rest with
    | none => fail resource .openParenthesis c.line.toNat none
    | some (span, _) =>
      let (c, passed) := c.advance span.length
      return (some passed, c)
  else
    match c.consume .sample with
    | (c, none) => return (none, c)
    | (c, some found) => return (some found.taken.text, c)

/-- Reads a block comment. -/
def blockComment (d : Draft) (c : Cursor) : Attempt FormatError (Draft × Cursor) := do
  let line := c.line.toNat
  let start := c.pos
  let c ← commentEnd resource line c
  match c.found with
  | none => .gap .nothingFound
  | some found =>
    let body := c.between start found.start
    match Lexeme.useOf body with
    | .nothing => return (d, c.remember)
    | .hint => return (d.write (c.between (start - 2) c.pos), c.remember)
    | .directive =>
      let (sample, c) ← sampleBehind resource c
      let source := strip body
      let e ← expression registry resource line source
      return (d.addCompiled line source e sample, c.remember)

/-- Reads a quoted literal behind its opening quote. -/
def quoted (q : Quote) (d : Draft) (c : Cursor) : Attempt FormatError (Draft × Cursor) := do
  match c.consume (.literal q) with
  | (c, none) => fail resource (.openQuote q) c.line.toNat none
  | (c, some found) => return (d.write (q.char :: found.taken.text), c.remember)

/-- Puts the lines of a span into the line that is being read. -/
def enclosed (lines : List Line) (d : Draft) : Attempt FormatError Draft := do
  match lines with
  | [l] => return d.merge l
  | _ =>
    let tree ← Line.build lines
    return d.addGroup tree

/-- Reads lines up to the end of the text, or up to the parenthesis that closes the one on the line
`opened`: `finished` are the lines before, and `d` is the line that is being read. -/
def lines (opened : Option Nat) (finished : List Line) (d : Draft) (c : Cursor) :
    Attempt FormatError (List Line × Cursor) := do
  match c.find .delimiter with
  | (_, none) => .gap .nothingFound
  | (c, some found) =>
    let (c, before) := c.takeRemembered
    let d := d.write before
    let line := c.line.toNat
    let token := found.taken.text
    if token = Delimiter.commentClose.chars then fail resource .strayComment line none
    else if token = Delimiter.closing.chars then
      if opened.isNone then fail resource .strayParenthesis line none
      else return (finished ++ [d.finish line], c)
    else if token = Delimiter.dashes.chars then
      let (d, c) ← lineComment registry resource d c
      (lines (c := c)) opened finished d
    else if token = Delimiter.commentOpen.chars then
      let (d, c) ← blockComment registry resource d c
      (lines (c := c)) opened finished d
    else if token = Delimiter.opening.chars then
      let (inner, c) ← (lines (c := c.remember)) (some line) [] (Draft.start line)
      let d ← enclosed inner d
      (lines (c := c)) opened finished d
    else if token = [Quote.single.char] then
      let (d, c) ← quoted resource .single d c
      (lines (c := c)) opened finished d
    else if token = [Quote.double.char] then
      let (d, c) ← quoted resource .double d c
      (lines (c := c)) opened finished d
    else if token = [] then
      match opened with
      | none => return (finished ++ [d.finish line], c)
      | some first => fail resource .openParenthesis first (some line)
    else (lines (c := c)) opened (finished ++ [d.finish (line - 1)]) (Draft.start line)
partial_fixpoint

/-- Parses a template. -/
def template (text : Text) : Attempt FormatError Template := do
  let c := (Cursor.ofText text).remember
  let (flat, _) ← lines registry resource none [] (Draft.start c.line.toNat) c
  let tree ← Line.build flat
  return ⟨tree, resource⟩

section Comments

variable {resource : Option Text} {c next : Cursor} {before t u behind body rest : Text}
  {line opened : Nat}

/-- What is known of looking for the end of a comment that was opened on the line `opened`, with the
text `t` behind the cursor. -/
def EndsComment (resource : Option Text) (opened : Nat) (before : Text) (line : Nat) (t : Text)
    (a : Attempt FormatError Cursor) : Prop :=
  a.Ends
    (fun next => ∃ body rest, Comment.close? 0 t = some (body, rest) ∧ next.exhausted = false ∧
      next.found.map Found.start = some (before ++ body).length ∧
      next.At (before ++ (body ++ Delimiter.commentClose.chars)) (line + lineEnds body) rest)
    (fun e => Comment.close? 0 t = none ∧
      e = ⟨.openComment, resource, some ((Comment.openLines [opened] line t).headD opened),
        some (line + lineEnds t)⟩)

theorem endsComment_fail (h : c.At before line t) (hfree : Pattern.commentDelimiter.Free t []) :
    EndsComment resource opened before line t
      (fail resource .openComment opened (some c.line.toNat)) := by
  have hclose : Comment.close? 0 (t ++ []) = none := Comment.close?_append_of_free hfree
  have hlines : Comment.openLines [opened] line (t ++ []) = [opened] := by
    rw [Comment.openLines_append_of_free hfree, Comment.openLines]
  have hends : lineEnds t = 0 := lineEnds_eq_zero (Comment.isLineBreak_of_free hfree)
  rw [List.append_nil] at hclose hlines
  refine ⟨hclose, ?_⟩
  rw [h.toNat_line, hlines, hends]
  rfl

theorem endsComment_pure {found : Found} (hfree : Pattern.commentDelimiter.Free u ('*' :: '/' :: rest))
    (hnext : next.exhausted = false) (hfound : next.found = some found)
    (hstart : found.start = (before ++ u).length)
    (h : next.At (before ++ (u ++ Delimiter.commentClose.chars))
      (line + lineEnds (u ++ Delimiter.commentClose.chars)) rest) :
    EndsComment resource opened before line (u ++ '*' :: '/' :: rest) (pure next) := by
  have hclose : Comment.close? 0 (u ++ '*' :: '/' :: rest) = some (u, rest) := by
    rw [Comment.close?_append_of_free hfree, Comment.close?, Option.map_some]
    simp only [List.append_nil]
  have hends : lineEnds (u ++ Delimiter.commentClose.chars) = lineEnds u :=
    lineEnds_append (sealed_of_head? rfl (by decide : isLineBreak '*' = false) u)
  rw [hends] at h
  refine ⟨u, rest, hclose, hnext, ?_, h⟩
  rw [hfound, Option.map_some, hstart]

/-- Looking for the end goes on behind a line end. -/
theorem EndsComment.behind_lineEnd {e : LineEnd} {a : Attempt FormatError Cursor}
    (htake : Delimiter.take? (e.chars ++ behind) = some (.lineEnd e, behind))
    (hfree : Pattern.commentDelimiter.Free u (e.chars ++ behind))
    (h : EndsComment resource opened (before ++ (u ++ e.chars)) (line + lineEnds (u ++ e.chars))
      behind a) :
    EndsComment resource opened before line (u ++ (e.chars ++ behind)) a := by
  have hbreaks := Comment.isLineBreak_of_free hfree
  have hsealed : Sealed (u ++ e.chars) behind :=
    (sealed_of_forall hbreaks behind).append (Lexeme.sealed_chars_of_take? htake)
  have hone : lineEnds (u ++ e.chars) = 1 := by
    rw [lineEnds_append_of_all_not _ _ hbreaks]
    cases e <;> rfl
  refine Attempt.Ends.mono h ?_ ?_
  · rintro next ⟨body, rest, hbody, hnext, hfound, hat⟩
    have hends : lineEnds (u ++ e.chars ++ body) = lineEnds (u ++ e.chars) + lineEnds body := by
      refine lineEnds_append (Sealed.of_append_right (t := '*' :: '/' :: rest) ?_)
      rwa [← Comment.append_of_close? hbody]
    refine ⟨u ++ e.chars ++ body, rest, by rw [Comment.close?_append_lineEnd hfree, hbody]; rfl, hnext, ?_, ?_⟩
    · rw [hfound, List.append_assoc]
    · rw [hends, ← Nat.add_assoc]
      rwa [List.append_assoc] at hat ⊢
  · rintro flaw ⟨hnone, rfl⟩
    refine ⟨by rw [Comment.close?_append_lineEnd hfree, hnone]; rfl, ?_⟩
    have hends : lineEnds (u ++ (e.chars ++ behind)) = lineEnds (u ++ e.chars) + lineEnds behind := by
      rw [← List.append_assoc, lineEnds_append hsealed]
    rw [hends, Comment.openLines_append_of_free hfree, Comment.openLines_chars_append htake, hone,
      Nat.add_assoc]

/-- The end of a comment is looked for behind the end of a comment that is opened inside of it. -/
theorem EndsComment.behind_opening {a : Attempt FormatError Cursor}
    {f : Cursor → Attempt FormatError Cursor}
    (hfree : Pattern.commentDelimiter.Free u ('/' :: '*' :: behind))
    (ha : EndsComment resource line (before ++ (u ++ ['/', '*'])) line behind a)
    (hf : ∀ next body rest, Comment.close? 0 behind = some (body, rest) →
      next.exhausted = false →
      next.At (before ++ (u ++ ['/', '*']) ++ (body ++ ['*', '/'])) (line + lineEnds body) rest →
      EndsComment resource opened (before ++ (u ++ ['/', '*']) ++ (body ++ ['*', '/']))
        (line + lineEnds body) rest (f next)) :
    EndsComment resource opened before line (u ++ '/' :: '*' :: behind) (a >>= f) := by
  have hbreaks := Comment.isLineBreak_of_free hfree
  have hends : lineEnds (u ++ '/' :: '*' :: behind) = lineEnds behind :=
    lineEnds_append_of_all_not _ _ hbreaks
  have hlines : Comment.openLines [opened] line (u ++ '/' :: '*' :: behind) =
      Comment.openLines ([line] ++ [opened]) line behind := by
    rw [Comment.openLines_append_of_free hfree, Comment.openLines]
    rfl
  refine Attempt.Ends.bind (Attempt.Ends.mono ha (fun _ hx => hx) ?_) ?_
  · rintro flaw ⟨hnone, rfl⟩
    obtain ⟨hopen, hne⟩ := Comment.openLines_of_close?_eq_none hnone
      (rfl : [line].length = 0 + 1) [opened] line
    refine ⟨?_, ?_⟩
    · rw [Comment.close?_append_opening hfree, Comment.close?_add 0 0, hnone]
      rfl
    · obtain ⟨k, ks, hk⟩ := List.exists_cons_of_ne_nil hne
      rw [hlines, hends, hopen, hk]
      rfl
  · rintro next ⟨inner, rest, hinner, hnext, -, hat⟩
    have hlast : lineEnds behind = lineEnds inner + lineEnds rest := by
      rw [Comment.append_of_close? hinner]
      exact lineEnds_append (sealed_of_head? rfl (by decide : isLineBreak '*' = false) inner)
    have hopen := Comment.openLines_of_close? hinner (rfl : [line].length = 0 + 1) [opened] line
    refine Attempt.Ends.mono (hf next inner rest hinner hnext hat) ?_ ?_
    · rintro last ⟨body, rest', hbody, hlast, hfound, hat'⟩
      have htwo : lineEnds (u ++ '/' :: '*' :: (inner ++ '*' :: '/' :: body)) =
          lineEnds inner + lineEnds body := by
        rw [lineEnds_append_of_all_not _ _ hbreaks]
        exact lineEnds_append (sealed_of_head? rfl (by decide : isLineBreak '*' = false) inner)
      refine ⟨u ++ '/' :: '*' :: (inner ++ '*' :: '/' :: body), rest', ?_, hlast, ?_, ?_⟩
      · rw [Comment.close?_append_opening hfree, Comment.close?_add 0 0, hinner]
        simp only [Option.bind_some, hbody]
        rfl
      · rw [hfound]
        simp
      · rw [htwo, ← Nat.add_assoc]
        simpa using hat'
    · rintro flaw ⟨hnone, rfl⟩
      refine ⟨?_, ?_⟩
      · rw [Comment.close?_append_opening hfree, Comment.close?_add 0 0, hinner]
        simp only [Option.bind_some, hnone]
        rfl
      · rw [hlines, hopen, hends, hlast, Nat.add_assoc]

/-- The end of a comment is found where it is, or it is reported that there is none. -/
theorem ends_commentEnd (resource : Option Text) (opened : Nat) (h : c.At before line t)
    (hc : c.exhausted = false) :
    EndsComment resource opened before line t (commentEnd resource opened c) := by
  induction hn : t.length using Nat.strongRecOn generalizing t before line opened c with
  | ind n ih =>
      subst hn
      rw [commentEnd.eq_1]
      rcases h.find_comment hc with ⟨hfind, hfree⟩ |
        ⟨u, d, behind, next, found, rfl, htake, hd, hfree, hfind, htext, hstart, hfound, hnext, hat⟩
      · rw [hfind]
        exact endsComment_fail h hfree
      · rw [hfind]
        simp only [htext]
        have hlength : behind.length < (u ++ (d.chars ++ behind)).length := by
          have hpos := List.length_pos_iff.2 d.chars_ne_nil
          rw [List.length_append, List.length_append]
          omega
        rcases hd with rfl | rfl | ⟨e, rfl⟩
        · have hends : lineEnds (u ++ ['/', '*']) = 0 :=
            lineEnds_append_of_all_not _ _ (Comment.isLineBreak_of_free hfree)
          rw [Delimiter.chars, hends] at hat
          rw [if_neg (by decide), if_pos rfl, hat.toNat_line]
          refine EndsComment.behind_opening hfree (ih _ hlength line hat hnext rfl) ?_
          intro last body rest hbody hlast hat'
          have hbehind : behind = body ++ '*' :: '/' :: rest := Comment.append_of_close? hbody
          have hrest : rest.length ≤ behind.length := by
            rw [hbehind, List.length_append, List.length_cons, List.length_cons]
            omega
          exact ih _ (by omega) opened hat' hlast rfl
        · rw [if_pos rfl]
          exact endsComment_pure hfree hnext hfound hstart hat
        · rw [if_neg (by cases e <;> decide), if_neg (by cases e <;> decide)]
          exact EndsComment.behind_lineEnd htake hfree (ih _ hlength opened hat hnext rfl)

end Comments

end Descent

end SqlTemplate
