import SqlTemplate.Proofs.Source.Walks
import SqlTemplate.Proofs.Template.Agreement

/-!
# The walk of parsing

Parsing by descent once more, now with every move of the cursor written down: a `Walk` knows the
cursor only as the one behind the moves that it has made, so that nothing it does to the cursor
escapes notice. The functions are those of the descent, and each ends just as the descent does
(`Walk.Mirrors`), which makes the walk one of parsing (`Walk.mirrors_template`). On the way no line
end is split: what is found or consumed ends whole, a line comment is left before its line end, and
a sample ends with its parenthesis.
-/

namespace SqlTemplate

/-- A run that moves a cursor and keeps all moves that it made, also when it halts. -/
abbrev Walk (α : Type) := ExceptT (Halt FormatError) (StateT (List Cursor.Move) Option) α

namespace Walk

variable {α β : Type}

/-- An attempt that moves no cursor. -/
def stay (a : Attempt FormatError α) : Walk α :=
  ExceptT.mk fun moves => a.run.map fun result => (result, moves)

variable (text : Text)

/-- What is seen from the place of the cursor. -/
def see (report : Cursor → α) : Walk α := return report (Cursor.after text (← get))

/-- Makes a move. What it brings to light is seen from the place where it begins. -/
def perform (m : Cursor.Move) (report : Cursor → α) : Walk α := do
  let seen ← see text report
  modify fun moves => moves ++ [m]
  return seen

def make (m : Cursor.Move) : Walk Unit := perform text m fun _ => ()

def find (p : Pattern) : Walk (Option Found) := perform text (.find p) fun c => (c.find p).2

def consume (p : Pattern) : Walk (Option Found) := perform text (.consume p) fun c => (c.consume p).2

def advance (count : Nat) : Walk Text := perform text (.advance count) fun c => (c.advance count).2

def peek (count : Nat) : Walk Text := perform text (.peek count) fun c => c.peek count

def takeRemembered : Walk Text := perform text .takeRemembered fun c => c.takeRemembered.2

def here : Walk Cursor := see text fun c => c

def line : Walk Nat := see text fun c => c.line.toNat

variable (registry : Registry) (resource : Option Text)

def fail (flaw : Flaw) (first : Nat) (last : Option Nat) : Walk α :=
  throw (.flaw ⟨flaw, resource, some first, last⟩)

/-- Reads a line comment and goes back before its line end. -/
def lineComment (d : Draft) : Walk Draft := do
  match ← find text .restOfLine with
  | none => throw (.gap .nothingFound)
  | some found =>
    let comment := found.taken.parts.getD 0 []
    let ending := found.taken.parts.getD 1 []
    make text (.back ending.length)
    make text .remember
    if Lexeme.isLineDirective comment then
      let line ← line text
      let source := strip comment
      let e ← stay (Descent.expression registry resource line source)
      let (sample, d) := d.takeMark
      return d.addCompiled line source e sample
    else return d

/-- Moves behind the end of the comment that was opened on the line `opened`. -/
def commentEnd (opened : Nat) (r : Option Text) : Walk Unit := do
  match ← find text .commentDelimiter with
  | none => fail r .openComment opened (some (← line text))
  | some found =>
    if found.taken.text = Delimiter.commentClose.chars then return ()
    else if found.taken.text = Delimiter.commentOpen.chars then
      (commentEnd (r := r)) (← line text)
      (commentEnd (r := r)) opened
    else (commentEnd (r := r)) opened
partial_fixpoint

/-- Reads the sample right behind a directive. -/
def sampleBehind : Walk (Option Text) := do
  if (← peek text 1) = Delimiter.opening.chars then
    match Sample.balanced? 0 none (← here text).rest with
    | none => fail resource .openParenthesis (← line text) none
    | some (span, _) => return some (← advance text span.length)
  else
    match ← consume text .sample with
    | none => return none
    | some found => return some found.taken.text

/-- Reads a block comment. -/
def blockComment (d : Draft) : Walk Draft := do
  let opened ← line text
  let start := (← here text).pos
  commentEnd text opened resource
  match (← here text).found with
  | none => throw (.gap .nothingFound)
  | some found =>
    let c ← here text
    let body := c.between start found.start
    match Lexeme.useOf body with
    | .nothing =>
      make text .remember
      return d
    | .hint =>
      make text .remember
      return d.write (c.between (start - 2) c.pos)
    | .directive =>
      let sample ← sampleBehind text resource
      make text .remember
      let source := strip body
      let e ← stay (Descent.expression registry resource opened source)
      return d.addCompiled opened source e sample

/-- Reads a quoted literal behind its opening quote. -/
def quoted (q : Quote) (d : Draft) : Walk Draft := do
  let opened ← line text
  match ← consume text (.literal q) with
  | none => fail resource (.openQuote q) opened none
  | some found =>
    make text .remember
    return d.write (q.char :: found.taken.text)

/-- Reads lines up to the end of the text, or up to the parenthesis that closes the one on the line
`opened`. -/
def lines (opened : Option Nat) (finished : List Line) (d : Draft) : Walk (List Line) := do
  match ← find text .delimiter with
  | none => throw (.gap .nothingFound)
  | some found =>
    let before ← takeRemembered text
    let d := d.write before
    let token := found.taken.text
    let here ← line text
    if token = Delimiter.commentClose.chars then fail resource .strayComment here none
    else if token = Delimiter.closing.chars then
      if opened.isNone then fail resource .strayParenthesis here none
      else return finished ++ [d.finish here]
    else if token = Delimiter.dashes.chars then
      let d ← lineComment text registry resource d
      (lines (d := d)) opened finished
    else if token = Delimiter.commentOpen.chars then
      let d ← blockComment text registry resource d
      (lines (d := d)) opened finished
    else if token = Delimiter.opening.chars then
      make text .remember
      let inner ← (lines (d := Draft.start here)) (some here) []
      let d ← stay (Descent.enclosed inner d)
      (lines (d := d)) opened finished
    else if token = [Quote.single.char] then
      let d ← quoted text resource .single d
      (lines (d := d)) opened finished
    else if token = [Quote.double.char] then
      let d ← quoted text resource .double d
      (lines (d := d)) opened finished
    else if token = [] then
      match opened with
      | none => return finished ++ [d.finish here]
      | some first => fail resource .openParenthesis first (some here)
    else (lines (d := Draft.start here)) opened (finished ++ [d.finish (here - 1)])
partial_fixpoint

/-- Parses a template. -/
def template : Walk Template := do
  make text .remember
  let flat ← lines text registry resource none [] (Draft.start (← line text))
  let tree ← stay (Line.build flat)
  return ⟨tree, resource⟩

section Mirrors

open Cursor (after Clear clear_concat_iff)

variable {text : Text} {registry : Registry} {resource : Option Text} {γ δ : Type}
  {pair : α → Cursor → γ} {pair' : β → Cursor → δ} {moves : List Cursor.Move}

/-- From the moves made so far on, the walk ends just as the attempt does, with the cursor where the
attempt leaves it, and the cursor has never stopped in the middle of a line end. -/
def Mirrors (text : Text) (pair : α → Cursor → γ) (moves : List Cursor.Move) (w : Walk α)
    (a : Attempt FormatError γ) : Prop :=
  ∃ result moves', w.run.run moves = some (result, moves') ∧
    a.run = some (result.map fun x => pair x (after text moves')) ∧ Clear text moves'

theorem mirrors_pure (h : Clear text moves) (x : α) :
    Mirrors text pair moves (pure x) (pure (pair x (after text moves))) :=
  ⟨.ok x, moves, rfl, rfl, h⟩

theorem mirrors_throw (h : Clear text moves) (halt : Halt FormatError) :
    Mirrors text pair moves (throw halt) (throw halt) :=
  ⟨.error halt, moves, rfl, rfl, h⟩

theorem Mirrors.bind {w : Walk α} {a : Attempt FormatError γ} {g : α → Walk β}
    {f : γ → Attempt FormatError δ} (h : Mirrors text pair moves w a)
    (hf : ∀ x moves', Clear text moves' → a = pure (pair x (after text moves')) →
      Mirrors text pair' moves' (g x) (f (pair x (after text moves')))) :
    Mirrors text pair' moves (w >>= g) (a >>= f) := by
  obtain ⟨result, moves', hw, ha, hclear⟩ := h
  have hwalk : (w >>= g).run.run moves =
      (w.run.run moves).bind fun behind => (ExceptT.bindCont g behind.1).run behind.2 := rfl
  have hattempt : (a >>= f).run = a.run.bind (ExceptT.bindCont f) := rfl
  rw [Mirrors, hwalk, hw, hattempt, ha]
  cases result with
  | ok x => exact hf x moves' hclear ha
  | error halt => exact ⟨.error halt, moves', rfl, rfl, hclear⟩

/-- An attempt that moves no cursor is made in the same way by both. -/
theorem mirrors_stay {a : Attempt FormatError α} {Q : α → Prop} {E : FormatError → Prop}
    {g : α → Walk β} {f : α → Attempt FormatError δ} (h : a.Ends Q E) (hclear : Clear text moves)
    (hf : ∀ x, Q x → Mirrors text pair' moves (g x) (f x)) :
    Mirrors text pair' moves (stay a >>= g) (a >>= f) := by
  rcases Attempt.ends_iff.1 h with ⟨x, rfl, hx⟩ | ⟨e, rfl, -⟩
  · exact hf x hx
  · exact mirrors_throw hclear _

theorem mirrors_ite {P : Prop} [Decidable P] {w w' : Walk α} {a a' : Attempt FormatError γ}
    (h : P → Mirrors text pair moves w a) (h' : ¬P → Mirrors text pair moves w' a') :
    Mirrors text pair moves (if P then w else w') (if P then a else a') := by
  split
  · exact h ‹P›
  · exact h' ‹¬P›

theorem mirrors_see {report : Cursor → α} {g : α → Walk β} {a : Attempt FormatError δ}
    (h : Mirrors text pair' moves (g (report (after text moves))) a) :
    Mirrors text pair' moves (see text report >>= g) a := h

theorem mirrors_perform {m : Cursor.Move} {report : Cursor → α} {g : α → Walk β}
    {a : Attempt FormatError δ}
    (h : Mirrors text pair' (moves ++ [m]) (g (report (after text moves))) a) :
    Mirrors text pair' moves (perform text m report >>= g) a := h

variable {before t : Text} {number : Nat}

/-- A line comment is read up to its line end, which is not cut by going back. -/
theorem mirrors_lineComment {d : Draft} (hclear : Clear text moves)
    (h : (after text moves).Ready before number t) :
    Mirrors text Prod.mk moves (lineComment text registry resource d)
      (Descent.lineComment registry resource d (after text moves)) := by
  obtain ⟨ending, next, found, hfind, hparts, hready⟩ := h.toAt.find_restOfLine h.unexhausted
  have hcomment : found.taken.parts.getD 0 [] = (restOfLine t).1 := by rw [hparts]; rfl
  have hending : found.taken.parts.getD 1 [] = ending := by rw [hparts]; rfl
  have hnext : after text (moves ++ [.find .restOfLine]) = next := Cursor.after_find hfind
  have hbehind : after text (moves ++ [.find .restOfLine] ++ [.back ending.length] ++ [.remember]) =
      (next.back ending.length).remember := by
    rw [Cursor.after_remember, Cursor.after_concat, hnext]
    rfl
  have hstop : ¬(next.back ending.length).remember.SplitsLineEnd :=
    (Cursor.not_splitsLineEnd_iff hready.text hready.pos).2
      (sealed_restOfLine (hclear.sealed h.toAt))
  have hback : Clear text (moves ++ [.find .restOfLine] ++ [.back ending.length]) :=
    (hclear.find .restOfLine).concat (by rw [hnext]; exact hstop)
  have hremember := hback.remember
  rw [lineComment, Descent.lineComment, hfind]
  refine mirrors_perform ?_
  rw [hfind]
  simp only [hcomment, hending]
  refine mirrors_perform (mirrors_perform ?_)
  rw [← hbehind]
  split
  · exact mirrors_see (mirrors_stay (Descent.ends_expression ..) hremember fun e _ =>
      mirrors_pure hremember _)
  · exact mirrors_pure hremember _

theorem mirrors_commentEnd {opened : Nat} (hclear : Clear text moves)
    (h : (after text moves).At before number t) (hc : (after text moves).exhausted = false) :
    Mirrors text (fun _ c => c) moves (commentEnd text opened resource)
      (Descent.commentEnd resource opened (after text moves)) := by
  induction hn : t.length using Nat.strongRecOn
    generalizing t before number opened moves with
  | ind n ih =>
    subst hn
    have hfound := hclear.find .commentDelimiter
    rw [commentEnd.eq_1, Descent.commentEnd.eq_1]
    refine mirrors_perform ?_
    rcases h.find_comment hc with ⟨hfind, -⟩ |
      ⟨u, d, behind, next, found, rfl, -, -, -, hfind, -, -, -, hexhausted, hat⟩
    · rw [hfind]
      refine mirrors_see ?_
      rw [Cursor.after_find hfind]
      exact mirrors_throw hfound _
    · have hnext : after text (moves ++ [.find .commentDelimiter]) = next := Cursor.after_find hfind
      have hlength : behind.length < (u ++ (d.chars ++ behind)).length := by
        have hpos := List.length_pos_iff.2 d.chars_ne_nil
        rw [List.length_append, List.length_append]
        omega
      rw [hfind]
      subst hnext
      refine mirrors_ite (fun _ => mirrors_pure hfound ()) fun _ => mirrors_ite (fun _ => ?_)
        fun _ => ih _ hlength hfound hat hexhausted rfl
      refine mirrors_see ((ih _ hlength hfound hat hexhausted rfl).bind ?_)
      intro _ moves' hclear' hinner
      have hends := Descent.ends_commentEnd resource
        (after text (moves ++ [.find .commentDelimiter])).line.toNat hat hexhausted
      rw [hinner] at hends
      obtain ⟨body, rest, hbody, hexhausted', -, hat'⟩ := hends
      have hrest : rest.length < behind.length := by
        rw [Comment.append_of_close? hbody, List.length_append, List.length_cons, List.length_cons]
        omega
      exact ih _ (hrest.trans hlength) hclear' hat' hexhausted' rfl

theorem mirrors_sampleBehind (hclear : Clear text moves)
    (h : (after text moves).At before number t) :
    Mirrors text Prod.mk moves (sampleBehind text resource)
      (Descent.sampleBehind resource (after text moves)) := by
  have hpeeked : Clear text (moves ++ [.peek 1]) := hclear.concat hclear.not_splitsLineEnd
  have hsame : after text (moves ++ [.peek 1]) = after text moves := Cursor.after_peek ..
  rw [sampleBehind, Descent.sampleBehind]
  refine mirrors_perform (mirrors_ite (fun hopening => ?_) fun _ => ?_)
  · refine mirrors_see ?_
    rw [hsame, h.rest_eq]
    cases hbalanced : Sample.balanced? 0 none t with
    | none =>
      refine mirrors_see ?_
      rw [hsame]
      exact mirrors_throw hpeeked _
    | some found =>
      obtain ⟨sample, rest⟩ := found
      obtain rfl := Sample.append_of_balanced? hbalanced
      obtain ⟨next, hadvance, -, hat⟩ := h.advance_eq
      have hnext : after text (moves ++ [.peek 1] ++ [.advance sample.length]) = next := by
        rw [Cursor.after_concat, hsame]
        exact congrArg Prod.fst hadvance
      have hlast : sample.getLast? = some ')' := (Sample.isClosed_of_balanced? (by simp) hbalanced).2
      have hstop : ¬next.SplitsLineEnd := by
        refine (Cursor.not_splitsLineEnd_iff hat.text hat.pos).2 ?_
        refine sealed_of_getLast? (c := ')') ?_ (by decide) rest
        rw [List.getLast?_append, hlast]
        rfl
      have hadvanced : Clear text (moves ++ [.peek 1] ++ [.advance sample.length]) := by
        refine clear_concat_iff.2 ⟨hpeeked, ?_⟩
        rwa [hnext]
      refine mirrors_perform ?_
      rw [hsame]
      simp only [hadvance, ← hnext]
      exact mirrors_pure hadvanced _
  · have hconsumed := hpeeked.consume .sample
    have hnext : after text (moves ++ [.peek 1] ++ [.consume .sample]) =
        ((after text moves).consume .sample).1 := by
      rw [Cursor.after_concat, hsame]
      rfl
    refine mirrors_perform ?_
    rw [hsame]
    rcases hconsume : (after text moves).consume .sample with ⟨next, found⟩
    rw [hconsume] at hnext
    subst hnext
    cases found with
    | none => exact mirrors_pure hconsumed _
    | some found => exact mirrors_pure hconsumed _

theorem mirrors_blockComment {d : Draft} (hclear : Clear text moves)
    (h : (after text moves).Ready before number t) :
    Mirrors text Prod.mk moves (blockComment text registry resource d)
      (Descent.blockComment registry resource d (after text moves)) := by
  rw [blockComment, Descent.blockComment]
  refine mirrors_see (mirrors_see ((mirrors_commentEnd hclear h.toAt h.unexhausted).bind ?_))
  intro _ moves' hclear' hend
  have hends := Descent.ends_commentEnd resource (after text moves).line.toNat h.toAt h.unexhausted
  rw [hend] at hends
  obtain ⟨body, rest, -, -, hfound, hat⟩ := hends
  obtain ⟨found, hmet, -⟩ := Option.map_eq_some_iff.1 hfound
  have hremember := hclear'.remember
  refine mirrors_see ?_
  rw [hmet]
  refine mirrors_see ?_
  cases huse : Lexeme.useOf ((after text moves').between (after text moves).pos found.start) with
  | nothing =>
    simp only [huse]
    refine mirrors_perform ?_
    rw [← Cursor.after_remember]
    exact mirrors_pure hremember _
  | hint =>
    simp only [huse]
    refine mirrors_perform ?_
    rw [← Cursor.after_remember]
    exact mirrors_pure hremember _
  | directive =>
    simp only [huse]
    refine (mirrors_sampleBehind hclear' hat).bind ?_
    intro sample moves'' hclear'' _
    have hremember := hclear''.remember
    refine mirrors_perform (mirrors_stay (Descent.ends_expression ..) hremember fun e _ => ?_)
    simp only [← Cursor.after_remember]
    exact mirrors_pure hremember _

theorem mirrors_quoted {q : Quote} {d : Draft} (hclear : Clear text moves) :
    Mirrors text Prod.mk moves (quoted text resource q d)
      (Descent.quoted resource q d (after text moves)) := by
  have hconsumed := hclear.consume (.literal q)
  rw [quoted, Descent.quoted]
  refine mirrors_see (mirrors_perform ?_)
  rcases hconsume : (after text moves).consume (.literal q) with ⟨next, found⟩
  have hnext : after text (moves ++ [.consume (.literal q)]) = next :=
    Cursor.after_consume hconsume
  cases found with
  | none =>
    have hsame : next = after text moves := by
      have hnone : ((after text moves).consume (.literal q)).2 = none := by rw [hconsume]
      rw [← Cursor.consume_eq_self_of_none hnone, hconsume]
    simp only [hsame]
    exact mirrors_throw hconsumed _
  | some found =>
    have hremember := hconsumed.remember
    refine mirrors_perform ?_
    simp only [← hnext, ← Cursor.after_remember]
    exact mirrors_pure hremember _

/-- If the attempt has a result, the cursor may look for the next delimiter, with at most as much of
the text left as `t`. -/
def Lands (t : Text) (a : Attempt FormatError (γ × Cursor)) : Prop :=
  ∀ x c, a = pure (x, c) → ∃ before number rest, c.Ready before number rest ∧ rest.length ≤ t.length

theorem lands_of_follows {r : Reader} {ls : List Lexeme}
    {a : Attempt FormatError (Draft × Cursor)} (h : Descent.Follows registry resource r t ls a) :
    Lands t a := by
  rintro x c rfl
  obtain ⟨before, number, rest, hready, hrest, -⟩ := h
  exact ⟨before, number, rest, hready, hrest⟩

variable {c : Cursor} {d : Draft}

theorem lands_lineComment (h : c.Ready before number t) :
    Lands t (Descent.lineComment registry resource d c) :=
  lands_of_follows (Descent.follows_lineComment (r := ⟨number, ⟨0, [], d⟩, []⟩) h)

theorem lands_blockComment (h : c.Ready (before ++ ['/', '*']) number t) :
    Lands t (Descent.blockComment registry resource d c) :=
  lands_of_follows (Descent.follows_blockComment (r := ⟨number, ⟨0, [], d⟩, []⟩) h)

theorem lands_quoted {q : Quote} (h : c.Ready before number t) :
    Lands t (Descent.quoted resource q d c) := by
  have hfollows : Descent.Follows .standard resource ⟨number, ⟨0, [], d⟩, []⟩ t
      (lexemesFrom (.quote q) t) (Descent.quoted resource q d c) := Descent.follows_quoted q h
  exact lands_of_follows hfollows

/-- Behind the lines of a span, which are flat, less of the text is left. -/
theorem exists_ready_of_lines {c' : Cursor} {ls : List Line} (h : c.Ready before number t)
    (ha : Descent.lines registry resource (some number) [] (Draft.start number) c = pure (ls, c')) :
    (∀ l ∈ ls, l.block? = none) ∧
      ∃ before' number' rest, c'.Ready before' number' rest ∧ rest.length < t.length := by
  have hencloses : Descent.Encloses registry resource ⟨number, Span.start number, [Span.start 0]⟩ t
      (Descent.lines registry resource (some number) [] (Draft.start number) c) :=
    Descent.ends_lines h (List.forall_mem_nil _)
  rw [ha] at hencloses
  obtain ⟨hflat, ⟨houter, -⟩ | ⟨-, -, before', number', rest, -, hready, hrest, -⟩⟩ := hencloses
  · exact absurd houter (List.cons_ne_nil _ _)
  · exact ⟨hflat, before', number', rest, hready, hrest⟩

/-- The lines of every span are read in the same way where less than `n` characters are left. -/
def MirrorsBelow (text : Text) (registry : Registry) (resource : Option Text) (n : Nat) : Prop :=
  ∀ (opened : Option Nat) (finished : List Line) (d : Draft) (moves : List Cursor.Move)
    (before t : Text) (number : Nat), t.length < n → Clear text moves →
      (after text moves).Ready before number t → (∀ l ∈ finished, l.block? = none) →
        Mirrors text Prod.mk moves (lines text registry resource opened finished d)
          (Descent.lines registry resource opened finished d (after text moves))

section Steps

variable {n : Nat} {opened : Option Nat} {finished : List Line}
  (ih : MirrorsBelow text registry resource n) (hflat : ∀ l ∈ finished, l.block? = none)

include ih hflat in
theorem mirrors_follows {w : Walk Draft} {a : Attempt FormatError (Draft × Cursor)}
    (hmirrors : Mirrors text Prod.mk moves w a) (ha : Lands t a) (ht : t.length < n) :
    Mirrors text Prod.mk moves (w >>= fun d => lines text registry resource opened finished d)
      (a >>= fun p => Descent.lines registry resource opened finished p.1 p.2) := by
  refine hmirrors.bind fun d moves' hclear' hd => ?_
  obtain ⟨before, number, rest, hready, hrest⟩ := ha _ _ hd
  exact ih _ _ _ _ _ rest _ (Nat.lt_of_le_of_lt hrest ht) hclear' hready hflat

include ih hflat in
theorem mirrors_opening (hclear : Clear text moves)
    (h : (after text moves).Ready before number t) (ht : t.length < n) :
    Mirrors text Prod.mk moves (do
      let inner ← lines text registry resource (some number) [] (Draft.start number)
      let d ← stay (Descent.enclosed inner d)
      lines text registry resource opened finished d) (do
      let (inner, c) ← Descent.lines registry resource (some number) [] (Draft.start number)
        (after text moves)
      let d ← Descent.enclosed inner d
      Descent.lines registry resource opened finished d c) := by
  refine (ih _ _ _ _ _ _ _ ht hclear h (List.forall_mem_nil _)).bind ?_
  intro inner moves' hclear' hinner
  obtain ⟨hinnerFlat, before', number', rest, hready, hrest⟩ := exists_ready_of_lines h hinner
  have henclosed : Attempt.Ends (Descent.enclosed inner d) (fun _ => True) fun _ => False := by
    rw [Descent.enclosed_eq hinnerFlat ⟨0, [], d⟩]
    trivial
  refine mirrors_stay henclosed hclear' fun d _ => ?_
  exact ih _ _ _ _ _ rest _ (hrest.trans ht) hclear' hready hflat

end Steps

/-- The lines of every span are read as by the attempt, and the cursor never splits a line end on the
way. -/
theorem mirrors_lines {opened : Option Nat} {finished : List Line}
    (hclear : Clear text moves) (h : (after text moves).Ready before number t)
    (hflat : ∀ l ∈ finished, l.block? = none) :
    Mirrors text Prod.mk moves (lines text registry resource opened finished d)
      (Descent.lines registry resource opened finished d (after text moves)) := by
  induction hn : t.length using Nat.strongRecOn
    generalizing t before number opened finished d moves with
  | ind n ih =>
    subst hn
    have hbelow : MirrorsBelow text registry resource t.length :=
      fun _ _ _ _ _ _ _ hlt hclear hready hfinished => ih _ hlt hclear hready hfinished rfl
    have hfound := hclear.find .delimiter
    have htaken := hfound.concat (m := .takeRemembered) hfound.not_splitsLineEnd
    rw [lines.eq_1, Descent.lines.eq_1]
    refine mirrors_perform ?_
    rcases h.find_delimiter with ⟨next, found, hfind, htext, hremembered, -, -⟩ |
      ⟨u, x, rest, next, found, hx, hfind, htext, hremembered, hready⟩
    all_goals
      have hnext : after text (moves ++ [.find .delimiter]) = next := Cursor.after_find hfind
      have hbehind : next.remember =
          after text (moves ++ [.find .delimiter] ++ [.takeRemembered]) := by
        rw [Cursor.after_concat, hnext]
        exact (congrArg Prod.fst hremembered).symm
      rw [hfind]
      refine mirrors_perform ?_
      rw [hnext]
      simp only [hremembered]
      refine mirrors_see ?_
      simp only [hbehind]
    · have hend : ∀ {u : Text}, u ≠ [] → ¬found.taken.text = u :=
        fun hu heq => hu (heq.symm.trans htext)
      -- none of the seven tokens before the end of the text is empty
      iterate 7 refine mirrors_ite (fun heq => absurd heq (hend (by decide))) fun _ => ?_
      refine mirrors_ite (fun _ => ?_) fun hne => absurd htext hne
      cases opened with
      | none => exact mirrors_pure htaken _
      | some first => exact mirrors_throw htaken _
    · rw [hbehind] at hready
      have hlt := hx.length_lt
      refine mirrors_ite (fun _ => mirrors_throw htaken _) fun _ => ?_
      refine mirrors_ite (fun _ => mirrors_ite (fun _ => mirrors_throw htaken _)
        fun _ => mirrors_pure htaken _) fun _ => ?_
      refine mirrors_ite (fun _ => mirrors_follows hbelow hflat (mirrors_lineComment htaken hready)
        (lands_lineComment hready) hlt) fun _ => ?_
      refine mirrors_ite (fun hcomment => ?_) fun _ => ?_
      · rw [htext.symm.trans hcomment, ← List.append_assoc] at hready
        exact mirrors_follows hbelow hflat (mirrors_blockComment htaken hready)
          (lands_blockComment hready) hlt
      refine mirrors_ite (fun _ => mirrors_perform ?_) fun _ => ?_
      · have hremember := htaken.remember
        have hinner := hready.toAt.ready hready.unexhausted
        rw [hready.toNat_line]
        rw [← Cursor.after_remember] at hinner ⊢
        exact mirrors_opening hbelow hflat hremember hinner hlt
      refine mirrors_ite (fun _ => mirrors_follows hbelow hflat (mirrors_quoted htaken)
        (lands_quoted hready) hlt) fun _ => ?_
      refine mirrors_ite (fun _ => mirrors_follows hbelow hflat (mirrors_quoted htaken)
        (lands_quoted hready) hlt) fun _ => ?_
      refine mirrors_ite (fun hempty => ?_) fun _ => ?_
      · exact absurd (htext.symm.trans hempty) x.chars_ne_nil
      · refine hbelow _ _ _ _ _ rest _ hlt htaken hready ?_
        rw [List.forall_mem_append]
        exact ⟨hflat, List.forall_mem_singleton.2 rfl⟩

theorem mirrors_template (text : Text) (registry : Registry) (resource : Option Text) :
    Mirrors text (fun t _ => t) [] (template text registry resource)
      (Descent.template registry resource text) := by
  have hclear : Clear text ([] ++ [.remember]) := (Cursor.clear_nil text).concat
    (Cursor.clear_nil text).not_splitsLineEnd
  have hready : (after text ([] ++ [.remember])).Ready [] Reader.start.line text :=
    ⟨⟨rfl, rfl, rfl⟩, rfl, rfl⟩
  have hflat : ∀ l ∈ ([] : List Line), l.block? = none := List.forall_mem_nil _
  rw [template, Descent.template]
  refine mirrors_perform (mirrors_see ((mirrors_lines hclear hready hflat).bind ?_))
  intro flat moves hclear' hlines
  have hencloses : Descent.Encloses registry resource Reader.start text (Descent.lines registry
      resource none [] (Draft.start 1) (after text ([] ++ [.remember]))) :=
    Descent.ends_lines hready hflat
  have hread : Descent.lines registry resource none [] (Draft.start 1)
      (after text ([] ++ [.remember])) = pure (flat, after text moves) := hlines
  rw [hread] at hencloses
  obtain ⟨hflat, -⟩ := hencloses
  have hbuild : Attempt.Ends (Line.build flat : Attempt FormatError _) (fun _ => True)
      fun _ => False := by
    rw [Line.build_eq_nest hflat]
    trivial
  exact mirrors_stay hbuild hclear' fun tree _ => mirrors_pure hclear' _

end Mirrors

/-- A cursor that never stops in the middle of a line end is sound all along its way: it stays in
the text, it is on the line of its place, a pattern that is missed leaves it as it is, and it is
exhausted only at the end of the text. The cursor that a template is parsed with never stops
there. -/
theorem sound_of_clear :
    (∀ text moves, Cursor.Clear text moves →
      (∀ front, front <+: moves → Cursor.Sound text (Cursor.after text front)) ∧
        ∀ front m, front ++ [m] <+: moves → (Cursor.after text front).Misses m →
          Cursor.after text (front ++ [m]) = Cursor.after text front) ∧
    ∀ registry resource text, ∃ moves,
      (template text registry resource).run.run [] =
          some ((Template.parse registry resource text).mapError .flaw, moves) ∧
        Cursor.Clear text moves := by
  constructor
  · intro text moves hclear
    refine ⟨fun front hfront => (hclear.of_prefix hfront).sound, fun front m _ hmiss => ?_⟩
    rw [Cursor.after_concat]
    exact Cursor.move_eq_self_of_misses hmiss
  · intro registry resource text
    obtain ⟨result, moves, hrun, hattempt, hclear⟩ := mirrors_template text registry resource
    refine ⟨moves, ?_, hclear⟩
    rcases Attempt.ends_iff.1 (Descent.ends_template registry resource text) with
      ⟨t, ht, hparse⟩ | ⟨e, he, hparse, -⟩
    · rw [hrun, hparse]
      rw [ht] at hattempt
      cases result with
      | ok t' =>
        obtain rfl : t = t' := Except.ok.inj (Option.some.inj hattempt)
        rfl
      | error halt => cases hattempt
    · rw [hrun, hparse]
      rw [he] at hattempt
      cases result with
      | ok t' => cases hattempt
      | error halt =>
        obtain rfl := Except.error.inj (Option.some.inj hattempt)
        rfl

/-- Over a comment, back to the line end behind it, to the literal on the next line and past an
attempt to read it with the wrong quote. -/
theorem sound_of_clear_lineComment :
    (Cursor.Clear "a -- x\r\n'b'".toList [.find .delimiter, .find .restOfLine, .back 2,
        .find .delimiter, .find .delimiter, .consume (.literal .double)] ∧
      Cursor.Sound "a -- x\r\n'b'".toList (Cursor.after "a -- x\r\n'b'".toList
        [.find .delimiter, .find .restOfLine, .back 2, .find .delimiter, .find .delimiter]) ∧
      Cursor.after "a -- x\r\n'b'".toList [.find .delimiter, .find .restOfLine, .back 2,
          .find .delimiter, .find .delimiter, .consume (.literal .double)] =
        Cursor.after "a -- x\r\n'b'".toList
          [.find .delimiter, .find .restOfLine, .back 2, .find .delimiter, .find .delimiter]) ∧
    ∃ moves, (template "a -- x\r\n'b'".toList .standard none).run.run [] =
        some (.ok ⟨[.mk "a ".toList 1 1 [] none, .mk "'b'".toList 2 2 [] none], none⟩, moves) ∧
      Cursor.Clear "a -- x\r\n'b'".toList moves := by
  have hclear : Cursor.Clear "a -- x\r\n'b'".toList [.find .delimiter, .find .restOfLine, .back 2,
      .find .delimiter, .find .delimiter, .consume (.literal .double)] := by
    decide +kernel
  have hparse : Template.parse .standard none "a -- x\r\n'b'".toList =
      .ok ⟨[.mk "a ".toList 1 1 [] none, .mk "'b'".toList 2 2 [] none], none⟩ := by
    with_unfolding_all rfl
  obtain ⟨hsound, hmisses⟩ := sound_of_clear.1 _ _ hclear
  obtain ⟨moves, hrun, hmoves⟩ := sound_of_clear.2 .standard none "a -- x\r\n'b'".toList
  rw [hparse] at hrun
  refine ⟨⟨hclear, hsound _ ?_, hmisses [.find .delimiter, .find .restOfLine, .back 2,
    .find .delimiter, .find .delimiter] _ ?_ ?_⟩, moves, hrun, hmoves⟩
  · exact ⟨[.consume (.literal .double)], rfl⟩
  · exact List.prefix_refl _
  · change (Cursor.consume _ _).2 = none
    decide +kernel

end Walk

end SqlTemplate
