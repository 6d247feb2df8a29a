import SqlTemplate.Proofs.Line.Forest

/-!
# What reading keeps

Reading a template only ever writes to a draft, adds a directive to it, merges a line into it or
splices lines in. `Reader.Keeps` lists what a property of drafts and one of lines must withstand;
`Keeps.of_flatLines` says that then all lines of a text have the property, and `Keeps.of_parse` that
all lines of the template have it, at any depth. `Reader.KeepsWhere` is the same for properties that
depend on which lexemes are written.

The first use of it is `compiled_of_parse`: wherever a directive stands in a template, its
expression was compiled from its source, its sample is one that was found in the text, and so is
its comparison.
-/

namespace SqlTemplate

namespace Sample

/-- A sample value that some text begins with. -/
def IsSample (s : Text) : Prop := ∃ t rest, read t = .taken s rest

end Sample

namespace Lexeme

/-- A block directive brings its sample along as it was read. -/
def HasSample (l : Lexeme) : Prop :=
  ∀ body s, l = blockDirective body (some s) → Sample.IsSample s

/-- A lexeme that is written to the line as it is. -/
def IsWritten : Lexeme → Prop
  | plain _ | quoted _ _ | hint _ => True
  | _ => False

theorem hasSample_ofBlock (body rest : Text) : (ofBlock body rest).1.HasSample := by
  intro b s h
  unfold ofBlock at h
  split at h
  · simp at h
  · simp at h
  · split at h
    · simp at h
    · rename_i sample r hr
      obtain ⟨rfl, hs⟩ := blockDirective.inj h
      obtain rfl := Option.some.inj hs
      exact ⟨rest, r, hr⟩
    · simp at h

theorem hasSample_ofDelimiter (d : Delimiter) (t : Text) : (ofDelimiter d t).1.HasSample := by
  cases d with
  | commentOpen =>
      simp only [ofDelimiter]
      split
      · exact hasSample_ofBlock _ _
      · intro body s h
        simp at h
  | quote q =>
      simp only [ofDelimiter]
      split <;> (intro body s h; simp at h)
  | dashes =>
      simp only [ofDelimiter, ofLine]
      split <;> (intro body s h; simp at h)
  | _ =>
      intro body s h
      simp [ofDelimiter] at h

theorem hasSample_first (c : Char) (t : Text) : (first c t).1.HasSample := by
  unfold first
  split
  · exact hasSample_ofDelimiter _ _
  · intro body s h
    simp at h

end Lexeme

theorem exists_first_of_mem_lexemes {t : Text} {l : Lexeme} (h : l ∈ lexemes t) :
    ∃ c u, l = (Lexeme.first c u).1 := by
  fun_induction lexemes t with
  | case1 => simp at h
  | case2 c t ih =>
      rcases List.mem_cons.1 h with rfl | h
      · exact ⟨c, t, rfl⟩
      · exact ih h

theorem hasSample_of_mem_lexemes {t : Text} {l : Lexeme} (h : l ∈ lexemes t) : l.HasSample := by
  obtain ⟨c, u, rfl⟩ := exists_first_of_mem_lexemes h
  exact Lexeme.hasSample_first c u

namespace Span

/-- The draft and the finished lines of a span have their properties. -/
def Holds (D : Draft → Prop) (L : Line → Prop) (s : Span) : Prop :=
  D s.draft ∧ ∀ l ∈ s.finished, L l

end Span

namespace Reader

/-- All spans have the property. -/
def Holds (D : Draft → Prop) (L : Line → Prop) (r : Reader) : Prop :=
  r.inner.Holds D L ∧ ∀ s ∈ r.outer, s.Holds D L

theorem readAll_cons_eq_ok {registry : Registry} {r next : Reader} {l : Lexeme} {ls : List Lexeme}
    (hr : r.readAll registry (l :: ls) = .ok next) :
    ∃ content, r.readContent registry l = .ok content ∧
      readAll registry { content with line := r.line + lineEnds l.source } ls = .ok next := by
  simp only [readAll, read] at hr
  split at hr
  · rename_i s hs
    split at hs
    · rename_i content hc
      obtain rfl := Except.ok.inj hs
      exact ⟨content, hc, hr⟩
    · simp at hs
  · simp at hr

theorem addDirective_eq_ok {r next : Reader} {source : Text} {add : Draft → Except Problem Draft}
    (hr : r.addDirective source add = .ok next) :
    ∃ d, add r.inner.draft = .ok d ∧ next = { r with inner := { r.inner with draft := d } } := by
  unfold addDirective at hr
  split at hr
  · rename_i d hd
    exact ⟨d, hd, (Except.ok.inj hr).symm⟩
  · simp at hr

/-- A closing parenthesis closes a span that was opened. -/
theorem readContent_closing_eq_ok {registry : Registry} {r next : Reader}
    (hr : r.readContent registry .closing = .ok next) :
    ∃ s outer, r.outer = s :: outer ∧
      next = { r with inner := s.enclose (r.inner.lines r.line), outer := outer } := by
  simp only [readContent] at hr
  split at hr
  · simp at hr
  · rename_i s outer ho
    exact ⟨s, outer, ho, (Except.ok.inj hr).symm⟩

/-- A property of drafts and one of lines that reading keeps. -/
structure Keeps (registry : Registry) (D : Draft → Prop) (L : Line → Prop) : Prop where
  start : ∀ n, D (Draft.start n)
  write : ∀ t d, D d → D (d.write t)
  finish : ∀ n d, D d → L (d.finish n)
  merge : ∀ l d, L l → D d → D (d.merge l)
  addGroup : ∀ ls d, (∀ l ∈ ls, L l) → D d → D (d.addGroup (Line.nest ls))
  addLine : ∀ n source d d', D d → d.addLine registry n source = .ok d' → D d'
  addBlock : ∀ n source sample d d', (∀ s, sample = some s → Sample.IsSample s) → D d →
    d.addBlock registry n source sample = .ok d' → D d'

/-- A property of drafts and one of lines that reading keeps if the lexemes are such as `P` says. -/
structure KeepsWhere (registry : Registry) (P : Lexeme → Prop) (D : Draft → Prop)
    (L : Line → Prop) : Prop where
  start : ∀ n, D (Draft.start n)
  write : ∀ l d, P l → l.IsWritten → D d → D (d.write l.source)
  finish : ∀ n d, D d → L (d.finish n)
  merge : ∀ l d, L l → D d → D (d.merge l)
  addGroup : ∀ ls d, (∀ l ∈ ls, L l) → D d → D (d.addGroup (Line.nest ls))
  addLine : ∀ n source d d', D d → d.addLine registry n source = .ok d' → D d'
  addBlock : ∀ n source sample d d', (∀ s, sample = some s → Sample.IsSample s) → D d →
    d.addBlock registry n source sample = .ok d' → D d'

namespace KeepsWhere

variable {registry : Registry} {P : Lexeme → Prop} {D : Draft → Prop} {L : Line → Prop}
  {r next : Reader}

theorem of_lines (k : KeepsWhere registry P D L) {s : Span} (h : s.Holds D L) (n : Nat) :
    ∀ l ∈ s.lines n, L l := by
  intro l hl
  rw [Span.lines, List.mem_reverse] at hl
  rcases List.mem_cons.1 hl with rfl | hl
  · exact k.finish n _ h.1
  · exact h.2 l hl

theorem enclose (k : KeepsWhere registry P D L) {s : Span} (h : s.Holds D L) {lines : List Line}
    (hl : ∀ l ∈ lines, L l) : (s.enclose lines).Holds D L := by
  unfold Span.enclose
  split
  · exact ⟨k.merge _ _ (hl _ (List.mem_singleton_self _)) h.1, h.2⟩
  · exact ⟨k.addGroup _ _ hl h.1, h.2⟩

theorem addDirective (h : r.Holds D L) {source : Text} {add : Draft → Except Problem Draft}
    (ha : ∀ d', add r.inner.draft = .ok d' → D d') (hr : r.addDirective source add = .ok next) :
    next.Holds D L := by
  obtain ⟨draft, hd, rfl⟩ := addDirective_eq_ok hr
  exact ⟨⟨ha draft hd, h.1.2⟩, h.2⟩

theorem readContent (k : KeepsWhere registry P D L) (h : r.Holds D L) {l : Lexeme} (hP : P l)
    (hl : l.HasSample) (hr : r.readContent registry l = .ok next) : next.Holds D L := by
  cases l with
  | plain c =>
      obtain rfl := Except.ok.inj hr
      exact ⟨⟨k.write _ _ hP trivial h.1.1, h.1.2⟩, h.2⟩
  | quoted q body =>
      obtain rfl := Except.ok.inj hr
      exact ⟨⟨k.write _ _ hP trivial h.1.1, h.1.2⟩, h.2⟩
  | hint body =>
      obtain rfl := Except.ok.inj hr
      exact ⟨⟨k.write _ _ hP trivial h.1.1, h.1.2⟩, h.2⟩
  | remark body =>
      obtain rfl := Except.ok.inj hr
      exact h
  | comment body =>
      obtain rfl := Except.ok.inj hr
      exact h
  | lineEnd e =>
      obtain rfl := Except.ok.inj hr
      refine ⟨⟨k.start _, ?_⟩, h.2⟩
      intro l hl
      rcases List.mem_cons.1 hl with rfl | hl
      · exact k.finish _ _ h.1.1
      · exact h.1.2 l hl
  | opening =>
      obtain rfl := Except.ok.inj hr
      refine ⟨⟨k.start _, fun _ hl => absurd hl List.not_mem_nil⟩, ?_⟩
      intro s hs
      rcases List.mem_cons.1 hs with rfl | hs
      · exact h.1
      · exact h.2 s hs
  | closing =>
      obtain ⟨s, outer, ho, rfl⟩ := readContent_closing_eq_ok hr
      have houter := h.2
      rw [ho, List.forall_mem_cons] at houter
      exact ⟨k.enclose houter.1 (k.of_lines h.1 _), houter.2⟩
  | lineDirective body => exact addDirective h (fun d' hd => k.addLine _ _ _ d' h.1.1 hd) hr
  | blockDirective body sample =>
      refine addDirective h (fun d' hd => k.addBlock _ _ sample _ d' ?_ h.1.1 hd) hr
      rintro s rfl
      exact hl body s rfl
  | strayClose => simp [Reader.readContent] at hr
  | openQuote q rest => simp [Reader.readContent] at hr
  | openComment rest => simp [Reader.readContent] at hr
  | openSample body rest => simp [Reader.readContent] at hr

theorem readAll (k : KeepsWhere registry P D L) (h : r.Holds D L) {ls : List Lexeme}
    (hP : ∀ l ∈ ls, P l) (hl : ∀ l ∈ ls, l.HasSample) (hr : r.readAll registry ls = .ok next) :
    next.Holds D L := by
  induction ls generalizing r with
  | nil =>
      obtain rfl := Except.ok.inj hr
      exact h
  | cons l ls ih =>
      obtain ⟨hPhead, hPtail⟩ := List.forall_mem_cons.1 hP
      obtain ⟨hhead, htail⟩ := List.forall_mem_cons.1 hl
      obtain ⟨content, hc, hrest⟩ := readAll_cons_eq_ok hr
      have hcontent := k.readContent h hPhead hhead hc
      have hmoved : Reader.Holds D L { content with line := r.line + lineEnds l.source } :=
        hcontent
      exact ih hmoved hPtail htail hrest

/-- The flat lines of a text have every property that reading keeps. -/
theorem of_flatLines (k : KeepsWhere registry P D L) {text : Text} {lines : List Line}
    (hP : ∀ l ∈ lexemes text, P l) (h : flatLines registry text = .ok lines) :
    ∀ l ∈ lines, L l := by
  unfold flatLines at h
  split at h
  · rename_i r hr
    have hstart : Reader.start.Holds D L :=
      ⟨⟨k.start 1, fun _ hl => absurd hl List.not_mem_nil⟩, fun _ hs => absurd hs List.not_mem_nil⟩
    have hheld := k.readAll hstart hP (fun _ hl => hasSample_of_mem_lexemes hl) hr
    unfold Reader.finish at h
    split at h
    · obtain rfl := Except.ok.inj h
      exact k.of_lines hheld.1 _
    · simp at h
  · simp at h

end KeepsWhere

namespace Keeps

variable {registry : Registry} {D : Draft → Prop} {L : Line → Prop} {r next : Reader}

/-- What reading keeps it keeps whatever the lexemes are. -/
theorem toWhere (k : Keeps registry D L) (P : Lexeme → Prop) : KeepsWhere registry P D L :=
  ⟨k.start, fun l d _ _ => k.write l.source d, k.finish, k.merge, k.addGroup, k.addLine,
    k.addBlock⟩

theorem of_lines (k : Keeps registry D L) {s : Span} (h : s.Holds D L) (n : Nat) :
    ∀ l ∈ s.lines n, L l :=
  (k.toWhere fun _ => True).of_lines h n

theorem readContent (k : Keeps registry D L) (h : r.Holds D L) {l : Lexeme} (hl : l.HasSample)
    (hr : r.readContent registry l = .ok next) : next.Holds D L :=
  (k.toWhere fun _ => True).readContent h trivial hl hr

/-- The flat lines of a text have every property that reading keeps. -/
theorem of_flatLines (k : Keeps registry D L) {text : Text} {lines : List Line}
    (h : flatLines registry text = .ok lines) : ∀ l ∈ lines, L l :=
  (k.toWhere fun _ => True).of_flatLines (fun _ _ => trivial) h

end Keeps

end Reader

theorem Template.exists_flatLines_of_parse {registry : Registry} {resource : Option Text}
    {text : Text} {t : Template} (h : Template.parse registry resource text = .ok t) :
    ∃ lines, flatLines registry text = .ok lines ∧ t = ⟨Line.nest lines, resource⟩ := by
  unfold Template.parse at h
  split at h
  · rename_i lines hlines
    exact ⟨lines, hlines, (Except.ok.inj h).symm⟩
  · simp at h

namespace Directive

/-- A directive as reading makes it: compiled, with a sample and a comparison from the text. -/
structure Compiled (registry : Registry) (d : Directive) : Prop where
  expression : Expression.compile registry d.source = .ok d.expression
  sample : ∀ s, d.sample = some s →
    Sample.IsSample s ∨ ∃ reversed e, Ending.mark? reversed = some e ∧ e.piece = s
  comparison : ∀ c, d.comparison = some c →
    ∃ reversed e, Ending.comparison? reversed = some e ∧ e.piece = c

end Directive

namespace Draft

variable {registry : Registry}

/-- A piece is taken off the end of a draft behind what is settled, or the draft stays as it is. -/
theorem take?_cases {α : Type} (ending : Option (Ending α)) (d : Draft) :
    d.take? ending = none ∨ ∃ e, ending = some e ∧ d.settled ≤ e.before.length ∧
      d.take? ending = some (e.piece, { d with reversed := e.before }) := by
  unfold take?
  cases ending with
  | none => exact .inl rfl
  | some e =>
    by_cases hsettled : d.settled ≤ e.before.length
    · exact .inr ⟨e, rfl, hsettled, if_pos hsettled⟩
    · exact .inl (if_neg hsettled)

theorem takeMark_cases (d : Draft) :
    d.takeMark = (none, d) ∨ ∃ e, Ending.mark? d.reversed = some e ∧ d.settled ≤ e.before.length ∧
      d.takeMark = (some e.piece, { d with reversed := e.before }) := by
  rw [takeMark]
  rcases d.take?_cases (Ending.mark? d.reversed) with h | ⟨e, he, hsettled, h⟩
  · exact .inl (by rw [h])
  · exact .inr ⟨e, he, hsettled, by rw [h]⟩

theorem takeComparison_cases (d : Draft) :
    d.takeComparison = (none, d) ∨
      ∃ e, Ending.comparison? d.reversed = some e ∧ d.settled ≤ e.before.length ∧
        d.takeComparison = (some e.piece, { d with reversed := e.before }) := by
  rw [takeComparison]
  rcases d.take?_cases (Ending.comparison? d.reversed) with h | ⟨e, he, hsettled, h⟩
  · exact .inl (by rw [h])
  · exact .inr ⟨e, he, hsettled, by rw [h]⟩

theorem splices_takeMark (d : Draft) :
    d.takeMark.2.splices = d.splices ∧ ∀ s, d.takeMark.1 = some s →
      ∃ reversed e, Ending.mark? reversed = some e ∧ e.piece = s := by
  rcases d.takeMark_cases with h | ⟨e, he, -, h⟩ <;> rw [h]
  · exact ⟨rfl, by simp⟩
  · exact ⟨rfl, fun s hs => ⟨_, e, he, Option.some.inj hs⟩⟩

theorem splices_takeComparison (d : Draft) :
    d.takeComparison.2.splices = d.splices ∧ ∀ c, d.takeComparison.1 = some c →
      ∃ reversed e, Ending.comparison? reversed = some e ∧ e.piece = c := by
  rcases d.takeComparison_cases with h | ⟨e, he, -, h⟩ <;> rw [h]
  · exact ⟨rfl, by simp⟩
  · exact ⟨rfl, fun c hc => ⟨_, e, he, Option.some.inj hc⟩⟩

/-- What a directive takes off the end of a draft: the comparison of a condition with a sample. -/
def takeFor (expression : Expression) (sample : Option Text) (d : Draft) :
    Option Comparison × Draft :=
  if expression.isCondition && sample.isSome then d.takeComparison else (none, d)

theorem addCompiled_eq (line : Nat) (source : Text) (expression : Expression)
    (sample : Option Text) (d : Draft) :
    d.addCompiled line source expression sample =
      (d.takeFor expression sample).2.splice fun offset => .directive offset
        ⟨source, expression, sample, (d.takeFor expression sample).1, some line⟩ := rfl

theorem addLine_eq_ok {line : Nat} {source : Text} {d d' : Draft}
    (h : d.addLine registry line source = .ok d') :
    ∃ expression, Expression.compile registry source = .ok expression ∧
      d' = d.takeMark.2.addCompiled line source expression d.takeMark.1 := by
  unfold addLine at h
  split at h
  · rename_i expression he
    exact ⟨expression, he, (Except.ok.inj h).symm⟩
  · simp at h

theorem addBlock_eq_ok {line : Nat} {source : Text} {sample : Option Text} {d d' : Draft}
    (h : d.addBlock registry line source sample = .ok d') :
    ∃ expression, Expression.compile registry source = .ok expression ∧
      d' = d.addCompiled line source expression sample := by
  unfold addBlock at h
  split at h
  · rename_i expression he
    exact ⟨expression, he, (Except.ok.inj h).symm⟩
  · simp at h

theorem splices_takeFor (expression : Expression) (sample : Option Text) (d : Draft) :
    (d.takeFor expression sample).2.splices = d.splices := by
  unfold takeFor
  split
  · exact (splices_takeComparison d).1
  · rfl

theorem comparison_takeFor (expression : Expression) (sample : Option Text) (d : Draft) :
    ∀ c, (d.takeFor expression sample).1 = some c →
      ∃ reversed e, Ending.comparison? reversed = some e ∧ e.piece = c := by
  unfold takeFor
  split
  · exact (splices_takeComparison d).2
  · simp

theorem isCondition_of_takeFor (expression : Expression) (sample : Option Text) (d : Draft) :
    ∀ c, (d.takeFor expression sample).1 = some c →
      expression.isCondition = true ∧ sample.isSome = true := by
  unfold takeFor
  split
  · rename_i h
    exact fun _ _ => Bool.and_eq_true_iff.1 h
  · simp

theorem splices_addCompiled (line : Nat) (source : Text) (expression : Expression)
    (sample : Option Text) (d : Draft) :
    (d.addCompiled line source expression sample).splices =
      d.splices ++ [.directive (d.takeFor expression sample).2.offset
        ⟨source, expression, sample, (d.takeFor expression sample).1, some line⟩] := by
  rw [addCompiled_eq, splice, splices_takeFor]

theorem splices_merge (l : Line) (d : Draft) :
    (d.merge l).splices = d.splices ++ l.splices.map (Splice.shift (d.write ['(']).offset) := rfl

theorem splices_addGroup (lines : List Line) (d : Draft) :
    (d.addGroup lines).splices = d.splices ++ [.group (d.write ['(']).offset lines] := rfl

end Draft

theorem Draft.deepAll_splices_addCompiled (line : Nat) (source : Text) (expression : Expression)
    (sample : Option Text) (d : Draft) :
    Splice.deepAll (d.addCompiled line source expression sample).splices =
      Splice.deepAll d.splices := by
  rw [Draft.splices_addCompiled, Splice.deepAll_append]
  exact List.append_nil _

namespace Reader.Keeps

variable {L : Line → Prop}

/-- A line at any depth that has the property of flat lines, what belongs to it aside. If it has a
block, then with a line in it. -/
structure Stands (L : Line → Prop) (l : Line) : Prop where
  nonblank : l.isBlank = false
  block : l.block? ≠ some []
  alone : L (l.withChildren [])

/-- Nesting flat lines lets them and the lines in their spans stand. -/
theorem stands_of_mem_nest (hflat : ∀ l, L l → l.block? = none) {lines : List Line}
    (h : ∀ l ∈ lines, L l ∧ ∀ m ∈ Splice.deepAll l.splices, Stands L m) {l : Line}
    (hl : l ∈ Line.deepAll (Line.nest lines)) : Stands L l := by
  revert l
  apply Line.forall_mem_deepAll_nest
  · intro k hk hblank children
    refine ⟨?_, Line.block?_withChildren_ne children k, ?_⟩
    · rw [Line.isBlank_withChildren]
      exact hblank
    · rw [Line.withChildren_withChildren, Line.withChildren_nil (hflat k (h k hk).1)]
      exact (h k hk).1
  · intro k hk _ m hm
    exact (h k hk).2 m hm

end Reader.Keeps

namespace Reader.KeepsWhere

open Keeps

variable {registry : Registry} {P : Lexeme → Prop} {D : Draft → Prop} {L : Line → Prop}

/-- What reading keeps of flat lines it keeps of the lines in their spans. -/
theorem deep (k : KeepsWhere registry P D L) (hflat : ∀ l, L l → l.block? = none) :
    KeepsWhere registry P (fun d => D d ∧ ∀ m ∈ Splice.deepAll d.splices, Stands L m)
      (fun l => L l ∧ ∀ m ∈ Splice.deepAll l.splices, Stands L m) := by
  constructor
  · intro n
    exact ⟨k.start n, fun _ hm => absurd hm List.not_mem_nil⟩
  · intro l d hl hwritten hd
    exact ⟨k.write l d hl hwritten hd.1, hd.2⟩
  · intro n d hd
    exact ⟨k.finish n d hd.1, hd.2⟩
  · intro l d hl hd
    refine ⟨k.merge l d hl.1 hd.1, ?_⟩
    intro m hm
    rw [Draft.splices_merge, Splice.deepAll_append, Splice.deepAll_map_shift] at hm
    exact (List.mem_append.1 hm).elim (hd.2 m) (hl.2 m)
  · intro ls d hl hd
    refine ⟨k.addGroup ls d (fun l hmem => (hl l hmem).1) hd.1, ?_⟩
    intro m hm
    rw [Draft.splices_addGroup, Splice.deepAll_append] at hm
    rcases List.mem_append.1 hm with hm | hm
    · exact hd.2 m hm
    · rw [Splice.deepAll, Splice.deepAll, List.append_nil] at hm
      exact stands_of_mem_nest hflat hl hm
  · intro n source d d' hd hadded
    refine ⟨k.addLine n source d d' hd.1 hadded, ?_⟩
    obtain ⟨e, -, rfl⟩ := Draft.addLine_eq_ok hadded
    rw [Draft.deepAll_splices_addCompiled, (Draft.splices_takeMark d).1]
    exact hd.2
  · intro n source sample d d' hsample hd hadded
    refine ⟨k.addBlock n source sample d d' hsample hd.1 hadded, ?_⟩
    obtain ⟨e, -, rfl⟩ := Draft.addBlock_eq_ok hadded
    rw [Draft.deepAll_splices_addCompiled]
    exact hd.2

/-- All lines of a template have what reading keeps of flat lines, and none is blank. -/
theorem of_parse (k : KeepsWhere registry P D L) (hflat : ∀ l, L l → l.block? = none)
    {resource : Option Text} {text : Text} {t : Template} (hP : ∀ l ∈ lexemes text, P l)
    (h : Template.parse registry resource text = .ok t) : ∀ l ∈ t.deepLines, Stands L l := by
  obtain ⟨lines, hlines, rfl⟩ := Template.exists_flatLines_of_parse h
  intro l hl
  exact stands_of_mem_nest hflat ((k.deep hflat).of_flatLines hP hlines) hl

end Reader.KeepsWhere

theorem Reader.Keeps.of_parse {registry : Registry} {D : Draft → Prop} {L : Line → Prop}
    (k : Keeps registry D L) (hflat : ∀ l, L l → l.block? = none) {resource : Option Text}
    {text : Text} {t : Template} (h : Template.parse registry resource text = .ok t) :
    ∀ l ∈ t.deepLines, Keeps.Stands L l :=
  (k.toWhere fun _ => True).of_parse hflat (fun _ _ => trivial) h

/-- What every directive has that is added to a draft is kept of all directives. -/
theorem Reader.keeps_deepDirectives {registry : Registry} {P : Directive → Prop}
    (hadd : ∀ (n : Nat) (source : Text) (e : Expression) (sample : Option Text) (d : Draft),
      Expression.compile registry source = .ok e →
      (∀ s, sample = some s → Sample.IsSample s ∨
        ∃ reversed e, Ending.mark? reversed = some e ∧ e.piece = s) →
      P ⟨source, e, sample, (d.takeFor e sample).1, some n⟩) :
    Keeps registry (fun d => ∀ x ∈ Splice.deepDirectives d.splices, P x)
      (fun l => ∀ x ∈ Splice.deepDirectives l.splices, P x) := by
  have hcompiled : ∀ (n : Nat) (source : Text) (e : Expression) (sample : Option Text) (d : Draft),
      Expression.compile registry source = .ok e →
      (∀ s, sample = some s → Sample.IsSample s ∨
        ∃ reversed e, Ending.mark? reversed = some e ∧ e.piece = s) →
      (∀ x ∈ Splice.deepDirectives d.splices, P x) →
      ∀ x ∈ Splice.deepDirectives (d.addCompiled n source e sample).splices, P x := by
    intro n source e sample d he hsample hd x hx
    rw [Draft.splices_addCompiled, Splice.mem_deepDirectives_append] at hx
    rcases hx with hx | hx
    · exact hd x hx
    · obtain rfl := List.mem_singleton.1 hx
      exact hadd n source e sample d he hsample
  constructor
  · intro n x hx
    exact absurd hx List.not_mem_nil
  · intro t d hd
    exact hd
  · intro n d hd
    exact hd
  · intro l d hl hd x hx
    rw [Draft.splices_merge, Splice.mem_deepDirectives_append,
      Splice.deepDirectives_map_shift] at hx
    rcases hx with hx | hx
    · exact hd x hx
    · exact hl x hx
  · intro ls d hl hd x hx
    rw [Draft.splices_addGroup, Splice.mem_deepDirectives_append] at hx
    rcases hx with hx | hx
    · exact hd x hx
    · simp only [Splice.deepDirectives, Splice.deepAll, List.append_nil] at hx
      obtain ⟨l, hmem, hx⟩ := Line.mem_deepDirectives_nest_iff.1 hx
      exact hl l hmem x hx
  · intro n source d d' hd hadded
    obtain ⟨e, he, rfl⟩ := Draft.addLine_eq_ok hadded
    obtain ⟨hs, hmark⟩ := Draft.splices_takeMark d
    apply hcompiled n source e _ _ he
    · intro s hsome
      exact .inr (hmark s hsome)
    · rw [hs]
      exact hd
  · intro n source sample d d' hsample hd hadded
    obtain ⟨e, he, rfl⟩ := Draft.addBlock_eq_ok hadded
    apply hcompiled n source e sample d he
    · intro s hsome
      exact .inl (hsample s hsome)
    · exact hd

/-- What reading keeps of all directives holds of every directive of a template that was parsed. -/
theorem Reader.Keeps.of_mem_deepDirectives {registry : Registry} {P : Directive → Prop}
    {D : Draft → Prop} (k : Keeps registry D fun l => ∀ x ∈ Splice.deepDirectives l.splices, P x)
    {resource : Option Text} {text : Text} {t : Template}
    (h : Template.parse registry resource text = .ok t) : ∀ d ∈ t.deepDirectives, P d := by
  obtain ⟨lines, hlines, rfl⟩ := Template.exists_flatLines_of_parse h
  intro d hd
  obtain ⟨l, hl, hd⟩ := Line.mem_deepDirectives_nest_iff.1 hd
  exact k.of_flatLines hlines l hl d hd

/-- Every directive of a template that was parsed is a compiled one. -/
theorem compiled_of_parse {registry : Registry} {resource : Option Text} {text : Text}
    {t : Template} (h : Template.parse registry resource text = .ok t) :
    ∀ d ∈ t.deepDirectives, d.Compiled registry :=
  (Reader.keeps_deepDirectives fun _ _ e sample d he hsample =>
    ⟨he, hsample, d.comparison_takeFor e sample⟩).of_mem_deepDirectives h

/-- Every directive of a template that was parsed has a comparison only if it is a condition with a
sample. -/
theorem isCondition_of_parse {registry : Registry} {resource : Option Text} {text : Text}
    {t : Template} (h : Template.parse registry resource text = .ok t) :
    ∀ d ∈ t.deepDirectives, ∀ c, d.comparison = some c →
      d.expression.isCondition = true ∧ d.sample.isSome = true :=
  (Reader.keeps_deepDirectives fun _ _ e sample d _ _ =>
    d.isCondition_of_takeFor e sample).of_mem_deepDirectives h

end SqlTemplate
