import SqlTemplate.Proofs.Line.Drafting
import SqlTemplate.Proofs.Rendering.Steps
import SqlTemplate.Proofs.Source.DoubleQuotes

/-!
# Identifiers in the lines of templates

The text of a line is put together from lexemes, in which all double quotes are closed. Only where a
comparison is taken off the end of a line can a quoted identifier be parted: the subject is the longest
run of subject characters, and this run begins inside of the identifier if there are others in it, such
as blanks. The front of the identifier then stays in the line and the rest of it is the beginning of the
subject. `Splice.Pieced` is the text and the splices of a line put together in this way, which all lines
of a template are (`pieced_of_parse`). So the double quotes of a subject, and those in front of a
directive, are odd in number just if identifiers are parted (`odd_quotes_iff_parted`).
-/

namespace SqlTemplate

/-- The subject of a comparison begins inside of an identifier, behind the characters `front`, the last
one of which is none of a subject. -/
structure Comparison.BeginsBehind (c : Comparison) (ls : List Lexeme) (front : Text) : Prop where
  parted : ∃ back rest, .quoted .double (front ++ back) ∈ ls ∧ back ≠ [] ∧
    c.subject = back ++ rest ∧ Even (rest.count '"')
  before : ∃ d, front.getLast? = some d ∧ Ending.isSubjectChar d = false

/-- Both parts of an identifier have an odd number of double quotes. -/
theorem Comparison.BeginsBehind.odd_count {c : Comparison} {ls : List Lexeme} {front : Text}
    (h : c.BeginsBehind ls front) (hclosed : ∀ l ∈ ls, l.IsClosed) :
    Odd (c.subject.count '"') ∧ Odd (('"' :: front).count '"') := by
  obtain ⟨⟨back, rest, hl, hback, hsubject, hrest⟩, d, hd, hseparates⟩ := h
  obtain ⟨t, after, hbody⟩ := hclosed _ hl
  have hlast : ∀ c ∈ front.getLast?, c ≠ Quote.double.char := by
    intro c hc
    obtain rfl := Option.some.inj (hd.symm.trans hc)
    rintro rfl
    exact absurd hseparates (by decide)
  have hfront : Even (front.count '"') := Quoted.even_count_of_closing? hbody hback hlast
  have htotal : Odd ((front ++ back).count '"') := Quoted.odd_count_of_closing? hbody
  rw [List.count_append] at htotal
  have hodd : Odd (back.count '"') := (Nat.odd_add'.1 htotal).2 hfront
  rw [hsubject, List.count_append, List.count_cons_self]
  exact ⟨hodd.add_even hrest, hfront.add_one⟩

theorem Comparison.not_beginsBehind {c : Comparison} {ls : List Lexeme} {front : Text}
    (hwords : ∀ body, .quoted .double body ∈ ls → ∀ d ∈ body, Ending.isSubjectChar d = true) :
    ¬ c.BeginsBehind ls front := by
  rintro ⟨⟨back, -, hmem, -⟩, d, hd, hseparates⟩
  have hsubject := hwords _ hmem d (List.mem_append_left _ (List.mem_of_getLast? hd))
  exact Bool.false_ne_true (hseparates.symm.trans hsubject)

namespace Splice

/-- The text and the splices of a line, put together from left to right. In front of a directive an
identifier may be parted. -/
inductive Pieced (ls : List Lexeme) : Text → List Splice → Prop
  | nil : Pieced ls [] []
  | piece {t p : Text} {splices : List Splice} (h : Pieced ls t splices) (hp : IsPiece ls p) :
      Pieced ls (t ++ p) splices
  | directive {t : Text} {splices : List Splice} (h : Pieced ls t splices) (x : Directive)
      (hx : ∀ c, x.comparison = some c → Even (c.subject.count '"')) :
      Pieced ls t (splices ++ [.directive t.length x])
  | parted {t front : Text} {splices : List Splice} (h : Pieced ls t splices) (x : Directive)
      {c : Comparison} (hx : x.comparison = some c) (hfront : c.BeginsBehind ls front) :
      Pieced ls (t ++ '"' :: front) (splices ++ [.directive (t ++ '"' :: front).length x])
  | group {t : Text} {splices : List Splice} (h : Pieced ls t splices) (lines : List Line) :
      Pieced ls t (splices ++ [.group t.length lines])

namespace Pieced

variable {ls : List Lexeme} {t u : Text} {splices others : List Splice}

theorem append (h : Pieced ls t splices) (hu : Pieced ls u others) :
    Pieced ls (t ++ u) (splices ++ others.map (shift t.length)) := by
  induction hu with
  | nil => simpa using h
  | piece _ hp ih =>
    rw [← List.append_assoc]
    exact ih.piece hp
  | directive _ x hx ih =>
    have hadded := ih.directive x hx
    rw [List.append_assoc] at hadded
    simpa [shift, Nat.add_comm] using hadded
  | parted _ x hx hfront ih =>
    have hadded := ih.parted x hx hfront
    rw [List.append_assoc] at hadded
    simpa [shift, Nat.add_comm, Nat.add_left_comm] using hadded
  | group _ lines ih =>
    have hadded := ih.group lines
    rw [List.append_assoc] at hadded
    simpa [shift, Nat.add_comm] using hadded

/-- What is settled in a line: the text up to its last splice. -/
def settled (splices : List Splice) : Nat := (splices.getLast?.map offset).getD 0

theorem settled_concat (splices : List Splice) (s : Splice) : settled (splices ++ [s]) = s.offset := by
  simp [settled]

theorem whole_of_length_le (h : Pieced ls t splices) {before r : Text} (ht : t = before ++ r)
    (hle : t.length ≤ before.length) : Pieced ls before splices ∧ Even (r.count '"') := by
  have hr : r = [] := by
    rw [ht, List.length_append] at hle
    exact List.length_eq_zero_iff.1 (by omega)
  rw [hr, List.append_nil] at ht
  exact ⟨ht ▸ h, hr ▸ Even.zero⟩

/-- Text is taken off the end behind what is settled: either whole pieces, or an identifier is parted
and its back is taken together with the pieces behind it. -/
theorem cut (h : Pieced ls t splices) (hclosed : ∀ l ∈ ls, l.IsClosed) {before r : Text}
    (ht : t = before ++ r) (hsettled : settled splices ≤ before.length)
    (hr : Lexeme.EndsNoHiding r) :
    (Pieced ls before splices ∧ Even (r.count '"')) ∨
      ∃ start front back rest, Pieced ls start splices ∧ before = start ++ '"' :: front ∧
        r = back ++ rest ∧ .quoted .double (front ++ back) ∈ ls ∧ back ≠ [] ∧
        Even (rest.count '"') := by
  induction h generalizing r with
  | nil => exact .inl (nil.whole_of_length_le ht (Nat.zero_le _))
  | directive h x hx _ =>
    rw [settled_concat] at hsettled
    exact .inl ((h.directive x hx).whole_of_length_le ht hsettled)
  | parted h x hx hfront _ =>
    rw [settled_concat] at hsettled
    exact .inl ((h.parted x hx hfront).whole_of_length_le ht hsettled)
  | group h lines _ =>
    rw [settled_concat] at hsettled
    exact .inl ((h.group lines).whole_of_length_le ht hsettled)
  | @piece t p splices h hp ih =>
    rcases List.append_eq_append_iff.1 ht with ⟨x, hbefore, hpiece⟩ | ⟨x, htext, hr'⟩
    · -- The cut is in the last piece or right behind it or in front of it.
      rcases eq_or_ne r [] with rfl | hne
      · rw [List.append_nil] at ht
        exact .inl ⟨ht ▸ h.piece hp, Even.zero⟩
      · rcases eq_or_ne x [] with rfl | hx
        · rw [List.append_nil] at hbefore
          rw [List.nil_append] at hpiece
          rw [← hpiece] at hr ⊢
          exact .inl ⟨hbefore ▸ h, hp.even_count_of_endsNoHiding hclosed hr⟩
        · rw [hpiece] at hp
          obtain ⟨front, rfl, hl⟩ := hp.exists_of_append hclosed hx hne hr
          exact .inr ⟨t, front, r, [], h, hbefore, (List.append_nil r).symm, hl, hne, Even.zero⟩
    · subst hr'
      obtain ⟨hx, hp'⟩ := Lexeme.endsNoHiding_append.1 hr
      have hpiece := hp.even_count_of_endsNoHiding hclosed hp'
      rcases ih htext hsettled hx with
        ⟨hwhole, heven⟩ | ⟨start, front, back, rest, hstart, hbefore, rfl, hl, hback, hrest⟩
      · refine .inl ⟨hwhole, ?_⟩
        rw [List.count_append]
        exact heven.add hpiece
      · refine .inr ⟨start, front, back, rest ++ p, hstart, hbefore, List.append_assoc .., hl, hback, ?_⟩
        rw [List.count_append]
        exact hrest.add hpiece

end Pieced

end Splice

/-- If a comparison is cut off where an identifier is parted, its subject begins there. -/
theorem Ending.Bounded.beginsBehind {reversed : Text} {e : Ending Comparison}
    (h : Bounded reversed e) {ls : List Lexeme} (hclosed : ∀ l ∈ ls, l.IsClosed)
    {start front back rest : Text} (hreversed : reversed = (back ++ rest).reverse ++ e.before)
    (hbefore : e.before.reverse = start ++ '"' :: front) (hl : .quoted .double (front ++ back) ∈ ls)
    (hback : back ≠ []) (hrest : Even (rest.count '"')) : e.piece.BeginsBehind ls front := by
  obtain ⟨⟨w, hwritten, hw⟩, hseparates⟩ := h
  rw [← List.append_assoc] at hwritten
  have htaken : back ++ rest = e.piece.subject ++ w.reverse := by
    have h := List.append_cancel_right (hreversed.symm.trans hwritten)
    rw [List.reverse_eq_iff] at h
    simpa using h
  obtain ⟨more, hsubject, hmore⟩ : ∃ more, e.piece.subject = back ++ more ∧ rest = more ++ w.reverse := by
    rcases List.append_eq_append_iff.1 htaken with ⟨more, hsubject, hrest⟩ | ⟨excess, hexcess, htail⟩
    · exact ⟨more, hsubject, hrest⟩
    · -- The identifier ends with a double quote, which what stands behind the subject does not hold.
      rcases eq_or_ne excess [] with rfl | hne
      · exact ⟨[], by simpa using hexcess.symm, by simpa using htail.symm⟩
      · have hlast := Lexeme.getLast?_back (hclosed _ hl) hback
        rw [hexcess, List.getLast?_append_of_ne_nil _ hne] at hlast
        refine absurd (List.mem_reverse.1 ?_) hw
        rw [htail]
        exact List.mem_append_left _ (List.mem_of_getLast? hlast)
  have heven : Even (more.count '"') := by
    rwa [hmore, List.count_append, List.count_eq_zero_of_not_mem (mt List.mem_reverse.1 hw)] at hrest
  refine ⟨⟨back, more, hl, hback, hsubject, heven⟩, ?_⟩
  have hlast : ∀ c ∈ ('"' :: front).getLast?, isSubjectChar c = false := by
    intro c hc
    refine hseparates c ?_
    rw [← List.getLast?_reverse, hbefore, List.getLast?_append_of_ne_nil _ (List.cons_ne_nil _ _)]
    exact hc
  rcases front.eq_nil_or_concat with rfl | ⟨init, d, rfl⟩
  · exact absurd (hlast '"' rfl) (by decide)
  · refine ⟨d, by simp, hlast d (by simp [List.getLast?_cons])⟩

namespace Draft

open Splice

variable {ls : List Lexeme} {d : Draft}

/-- The text and the splices of a draft are put together from pieces. -/
def Pieced (ls : List Lexeme) (d : Draft) : Prop := Splice.Pieced ls d.text d.splices

theorem Pieced.write (h : d.Pieced ls) {p : Text} (hp : IsPiece ls p) : (d.write p).Pieced ls := by
  rw [Pieced, text_write, splices_write]
  exact Splice.Pieced.piece h hp

theorem Pieced.takeMark (h : d.Pieced ls) (hclosed : ∀ l ∈ ls, l.IsClosed) :
    d.takeMark.2.Pieced ls := by
  rcases d.takeMark_cases with htake | ⟨e, hending, hsettled, htake⟩ <;> rw [htake]
  · exact h
  · obtain ⟨⟨gap, hgap, hreversed⟩, -⟩ := Ending.exists_of_mark? hending
    have htext : d.text = e.before.reverse ++ (e.piece ++ gap.reverse) := by
      simp [text, hreversed]
    have hnone {c : Char} (hc : c ∉ "(?)".toList) (hblank : isBlank c = false) :
        c ∉ e.piece ++ gap.reverse := by
      intro hmem
      rcases List.mem_append.1 hmem with hmem | hmem
      · rcases Ending.mem_of_mark? hending c hmem with h | h
        · exact hc h
        · rw [hblank] at h
          cases h
      · exact Ending.not_mem_of_isBlankText hblank hgap (List.mem_reverse.1 hmem)
    rcases Splice.Pieced.cut h hclosed htext (by rwa [List.length_reverse])
        ⟨hnone (by decide) (by decide), hnone (by decide) (by decide)⟩ with
      ⟨hwhole, -⟩ | ⟨start, front, back, rest, -, -, htaken, hl, hback, -⟩
    · exact hwhole
    · -- The identifier would end in the mark.
      have hlast := Lexeme.getLast?_back (hclosed _ hl) hback
      refine absurd ?_ (hnone (c := '"') (by decide) (by decide))
      rw [htaken]
      exact List.mem_append_left _ (List.mem_of_getLast? hlast)

/-- A directive that takes a comparison off the end parts an identifier or takes whole pieces. -/
theorem Pieced.addCompiled (h : d.Pieced ls) (hclosed : ∀ l ∈ ls, l.IsClosed) (line : Nat)
    (source : Text) (expression : Expression) (sample : Option Text) :
    (d.addCompiled line source expression sample).Pieced ls := by
  have hplain (x : Directive) (hx : x.comparison = none) :
      Splice.Pieced ls d.text (d.splices ++ [.directive d.offset x]) := by
    rw [← length_text]
    exact Splice.Pieced.directive h x fun c hc => by simp [hx] at hc
  rw [addCompiled_eq]
  unfold takeFor
  split
  · rcases d.takeComparison_cases with htake | ⟨e, hending, hsettled, htake⟩ <;> rw [htake]
    · exact hplain _ rfl
    · have hfound := Ending.found_of_comparison? hending
      have hbounded := Ending.bounded_of_comparison? hending
      obtain ⟨w, hreversed, hw⟩ := hbounded.written
      have htext : d.text = e.before.reverse ++ (e.piece.subject ++ w.reverse) := by
        simp [text, hreversed]
      rw [← List.append_assoc] at hreversed
      have hnone {c : Char} (hblank : isBlank c = false) (hc : ¬Ending.IsOperatorChar c) :
          c ∉ e.piece.subject ++ w.reverse := by
        have hmem := hfound.not_mem_written hreversed hblank hc
        simpa [and_comm] using hmem
      rw [Pieced, splice, offset]
      dsimp only
      rw [← List.length_reverse]
      rcases Splice.Pieced.cut h hclosed htext (by rwa [List.length_reverse])
          ⟨hnone (by decide) (by decide), hnone (by decide) (by decide)⟩ with
        ⟨hwhole, heven⟩ | ⟨start, front, back, rest, hstart, hbefore, htaken, hl, hback, hrest⟩
      · refine hwhole.directive _ fun c hc => ?_
        obtain rfl := Option.some.inj hc
        rwa [List.count_append, List.count_eq_zero_of_not_mem (mt List.mem_reverse.1 hw)] at heven
      · have hbegins := hbounded.beginsBehind hclosed (by rw [← htaken, hreversed]; simp) hbefore hl
          hback hrest
        rw [text, hbefore]
        exact hstart.parted _ rfl hbegins
  · exact hplain _ rfl

theorem Pieced.merge (h : d.Pieced ls) {l : Line} (hl : Splice.Pieced ls l.sql l.splices) :
    (d.merge l).Pieced ls := by
  have hopened : (d.write ['(']).Pieced ls := h.write (.inr (.inl rfl))
  have hfilled := Splice.Pieced.append hopened hl
  have hclosed := hfilled.piece (.inr (.inr rfl) : IsPiece ls [')'])
  rw [length_text] at hclosed
  simpa [Pieced, Draft.merge, text] using hclosed

theorem Pieced.addGroup (h : d.Pieced ls) (lines : List Line) : (d.addGroup lines).Pieced ls := by
  have hopened : (d.write ['(']).Pieced ls := h.write (.inr (.inl rfl))
  have hgroup := Splice.Pieced.group hopened lines
  rw [length_text] at hgroup
  have hclosed := hgroup.piece (.inr (.inr rfl) : IsPiece ls [')'])
  simpa [Pieced, Draft.addGroup, splice, text] using hclosed

end Draft

/-- A line as it is read, put together from pieces. -/
structure Line.Pieced (ls : List Lexeme) (l : Line) : Prop where
  pieced : Splice.Pieced ls l.sql l.splices
  block : l.block? = none

/-- Reading lexemes puts lines together from them. -/
theorem Reader.keepsWhere_pieced (registry : Registry) {ls : List Lexeme}
    (hclosed : ∀ l ∈ ls, l.IsClosed) :
    KeepsWhere registry (· ∈ ls) (Draft.Pieced ls) (Line.Pieced ls) := by
  constructor
  · intro n
    exact .nil
  · intro l d hl hwritten hd
    exact hd.write (.inl ⟨l, hl, hwritten, rfl⟩)
  · intro n d hd
    exact ⟨hd, rfl⟩
  · intro l d hl hd
    exact hd.merge hl.pieced
  · intro lines d _ hd
    exact hd.addGroup _
  · intro n source d d' hd hadded
    obtain ⟨e, -, rfl⟩ := Draft.addLine_eq_ok hadded
    exact (hd.takeMark hclosed).addCompiled hclosed n source e _
  · intro n source sample d d' _ hd hadded
    obtain ⟨e, -, rfl⟩ := Draft.addBlock_eq_ok hadded
    exact hd.addCompiled hclosed n source e sample

theorem pieced_of_parse {registry : Registry} {resource : Option Text} {text : Text} {t : Template}
    (ht : Template.parse registry resource text = .ok t) :
    ∀ l ∈ t.deepLines, Splice.Pieced (lexemes text) l.sql l.splices := by
  have hclosed : ∀ l ∈ lexemes text, l.IsClosed := fun _ hl => Lexeme.isClosed_of_mem_lexemes hl
  have hkeeps := Reader.keepsWhere_pieced registry hclosed
  intro l hl
  have hpieced := (hkeeps.of_parse (fun _ hl => hl.block) (fun _ hl => hl) ht l hl).alone.pieced
  rwa [Line.sql_withChildren, Line.splices_withChildren] at hpieced

namespace Splice

/-- A directive whose subject has an odd number of double quotes. -/
def partsIdentifier (s : Splice) : Bool :=
  match s.directive?.bind Directive.comparison with
  | some c => c.subject.count '"' % 2 == 1
  | none => false

theorem partsIdentifier_directive {offset : Nat} {x : Directive} :
    partsIdentifier (.directive offset x) = true ↔
      ∃ c, x.comparison = some c ∧ Odd (c.subject.count '"') := by
  cases hx : x.comparison <;> simp [partsIdentifier, directive?, hx, Nat.odd_iff]

theorem countP_partsIdentifier_eq_zero {splices : List Splice}
    (h : ∀ offset x c, .directive offset x ∈ splices → x.comparison = some c →
      Even (c.subject.count '"')) : splices.countP partsIdentifier = 0 := by
  refine List.countP_eq_zero.2 fun s hs hparts => ?_
  cases s with
  | directive offset x =>
    obtain ⟨c, hc, hodd⟩ := partsIdentifier_directive.1 hparts
    exact Nat.not_even_iff_odd.2 hodd (h offset x c hs hc)
  | group offset lines => cases hparts

namespace Pieced

variable {ls : List Lexeme} {t : Text} {splices : List Splice}

theorem offset_le (h : Pieced ls t splices) : ∀ s ∈ splices, s.offset ≤ t.length := by
  induction h with
  | nil => simp
  | piece _ _ ih =>
    intro s hs
    rw [List.length_append]
    exact Nat.le_add_right_of_le (ih s hs)
  | directive _ x _ ih => exact List.forall_mem_append.2 ⟨ih, List.forall_mem_singleton.2 le_rfl⟩
  | parted _ x _ _ ih =>
    refine List.forall_mem_append.2 ⟨fun s hs => ?_, List.forall_mem_singleton.2 le_rfl⟩
    rw [List.length_append]
    exact Nat.le_add_right_of_le (ih s hs)
  | group _ lines ih => exact List.forall_mem_append.2 ⟨ih, List.forall_mem_singleton.2 le_rfl⟩

theorem take_append (h : Pieced ls t splices) {s : Splice} (hs : s ∈ splices) (u : Text) :
    (t ++ u).take s.offset = t.take s.offset :=
  List.take_append_of_le_length (h.offset_le s hs)

/-- A splice is the one that was added last, or stands in front of it. -/
theorem last_or_of_concat {before after : List Splice} {s last : Splice}
    (hs : splices ++ [last] = before ++ s :: after) :
    (splices = before ∧ last = s) ∨ ∃ rest, splices = before ++ s :: rest := by
  rcases after.eq_nil_or_concat with rfl | ⟨rest, x, rfl⟩
  · obtain ⟨rfl, hlast⟩ := List.append_inj' hs rfl
    exact .inl ⟨rfl, (List.cons.inj hlast).1⟩
  · rw [List.concat_eq_append, ← List.cons_append, ← List.append_assoc] at hs
    exact .inr ⟨rest, (List.append_inj' hs rfl).1⟩

/-- The text in front of a splice is put together with the splices up to it. -/
theorem take (h : Pieced ls t splices) {before after : List Splice} {s : Splice}
    (hs : splices = before ++ s :: after) : Pieced ls (t.take s.offset) (before ++ [s]) := by
  induction h generalizing after with
  | nil => simp at hs
  | piece h _ ih =>
    rw [h.take_append (hs ▸ by simp)]
    exact ih hs
  | directive h x hx ih =>
    rcases last_or_of_concat hs with ⟨rfl, rfl⟩ | ⟨rest, hrest⟩
    · rw [offset, List.take_length]
      exact h.directive x hx
    · exact ih hrest
  | parted h x hx hfront ih =>
    rcases last_or_of_concat hs with ⟨rfl, rfl⟩ | ⟨rest, hrest⟩
    · rw [offset, List.take_length]
      exact h.parted x hx hfront
    · rw [h.take_append (hrest ▸ by simp)]
      exact ih hrest
  | group h lines ih =>
    rcases last_or_of_concat hs with ⟨rfl, rfl⟩ | ⟨rest, hrest⟩
    · rw [offset, List.take_length]
      exact h.group lines
    · exact ih hrest

/-- A text without hidden quotes has an even number of double quotes if an even number of directives
has parted an identifier. -/
theorem even_count_iff (h : Pieced ls t splices) (hclosed : ∀ l ∈ ls, l.IsClosed)
    (hhidden : ∀ l ∈ ls, l.HidesQuotes → '"' ∉ l.source) :
    Even (t.count '"') ↔ Even (splices.countP partsIdentifier) := by
  induction h with
  | nil => exact Iff.rfl
  | piece _ hp ih =>
    have heven := hp.even_count hclosed fun l hl hsource hhides => hsource ▸ hhidden l hl hhides
    rw [List.count_append, Nat.even_add, iff_true_right heven, ih]
  | @directive t splices _ x hx ih =>
    have hwhole : partsIdentifier (.directive t.length x) = false := by
      rw [Bool.eq_false_iff, Ne, partsIdentifier_directive]
      rintro ⟨c, hc, hodd⟩
      exact Nat.not_even_iff_odd.2 hodd (hx c hc)
    rw [ih, List.countP_append, List.countP_singleton, hwhole]
    rfl
  | @parted t front splices _ x c hx hfront ih =>
    obtain ⟨hsubject, hodd⟩ := hfront.odd_count hclosed
    have hparts : partsIdentifier (.directive (t ++ '"' :: front).length x) = true :=
      partsIdentifier_directive.2 ⟨c, hx, hsubject⟩
    rw [List.count_append, Nat.even_add, ih, List.countP_append, List.countP_singleton, hparts,
      Nat.even_add, iff_false_right (Nat.not_even_iff_odd.2 hodd)]
    simp
  | group _ lines ih =>
    rw [ih, List.countP_append]
    rfl

/-- The subject of a directive has an even number of double quotes or begins inside of an identifier
whose front the line ends with there. -/
theorem even_or_beginsBehind (h : Pieced ls t splices) {offset : Nat} {x : Directive}
    {c : Comparison} (hx : .directive offset x ∈ splices) (hc : x.comparison = some c) :
    Even (c.subject.count '"') ∨
      ∃ front before, c.BeginsBehind ls front ∧ t.take offset = before ++ '"' :: front := by
  induction h with
  | nil => simp at hx
  | @piece t p splices h _ ih =>
    have htake : (t ++ p).take offset = t.take offset := h.take_append hx p
    rw [htake]
    exact ih hx
  | directive h y hy ih =>
    rcases List.mem_append.1 hx with hx | hx
    · exact ih hx
    · obtain ⟨-, rfl⟩ := Splice.directive.inj (List.mem_singleton.1 hx)
      exact .inl (hy c hc)
  | @parted t front splices h y c' hy hfront ih =>
    rcases List.mem_append.1 hx with hx | hx
    · have htake : (t ++ '"' :: front).take offset = t.take offset := h.take_append hx _
      rw [htake]
      exact ih hx
    · obtain ⟨rfl, rfl⟩ := Splice.directive.inj (List.mem_singleton.1 hx)
      obtain rfl := Option.some.inj (hc.symm.trans hy)
      exact .inr ⟨front, t, hfront, List.take_length⟩
  | group h lines ih =>
    rcases List.mem_append.1 hx with hx | hx
    · exact ih hx
    · simp at hx

end Pieced

end Splice

/-- In a template that was parsed the subject of a directive has an odd number of double quotes just if
it begins inside of an identifier of the text, the front of which is left at the end of the text before
the directive. Where double quotes only stand around identifiers, this text has an even number of them
just if an even number of directives up to there has parted an identifier in this way. No identifier
is parted that is made of the characters of subjects alone. -/
theorem odd_quotes_iff_parted {registry : Registry} {resource : Option Text} {text : Text}
    {t : Template} (ht : Template.parse registry resource text = .ok t) {l : Line}
    (hl : l ∈ t.deepLines) :
    (∀ offset x c, .directive offset x ∈ l.splices → x.comparison = some c →
      (¬ Even (c.subject.count '"') ↔ ∃ front before, c.BeginsBehind (lexemes text) front ∧
        l.sql.take offset = before ++ '"' :: front)) ∧
    ((∀ k ∈ lexemes text, k.HidesQuotes → '"' ∉ k.source) →
      ∀ before s after, l.splices = before ++ s :: after →
        (Even ((l.sql.take s.offset).count '"') ↔
          Even ((before ++ [s]).countP Splice.partsIdentifier))) ∧
    ((∀ body, .quoted .double body ∈ lexemes text → ∀ d ∈ body, Ending.isSubjectChar d = true) →
      (∀ offset x c, .directive offset x ∈ l.splices → x.comparison = some c →
        Even (c.subject.count '"')) ∧
      ((∀ k ∈ lexemes text, k.HidesQuotes → '"' ∉ k.source) →
        ∀ s ∈ l.splices, Even ((l.sql.take s.offset).count '"'))) := by
  have hclosed : ∀ k ∈ lexemes text, k.IsClosed := fun _ hk => Lexeme.isClosed_of_mem_lexemes hk
  have hpieced := pieced_of_parse ht l hl
  have hbefore (hhidden : ∀ k ∈ lexemes text, k.HidesQuotes → '"' ∉ k.source)
      (before : List Splice) (s : Splice) (after : List Splice)
      (hs : l.splices = before ++ s :: after) :
      Even ((l.sql.take s.offset).count '"') ↔
        Even ((before ++ [s]).countP Splice.partsIdentifier) :=
    (hpieced.take hs).even_count_iff hclosed hhidden
  refine ⟨fun offset x c hx hc => ⟨fun hodd => ?_, ?_⟩, hbefore, fun hwords => ?_⟩
  · exact (hpieced.even_or_beginsBehind hx hc).resolve_left hodd
  · rintro ⟨front, -, hfront, -⟩
    exact Nat.not_even_iff_odd.2 (hfront.odd_count hclosed).1
  · have heven (offset : Nat) (x : Directive) (c : Comparison) (hx : .directive offset x ∈ l.splices)
        (hc : x.comparison = some c) : Even (c.subject.count '"') := by
      refine (hpieced.even_or_beginsBehind hx hc).resolve_right ?_
      rintro ⟨front, -, hfront, -⟩
      exact Comparison.not_beginsBehind hwords hfront
    refine ⟨heven, fun hhidden s hs => ?_⟩
    obtain ⟨before, after, hsplit⟩ := List.append_of_mem hs
    rw [hbefore hhidden before s after hsplit]
    rw [List.append_cons] at hsplit
    have hnone : (before ++ [s]).countP Splice.partsIdentifier = 0 :=
      Splice.countP_partsIdentifier_eq_zero fun offset x c hx =>
        heven offset x c (hsplit ▸ List.mem_append_left _ hx)
    rw [hnone]
    exact Even.zero

/-- A directive whose comparison had an identifier with a blank in it. -/
def Directive.onBlank : Directive where
  source := "?x".toList
  expression := [.reference .condition "x".toList false]
  sample := some "1".toList
  comparison := some ⟨"col\"".toList, "=".toList⟩
  line := some 1

def Template.onBlank : Template where
  lines := [.mk "SELECT * FROM t WHERE \"my ".toList 1 1 [.directive 26 .onBlank] none]
  resource := none

theorem Template.parse_onBlank :
    Template.parse .standard none "SELECT * FROM t WHERE \"my col\" = /* ?x */1".toList =
      .ok .onBlank := by
  with_unfolding_all rfl

theorem odd_quotes_iff_parted_blank :
    let text : Text := "SELECT * FROM t WHERE \"my col\" = /* ?x */1".toList
    let t : Template := .onBlank
    Template.parse .standard none text = .ok t ∧ ∃ l ∈ t.deepLines, ∃ offset x c,
      .directive offset x ∈ l.splices ∧ x.comparison = some c ∧
      ∃ front before, c.BeginsBehind (lexemes text) front ∧
        l.sql.take offset = before ++ '"' :: front := by
  intro text t
  have ht : Template.parse .standard none text = .ok t := Template.parse_onBlank
  have hl : t.lines.head (List.cons_ne_nil _ _) ∈ t.deepLines := List.mem_cons_self ..
  obtain ⟨hiff, -⟩ := odd_quotes_iff_parted ht hl
  refine ⟨ht, _, hl, 26, _, _, List.mem_singleton_self _, rfl, ?_⟩
  exact (hiff 26 _ _ (List.mem_singleton_self _) rfl).1 (by decide)

/-- Both the text in front of the directive and its subject have one double quote only, so where the
subject is written twice no identifier is closed. -/
theorem odd_quotes_of_blank :
    let text : Text := "SELECT * FROM t WHERE \"my col\" = /* ?x */1".toList
    let t : Template := .onBlank
    let p : Parameters := ⟨[("x".toList, .sequence .list [.int 1, .int 2, .int 3])]⟩
    Template.parse .standard none text = .ok t ∧
      (∃ l ∈ t.deepLines, ∃ offset x c, .directive offset x ∈ l.splices ∧ x.comparison = some c ∧
        ¬ Even (c.subject.count '"') ∧ ¬ Even ((l.sql.take offset).count '"')) ∧
      Renderer.render ⟨.none, .standard, 2⟩ t p =
        .ok ⟨"SELECT * FROM t WHERE \"my (col\" IN (?, ?) OR col\" IN (?))".toList,
          [.int 1, .int 2, .int 3]⟩ := by
  intro text t p
  have ht : Template.parse .standard none text = .ok t := Template.parse_onBlank
  have hl : t.lines.head (List.cons_ne_nil _ _) ∈ t.deepLines := List.mem_cons_self ..
  have hcondition : Marks.condition ⟨"col\"".toList, "=".toList⟩ 3 true (some "1".toList) 2 =
      .ok "(col\" IN (?, ?) OR col\" IN (?))".toList := by rfl
  have hevaluated : Directive.onBlank.evaluate ⟨⟨.none, .standard, 2⟩, none, p⟩ =
      .ok { Contribution.ofValues [.int 1, .int 2, .int 3] with
        replacement := some "(col\" IN (?, ?) OR col\" IN (?))".toList } := by
    have hreference : Reference.condition.evaluate ⟨⟨.none, .standard, 2⟩, none, p⟩ .onBlank
        "x".toList false = _ := Reference.evaluate_condition_of_present rfl rfl hcondition
    exact Directive.evaluate_eq_ok_iff.2
      ⟨[_], Term.evaluateAll_cons_eq_ok_iff.2 ⟨_, [], hreference, rfl, rfl⟩, rfl⟩
  have hrendered : Renderer.render ⟨.none, .standard, 2⟩ t p =
      .ok ⟨"SELECT * FROM t WHERE \"my (col\" IN (?, ?) OR col\" IN (?))".toList,
        [.int 1, .int 2, .int 3]⟩ := by
    simp only [Renderer.render, t, Template.onBlank, Line.renderAll, Line.render,
      Line.renderSplices, hevaluated]
    rfl
  refine ⟨ht, ⟨_, hl, 26, _, _, List.mem_singleton_self _, rfl, ?_, ?_⟩, hrendered⟩
  · decide
  · decide

end SqlTemplate
