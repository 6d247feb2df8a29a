import SqlTemplate.Proofs.Rendering.Joining
import SqlTemplate.Proofs.Rendering.Steps
import SqlTemplate.Proofs.Source.Seams
import SqlTemplate.Proofs.Template.Transcript

/-!
# Two-way templates

A template is a statement as it is: the directives stand in comments, and their samples are what
they replace. If every directive only asks for the presence or the absence of a parameter and is
answered as it asks, all lines and samples stay, and the statement is the text of the template
without its comments, blanks aside. The statement does not depend on the parameters that give these
answers.
-/

namespace SqlTemplate

/-- A directive that asks for the presence or the absence of a parameter and is answered so. -/
def Directive.Holds (n : Negatives) (p : Parameters) (d : Directive) : Prop :=
  ∃ kind key negated, d.expression = [.reference kind key negated] ∧
    (kind = .presence ∨ negated = true) ∧ n.isNegative (p.get key) = negated

theorem Directive.Holds.evaluate [Runtime] {s : Scope} {d : Directive}
    (h : d.Holds s.renderer.negatives s.parameters) : d.evaluate s = .ok .keep := by
  obtain ⟨kind, key, negated, hexpression, hkind, hnegative⟩ := h
  have hreference : kind.evaluate s d key negated = .ok .keep := by
    cases negated with
    | true => exact Reference.evaluate_of_absent true hnegative
    | false =>
        obtain rfl := hkind.resolve_right (by simp)
        exact Reference.evaluate_presence_of_present hnegative
  rw [Directive.evaluate_eq_ok_iff]
  refine ⟨[.keep], ?_, rfl⟩
  rw [hexpression, Term.evaluateAll_cons_eq_ok_iff]
  exact ⟨.keep, [], hreference, rfl, rfl⟩

theorem Directive.output_keep (d : Directive) : d.output .keep = ⟨d.written, []⟩ := by
  unfold Directive.output Directive.written
  cases d.comparison with
  | none => rfl
  | some c => simp [Contribution.keep]

theorem isBlankText_eq_false_iff {t : Text} :
    isBlankText t = false ↔ ∃ c ∈ t, isBlank c = false := by
  rw [isBlankText, List.all_eq_false]
  simp only [Bool.not_eq_true]

namespace Sample

theorem isBlankText_of_simple? {t s r : Text} (h : simple? t = some (s, r)) :
    isBlankText s = false := by
  unfold simple? at h
  split at h
  · rename_i found hquoted
    obtain rfl := Option.some.inj h
    unfold Quoted.take? at hquoted
    split at hquoted
    · simp at hquoted
    · rename_i c t
      split at hquoted
      · rename_i q hq
        obtain ⟨⟨b, u⟩, -, he⟩ := Option.map_eq_some_iff.1 hquoted
        obtain ⟨rfl, rfl⟩ := Prod.mk.inj he
        have hblank : isBlank c = false := by
          rw [← Quote.char_eq_of_ofChar? hq]
          cases q <;> decide
        exact isBlankText_eq_false_iff.2 ⟨c, List.mem_cons_self .., hblank⟩
      · simp at hquoted
  · split at h
    · simp at h
    · rename_i hne
      have hbare := Option.some.inj h
      obtain ⟨c, u, rfl⟩ := List.exists_cons_of_ne_nil fun hnil : s = [] => by
        subst hnil
        exact hne r hbare
      have hc : c ∈ (bare t).1 := by
        rw [hbare]
        exact List.mem_cons_self ..
      exact isBlankText_eq_false_iff.2 ⟨c, List.mem_cons_self .., isBlank_of_mem_bare c hc⟩

/-- A sample is no blank text. -/
theorem isBlankText_of_isSample {s : Text} (h : IsSample s) : isBlankText s = false := by
  obtain ⟨t, rest, h⟩ := h
  unfold read at h
  split at h
  · split at h
    · rename_i hb
      obtain ⟨rfl, rfl⟩ := Reading.taken.inj h
      obtain ⟨-, hlast⟩ := isClosed_of_balanced? (by simp) hb
      exact isBlankText_eq_false_iff.2 ⟨')', List.mem_of_getLast? hlast, by decide⟩
    · simp at h
  · split at h
    · rename_i hsimple
      obtain ⟨rfl, rfl⟩ := Reading.taken.inj h
      exact isBlankText_of_simple? hsimple
    · simp at h

end Sample

namespace Splice

variable {rest : Text} {splices : List Splice} {c : Char}

theorem mem_weave_of_mem (start : Nat) (h : c ∈ rest) : c ∈ weave start rest splices := by
  induction splices generalizing start rest with
  | nil => exact h
  | cons s splices ih =>
      rw [weave, List.mem_append, List.mem_append]
      rw [← List.take_append_drop (s.offset - start) rest] at h
      rcases List.mem_append.1 h with h | h
      · exact .inl h
      · exact .inr (.inr (ih s.offset h))

theorem mem_weave_of_mem_written (start : Nat) {s : Splice} (hs : s ∈ splices)
    (h : c ∈ s.written) : c ∈ weave start rest splices := by
  induction splices generalizing start rest with
  | nil => exact absurd hs List.not_mem_nil
  | cons s' splices ih =>
      rw [weave, List.mem_append, List.mem_append]
      rcases List.mem_cons.1 hs with rfl | hs
      · exact .inr (.inl h)
      · exact .inr (.inr (ih s'.offset hs))

end Splice

/-- A line has a text if it has one besides its directives or a directive has a sample. -/
theorem Line.Neat.isBlankText_woven {l : Line} (h : l.Neat)
    (hsamples : ∀ d ∈ l.directives, ∀ t, d.sample = some t → isBlankText t = false)
    (hl : l.directives ≠ [] → (∃ d ∈ l.directives, d.sample.isSome) ∨ isBlankText l.sql = false) :
    isBlankText l.woven = false := by
  have hsql : isBlankText l.sql = false → isBlankText l.woven = false := by
    intro hblank
    obtain ⟨c, hc, hcb⟩ := isBlankText_eq_false_iff.1 hblank
    exact isBlankText_eq_false_iff.2 ⟨c, Splice.mem_weave_of_mem 0 hc, hcb⟩
  by_cases hnone : l.directives = []
  · apply hsql
    cases hblank : isBlankText l.sql with
    | false => rfl
    | true =>
        -- The line has a splice, which is a span, and a span stands behind a parenthesis.
        have hsplices : l.splices ≠ [] := by
          intro hnil
          have hl := h.nonblank
          rw [Line.isBlank, hblank, hnil] at hl
          simp at hl
        obtain ⟨s, splices, hcons⟩ := List.exists_cons_of_ne_nil hsplices
        have hs : s ∈ l.splices := by
          rw [hcons]
          exact List.mem_cons_self ..
        have hgroup : s.lines?.isSome := by
          cases s with
          | directive offset d =>
              have hd : d ∈ l.directives := List.mem_filterMap.2 ⟨_, hs, rfl⟩
              rw [hnone] at hd
              exact absurd hd List.not_mem_nil
          | group offset lines => rfl
        have hopen := List.mem_of_mem_take (h.fit.grouped s hs hgroup)
        exact absurd (List.all_eq_true.1 hblank _ hopen) (by decide)
  · rcases hl hnone with ⟨d, hd, hsome⟩ | hblank
    · obtain ⟨t, ht⟩ := Option.isSome_iff_exists.1 hsome
      obtain ⟨c, hc, hcb⟩ := isBlankText_eq_false_iff.1 (hsamples d hd t ht)
      obtain ⟨s, hs, hsd⟩ := List.mem_filterMap.1 hd
      have hwritten : c ∈ s.written := by
        cases s with
        | group offset lines => simp [Splice.directive?] at hsd
        | directive offset d' =>
            obtain rfl := Option.some.inj hsd
            change c ∈ d'.written
            unfold Directive.written
            rw [ht]
            cases d'.comparison with
            | none => exact hc
            | some comparison => simp [hc]
      exact isBlankText_eq_false_iff.2 ⟨c, Splice.mem_weave_of_mem_written 0 hs hwritten, hcb⟩
    · exact hsql hblank

section Runs

variable {r : Renderer} (resource : Option Text)

mutual

/-- The text of a line whose directives hold. It is the same for all parameters. -/
theorem Line.exists_text [Runtime] (l : Line) (hl : ∀ k ∈ l.deep, isBlankText k.woven = false) :
    ∃ text, text ≠ [] ∧ unspaced text = unspaced l.written ∧
      ∀ p, (∀ d ∈ Line.deepDirectives [l], d.Holds r.negatives p) →
        l.render ⟨r, resource, p⟩ = .ok (some ⟨text, []⟩) := by
  cases l with
  | mk sql first last splices block =>
      have hsplices : ∀ k ∈ Splice.deepAll splices, isBlankText k.woven = false :=
        fun k hk => hl k (Line.mem_deep_of_mem (.inl hk))
      have hself : isBlankText (Splice.weave 0 sql splices) = false := hl _ (Line.mem_deep_self _)
      obtain ⟨own, hwoven, hown⟩ := Line.exists_text_splices splices 0 sql hsplices
      have hne : strip own ≠ [] := by
        intro hnil
        have hblank : unspaced (Splice.weave 0 sql splices) = [] := by
          rw [← hwoven, ← unspaced_strip, hnil]
          rfl
        rw [unspaced_eq_nil_iff.1 hblank] at hself
        exact absurd hself (by simp)
      rcases block with _ | (_ | ⟨l, ls⟩)
      case none | some.nil =>
        refine ⟨strip own, hne, ?_, ?_⟩
        · rw [unspaced_strip, hwoven]
          exact (congrArg unspaced (List.append_nil _)).symm
        · intro p hp
          obtain ⟨⟨hp, -⟩, -⟩ := Line.forall_deepDirectives_cons.1 hp
          exact Line.render_eq_ok_iff.2 (.inr ⟨_, hown p hp, .inl ⟨rfl, rfl⟩⟩)
      · obtain ⟨texts, hlength, hnes, htexts, hbelow⟩ := Line.exists_texts (l :: ls) fun k hk =>
          hl k (Line.mem_deep_of_mem (.inr hk))
        have htexts_ne : texts ≠ [] := by
          rintro rfl
          exact absurd hlength.symm (Nat.succ_ne_zero _)
        have hjoin := Block.join_ne_nil htexts_ne hnes
        refine ⟨strip own ++ ' ' :: Block.join texts, ?_, ?_, ?_⟩
        · exact List.append_ne_nil_of_left_ne_nil hne _
        · rw [unspaced_append, unspaced_space_cons, unspaced_strip, hwoven, Block.unspaced_join,
            htexts, ← unspaced_append]
          rfl
        · intro p hp
          obtain ⟨⟨hp, hpc⟩, -⟩ := Line.forall_deepDirectives_cons.1 hp
          refine Line.render_eq_ok_iff.2
            (.inr ⟨_, hown p hp, .inr ⟨List.cons_ne_nil _ _, _, hbelow p hpc, ?_⟩⟩)
          rw [Block.assemble_of_ne_nil htexts_ne hnes, Block.attach_of_ne_nil hne hjoin]

theorem Line.exists_text_splices [Runtime] (splices : List Splice) (start : Nat) (rest : Text)
    (hl : ∀ k ∈ Splice.deepAll splices, isBlankText k.woven = false) :
    ∃ text, unspaced text = unspaced (Splice.weave start rest splices) ∧
      ∀ p, (∀ d ∈ Splice.deepDirectives splices, d.Holds r.negatives p) →
        Line.renderSplices ⟨r, resource, p⟩ start rest splices = .ok (some ⟨text, []⟩) := by
  cases splices with
  | nil => exact ⟨rest, rfl, fun _ _ => rfl⟩
  | cons s splices =>
      cases s with
      | directive offset d =>
          obtain ⟨after, hwoven, hafter⟩ := Line.exists_text_splices splices offset
            (rest.drop (offset - start)) hl
          refine ⟨rest.take (offset - start) ++ d.written ++ after, ?_, ?_⟩
          · rw [unspaced_append, hwoven, ← unspaced_append, List.append_assoc]
            rfl
          · intro p hp
            obtain ⟨hd, hp⟩ := Splice.forall_deepDirectives_directive.1 hp
            have hkeep : d.evaluate ⟨r, resource, p⟩ = .ok .keep := Directive.Holds.evaluate hd
            refine Line.renderSplices_directive_eq_ok_iff.2
              ⟨.keep, hkeep, .inr ⟨rfl, _, hafter p hp, ?_⟩⟩
            rw [Directive.output_keep]
            rfl
      | group offset lines =>
          rw [Splice.deepAll, List.forall_mem_append] at hl
          obtain ⟨after, hwoven, hafter⟩ := Line.exists_text_splices splices offset
            (rest.drop (offset - start)) hl.2
          obtain ⟨texts, hlength, hnes, htexts, hlines⟩ := Line.exists_texts lines hl.1
          refine ⟨rest.take (offset - start) ++ Block.join texts ++ after, ?_, ?_⟩
          · rw [unspaced_append, unspaced_append, Block.unspaced_join, htexts, hwoven,
              ← unspaced_append, ← unspaced_append, List.append_assoc]
            rfl
          · intro p hp
            obtain ⟨hpl, hp⟩ := Splice.forall_deepDirectives_group.1 hp
            refine Line.renderSplices_group_eq_ok_iff.2
              ⟨_, hlines p hpl, .inr ⟨?_, _, hafter p hp, ?_⟩⟩
            · by_cases hnil : texts = []
              · right
                apply List.eq_nil_of_length_eq_zero
                rw [← hlength, hnil]
                rfl
              · left
                rw [Block.assemble_of_ne_nil hnil hnes]
                simp
            · rw [Block.getD_assemble_of_ne_nil hnes]
              rfl

theorem Line.exists_texts [Runtime] (ls : List Line)
    (hl : ∀ k ∈ Line.deepAll ls, isBlankText k.woven = false) :
    ∃ texts : List Text, texts.length = ls.length ∧ (∀ t ∈ texts, t ≠ []) ∧
      unspaced texts.flatten = unspaced (Line.writtenAll ls) ∧
      ∀ p, (∀ d ∈ Line.deepDirectives ls, d.Holds r.negatives p) →
        Line.renderAll ⟨r, resource, p⟩ ls = .ok (texts.map fun t => some ⟨t, []⟩) := by
  cases ls with
  | nil => exact ⟨[], rfl, by simp, rfl, fun _ _ => rfl⟩
  | cons l ls =>
      rw [Line.deepAll, List.forall_mem_append] at hl
      obtain ⟨text, hne, hwritten, hrender⟩ := Line.exists_text l hl.1
      obtain ⟨texts, hlength, hnes, hwrittens, hrenders⟩ := Line.exists_texts ls hl.2
      refine ⟨text :: texts, congrArg (· + 1) hlength, ?_, ?_, ?_⟩
      · rw [List.forall_mem_cons]
        exact ⟨hne, hnes⟩
      · rw [List.flatten_cons, unspaced_append, hwritten, hwrittens, ← unspaced_append]
        rfl
      · intro p hp
        obtain ⟨hline, hlines⟩ := Line.forall_deepDirectives_cons.1 hp
        refine Line.renderAll_cons_eq_ok_iff.2 ⟨_, _, hrender p ?_, hrenders p hlines, rfl⟩
        exact Line.forall_deepDirectives_cons.2 ⟨hline, fun _ hd => absurd hd List.not_mem_nil⟩

end

end Runs

/-- A template is the statement that it becomes when everything it asks for holds: the text of the
template without its comments, blanks aside. -/
theorem render_eq_uncommented [Runtime] {registry : Registry} {resource : Option Text} {text : Text}
    {t : Template} (r : Renderer) (ht : Template.parse registry resource text = .ok t)
    (hcomments : ∀ d ∈ t.deepDirectives, ∀ s, d.sample = some s → s.head? = some '(' →
      hasComment none s = false)
    (hlines : ∀ l ∈ t.deepLines, l.directives ≠ [] →
      (∃ d ∈ l.directives, d.sample.isSome) ∨ isBlankText l.sql = false) :
    ∃ sql, (∀ p, (∀ d ∈ t.deepDirectives, d.Holds r.negatives p) → r.render t p = .ok ⟨sql, []⟩) ∧
      (t.deepDirectives = [] → ∀ p, r.render t p = .ok ⟨sql, []⟩) ∧
      unspaced sql = unspaced (uncommented text) := by
  have hopen : ∀ l ∈ lexemes text, l.IsOpen := by
    rintro l hl body s rfl hhead
    obtain ⟨d, hd, hsample⟩ := exists_directive_of_parse ht hl
    exact hcomments d hd s hsample hhead
  have hwoven : ∀ l ∈ Line.deepAll t.lines, isBlankText l.woven = false := by
    intro l hl
    refine (neat_of_parse ht l hl).isBlankText_woven ?_ (hlines l hl)
    intro d hd s hs
    have hmem : d ∈ t.deepDirectives := List.mem_flatMap.2 ⟨l, hl, hd⟩
    rcases (compiled_of_parse ht d hmem).sample s hs with hsample | ⟨reversed, e, he, rfl⟩
    · exact Sample.isBlankText_of_isSample hsample
    · have hmark := (Ending.exists_of_mark? he).2
      exact isBlankText_eq_false_iff.2 ⟨'?', hmark, by decide⟩
  obtain ⟨texts, -, hnes, htexts, hrender⟩ :=
    Line.exists_texts (r := r) t.resource t.lines hwoven
  have hstatement : ∀ p, (∀ d ∈ t.deepDirectives, d.Holds r.negatives p) →
      r.render t p = .ok ⟨Block.join texts, []⟩ := by
    intro p hp
    refine Renderer.render_eq_ok_iff.2 ⟨_, hrender p hp, ?_⟩
    rw [Block.getD_assemble_of_ne_nil hnes]
  refine ⟨Block.join texts, hstatement, ?_, ?_⟩
  · intro hnone p
    apply hstatement
    rw [hnone]
    simp
  · rw [Block.unspaced_join, htexts, unspaced_written_of_parse ht,
      flatMap_kept_lexemes (isFlawless_of_parse ht) hopen]

/-- A template with a literal, a hint and comments, whose conditions ask for an absent parameter. -/
def Template.absentInSpan : Template where
  lines :=
    [.mk "SELECT '--' /*! x */ ".toList 1 1 [] none,
      .mk "WHERE ()".toList 2 5
        [.group 7
          [.mk "   ".toList 3 3
              [.directive 2
                { source := "?!k".toList
                  expression := [.reference .condition "k".toList true]
                  sample := some "(1)".toList
                  comparison := some ⟨"a".toList, "=".toList⟩
                  line := some 3 }] none,
            .mk "  OR ".toList 4 4
              [.directive 5
                { source := "?!k".toList
                  expression := [.reference .condition "k".toList true]
                  sample := some "?".toList
                  comparison := some ⟨"b".toList, "=".toList⟩
                  line := some 4 }] none]] none]
  resource := none

theorem render_absentInSpan :
    let text : Text :=
      "SELECT '--' /*! x */ -- y\nWHERE (\n  a = /* ?!k */(1) /** z */\n  OR b = ? -- ?!k\n)".toList
    let t : Template := .absentInSpan
    Template.parse .standard none text = .ok t ∧
    (∀ d ∈ t.deepDirectives, ∀ s, d.sample = some s → s.head? = some '(' →
      hasComment none s = false) ∧
    (∀ l ∈ t.deepLines, l.directives ≠ [] →
      (∃ d ∈ l.directives, d.sample.isSome) ∨ isBlankText l.sql = false) ∧
    (∀ d ∈ t.deepDirectives, d.Holds .none .empty) ∧
    ∃ sql, Renderer.standard.render t .empty = .ok ⟨sql, []⟩ ∧
      unspaced sql = unspaced (uncommented text) := by
  intro text t
  have ht : Template.parse .standard none text = .ok t := by with_unfolding_all rfl
  have hdirectives : ∀ d ∈ t.deepDirectives,
      d.expression = [.reference .condition "k".toList true] ∧
        (d.sample = some "(1)".toList ∨ d.sample = some "?".toList) :=
    List.forall_mem_cons.2 ⟨⟨rfl, .inl rfl⟩,
      List.forall_mem_cons.2 ⟨⟨rfl, .inr rfl⟩, List.forall_mem_nil _⟩⟩
  have hcomments : ∀ d ∈ t.deepDirectives, ∀ s, d.sample = some s → s.head? = some '(' →
      hasComment none s = false := by
    intro d hd s hs _
    rcases (hdirectives d hd).2 with hsample | hsample
    · obtain rfl : "(1)".toList = s := Option.some.inj (hsample.symm.trans hs)
      decide
    · obtain rfl : "?".toList = s := Option.some.inj (hsample.symm.trans hs)
      decide
  have hlines : ∀ l ∈ t.deepLines, l.directives ≠ [] →
      (∃ d ∈ l.directives, d.sample.isSome) ∨ isBlankText l.sql = false := by decide
  have hholds : ∀ d ∈ t.deepDirectives, d.Holds .none .empty := by
    intro d hd
    exact ⟨.condition, "k".toList, true, (hdirectives d hd).1, .inr rfl, rfl⟩
  obtain ⟨sql, hrender, -, hsql⟩ := render_eq_uncommented .standard ht hcomments hlines
  exact ⟨ht, hcomments, hlines, hholds, sql, hrender .empty hholds, hsql⟩

end SqlTemplate
