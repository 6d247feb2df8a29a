import Mathlib.Data.List.Induction
import Mathlib.Data.List.Infix
import SqlTemplate.Proofs.Source.Moves
import SqlTemplate.Proofs.Source.Seams

/-!
# Walks of cursors

A walk is a list of moves that a cursor makes one after the other from the start of a text. Every
move brings the line number up to date by the line ends that it passes, forward or back. That is
wrong where the cursor stops in the middle of a line end of two characters, and only there: a cursor
that never does is sound behind every walk (`Cursor.Clear.sound`). What is found or consumed never
ends in the middle of a line end (`Pattern.exists_of_take?`), so only moves by a count of characters
can lead there.
-/

namespace SqlTemplate

theorem LineEnd.take?_delimiter {t rest : Text} {e : LineEnd} (h : take? t = some (e, rest)) :
    Delimiter.take? t = some (.lineEnd e, rest) := by
  unfold take? at h
  split at h <;> simp only [Option.some.injEq, Prod.mk.injEq, reduceCtorEq] at h
  · obtain ⟨rfl, rfl⟩ := h
    rfl
  · rename_i t hne
    obtain ⟨rfl, rfl⟩ := h
    simp [Delimiter.take?]
  · obtain ⟨rfl, rfl⟩ := h
    rfl

theorem LineEnd.take?_ne_none {c : Char} (hc : isLineBreak c = true) (t : Text) :
    take? (c :: t) ≠ none := by
  rcases isLineBreak_eq_true_iff.1 hc with rfl | rfl
  · unfold take?
    split <;> simp_all
  · simp [take?]

/-- What is left behind the rest of a line begins with its line end. -/
theorem isLineBreak_of_restOfLine {c : Char} {t u : Text} (h : (restOfLine t).2 = c :: u) :
    isLineBreak c = true := by
  have hhead := List.head?_dropWhile_not (fun c => !isLineBreak c) t
  have hdrop : (t.dropWhile fun c => !isLineBreak c) = c :: u := h
  rw [hdrop] at hhead
  simpa using hhead

/-- The rest of a line does not cut its line end. -/
theorem sealed_restOfLine {before t : Text} (h : Sealed before t) :
    Sealed (before ++ (restOfLine t).1) (restOfLine t).2 := by
  by_cases hnil : (restOfLine t).1 = []
  · have hsplit : (restOfLine t).1 ++ (restOfLine t).2 = t := List.takeWhile_append_dropWhile
    rw [hnil, List.nil_append] at hsplit
    rwa [hnil, List.append_nil, hsplit]
  · exact (sealed_of_forall isLineBreak_of_mem_restOfLine _).append_right hnil

theorem Delimiter.sealed_chars_of_take? {t rest : Text} {d : Delimiter}
    (h : take? t = some (d, rest)) : Sealed d.chars rest := by
  cases d with
  | lineEnd e => exact Lexeme.sealed_chars_of_take? h
  | quote q => exact sealed_of_getLast? rfl q.isLineBreak_char rest
  | commentOpen => exact sealed_of_getLast? rfl (by decide) rest
  | commentClose => exact sealed_of_getLast? rfl (by decide) rest
  | dashes => exact sealed_of_getLast? rfl (by decide) rest
  | opening => exact sealed_of_getLast? rfl (by decide) rest
  | closing => exact sealed_of_getLast? rfl (by decide) rest

namespace Pattern

variable {p : Pattern} {t : Text} {x : Taken}

/-- What a pattern takes is the beginning of the text. No line end runs beyond it, and it is empty
only at the end of the text. -/
structure Takes (t : Text) (x : Taken) (rest : Text) : Prop where
  text : t = x.text ++ rest
  sealed : Sealed x.text rest
  nonempty : x.text = [] → t = []

theorem takes_delimiter {d : Delimiter} {rest : Text} (h : Delimiter.take? t = some (d, rest)) :
    Takes t ⟨d.chars, []⟩ rest :=
  ⟨Delimiter.chars_append_of_take? h, Delimiter.sealed_chars_of_take? h,
    fun hnil => absurd hnil d.chars_ne_nil⟩

theorem takes_of_getLast? {s : Text} {c : Char} (hlast : s.getLast? = some c)
    (hc : isLineBreak c = false) (rest : Text) : Takes (s ++ rest) ⟨s, []⟩ rest := by
  refine ⟨rfl, sealed_of_getLast? hlast hc rest, ?_⟩
  rintro rfl
  exact absurd hlast (by simp)

/-- The rest of a line ends behind its line end, or at the end of the text. -/
theorem takes_restOfLine (h : restOfLine.take? t = some x) : ∃ rest, Takes t x rest := by
  obtain ⟨comment, behind, hline⟩ : ∃ comment behind, SqlTemplate.restOfLine t = (comment, behind) :=
    ⟨_, _, rfl⟩
  have hsplit : t = comment ++ behind := by
    obtain ⟨rfl, rfl⟩ := Prod.mk.inj hline
    exact (List.takeWhile_append_dropWhile ..).symm
  simp only [take?, hline] at h
  obtain rfl := Option.some.inj h
  cases behind with
  | nil =>
    have hnone : LineEnd.take? [] = none := rfl
    rw [hnone, Option.map_none, Option.getD_none, List.append_nil]
    rw [List.append_nil] at hsplit
    exact ⟨[], by rw [List.append_nil, hsplit], sealed_nil _, fun hnil => hsplit.trans hnil⟩
  | cons c v =>
    have hc : isLineBreak c = true := isLineBreak_of_restOfLine (congrArg Prod.snd hline)
    obtain ⟨⟨e, rest⟩, he⟩ := Option.ne_none_iff_exists'.1 (LineEnd.take?_ne_none hc v)
    have hne : e.chars ≠ [] := (Delimiter.lineEnd e).chars_ne_nil
    rw [he, Option.map_some, Option.getD_some]
    refine ⟨rest, ?_, ?_, fun hnil => absurd (List.append_eq_nil_iff.1 hnil).2 hne⟩
    · rw [hsplit, LineEnd.chars_append_of_take? he, List.append_assoc]
    · exact (Lexeme.sealed_chars_of_take? (LineEnd.take?_delimiter he)).append_right hne

theorem exists_of_take? (h : p.take? t = some x) : ∃ rest, Takes t x rest := by
  cases p with
  | delimiter =>
    rw [take?] at h
    split at h
    · rename_i d rest hd
      obtain rfl := Option.some.inj h
      exact ⟨rest, takes_delimiter hd⟩
    · split at h
      · rename_i hempty
        obtain rfl := Option.some.inj h
        obtain rfl := List.isEmpty_iff.1 hempty
        exact ⟨[], rfl, sealed_nil _, fun _ => rfl⟩
      · simp at h
  | commentDelimiter =>
    rw [take?] at h
    split at h
    · rename_i rest hd
      obtain rfl := Option.some.inj h
      exact ⟨rest, takes_delimiter hd⟩
    · rename_i rest hd
      obtain rfl := Option.some.inj h
      exact ⟨rest, takes_delimiter hd⟩
    · rename_i e rest hd
      obtain rfl := Option.some.inj h
      exact ⟨rest, takes_delimiter hd⟩
    · simp at h
  | restOfLine => exact takes_restOfLine h
  | literal q =>
    obtain ⟨⟨body, rest⟩, hbody, hx⟩ := Option.map_eq_some_iff.1 h
    obtain rfl := hx
    obtain rfl := Quoted.append_of_closing? hbody
    exact ⟨rest, takes_of_getLast? (Quoted.getLast?_of_closing? hbody) q.isLineBreak_char rest⟩
  | lineEnd =>
    obtain ⟨⟨e, rest⟩, he, hx⟩ := Option.map_eq_some_iff.1 h
    obtain rfl := hx
    exact ⟨rest, takes_delimiter (LineEnd.take?_delimiter he)⟩
  | sample =>
    obtain ⟨⟨s, rest⟩, hs, hx⟩ := Option.map_eq_some_iff.1 h
    obtain rfl := hx
    obtain ⟨c, hlast, hc⟩ := Sample.isLineBreak_getLast?_of_simple? hs
    obtain rfl := Sample.append_of_simple? hs
    exact ⟨rest, takes_of_getLast? hlast hc rest⟩

theorem Takes.sealed_append {rest : Text} (h : Takes t x rest) (before : Text) :
    Sealed (before ++ x.text) rest := by
  by_cases hx : x.text = []
  · have hrest := h.text.symm.trans (h.nonempty hx)
    rw [(List.append_eq_nil_iff.1 hrest).2]
    exact sealed_nil _
  · exact h.sealed.append_right hx

/-- No line end runs beyond what is found either. -/
theorem exists_of_search? {k : Nat} (h : p.search? t = some (k, x)) :
    ∃ u rest, t = u ++ (x.text ++ rest) ∧ u.length = k ∧ (x.text = [] → rest = []) ∧
      ∀ before, Sealed (before ++ (u ++ x.text)) rest := by
  obtain ⟨u, v, rfl, rfl, htake, -⟩ := exists_of_search?_eq_some h
  obtain ⟨rest, htakes⟩ := exists_of_take? htake
  have hnil : x.text = [] → rest = [] := by
    intro hx
    have hv := htakes.text.symm.trans (htakes.nonempty hx)
    exact (List.append_eq_nil_iff.1 hv).2
  refine ⟨u, rest, by rw [htakes.text], rfl, hnil, fun before => ?_⟩
  rw [← List.append_assoc]
  exact htakes.sealed_append (before ++ u)

end Pattern

namespace Cursor

/-- What can be done with a cursor. -/
inductive Move where
  | find (p : Pattern)
  | consume (p : Pattern)
  | advance (count : Nat)
  | back (count : Nat)
  | peek (count : Nat)
  | remember
  | takeRemembered
deriving DecidableEq, Repr

def move (c : Cursor) : Move → Cursor
  | .find p => (c.find p).1
  | .consume p => (c.consume p).1
  | .advance count => (c.advance count).1
  | .back count => c.back count
  | .peek _ => c
  | .remember => c.remember
  | .takeRemembered => c.takeRemembered.1

/-- A move that looks for a pattern and does not find it. -/
def Misses (c : Cursor) : Move → Prop
  | .find p => (c.find p).2 = none
  | .consume p => (c.consume p).2 = none
  | _ => False

/-- The cursor behind a walk through a text. -/
def after (text : Text) (moves : List Move) : Cursor := moves.foldl move (ofText text)

/-- The cursor stands in the middle of a line end. -/
def SplitsLineEnd (c : Cursor) : Prop :=
  (c.text.take c.pos).getLast? = some '\r' ∧ (c.text.drop c.pos).head? = some '\n'

instance : DecidablePred SplitsLineEnd := fun _ => inferInstanceAs (Decidable (_ ∧ _))

/-- A walk on which the cursor never stops in the middle of a line end. -/
def Clear (text : Text) (moves : List Move) : Prop :=
  ∀ front, front <+: moves → ¬(after text front).SplitsLineEnd

instance (text : Text) (moves : List Move) : Decidable (Clear text moves) :=
  decidable_of_iff (∀ front ∈ moves.inits, ¬(after text front).SplitsLineEnd)
    (by simp only [Clear, List.mem_inits])

/-- A cursor in a text, on the line that its place is on, that is exhausted only at the end. -/
structure Sound (text : Text) (c : Cursor) : Prop where
  text_eq : c.text = text
  pos_le : c.pos ≤ text.length
  line_eq : c.line = 1 + lineEnds (text.take c.pos)
  pos_of_exhausted : c.exhausted = true → c.pos = text.length

variable {c : Cursor} {text before t u rest : Text} {line : Nat} {moves : List Move} {m : Move}

theorem move_eq_self_of_misses (h : c.Misses m) : c.move m = c := by
  cases m with
  | find p => exact find_eq_self_of_none h
  | consume p => exact consume_eq_self_of_none h
  | _ => exact h.elim

theorem after_concat (text : Text) (moves : List Move) (m : Move) :
    after text (moves ++ [m]) = (after text moves).move m := by
  rw [after, List.foldl_append]
  rfl

theorem after_find {p : Pattern} {next : Cursor} {found : Option Found}
    (h : (after text moves).find p = (next, found)) : after text (moves ++ [.find p]) = next :=
  (after_concat ..).trans (congrArg Prod.fst h)

theorem after_consume {p : Pattern} {next : Cursor} {found : Option Found}
    (h : (after text moves).consume p = (next, found)) :
    after text (moves ++ [.consume p]) = next :=
  (after_concat ..).trans (congrArg Prod.fst h)

theorem after_peek (text : Text) (moves : List Move) (count : Nat) :
    after text (moves ++ [.peek count]) = after text moves := after_concat ..

theorem after_remember (text : Text) (moves : List Move) :
    after text (moves ++ [.remember]) = (after text moves).remember := after_concat ..

theorem not_splitsLineEnd_iff (htext : c.text = before ++ rest) (hpos : c.pos = before.length) :
    ¬c.SplitsLineEnd ↔ Sealed before rest := by
  rw [SplitsLineEnd, htext, hpos, List.take_left, List.drop_left, not_and]
  rfl

/-- A sound cursor that does not split a line end, by what stands before it and what is left. -/
theorem Sound.exists_at (h : Sound text c) :
    ∃ before rest, c.At before (1 + lineEnds before) rest ∧ text = before ++ rest ∧
      (c.exhausted = true → rest = []) := by
  refine ⟨text.take c.pos, text.drop c.pos, ⟨?_, ?_, ?_⟩, (List.take_append_drop ..).symm, ?_⟩
  · rw [h.text_eq, List.take_append_drop]
  · rw [List.length_take_of_le h.pos_le]
  · rw [h.line_eq]
    rfl
  · intro hexhausted
    rw [h.pos_of_exhausted hexhausted, List.drop_length]

theorem At.sound (h : c.At before line rest) (hline : line = 1 + lineEnds before)
    (hexhausted : c.exhausted = true → rest = []) : Sound (before ++ rest) c := by
  refine ⟨h.text, ?_, ?_, ?_⟩
  · rw [h.pos, List.length_append]
    exact Nat.le_add_right ..
  · rw [h.pos, List.take_left, h.line, hline]
    rfl
  · intro hc
    rw [hexhausted hc, h.pos, List.append_nil]

/-- The cursor has moved forward over `u`. -/
theorem At.sound_forward (h : c.At (before ++ u) (1 + lineEnds before + lineEnds u) rest)
    (hsealed : Sealed before (u ++ rest)) (hexhausted : c.exhausted = true → rest = []) :
    Sound (before ++ (u ++ rest)) c := by
  rw [← List.append_assoc]
  refine h.sound ?_ hexhausted
  rw [lineEnds_append hsealed.of_append_right, Nat.add_assoc]

/-- A cursor stays where it is, or it moves over what it skips and what it finds, which does not
end in the middle of a line end. -/
theorem At.find_cases (h : c.At before line t) (p : Pattern) :
    c.find p = (c, none) ∨ ∃ u rest next found, t = u ++ rest ∧ c.find p = (next, some found) ∧
      next.At (before ++ u) (line + lineEnds u) rest ∧ Sealed (before ++ u) rest ∧
      (next.exhausted = true → rest = []) := by
  cases hc : c.exhausted with
  | true => exact .inl (by rw [Cursor.find, if_pos hc])
  | false =>
    cases hsearch : p.search? t with
    | none => exact .inl (h.find_eq_none hc hsearch)
    | some found =>
      obtain ⟨k, x⟩ := found
      obtain ⟨u, rest, rfl, rfl, hnil, hsealed⟩ := Pattern.exists_of_search? hsearch
      obtain ⟨next, hfind, -, -, hnext, hexhausted⟩ := h.find_eq hc hsearch
      refine .inr ⟨u ++ x.text, rest, next, _, (List.append_assoc ..).symm, hfind, hnext,
        hsealed before, fun hend => ?_⟩
      by_cases hx : x.text = []
      · exact hnil hx
      · rw [hexhausted hx] at hend
        cases hend

theorem At.consume_cases (h : c.At before line t) (p : Pattern) :
    c.consume p = (c, none) ∨ ∃ u rest next found, t = u ++ rest ∧
      c.consume p = (next, some found) ∧ next.At (before ++ u) (line + lineEnds u) rest ∧
      Sealed (before ++ u) rest ∧ next.exhausted = c.exhausted := by
  cases htake : p.take? t with
  | none => exact .inl (h.consume_eq_none htake)
  | some x =>
    obtain ⟨rest, htakes⟩ := Pattern.exists_of_take? htake
    have hsealed : Sealed (before ++ x.text) rest := htakes.sealed_append before
    obtain rfl := htakes.text
    obtain ⟨next, hconsume, hexhausted, hnext⟩ := h.consume_eq htake
    exact .inr ⟨x.text, rest, next, _, rfl, hconsume, hnext, hsealed, hexhausted⟩

theorem Sound.find (h : Sound text c) (hfrom : ¬c.SplitsLineEnd) (p : Pattern) :
    Sound text (c.find p).1 := by
  obtain ⟨before, t, hat, rfl, -⟩ := h.exists_at
  have hsealed : Sealed before t := (not_splitsLineEnd_iff hat.text hat.pos).1 hfrom
  rcases hat.find_cases p with hfind | ⟨u, rest, next, found, rfl, hfind, hnext, -, hend⟩
  · rwa [hfind]
  · rw [hfind]
    exact hnext.sound_forward hsealed hend

theorem Sound.consume (h : Sound text c) (hfrom : ¬c.SplitsLineEnd) (p : Pattern) :
    Sound text (c.consume p).1 := by
  obtain ⟨before, t, hat, rfl, hend⟩ := h.exists_at
  have hsealed : Sealed before t := (not_splitsLineEnd_iff hat.text hat.pos).1 hfrom
  rcases hat.consume_cases p with hconsume | ⟨u, rest, next, found, rfl, hconsume, hnext, -, hsame⟩
  · rwa [hconsume]
  · rw [hconsume]
    refine hnext.sound_forward hsealed fun hnextEnd => ?_
    exact (List.append_eq_nil_iff.1 (hend (hsame.symm.trans hnextEnd))).2

/-- What is found or consumed does not end in the middle of a line end. -/
theorem Sound.not_splitsLineEnd_find (h : Sound text c) (hfrom : ¬c.SplitsLineEnd) (p : Pattern) :
    ¬(c.find p).1.SplitsLineEnd := by
  obtain ⟨before, t, hat, -, -⟩ := h.exists_at
  rcases hat.find_cases p with hfind | ⟨u, rest, next, found, -, hfind, hnext, hsealed, -⟩
  · rwa [hfind]
  · rw [hfind]
    exact (not_splitsLineEnd_iff hnext.text hnext.pos).2 hsealed

theorem Sound.not_splitsLineEnd_consume (h : Sound text c) (hfrom : ¬c.SplitsLineEnd)
    (p : Pattern) : ¬(c.consume p).1.SplitsLineEnd := by
  obtain ⟨before, t, hat, -, -⟩ := h.exists_at
  rcases hat.consume_cases p with hconsume | ⟨u, rest, next, found, -, hconsume, hnext, hsealed, -⟩
  · rwa [hconsume]
  · rw [hconsume]
    exact (not_splitsLineEnd_iff hnext.text hnext.pos).2 hsealed

theorem Sound.advance (h : Sound text c) (hfrom : ¬c.SplitsLineEnd) (count : Nat) :
    Sound text (c.advance count).1 := by
  obtain ⟨before, t, hat, rfl, hend⟩ := h.exists_at
  have hsealed : Sealed before t := (not_splitsLineEnd_iff hat.text hat.pos).1 hfrom
  have hpos : min (c.pos + count) c.text.length = before.length + (t.take count).length := by
    rw [hat.pos, hat.text, List.length_append, List.length_take]
    omega
  rw [← List.take_append_drop count t] at hat hsealed ⊢
  refine (hat.moveTo hpos).sound_forward hsealed fun hc => ?_
  have ht := hend hc
  rw [ht, List.drop_nil]

theorem Sound.back (h : Sound text c) {count : Nat} (hto : ¬(c.back count).SplitsLineEnd) :
    Sound text (c.back count) := by
  obtain ⟨before, t, hat, rfl, -⟩ := h.exists_at
  obtain ⟨v, w, rfl, hw⟩ : ∃ v w, before = v ++ w ∧ w.length = min count before.length := by
    refine ⟨_, _, (List.take_append_drop (before.length - count) before).symm, ?_⟩
    rw [List.length_drop]
    omega
  have hpos : c.pos - w.length = c.pos - count := by
    rw [hw, hat.pos]
    omega
  have hback : c.back w.length = c.back count := by
    simp only [Cursor.back, hpos]
  have hlanded : (c.back count).pos = v.length := by
    rw [← hback]
    change c.pos - w.length = v.length
    rw [hat.pos, List.length_append, Nat.add_sub_cancel]
  have htext : (c.back count).text = v ++ (w ++ t) := by
    rw [← List.append_assoc]
    exact hat.text
  have hsealed : Sealed v (w ++ t) := (not_splitsLineEnd_iff htext hlanded).1 hto
  rw [lineEnds_append hsealed.of_append_right, ← Nat.add_assoc] at hat
  have hbehind := hat.back
  rw [hback] at hbehind
  rw [List.append_assoc]
  exact hbehind.sound rfl fun hc => absurd hc (by simp [Cursor.back])

/-- A cursor that does not split a line end, neither before a move nor behind it, stays sound. -/
theorem Sound.move (h : Sound text c) (hfrom : ¬c.SplitsLineEnd)
    (hto : ¬(c.move m).SplitsLineEnd) : Sound text (c.move m) := by
  cases m with
  | find p => exact h.find hfrom p
  | consume p => exact h.consume hfrom p
  | advance count => exact h.advance hfrom count
  | back count => exact h.back hto
  | peek count => exact h
  | remember => exact ⟨h.text_eq, h.pos_le, h.line_eq, h.pos_of_exhausted⟩
  | takeRemembered => exact ⟨h.text_eq, h.pos_le, h.line_eq, h.pos_of_exhausted⟩

theorem sound_ofText (text : Text) : Sound text (ofText text) :=
  ⟨rfl, Nat.zero_le _, rfl, fun h => by cases h⟩

theorem clear_nil (text : Text) : Clear text [] := by
  intro front hfront
  rw [List.prefix_nil.1 hfront]
  exact fun hsplits => absurd hsplits.1 (by simp [after, ofText])

theorem clear_concat_iff :
    Clear text (moves ++ [m]) ↔ Clear text moves ∧ ¬(after text (moves ++ [m])).SplitsLineEnd := by
  simp only [Clear, List.prefix_concat_iff]
  constructor
  · intro h
    exact ⟨fun front hfront => h front (.inr hfront), h _ (.inl rfl)⟩
  · rintro ⟨h, hlast⟩ front (rfl | hfront)
    · exact hlast
    · exact h front hfront

theorem Clear.of_prefix (h : Clear text moves) {front : List Move} (hfront : front <+: moves) :
    Clear text front := fun _ hmore => h _ (hmore.trans hfront)

theorem Clear.not_splitsLineEnd (h : Clear text moves) : ¬(after text moves).SplitsLineEnd :=
  h moves (List.prefix_refl _)

theorem Clear.concat (h : Clear text moves) (hto : ¬((after text moves).move m).SplitsLineEnd) :
    Clear text (moves ++ [m]) := clear_concat_iff.2 ⟨h, by rwa [after_concat]⟩

theorem Clear.remember (h : Clear text moves) : Clear text (moves ++ [.remember]) :=
  h.concat h.not_splitsLineEnd

theorem Clear.sealed (h : Clear text moves) (hat : (after text moves).At before line rest) :
    Sealed before rest :=
  (not_splitsLineEnd_iff hat.text hat.pos).1 h.not_splitsLineEnd

/-- A cursor is sound behind every walk on which it never splits a line end. -/
theorem Clear.sound (h : Clear text moves) : Sound text (after text moves) := by
  induction moves using List.reverseRecOn with
  | nil => exact sound_ofText text
  | append_singleton moves m ih =>
    obtain ⟨hclear, hto⟩ := clear_concat_iff.1 h
    rw [after_concat] at hto ⊢
    exact (ih hclear).move hclear.not_splitsLineEnd hto

theorem Clear.find (h : Clear text moves) (p : Pattern) : Clear text (moves ++ [.find p]) :=
  h.concat (h.sound.not_splitsLineEnd_find h.not_splitsLineEnd p)

theorem Clear.consume (h : Clear text moves) (p : Pattern) : Clear text (moves ++ [.consume p]) :=
  h.concat (h.sound.not_splitsLineEnd_consume h.not_splitsLineEnd p)

end Cursor

end SqlTemplate
