import Mathlib.Data.List.Infix
import SqlTemplate.Proofs.Directive.Printing
import SqlTemplate.Proofs.Rendering.Skipping
import SqlTemplate.Proofs.Rendering.Steps

/-!
# What patterns match

`LikePattern.Matches` is the meaning of patterns: the escape character takes its meaning from the
character behind it, one wildcard stands for any run of characters and another one for a single
character. An escaped text matches itself and nothing else, so between two wildcards for runs it
matches the texts that it is part of (`LikePattern.matches_containing_iff`). Escaping the characters
one after the other comes to the same as escaping all at once, since the escape character comes first
(`escapeInTurn_eq`).

A directive that binds a parameter between wildcards therefore finds the texts that hold its value,
unless the value is taken for a negative one once it is escaped and left out of the pattern
(`LikePattern.containing_iff`).
-/

namespace SqlTemplate

namespace LikePattern

/-- The wildcards for any run of characters. -/
def isAnyRun (c : Char) : Bool := "%％".toList.contains c

/-- The wildcards for any single character. -/
def isAnyOne (c : Char) : Bool := "_＿".toList.contains c

/-- Whether a pattern matches a text. -/
inductive Matches : WideText → WideText → Prop
  | nil : Matches [] []
  | escaped {pattern t : WideText} (p : CodePoint) (h : Matches pattern t) :
      Matches (.char '#' :: p :: pattern) (p :: t)
  | anyRun {pattern t : WideText} {c : Char} (hc : isAnyRun c = true) (run : WideText)
      (h : Matches pattern t) : Matches (.char c :: pattern) (run ++ t)
  | anyOne {pattern t : WideText} {c : Char} (hc : isAnyOne c = true) (p : CodePoint)
      (h : Matches pattern t) : Matches (.char c :: pattern) (p :: t)
  | itself {pattern t : WideText} {p : CodePoint}
      (hp : ∀ c, p = .char c → c ≠ '#' ∧ isAnyRun c = false ∧ isAnyOne c = false)
      (h : Matches pattern t) : Matches (p :: pattern) (p :: t)

variable {pattern s t : WideText} {p : CodePoint} {c : Char}

theorem isLikeSpecial_eq (c : Char) :
    isLikeSpecial c = (c == '#' || isAnyRun c || isAnyOne c) := by
  simp [isLikeSpecial, likeEscape, isAnyRun, isAnyOne]
  grind

theorem matches_nil_iff : Matches [] t ↔ t = [] := by
  constructor
  · intro h
    cases h
    rfl
  · rintro rfl
    exact .nil

theorem matches_escaped_cons_iff :
    Matches (.char '#' :: p :: pattern) t ↔ ∃ u, t = p :: u ∧ Matches pattern u := by
  constructor
  · intro h
    cases h with
    | escaped _ h => exact ⟨_, rfl, h⟩
    | anyRun hc => exact absurd hc (by decide)
    | anyOne hc => exact absurd hc (by decide)
    | itself hp => exact absurd rfl (hp '#' rfl).1
  · rintro ⟨u, rfl, h⟩
    exact .escaped p h

theorem matches_itself_cons_iff (hp : p.char?.any isLikeSpecial = false) :
    Matches (p :: pattern) t ↔ ∃ u, t = p :: u ∧ Matches pattern u := by
  have hplain : ∀ c, p = .char c → c ≠ '#' ∧ isAnyRun c = false ∧ isAnyOne c = false := by
    rintro c rfl
    have hc : isLikeSpecial c = false := hp
    simpa [isLikeSpecial_eq, and_assoc] using hc
  constructor
  · intro h
    cases h with
    | escaped => exact absurd rfl (hplain '#' rfl).1
    | anyRun hc => exact absurd (hplain _ rfl).2.1 (by simp [hc])
    | anyOne hc => exact absurd (hplain _ rfl).2.2 (by simp [hc])
    | itself _ h => exact ⟨_, rfl, h⟩
  · rintro ⟨u, rfl, h⟩
    exact .itself hplain h

theorem matches_anyRun_cons_iff (hc : isAnyRun c = true) :
    Matches (.char c :: pattern) t ↔ ∃ run u, t = run ++ u ∧ Matches pattern u := by
  constructor
  · intro h
    cases h with
    | escaped => exact absurd hc (by decide)
    | anyRun _ run h => exact ⟨run, _, rfl, h⟩
    | anyOne hone =>
      have hrun : c = '%' ∨ c = '％' := by simpa [isAnyRun] using hc
      rcases hrun with rfl | rfl <;> exact absurd hone (by decide)
    | itself hp => exact absurd (hp c rfl).2.1 (by simp [hc])
  · rintro ⟨run, u, rfl, h⟩
    exact .anyRun hc run h

/-- An escaped text matches itself, whatever follows it in the pattern. -/
theorem matches_escapeLikeText_append_iff :
    Matches (escapeLikeText s ++ pattern) t ↔ ∃ u, t = s ++ u ∧ Matches pattern u := by
  induction s generalizing t with
  | nil => simp [escapeLikeText]
  | cons p s ih =>
    have hcons : Matches (escapeLikeText (p :: s) ++ pattern) t ↔
        ∃ u, t = p :: u ∧ Matches (escapeLikeText s ++ pattern) u := by
      rw [escapeLikeText_cons]
      split
      · exact matches_escaped_cons_iff
      · rename_i hp
        exact matches_itself_cons_iff (Bool.eq_false_iff.2 hp)
    rw [hcons]
    constructor
    · rintro ⟨v, rfl, hv⟩
      obtain ⟨u, rfl, hu⟩ := ih.1 hv
      exact ⟨u, rfl, hu⟩
    · rintro ⟨u, rfl, hu⟩
      exact ⟨s ++ u, rfl, ih.2 ⟨u, rfl, hu⟩⟩

theorem matches_escapeLikeText_iff : Matches (escapeLikeText s) t ↔ t = s := by
  have h : Matches (escapeLikeText s ++ []) t ↔ ∃ u, t = s ++ u ∧ Matches [] u :=
    matches_escapeLikeText_append_iff
  rw [List.append_nil] at h
  simpa [matches_nil_iff] using h

/-- A text between two wildcards for runs. -/
def containing (s : WideText) : WideText := .char '%' :: (s ++ [.char '%'])

/-- Between two wildcards for runs, an escaped text matches the texts that it is part of. -/
theorem matches_containing_iff : Matches (containing (escapeLikeText s)) t ↔ s <:+: t := by
  have hend (u : WideText) : Matches [.char '%'] u := by
    have hrun := Matches.anyRun (c := '%') (by decide) u .nil
    rwa [List.append_nil] at hrun
  rw [containing, matches_anyRun_cons_iff (by decide)]
  simp only [matches_escapeLikeText_append_iff]
  constructor
  · rintro ⟨before, _, rfl, after, rfl, -⟩
    exact ⟨before, after, List.append_assoc ..⟩
  · rintro ⟨before, after, rfl⟩
    exact ⟨before, s ++ after, List.append_assoc .., after, rfl, hend after⟩

/-! ### One character after the other -/

/-- Escapes a character wherever it occurs. -/
def escapeChar (c : Char) (t : WideText) : WideText :=
  t.flatMap fun p => if p = .char c then [.char '#', p] else [p]

/-- Escapes the characters that mean something in patterns one after the other. -/
def escapeInTurn (t : WideText) : WideText :=
  "#%_％＿".toList.foldl (fun t c => escapeChar c t) t

/-- Escapes all of the given characters at once. -/
def escapeAll (cs : List Char) (t : WideText) : WideText :=
  t.flatMap fun p => if p.char?.any cs.contains then [.char '#', p] else [p]

theorem escapeChar_escapeAll {cs : List Char} (hc : c ∉ cs) (hescape : c ≠ '#') (t : WideText) :
    escapeChar c (escapeAll cs t) = escapeAll (cs ++ [c]) t := by
  rw [escapeChar, escapeAll, escapeAll, List.flatMap_assoc]
  refine List.flatMap_congr fun p _ => ?_
  cases p with
  | half => rfl
  | char x =>
    by_cases hx : x = c
    · subst hx
      simp [CodePoint.char?, hc]
    · by_cases hmem : x ∈ cs <;> simp [CodePoint.char?, hx, hmem, Ne.symm hescape]

theorem foldl_escapeChar {done todo : List Char} (hnodup : (done ++ todo).Nodup)
    (hescape : '#' ∉ todo) (t : WideText) :
    todo.foldl (fun t c => escapeChar c t) (escapeAll done t) = escapeAll (done ++ todo) t := by
  induction todo generalizing done with
  | nil => rw [List.append_nil]; rfl
  | cons c todo ih =>
    obtain ⟨hc, htodo⟩ := not_or.1 (mt List.mem_cons.2 hescape)
    rw [List.append_cons] at hnodup ⊢
    have hfresh : c ∉ done := by
      have hdone := (List.nodup_append.1 hnodup).1
      exact fun hmem => (List.nodup_append.1 hdone).2.2 c hmem c (List.mem_singleton_self c) rfl
    rw [List.foldl_cons, escapeChar_escapeAll hfresh (Ne.symm hc)]
    exact ih hnodup htodo

/-- The escape character comes first, so none that is written is escaped again. -/
theorem escapeInTurn_eq (t : WideText) : escapeInTurn t = escapeLikeText t := by
  have hfirst : escapeChar '#' t = escapeAll ['#'] t := by
    rw [escapeChar, escapeAll]
    refine List.flatMap_congr fun p _ => ?_
    cases p <;> simp [CodePoint.char?]
  have hnodup : (['#'] ++ "%_％＿".toList).Nodup := by decide
  have hothers := foldl_escapeChar hnodup (by decide) t
  rw [← hfirst] at hothers
  refine Eq.trans hothers ?_
  have hspecial : (['#'] ++ "%_％＿".toList).contains = isLikeSpecial := rfl
  rw [escapeAll, hspecial]
  rfl

/-! ### A parameter between wildcards -/

/-- The chain of a parameter between wildcards, as it is written in a directive. -/
def containingSource (key : Text) : Text := '%' :: ("L '%' $".toList ++ key ++ " '%'".toList)

theorem compile_containingSource {registry : Registry} {key : Text} (hkey : Token.IsKey key)
    (hlike : registry.find? ['L'] = some .like) :
    Expression.compile registry (containingSource key) =
      .ok [.call ['L'] false none
        [.literal ['%'], .reference .param key false, .literal ['%']]] := by
  have hname : Token.IsName ['L'] := ⟨'L', [], rfl, by decide, List.forall_mem_nil _⟩
  have hwildcard : Term.print (.literal ['%']) = "'%'".toList := by
    rw [Term.print]
    rfl
  have hparam : Term.print (.reference .param key false) = '$' :: key := by
    rw [Term.print]
    rfl
  have hsource : containingSource key =
      '%' :: ([] ++ (['L'] ++ ' ' :: ("'%'".toList ++ ' ' :: ('$' :: key ++ ' ' :: "'%'".toList)))) := by
    simp [containingSource]
  have hprint : '%' :: (Token.negation false ++ (['L'] ++ ' ' ::
      Term.printAll [.literal ['%'], .reference .param key false, .literal ['%']])) =
        containingSource key := by
    simp only [Term.printAll, hwildcard, hparam, List.isEmpty_cons, List.isEmpty_nil, if_true,
      Bool.false_eq_true, if_false, List.append_nil]
    exact hsource.symm
  rw [← hprint]
  refine Expression.compile_openCall false hname hlike rfl ?_
  simp only [List.forall_mem_cons, Term.writable_reference_iff]
  exact ⟨Term.writable_literal _, hkey, Term.writable_literal _, List.forall_mem_nil _⟩

/-- What is bound for a parameter between wildcards: its text, escaped, unless it is left out. -/
theorem evaluate_containing [Runtime] {s : Scope} {d : Directive} {key : Text} {u : WideText}
    (hd : d.expression = [.call ['L'] false none
      [.literal ['%'], .reference .param key false, .literal ['%']]])
    (hregistered : s.renderer.registry.find? ['L'] = some .like)
    (hvalue : s.parameters.get key = .text u)
    (hpresent : s.renderer.negatives.isNegative (.text u) = false) :
    ∃ c, d.evaluate s = .ok c ∧ c.values = [.text (containing
      (if s.renderer.negatives.isNegative (.text (escapeLikeText u)) then []
      else escapeLikeText u))] := by
  have habsent : s.renderer.negatives.isNegative (s.parameters.get key) = false := by
    rw [hvalue]
    exact hpresent
  have hreference : Reference.param.evaluate s d key false = .ok (.ofValues [.text u]) := by
    rw [Reference.evaluate_of_present (by decide) habsent (.inl rfl), hvalue]
    rfl
  have hchain : Term.evaluateAll s d
      [.literal ['%'], .reference .param key false, .literal ['%']] =
        .ok [.ofText ['%'], .ofValues [.text u], .ofText ['%']] := by
    simp only [Term.evaluateAll, Term.evaluate, hreference]
    rfl
  have hmiddle : Contribution.escapedTexts? (fun v => s.renderer.negatives.isNegative v.escapeLike)
      [.ofText ['%'], .ofValues [.text u], .ofText ['%']] =
        some (containing (if s.renderer.negatives.isNegative (.text (escapeLikeText u)) then []
          else escapeLikeText u)) := by
    have hsingle := Contribution.escapedTexts?_single
      (fun v => s.renderer.negatives.isNegative v.escapeLike) u
    rw [Contribution.escapedTexts?, WideText.joined?_singleton] at hsingle
    rw [Contribution.escapedTexts?, WideText.joined?_cons, WideText.joined?_cons, hsingle]
    rfl
  have hlike := Contribution.map_values_like_escaped s.renderer.negatives
    [.ofText ['%'], .ofValues [.text u], .ofText ['%']]
  rw [hmiddle] at hlike
  obtain ⟨c, hc, hvalues⟩ := map_eq_ok_iff.1 hlike
  have happly : Function.like.apply s.renderer.negatives false none
      [.ofText ['%'], .ofValues [.text u], .ofText ['%']] = .ok c := by
    simp only [Function.apply, Function.transform?, Option.getD_none, hc]
    rfl
  refine ⟨c, Directive.evaluate_eq_ok_iff.2 ⟨[c], ?_, rfl⟩, hvalues⟩
  rw [hd]
  exact Term.evaluateAll_cons_eq_ok_iff.2 ⟨c, [], Term.evaluate_call_eq_ok_iff.2
    ⟨.like, none, _, hregistered, rfl, hchain, happly⟩, rfl, rfl⟩

/-- A parameter between wildcards finds the texts that hold its value, unless the value is negative
once it is escaped: then every text is found. -/
theorem containing_iff [Runtime] {s : Scope} {d : Directive} {key : Text} {u : WideText}
    (hkey : Token.IsKey key) (hlike : s.renderer.registry.find? ['L'] = some .like)
    (hd : Expression.compile s.renderer.registry (containingSource key) = .ok d.expression)
    (hvalue : s.parameters.get key = .text u)
    (hpresent : s.renderer.negatives.isNegative (.text u) = false) :
    (∀ v t, escapeInTurn v = escapeLikeText v ∧ (Matches (escapeLikeText v) t ↔ t = v)) ∧
    ∃ c pattern, d.evaluate s = .ok c ∧ c.values = [.text pattern] ∧
      (∀ t, Matches pattern t ↔
        s.renderer.negatives.isNegative (.text (escapeLikeText u)) = true ∨ u <:+: t) ∧
      ((∀ t, Matches pattern t ↔ u <:+: t) ↔
        s.renderer.negatives.isNegative (.text (escapeLikeText u)) = false) := by
  refine ⟨fun v t => ⟨escapeInTurn_eq v, matches_escapeLikeText_iff⟩, ?_⟩
  rw [compile_containingSource hkey hlike] at hd
  obtain ⟨c, hc, hvalues⟩ := evaluate_containing (Except.ok.inj hd).symm hlike hvalue hpresent
  refine ⟨c, _, hc, hvalues, ?_⟩
  cases hescaped : s.renderer.negatives.isNegative (.text (escapeLikeText u)) with
  | false => simp [matches_containing_iff]
  | true =>
    have hall (t : WideText) : Matches (containing []) t :=
      matches_containing_iff (s := []).2 List.nil_infix
    -- the empty text is found, but no value is part of it that escaping changes
    have hne : u ≠ [] := by
      rintro rfl
      exact Bool.false_ne_true (hpresent.symm.trans hescaped)
    simp only [if_true, hall, true_or, implies_true, true_and, true_iff,
      Bool.true_eq_false, iff_false]
    exact fun hpart => hne (List.infix_nil.1 (hpart []))

/-- The directive that finds the texts with a given part. -/
def containingPart : Directive where
  source := containingSource "part".toList
  expression := [.call ['L'] false none
    [.literal ['%'], .reference .param "part".toList false, .literal ['%']]]
  sample := some "'%a%'".toList
  comparison := none
  line := some 1

theorem containing_iff_tenPercent :
    let part : WideText := .ofText "10%".toList
    let s : Scope := ⟨.standard, none, ⟨[("part".toList, .text part)]⟩⟩
    Token.IsKey "part".toList ∧
      Expression.compile .standard containingPart.source = .ok containingPart.expression ∧
      s.renderer.negatives.isNegative (.text part) = false ∧
      ∃ c pattern, containingPart.evaluate s = .ok c ∧ c.values = [.text pattern] ∧
        ∀ t, Matches pattern t ↔ part <:+: t := by
  intro part s
  have hkey : Token.IsKey "part".toList := by decide
  have hcompiled : Expression.compile .standard containingPart.source =
      .ok containingPart.expression := compile_containingSource hkey rfl
  obtain ⟨-, c, pattern, hc, hvalues, -, hexact⟩ :=
    containing_iff (s := s) (d := containingPart) (u := part) hkey rfl hcompiled rfl rfl
  exact ⟨hkey, hcompiled, rfl, c, pattern, hc, hvalues, hexact.2 rfl⟩

/-- With `10#%` among the negative values, `10%` is left out of its pattern, which then finds the
empty text as well. -/
theorem containing_registeredEscaped :
    let part : WideText := .ofText "10%".toList
    let s : Scope := ⟨.withNegatives .standard [.text (.ofText "10#%".toList)], none,
      ⟨[("part".toList, .text part)]⟩⟩
    Expression.compile .standard containingPart.source = .ok containingPart.expression ∧
      s.renderer.negatives.isNegative (.text part) = false ∧
      ∃ c pattern, containingPart.evaluate s = .ok c ∧ c.values = [.text pattern] ∧
        pattern = .ofText "%%".toList ∧ Matches pattern [] ∧ ¬ part <:+: [] := by
  intro part s
  have hcompiled : Expression.compile .standard containingPart.source =
      .ok containingPart.expression := compile_containingSource (by decide) rfl
  have hempty : Matches (.ofText "%%".toList) [] :=
    .anyRun (by decide) [] (.anyRun (by decide) [] .nil)
  exact ⟨hcompiled, rfl, _, _, rfl, rfl, rfl, hempty, by decide⟩

end LikePattern

end SqlTemplate
