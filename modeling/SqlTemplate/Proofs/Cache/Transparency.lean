import SqlTemplate.Proofs.Cache.Recency

/-!
# What a cache returns

A template is the same whether it is read or found in a cache. Reading depends on the name of the
template only in so far as the template and its errors carry it, and the entries of a cache were
read from texts of their keys. The one thing that a key does not tell apart is a template without a
name from one of the name `None`: what is found for the one may have been read for the other.
-/

namespace SqlTemplate

/-- The lines of a template do not depend on its name. -/
theorem Template.parse_resource {registry : Registry} {resource : Option Text} {text : Text}
    {t : Template} (ht : parse registry resource text = .ok t) (resource' : Option Text) :
    t.resource = resource ∧ parse registry resource' text = .ok ⟨t.lines, resource'⟩ := by
  unfold parse at ht ⊢
  cases hf : flatLines registry text with
  | ok lines =>
    rw [hf] at ht
    cases ht
    exact ⟨rfl, rfl⟩
  | error m =>
    rw [hf] at ht
    cases ht

/-- A template without a name shares its key with the one of the name `None`, and no others do. -/
theorem CacheKey.of_eq_of_iff {text text' : Text} {resource resource' : Option Text} :
    CacheKey.of text resource = CacheKey.of text' resource' ↔
      text = text' ∧ (resource = resource' ∨
        resource = none ∧ resource' = some "None".toList ∨
        resource = some "None".toList ∧ resource' = none) := by
  simp only [CacheKey.of, CacheKey.mk.injEq]
  refine and_congr_right fun _ => ?_
  cases resource <;> cases resource' <;> simp [eq_comm]

namespace Cache

/-- What a cache returns for a text is what reading the text gives. After any calls on a new cache,
a text that cannot be read raises the error of reading it. For a text that can be read, a template
with the same lines is returned; its name is the one asked for, unless that is `None` or no name,
and an earlier call asked for the other one of the two. -/
theorem get_run_eq_parse {m : Int} {registry : Registry} {c : Cache}
    (hc : ofCapacity? m registry = some c) (calls : List Call) (text : Text)
    (resource : Option Text) :
    (∀ e, Template.parse registry resource text = .error e →
      (c.run calls).get text resource = .error e) ∧
    ∀ t, Template.parse registry resource text = .ok t →
      ∃ d u, (c.run calls).get text resource = .ok (d, u) ∧
        (u.template = t ∨ ∃ other, Call.get text other ∈ calls ∧ u.template = ⟨t.lines, other⟩ ∧
          (resource = none ∧ other = some "None".toList ∨
            resource = some "None".toList ∧ other = none)) := by
  have h := reflects_run hc calls
  have hread : ∀ u, (c.run calls).find? (CacheKey.of text resource) = some u →
      ∃ other, Call.get text other ∈ calls ∧
        Template.parse registry other text = .ok u.template ∧
        (resource = other ∨ resource = none ∧ other = some "None".toList ∨
          resource = some "None".toList ∧ other = none) := by
    intro u hu
    obtain ⟨text', other, hcall, hkey, hparse⟩ := h.read _ (mem_of_find?_eq_some hu)
    obtain ⟨rfl, hname⟩ := CacheKey.of_eq_of_iff.1 hkey
    rw [map_fst_transcript] at hcall
    exact ⟨other, hcall, hparse, hname⟩
  rcases (c.run calls).get_cases text resource with
    ⟨u, hf, hg⟩ | ⟨t, -, hp, hg⟩ | ⟨e, -, hp, hg⟩
  · obtain ⟨other, hcall, hparse, hname⟩ := hread u hf
    obtain ⟨hother, hsame⟩ := Template.parse_resource hparse resource
    refine ⟨fun e he => by simp [he] at hsame, fun t ht => ⟨_, u, hg, ?_⟩⟩
    have htu : t = ⟨u.template.lines, resource⟩ := by simpa [ht] using hsame
    subst htu
    rcases hname with rfl | hname
    · exact .inl (by rw [← hother])
    · exact .inr ⟨other, hcall, by rw [← hother], hname⟩
  · rw [h.registry_eq] at hp
    refine ⟨fun e he => by simp [he] at hp, fun t' ht => ⟨_, _, hg, .inl ?_⟩⟩
    simpa [ht] using hp.symm
  · rw [h.registry_eq] at hp
    refine ⟨fun e' he => ?_, fun t ht => by simp [ht] at hp⟩
    have heq : e' = e := by simpa [he] using hp
    rw [hg, heq]

theorem get_run_eq_parse_threeTexts :
    ofCapacity? 2 .standard = some roomForTwo ∧
      ∃ d u, (roomForTwo.run Call.threeTexts).get "SELECT 1".toList (some "a.sql".toList) =
          .ok (d, u) ∧
        Template.parse .standard (some "a.sql".toList) "SELECT 1".toList = .ok u.template := by
  have hc : ofCapacity? 2 .standard = some roomForTwo := rfl
  obtain ⟨t, ht⟩ : ∃ t, Template.parse .standard (some "a.sql".toList) "SELECT 1".toList = .ok t :=
    ⟨_, by with_unfolding_all rfl⟩
  obtain ⟨d, u, hg, hu⟩ := (get_run_eq_parse hc Call.threeTexts _ _).2 t ht
  refine ⟨hc, d, u, hg, ?_⟩
  rcases hu with rfl | ⟨_, _, _, ⟨hname, _⟩ | ⟨hname, _⟩⟩
  · exact ht
  · cases hname
  · exact absurd hname (by decide)

/-- A template that was read without a name is returned for the name `None`. -/
theorem get_run_nameless :
    ¬ ∀ (calls : List Call) (text : Text) (resource : Option Text) (d : Cache) (u : Cached),
      (roomForTwo.run calls).get text resource = .ok (d, u) →
        Template.parse .standard resource text = .ok u.template := by
  intro h
  have hg : ∃ d u, (roomForTwo.run [.get "SELECT 1".toList none]).get "SELECT 1".toList
      (some "None".toList) = .ok (d, u) ∧ u.template.resource = none :=
    ⟨_, _, by with_unfolding_all rfl, rfl⟩
  obtain ⟨d, u, hget, hnone⟩ := hg
  have hsome := (Template.parse_resource (h _ _ _ d u hget) none).1
  rw [hnone] at hsome
  cases hsome

end Cache

end SqlTemplate
