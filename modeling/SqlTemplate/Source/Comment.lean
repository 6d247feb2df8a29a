import SqlTemplate.Text.LineEnd

/-!
# Block comments

Comments between `/*` and `*/` may be nested. `Comment.close?` reads the body of a comment after its
opening up to the closing that belongs to it. Where there is none, `Comment.openLines` lists the
lines of the comments that are still open at the end of the text, the innermost one first.
-/

namespace SqlTemplate

namespace Comment

/-- The body of the comment that is open where the text begins, inside of which `depth` further
comments are open, and what follows its closing. -/
def close? : Nat → Text → Option (Text × Text)
  | _, [] => none
  | 0, '*' :: '/' :: t => some ([], t)
  | depth + 1, '*' :: '/' :: t => (close? depth t).map fun (b, r) => ('*' :: '/' :: b, r)
  | depth, '/' :: '*' :: t => (close? (depth + 1) t).map fun (b, r) => ('/' :: '*' :: b, r)
  | depth, c :: t => (close? depth t).map fun (b, r) => (c :: b, r)

/-- The lines of the comments that are open at the end of a text, the innermost one first, if
comments on the lines `stack` are open where it begins on line `line`. -/
def openLines : List Nat → Nat → Text → List Nat
  | stack, _, [] => stack
  | stack, line, '*' :: '/' :: t => openLines (stack.drop 1) line t
  | stack, line, '/' :: '*' :: t => openLines (line :: stack) line t
  | stack, line, '\r' :: '\n' :: t => openLines stack (line + 1) t
  | stack, line, c :: t => openLines stack (if isLineBreak c then line + 1 else line) t

/-- A body, its closing and what follows are the text. -/
theorem append_of_close? {depth : Nat} {t body rest : Text}
    (h : close? depth t = some (body, rest)) : t = body ++ '*' :: '/' :: rest := by
  fun_induction close? depth t generalizing body rest with
  | case1 => simp at h
  | case2 => simp_all
  | case3 depth t ih =>
    obtain ⟨⟨b, r⟩, hb, he⟩ := Option.map_eq_some_iff.1 h
    obtain ⟨rfl, rfl⟩ := Prod.mk.inj he
    simp [ih hb]
  | case4 depth t ih =>
    obtain ⟨⟨b, r⟩, hb, he⟩ := Option.map_eq_some_iff.1 h
    obtain ⟨rfl, rfl⟩ := Prod.mk.inj he
    simp [ih hb]
  | case5 depth c t _ _ _ ih =>
    obtain ⟨⟨b, r⟩, hb, he⟩ := Option.map_eq_some_iff.1 h
    obtain ⟨rfl, rfl⟩ := Prod.mk.inj he
    simp [ih hb]

end Comment

end SqlTemplate
