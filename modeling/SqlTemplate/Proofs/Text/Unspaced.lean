import SqlTemplate.Text.Blank

/-!
# Texts without their blanks

`unspaced` deletes the blanks of a text. Stripping, and anything else that only takes blanks away or
adds them, is invisible to it.
-/

namespace SqlTemplate

/-- A text with all blanks deleted. -/
def unspaced (t : Text) : Text := t.filter fun c => !isBlank c

@[simp] theorem unspaced_nil : unspaced [] = [] := rfl

theorem unspaced_cons (c : Char) (t : Text) :
    unspaced (c :: t) = if isBlank c then unspaced t else c :: unspaced t := by
  rw [unspaced, List.filter_cons]
  cases isBlank c <;> rfl

theorem unspaced_space_cons (t : Text) : unspaced (' ' :: t) = unspaced t := by
  rw [unspaced_cons, if_pos (by decide)]

@[simp] theorem unspaced_append (s t : Text) : unspaced (s ++ t) = unspaced s ++ unspaced t :=
  List.filter_append ..

theorem unspaced_reverse (t : Text) : unspaced t.reverse = (unspaced t).reverse :=
  List.filter_reverse ..

theorem unspaced_eq_nil_iff {t : Text} : unspaced t = [] ↔ isBlankText t = true := by
  simp [unspaced, isBlankText, List.filter_eq_nil_iff]

theorem unspaced_flatMap {α : Type} (f : α → Text) (as : List α) :
    unspaced (as.flatMap f) = as.flatMap fun a => unspaced (f a) :=
  List.filter_flatMap ..

theorem unspaced_stripStart (t : Text) : unspaced (stripStart t) = unspaced t := by
  induction t with
  | nil => rfl
  | cons c t ih =>
      rw [stripStart_cons, unspaced_cons]
      split
      · exact ih
      · rename_i hc
        rw [unspaced_cons, if_neg hc]

theorem unspaced_stripEnd (t : Text) : unspaced (stripEnd t) = unspaced t := by
  rw [stripEnd, unspaced_reverse, unspaced_stripStart, unspaced_reverse, List.reverse_reverse]

theorem unspaced_strip (t : Text) : unspaced (strip t) = unspaced t := by
  rw [strip, unspaced_stripEnd, unspaced_stripStart]

end SqlTemplate
