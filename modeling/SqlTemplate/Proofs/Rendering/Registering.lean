import SqlTemplate.Proofs.Rendering.Filled
import SqlTemplate.Proofs.Value.Regular

/-!
# Registering negative values

Whether a value is negative is decided by the single values that are met in it, when sequences and
cells of tables are descended into (`Value.Reaches`), and each of those by whether it is registered. So
it does not matter in which order and in how many steps values are registered, and what is negative
stays negative (`extend_extend`). But values are registered as they are given: a sequence or a cell
that is registered is never met itself, and it is negative only if the single values in it are
(`isNegative_extend_mem_iff`).
-/

namespace SqlTemplate

namespace Value

/-- Whether a value is neither a sequence nor a cell. -/
def isSingle : Value → Bool
  | sequence .. | range .. | cell .. => false
  | _ => true

/-- The single values that are met when sequences and cells are descended into. -/
inductive Reaches : Value → Value → Prop
  | self {v : Value} (h : v.isSingle = true) : Reaches v v
  | element {v w x : Value} {items : List Value} (hitems : v.items? = some items) (hw : w ∈ items)
      (hx : Reaches w x) : Reaches v x
  | cell (type : CellType) {v x : Value} (hx : Reaches v x) : Reaches (cell type v) x

theorem items?_eq_none_of_isSingle {v : Value} (h : v.isSingle = true) : v.items? = none := by
  cases v <;> simp_all [isSingle, items?]

/-- A single value is met in itself alone. -/
theorem reaches_iff_of_isSingle {v w : Value} (h : v.isSingle = true) : v.Reaches w ↔ w = v := by
  constructor
  · rintro (_ | ⟨hitems, -, -⟩ | _)
    · rfl
    · rw [items?_eq_none_of_isSingle h] at hitems
      cases hitems
    · cases h
  · rintro rfl
    exact .self h

theorem Reaches.isSingle {v w : Value} (h : v.Reaches w) : w.isSingle = true := by
  induction h with
  | self h => exact h
  | element _ _ _ ih => exact ih
  | cell _ _ ih => exact ih

theorem isSingle_of_same {v w : Value} (h : v.same w = true) (hw : w.isSingle = true) :
    v.isSingle = true := by
  cases v <;> cases w <;> simp_all [same, sameType, isSingle]

end Value

namespace Negatives

variable {n m : Negatives} {v w : Value} {vs : List Value}

theorem isNegative_of_isSingle (n : Negatives) (h : v.isSingle = true) :
    n.isNegative v = n.contains v := by
  cases v with
  | sequence | range | cell => cases h
  | _ => rfl

theorem isNegative_of_items? (n : Negatives) {items : List Value} (h : v.items? = some items) :
    n.isNegative v = items.all n.isNegative := by
  cases v with
  | sequence form elements =>
    obtain rfl := Option.some.inj h
    exact n.allNegative_eq_all elements
  | range start stop step =>
    obtain rfl := Option.some.inj h
    rw [List.all_map]
    rfl
  | _ => cases h

/-- What is met in a negative value is registered. -/
theorem contains_of_reaches (hw : v.Reaches w) (h : n.isNegative v = true) :
    n.contains w = true := by
  induction hw with
  | self hsingle => rwa [← n.isNegative_of_isSingle hsingle]
  | element hitems hx _ ih =>
    rw [n.isNegative_of_items? hitems] at h
    exact ih (List.all_eq_true.1 h _ hx)
  | cell type _ ih => exact ih h

mutual

theorem isNegative_of_forall_reaches :
    (v : Value) → (∀ w, v.Reaches w → n.contains w = true) → n.isNegative v = true
  | .sequence form items, h =>
    allNegative_of_forall_reaches items fun _ hv w hw => h w (.element rfl hv hw)
  | .range start stop step, h => by
    rw [n.isNegative_of_items? rfl, List.all_eq_true]
    intro w hw
    obtain ⟨i, -, rfl⟩ := List.mem_map.1 hw
    exact h _ (.element rfl hw (.self rfl))
  | .cell type v, h => isNegative_of_forall_reaches v fun w hw => h w (.cell type hw)
  | .null, h | .bool _, h | .int _, h | .float _, h | .text _, h | .bytes _, h
  | .dictionary _, h => h _ (.self rfl)

theorem allNegative_of_forall_reaches :
    (vs : List Value) → (∀ v ∈ vs, ∀ w, v.Reaches w → n.contains w = true) →
      n.allNegative vs = true
  | [], _ => rfl
  | v :: vs, h => by
    obtain ⟨hv, hvs⟩ := List.forall_mem_cons.1 h
    rw [allNegative, isNegative_of_forall_reaches v hv, allNegative_of_forall_reaches vs hvs]
    rfl

end

/-- A value is negative if all single values that are met in it are registered. -/
theorem isNegative_iff_forall_reaches (n : Negatives) (v : Value) :
    n.isNegative v = true ↔ ∀ w, v.Reaches w → n.contains w = true :=
  ⟨fun h _ hw => contains_of_reaches hw h, isNegative_of_forall_reaches v⟩

/-! ### What is registered -/

theorem among_append (vs ws : List Value) (v : Value) :
    among (vs ++ ws) v = (among vs v || among ws v) := List.any_append

/-- What is the same as a default value need not be registered. -/
theorem among_defaults_of_same (h : among defaults v = true) (hsame : v.same w = true) :
    among defaults w = true := by
  obtain ⟨d, hd, hv⟩ := List.any_eq_true.1 h
  refine List.any_eq_true.2 ⟨d, hd, ?_⟩
  rcases List.mem_pair.1 hd with rfl | rfl
  · obtain rfl := (Value.same_null v).1 hv
    exact hsame
  · obtain rfl := (Value.same_bool false v).1 hv
    exact hsame

theorem contains_ofValues (vs : List Value) (w : Value) :
    (ofValues vs).contains w = (among defaults w || among vs w) := by
  have hsplit : (ofValues vs).contains w =
      (among defaults w || among (vs.filter fun v => !among defaults v) w) :=
    among_append _ _ _
  rw [hsplit]
  cases hdefault : among defaults w with
  | true => rfl
  | false =>
    rw [Bool.false_or, Bool.false_or, among, among, List.any_filter]
    refine List.any_congr rfl fun v => ?_
    cases hsame : v.same w with
    | false => exact Bool.and_false _
    | true =>
      have hv : among defaults v = false := by
        by_contra hv
        rw [Bool.not_eq_false] at hv
        exact absurd (among_defaults_of_same hv hsame) (Bool.eq_false_iff.1 hdefault)
      rw [hv]
      rfl

/-- Extending negative values adds what is given. -/
theorem contains_extend (n : Negatives) (more : List Value) (w : Value) :
    (n.extend more).contains w = (n.contains w || among more w) := by
  have hvalues : n.contains w = (among defaults w || among n.extra w) := among_append _ _ _
  rw [extend, contains_ofValues, among_append, hvalues, Bool.or_assoc]

theorem isNegative_congr (h : ∀ w, n.contains w = m.contains w) (v : Value) :
    n.isNegative v = m.isNegative v := by
  rw [Bool.eq_iff_iff, isNegative_iff_forall_reaches, isNegative_iff_forall_reaches]
  simp only [h]

/-- The same values are negative however values are registered: in two steps, at once, in the other
order, or together with those there were before. What was negative before stays so. A value is negative
just if no single value that is met in it, through sequences and cells at any depth, is not negative,
and those are compared with what is registered. -/
theorem extend_extend :
    (∀ (base a b : List Value) (v : Value),
      (((ofValues base).extend a).extend b).isNegative v =
          ((ofValues base).extend (a ++ b)).isNegative v ∧
        ((ofValues base).extend (b ++ a)).isNegative v =
          ((ofValues base).extend (a ++ b)).isNegative v ∧
        (ofValues (base ++ a ++ b)).isNegative v =
          ((ofValues base).extend (a ++ b)).isNegative v) ∧
    (∀ (n : Negatives) (more : List Value) (v : Value),
      n.isNegative v = true → (n.extend more).isNegative v = true) ∧
    ∀ (n : Negatives) (v : Value),
      (n.isNegative v = true ↔ ¬ ∃ w, v.Reaches w ∧ n.isNegative w = false) ∧
        ∀ w, v.Reaches w → n.isNegative w = n.contains w := by
  refine ⟨fun base a b v => ⟨?_, ?_, ?_⟩, fun n more v h => ?_, fun n v => ?_⟩
  · refine isNegative_congr (fun w => ?_) v
    simp only [contains_extend, among_append, Bool.or_assoc]
  · refine isNegative_congr (fun w => ?_) v
    simp only [contains_extend, among_append, Bool.or_comm (among b w)]
  · refine isNegative_congr (fun w => ?_) v
    simp only [contains_extend, contains_ofValues, among_append, Bool.or_assoc]
  · rw [isNegative_iff_forall_reaches] at h ⊢
    intro w hw
    rw [contains_extend, h w hw, Bool.true_or]
  · have hmet : ∀ w, v.Reaches w → n.isNegative w = n.contains w := fun w hw =>
      n.isNegative_of_isSingle hw.isSingle
    refine ⟨?_, hmet⟩
    rw [isNegative_iff_forall_reaches]
    simp only [not_exists, not_and, Bool.not_eq_false]
    exact forall₂_congr fun w hw => by rw [hmet w hw]

/-- Every single value that is met in a value is negative already or the same as one of the given
values, which is a single value as well. -/
def Covers (n : Negatives) (vs : List Value) (v : Value) : Prop :=
  ∀ w, v.Reaches w → n.contains w = true ∨ ∃ u ∈ vs, u.isSingle = true ∧ u.same w = true

theorem isNegative_extend_iff_covers (n : Negatives) (vs : List Value) (v : Value) :
    (n.extend vs).isNegative v = true ↔ n.Covers vs v := by
  rw [isNegative_iff_forall_reaches]
  refine forall₂_congr fun w hw => ?_
  rw [contains_extend, Bool.or_eq_true, among, List.any_eq_true]
  refine or_congr_right (exists_congr fun u => and_congr_right fun _ => ?_)
  exact (and_iff_right_of_imp fun hsame => Value.isSingle_of_same hsame hw.isSingle).symm

/-- A single value is the same as itself, so it is covered where it is given. -/
theorem covers_of_isSingle (n : Negatives) (hv : v ∈ vs) (hsingle : v.isSingle = true)
    (hregular : v.Regular) : n.Covers vs v := by
  intro w hw
  obtain rfl := (Value.reaches_iff_of_isSingle hsingle).1 hw
  exact .inr ⟨w, hv, hsingle, hregular.same_self⟩

end Negatives

/-- A parameter is absent for a test of its presence just if its value is negative. -/
theorem Reference.evaluate_presence_eq_drop_iff {s : Scope} {d : Directive} {key : Text} :
    presence.evaluate s d key false = .ok (.drop false) ↔
      s.renderer.negatives.isNegative (s.parameters.get key) = true := by
  cases h : s.renderer.negatives.isNegative (s.parameters.get key) with
  | true => exact iff_of_true (evaluate_of_absent false h) rfl
  | false =>
    rw [evaluate_presence_of_present h]
    refine iff_of_false (fun hdrop => ?_) Bool.false_ne_true
    cases congrArg Contribution.keepsLine (Except.ok.inj hdrop)

namespace Negatives

variable {v : Value} {vs : List Value}

/-- A value that is registered is negative if it is a single one. A sequence or a cell is negative just
if the single values that are met in it are, be it that they were before or that they are registered
themselves; that it is registered itself makes no difference. So is a parameter with this value absent
for a renderer for which the values are registered. -/
theorem isNegative_extend_mem_iff (hv : v ∈ vs) (hregular : v.Regular) :
    (∀ n : Negatives, (v.isSingle = true → (n.extend vs).isNegative v = true) ∧
      ((n.extend vs).isNegative v = true ↔ n.Covers vs v)) ∧
    ((v.isSingle = true → (ofValues vs).isNegative v = true) ∧
      ((ofValues vs).isNegative v = true ↔ none.Covers vs v)) ∧
    ∀ (r : Renderer) (resource : Option Text) (p : Parameters) (d : Directive) (key : Text),
      p.get key = v →
      (Reference.presence.evaluate ⟨r.withNegatives vs, resource, p⟩ d key false =
        .ok (.drop false) ↔ r.negatives.Covers vs v) := by
  have hextend (n : Negatives) : (v.isSingle = true → (n.extend vs).isNegative v = true) ∧
      ((n.extend vs).isNegative v = true ↔ n.Covers vs v) := by
    rw [isNegative_extend_iff_covers]
    exact ⟨fun hsingle => n.covers_of_isSingle hv hsingle hregular, Iff.rfl⟩
  refine ⟨hextend, hextend none, fun r resource p d key hkey => ?_⟩
  rw [Reference.evaluate_presence_eq_drop_iff, hkey]
  exact (hextend r.negatives).2

/-- A list of two values one of which is registered beside it. -/
theorem isNegative_extend_mem_iff_list :
    let v : Value := .sequence .list [.cell .int64 (.int 0), .null]
    let vs : List Value := [v, .int 0]
    v ∈ vs ∧ v.Regular ∧ (none.extend vs).isNegative v = true ∧ none.Covers vs v := by
  intro v vs
  have hv : v ∈ vs := List.mem_cons_self
  have hregular : v.Regular := by
    refine .sequence _ fun w hw => ?_
    rcases List.mem_pair.1 hw with rfl | rfl
    · exact .cell _ (.int 0)
    · exact .null
  have hnegative : (none.extend vs).isNegative v = true := by decide
  exact ⟨hv, hregular, hnegative, ((isNegative_extend_mem_iff hv hregular).1 none).2.1 hnegative⟩

/-- Neither a cell nor a list is negative because it is registered. -/
theorem not_isNegative_registered :
    let cell : Value := .cell .string (.text (.ofText ['-']))
    let list : Value := .sequence .list [.int 1, .int 2]
    cell.Regular ∧ (ofValues [cell]).isNegative cell = false ∧
      list.Regular ∧ (ofValues [list]).isNegative list = false := by
  intro cell list
  refine ⟨.cell _ (.text _), by decide, .sequence _ fun w hw => ?_, by decide⟩
  rcases List.mem_pair.1 hw with rfl | rfl
  · exact .int 1
  · exact .int 2

end Negatives

end SqlTemplate
