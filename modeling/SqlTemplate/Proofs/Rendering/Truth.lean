import SqlTemplate.Rendering.Marks
import SqlTemplate.Value.Basic

/-!
# Truth values

Comparisons may come out unknown, as those with null values do, so there are three truth values. A
test of membership in a list of values joins the comparisons with each of them
(`Marks.Membership.truth`), and the parts of a list may be tested one by one.
-/

namespace SqlTemplate

/-- The truth values of a statement. -/
inductive Truth where
  | no
  | unknown
  | yes
deriving DecidableEq, Repr

namespace Truth

def not : Truth → Truth
  | no => yes
  | unknown => unknown
  | yes => no

def or : Truth → Truth → Truth
  | yes, _ => yes
  | _, yes => yes
  | no, no => no
  | _, _ => unknown

def and : Truth → Truth → Truth
  | no, _ => no
  | _, no => no
  | yes, yes => yes
  | _, _ => unknown

def any (ts : List Truth) : Truth := ts.foldr or no

def all (ts : List Truth) : Truth := ts.foldr and yes

theorem or_assoc (a b c : Truth) : (a.or b).or c = a.or (b.or c) := by
  cases a <;> cases b <;> cases c <;> rfl

theorem and_assoc (a b c : Truth) : (a.and b).and c = a.and (b.and c) := by
  cases a <;> cases b <;> cases c <;> rfl

theorem no_or (a : Truth) : no.or a = a := by cases a <;> rfl

theorem yes_and (a : Truth) : yes.and a = a := by cases a <;> rfl

theorem or_eq_yes_iff {a b : Truth} : a.or b = yes ↔ a = yes ∨ b = yes := by
  cases a <;> cases b <;> decide

theorem and_eq_yes_iff {a b : Truth} : a.and b = yes ↔ a = yes ∧ b = yes := by
  cases a <;> cases b <;> decide

theorem not_eq_yes_iff {a : Truth} : a.not = yes ↔ a = no := by cases a <;> decide

theorem any_append (ts us : List Truth) : any (ts ++ us) = (any ts).or (any us) := by
  induction ts with
  | nil => exact (no_or _).symm
  | cons t ts ih => exact (congrArg t.or ih).trans (or_assoc t (any ts) (any us)).symm

theorem all_append (ts us : List Truth) : all (ts ++ us) = (all ts).and (all us) := by
  induction ts with
  | nil => exact (yes_and _).symm
  | cons t ts ih => exact (congrArg t.and ih).trans (and_assoc t (all ts) (all us)).symm

theorem any_eq_yes_iff {ts : List Truth} : any ts = yes ↔ yes ∈ ts := by
  induction ts with
  | nil => simp [any]
  | cons t ts ih =>
    rw [any, List.foldr_cons, or_eq_yes_iff, ← any, ih, List.mem_cons, eq_comm]

theorem all_eq_yes_iff {ts : List Truth} : all ts = yes ↔ ∀ t ∈ ts, t = yes := by
  induction ts with
  | nil => simp [all]
  | cons t ts ih =>
    rw [all, List.foldr_cons, and_eq_yes_iff, ← all, ih, List.forall_mem_cons]

end Truth

namespace Marks

/-- The truth of a test of membership: whether `x` is the same as one of the values, or differs from
all of them. -/
def Membership.truth (m : Membership) (same : Value → Value → Truth) (x : Value)
    (values : List Value) : Truth :=
  match m with
  | isIn => .any (values.map (same x))
  | isNotIn => .all (values.map fun v => (same x v).not)

/-- What joins the truth values of the parts of a test. -/
def Membership.join : Membership → List Truth → Truth
  | isIn => .any
  | isNotIn => .all

namespace Membership

variable {same : Value → Value → Truth} {x : Value} {values : List Value}

theorem truth_isIn_eq_yes_iff :
    truth isIn same x values = .yes ↔ ∃ v ∈ values, same x v = .yes := by
  rw [truth, Truth.any_eq_yes_iff, List.mem_map]

theorem truth_isNotIn_eq_yes_iff :
    truth isNotIn same x values = .yes ↔ ∀ v ∈ values, same x v = .no := by
  rw [truth, Truth.all_eq_yes_iff, List.forall_mem_map]
  simp only [Truth.not_eq_yes_iff]

/-- A list may be tested part by part. -/
theorem truth_append (m : Membership) (us vs : List Value) (ts : List Truth)
    (h : m.join ts = m.truth same x vs) :
    m.join (m.truth same x us :: ts) = m.truth same x (us ++ vs) := by
  cases m with
  | isIn =>
    have happend := Truth.any_append (us.map (same x)) (vs.map (same x))
    rw [← List.map_append] at happend
    exact (congrArg (Truth.or _) h).trans happend.symm
  | isNotIn =>
    have happend := Truth.all_append (us.map fun v => (same x v).not) (vs.map fun v => (same x v).not)
    rw [← List.map_append] at happend
    exact (congrArg (Truth.and _) h).trans happend.symm

end Membership

end Marks

end SqlTemplate
