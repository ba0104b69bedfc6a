import Mathlib.Data.Prod.Lex
import Mathlib.Data.Sum.Order
import Mathlib.Data.List.Lex
import Mathlib.Order.WithBot

/-!
# The precedence of versions

A version has three numbers and a list of pre-release identifiers, each a number or a word.  Its
precedence is a value of a linear order (`Precedence`): the numbers decide first, a version without
pre-release comes after its pre-releases, and these are compared identifier by identifier, numbers
before words.

Programs compare versions with three-valued functions.  `Decides` relates an answer of such a
function to two values of an order, and there is one lemma for each way in which the order of
versions is put together.  Nothing depends on what the numbers and words are.
-/

namespace HaPanel

namespace SemVer

/-! ### Three-valued comparison -/

section Decides

variable {α β : Type*} [LinearOrder α] [LinearOrder β]

/-- The answer says how the values stand to each other. -/
structure Decides (o : Ordering) (a b : α) : Prop where
  lt_iff : o = .lt ↔ a < b
  gt_iff : o = .gt ↔ b < a

variable {o o' : Ordering} {a b : α}

theorem Decides.eq_iff (h : Decides o a b) : o = .eq ↔ a = b := by
  have hlt := h.lt_iff
  have hgt := h.gt_iff
  constructor
  · rintro rfl
    simp only [reduceCtorEq, false_iff, not_lt] at hlt hgt
    exact le_antisymm hgt hlt
  · rintro rfl
    simp only [lt_self_iff_false, iff_false] at hlt hgt
    cases o with
    | lt => exact absurd rfl hlt
    | eq => rfl
    | gt => exact absurd rfl hgt

/-- There is one right answer, -/
theorem Decides.unique (h : Decides o a b) (h' : Decides o' a b) : o = o' := by
  cases o with
  | lt => exact (h'.lt_iff.2 (h.lt_iff.1 rfl)).symm
  | eq => exact (h'.eq_iff.2 (h.eq_iff.1 rfl)).symm
  | gt => exact (h'.gt_iff.2 (h.gt_iff.1 rfl)).symm

/-- it is reversed with the values, -/
theorem Decides.swap (h : Decides o a b) : Decides o.swap b a :=
  ⟨Ordering.swap_eq_lt.trans h.gt_iff, Ordering.swap_eq_gt.trans h.lt_iff⟩

theorem Decides.isLE_iff (h : Decides o a b) : o.isLE = true ↔ a ≤ b := by
  rw [← not_lt, ← h.gt_iff]
  cases o <;> decide

/-- and two answers give a third. -/
theorem Decides.trans {c : α} (h : Decides o a b) (h' : Decides o' b c) (hle : o.isLE = true)
    (hle' : o'.isLE = true) : Decides (o.then o') a c := by
  have hab := h.isLE_iff.1 hle
  have hbc := h'.isLE_iff.1 hle'
  cases o with
  | lt =>
    rw [Ordering.lt_then]
    exact ⟨iff_of_true rfl ((h.lt_iff.1 rfl).trans_le hbc),
      iff_of_false (by decide) (hab.trans hbc).not_gt⟩
  | eq =>
    rw [Ordering.eq_then, h.eq_iff.1 rfl]
    exact h'
  | gt => cases hle

theorem decides_compare (a b : α) : Decides (compare a b) a b :=
  ⟨compare_lt_iff_lt, compare_gt_iff_gt⟩

/-- Pairs are compared by their first components, and by the second ones if these agree. -/
theorem Decides.toLex (h : Decides o a b) {c d : β} (h' : Decides o' c d) :
    Decides (o.then o') (toLex (a, c)) (toLex (b, d)) := by
  constructor
  · rw [Ordering.then_eq_lt, Prod.Lex.toLex_lt_toLex, h.lt_iff, h.eq_iff, h'.lt_iff]
  · rw [Ordering.then_eq_gt, Prod.Lex.toLex_lt_toLex, h.gt_iff, h.eq_iff, h'.gt_iff,
      eq_comm (a := a)]

/-- Lists are compared element by element, -/
theorem Decides.cons (h : Decides o a b) {l m : List α} (h' : Decides o' l m) :
    Decides (o.then o') (a :: l) (b :: m) := by
  constructor
  · rw [Ordering.then_eq_lt, List.cons_lt_cons_iff, h.lt_iff, h.eq_iff, h'.lt_iff]
  · rw [Ordering.then_eq_gt, List.cons_lt_cons_iff, h.gt_iff, h.eq_iff, h'.gt_iff, eq_comm (a := a)]

theorem decides_of_lt (h : a < b) : Decides .lt a b :=
  ⟨iff_of_true rfl h, iff_of_false (by decide) h.not_gt⟩

theorem decides_of_gt (h : b < a) : Decides .gt a b :=
  ⟨iff_of_false (by decide) h.not_gt, iff_of_true rfl h⟩

theorem decides_eq (a : α) : Decides .eq a a :=
  ⟨iff_of_false (by decide) (lt_irrefl a), iff_of_false (by decide) (lt_irrefl a)⟩

/-- and the shorter list comes first. -/
theorem decides_nil_cons (b : α) (m : List α) : Decides .lt [] (b :: m) :=
  decides_of_lt (List.nil_lt_cons b m)

theorem decides_cons_nil (a : α) (l : List α) : Decides .gt (a :: l) [] :=
  decides_of_gt (List.nil_lt_cons a l)

theorem Decides.inl (h : Decides o a b) : Decides o (Sum.inlₗ a : α ⊕ₗ β) (Sum.inlₗ b) :=
  ⟨h.lt_iff.trans Sum.Lex.inl_lt_inl_iff.symm, h.gt_iff.trans Sum.Lex.inl_lt_inl_iff.symm⟩

theorem Decides.inr (h : Decides o a b) : Decides o (Sum.inrₗ a : β ⊕ₗ α) (Sum.inrₗ b) :=
  ⟨h.lt_iff.trans Sum.Lex.inr_lt_inr_iff.symm, h.gt_iff.trans Sum.Lex.inr_lt_inr_iff.symm⟩

theorem Decides.coe (h : Decides o a b) : Decides o (a : WithTop α) (b : WithTop α) :=
  ⟨h.lt_iff.trans WithTop.coe_lt_coe.symm, h.gt_iff.trans WithTop.coe_lt_coe.symm⟩

end Decides

/-! ### Versions -/

/-- A version whose numbers are in `N` and whose words are in `W`. -/
structure Version (N W : Type*) where
  major : N
  minor : N
  patch : N
  prerelease : List (N ⊕ₗ W)

/-- Where versions stand in the order of releases. -/
abbrev Precedence (N W : Type*) := (N ×ₗ N ×ₗ N) ×ₗ WithTop (List (N ⊕ₗ W))

namespace Version

variable {N W : Type*}

/-- The rank of a pre-release: none comes last. -/
def stage : List (N ⊕ₗ W) → WithTop (List (N ⊕ₗ W))
  | [] => ⊤
  | i :: is => ↑(i :: is)

def precedence (v : Version N W) : Precedence N W :=
  toLex (toLex (v.major, toLex (v.minor, v.patch)), stage v.prerelease)

end Version

end SemVer

end HaPanel
