import Mathlib.Data.List.Rotate
import Mathlib.Algebra.BigOperators.Group.List.Basic
import Mathlib.Tactic.Abel

/-!
# The last values and their running sum

A program that needs the sum of the last `n` values it was given keeps them in `n` slots, writes
the next one over the oldest, and corrects the sum by the difference instead of adding all slots
up again.  The slots start at `0`.

`Holds r l` says that the window `r` stands for the values `l`, the newest first.  `Holds.push`
is the step, and `Holds.sum_eq` is what it is for: the running sum is that of the last `n` values.
-/

namespace HaPanel

variable {α : Type*} [AddCommGroup α] {n : ℕ}

/-- A window over the last `n` values. -/
structure Window (α : Type*) [AddCommGroup α] (n : ℕ) where
  /-- The values, in the order of the slots. -/
  slots : List α
  /-- The slot with the oldest value, which the next one goes to. -/
  position : ℕ
  /-- The running sum. -/
  sum : α
  length_slots : slots.length = n
  position_lt : position < n
  sum_slots : sum = slots.sum

namespace Window

theorem sum_replicate_zero (k : ℕ) : (List.replicate k (0 : α)).sum = 0 := by
  rw [List.sum_replicate, nsmul_zero]

/-- The window before the first value. -/
def empty (α : Type*) [AddCommGroup α] (n : ℕ) (hn : 0 < n) : Window α n where
  slots := List.replicate n 0
  position := 0
  sum := 0
  length_slots := List.length_replicate
  position_lt := hn
  sum_slots := (sum_replicate_zero n).symm

/-- The value that the next one takes the place of. -/
def oldest (r : Window α n) : α :=
  r.slots.get ⟨r.position, r.length_slots.symm ▸ r.position_lt⟩

/-- The slots before and after the oldest one. -/
theorem slots_eq (r : Window α n) :
    r.slots = r.slots.take r.position ++ r.oldest :: r.slots.drop (r.position + 1) := by
  have hlt : r.position < r.slots.length := r.length_slots.symm ▸ r.position_lt
  conv_lhs => rw [← List.take_append_drop r.position r.slots, List.drop_eq_getElem_cons hlt]
  rfl

theorem length_take_position (r : Window α n) : (r.slots.take r.position).length = r.position := by
  rw [List.length_take, r.length_slots]
  exact Nat.min_eq_left r.position_lt.le

theorem set_slots (r : Window α n) (x : α) :
    r.slots.set r.position x = r.slots.take r.position ++ x :: r.slots.drop (r.position + 1) := by
  rw [List.set_eq_take_append_cons_drop, if_pos (r.length_slots.symm ▸ r.position_lt)]

theorem sum_set (r : Window α n) (x : α) :
    r.sum - r.oldest + x = (r.slots.set r.position x).sum := by
  rw [set_slots, r.sum_slots]
  conv_lhs => rw [r.slots_eq]
  simp only [List.sum_append, List.sum_cons]
  abel

/-- The next value: it takes the oldest one's place in the slots and in the sum. -/
def push (r : Window α n) (x : α) : Window α n where
  slots := r.slots.set r.position x
  position := (r.position + 1) % n
  sum := r.sum - r.oldest + x
  length_slots := List.length_set.trans r.length_slots
  position_lt := Nat.mod_lt _ (Nat.zero_lt_of_lt r.position_lt)
  sum_slots := r.sum_set x

/-- The values in the window, the oldest first. -/
def content (r : Window α n) : List α := r.slots.rotate r.position

theorem content_eq (r : Window α n) :
    r.content = r.oldest :: (r.slots.drop (r.position + 1) ++ r.slots.take r.position) := by
  have hrotate := List.rotate_append_length_eq (r.slots.take r.position)
    (r.oldest :: r.slots.drop (r.position + 1))
  rw [← r.slots_eq, r.length_take_position] at hrotate
  rw [content, hrotate, List.cons_append]

/-- A new value drops the oldest one and comes last. -/
theorem content_push (r : Window α n) (x : α) : (r.push x).content = r.content.tail ++ [x] := by
  have hrotate := List.rotate_append_length_eq (r.slots.take r.position ++ [x])
    (r.slots.drop (r.position + 1))
  rw [List.append_assoc, List.singleton_append, ← r.set_slots, List.length_append,
    r.length_take_position, List.length_singleton] at hrotate
  have hmod := List.rotate_mod (r.slots.set r.position x) (r.position + 1)
  rw [List.length_set, r.length_slots] at hmod
  rw [content, push, hmod, hrotate, content_eq, List.tail_cons, List.append_assoc]

theorem sum_content (r : Window α n) : r.content.sum = r.sum := by
  rw [r.sum_slots]
  exact (List.rotate_perm r.slots r.position).sum_eq

/-- The window stands for the values `l`, the newest first: it has the last `n` of them, and `0`
for those that are missing. -/
def Holds (r : Window α n) (l : List α) : Prop :=
  r.content.reverse = (l ++ List.replicate n 0).take n

theorem holds_empty (hn : 0 < n) : (empty α n hn).Holds [] := by
  rw [Holds, content, empty, List.rotate_zero, List.reverse_replicate, List.nil_append,
    List.take_of_length_le (List.length_replicate).le]

variable {r : Window α n} {l : List α}

theorem Holds.push (h : r.Holds l) (x : α) : (r.push x).Holds (x :: l) := by
  obtain ⟨m, rfl⟩ : ∃ m, n = m + 1 := Nat.exists_eq_add_one.mpr (Nat.zero_lt_of_lt r.position_lt)
  -- The newest values without the oldest one are the first `m`.
  have htail : r.content.tail.reverse = (l ++ List.replicate (m + 1) 0).take m := by
    rw [← List.dropLast_reverse, h, List.dropLast_eq_take, List.take_take, List.length_take]
    simp
  rw [Holds, content_push, List.reverse_append, List.reverse_singleton, List.singleton_append,
    htail, List.cons_append, List.take_succ_cons]

/-- The running sum is the sum of the last `n` values. -/
theorem Holds.sum_eq (h : r.Holds l) : r.sum = (l.take n).sum := by
  have hsum : r.content.reverse.sum = r.sum := by
    rw [← r.sum_content]
    exact (List.reverse_perm r.content).sum_eq
  rw [← hsum, h, List.take_append, List.sum_append, List.take_replicate, sum_replicate_zero,
    add_zero]

end Window

end HaPanel
