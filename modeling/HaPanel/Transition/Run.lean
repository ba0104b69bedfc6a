import Mathlib.Data.List.Basic

/-!
# Runs of a transition function

A component that takes step after step is a function `next : σ → α → σ`; a step that is not enabled
leaves the state as it is.  `run next s l` is the state after the steps `l`, and `Along next P s l`
says that every step of the run is taken in a state where `P` allows it.

* `run_invariant` : what every step keeps holds after every run.
* `Along.invariant` : what every allowed step keeps holds after every allowed run.
* `along_congr` : two conditions allow the same runs if they agree under an invariant;
  `along_congr_of` : among the runs that a third one allows.
* `run_iff_exists_step` : what only certain steps bring about holds after a run with such a step.
-/

namespace HaPanel

namespace Transition

variable {σ α : Type*} (next : σ → α → σ)

/-- The state after the steps `l`. -/
def run (s : σ) (l : List α) : σ := l.foldl next s

/-- Every step of the run from `s` is taken in a state where `P` allows it. -/
def Along (P : σ → α → Prop) : σ → List α → Prop
  | _, [] => True
  | s, a :: l => P s a ∧ Along P (next s a) l

variable {next}

theorem run_cons (s : σ) (a : α) (l : List α) :
    run next s (a :: l) = run next (next s a) l := rfl

theorem run_append (s : σ) (l m : List α) : run next s (l ++ m) = run next (run next s l) m :=
  List.foldl_append

theorem run_invariant {I : σ → Prop} (hnext : ∀ s a, I s → I (next s a)) {s : σ} (h : I s)
    (l : List α) : I (run next s l) := by
  induction l generalizing s with
  | nil => exact h
  | cons a l ih => exact ih (hnext s a h)

variable {P : σ → α → Prop}

instance decidableAlong [∀ s a, Decidable (P s a)] :
    ∀ (s : σ) (l : List α), Decidable (Along next P s l)
  | _, [] => .isTrue trivial
  | s, a :: l =>
    have := decidableAlong (next s a) l
    inferInstanceAs (Decidable (P s a ∧ Along next P (next s a) l))

theorem Along.invariant {I : σ → Prop} (hnext : ∀ s a, I s → P s a → I (next s a)) {s : σ}
    (h : I s) {l : List α} (hl : Along next P s l) : I (run next s l) := by
  induction l generalizing s with
  | nil => exact h
  | cons a l ih => exact ih (hnext s a h hl.1) hl.2

theorem along_congr {I : σ → Prop} {Q : σ → α → Prop} (hiff : ∀ s a, I s → (P s a ↔ Q s a))
    (hnext : ∀ s a, I s → P s a → I (next s a)) {s : σ} (h : I s) (l : List α) :
    Along next P s l ↔ Along next Q s l := by
  induction l generalizing s with
  | nil => exact Iff.rfl
  | cons a l ih =>
    constructor
    · rintro ⟨hP, hl⟩
      exact ⟨(hiff s a h).mp hP, (ih (hnext s a h hP)).mp hl⟩
    · rintro ⟨hQ, hl⟩
      have hP := (hiff s a h).mpr hQ
      exact ⟨hP, (ih (hnext s a h hP)).mpr hl⟩

theorem along_and {Q : σ → α → Prop} (s : σ) (l : List α) :
    Along next (fun s a => P s a ∧ Q s a) s l ↔ Along next P s l ∧ Along next Q s l := by
  induction l generalizing s with
  | nil => exact (and_self_iff (a := True)).symm
  | cons a l ih =>
    simp only [Along, ih]
    exact and_and_and_comm

theorem along_congr_of {I : σ → Prop} {C Q : σ → α → Prop}
    (hiff : ∀ s a, I s → C s a → (P s a ↔ Q s a))
    (hnext : ∀ s a, I s → C s a → P s a → I (next s a)) {s : σ} (h : I s) {l : List α}
    (hC : Along next C s l) : Along next P s l ↔ Along next Q s l := by
  have hboth : Along next (fun s a => C s a ∧ P s a) s l ↔
      Along next (fun s a => C s a ∧ Q s a) s l :=
    along_congr (I := I) (fun s a h => and_congr_right (hiff s a h))
      (fun s a h hP => hnext s a h hP.1 hP.2) h l
  rwa [along_and, along_and, and_iff_right hC, and_iff_right hC] at hboth

/-- What only the steps in `P` bring about holds after a run that has such a step. -/
theorem run_iff_exists_step {I Q : σ → Prop} (hI : ∀ s a, I s → I (next s a))
    (hnext : ∀ s a, I s → (Q (next s a) ↔ Q s ∨ P s a)) {s : σ} (h : I s) (l : List α) :
    Q (run next s l) ↔
      Q s ∨ ∃ before a rest, l = before ++ a :: rest ∧ P (run next s before) a := by
  induction l generalizing s with
  | nil => simp [run]
  | cons a l ih =>
    rw [run_cons, ih (hI s a h), hnext s a h, or_assoc]
    refine or_congr_right ?_
    constructor
    · rintro (hP | ⟨before, b, rest, rfl, hP⟩)
      · exact ⟨[], a, l, rfl, hP⟩
      · exact ⟨a :: before, b, rest, rfl, hP⟩
    · rintro ⟨before, b, rest, hl, hP⟩
      cases before with
      | nil =>
        obtain ⟨rfl, rfl⟩ := List.cons_eq_cons.mp hl
        exact .inl hP
      | cons c before =>
        obtain ⟨rfl, rfl⟩ := List.cons_eq_cons.mp hl
        exact .inr ⟨before, b, rest, rfl, hP⟩

end Transition

end HaPanel
