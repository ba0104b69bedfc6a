import Mathlib.Data.List.Nodup
import Mathlib.Logic.Function.Basic

/-!
# Who holds what

Parties take resources that are free and give them back.  A `Ledger` says who holds a resource, and
every party keeps an account of its own, a list, in its local variables.  `Balanced g a` says that
all the accounts are right: what is in the account of a party is what the ledger says it holds, and
nothing is in an account twice.

A party that takes a free resource or gives one back that is in its account keeps the balance
(`Balanced.take`, `Balanced.giveBack`), whatever the accounts of the others are; so if every step of
every party does only this, no party ever gives back what another one holds (`Balanced.held`).
-/

namespace HaPanel

namespace Transition

/-- Who holds a resource, if it is not free. -/
abbrev Ledger (ρ ι : Type*) := ρ → Option ι

variable {ρ ι : Type*} [DecidableEq ρ] [DecidableEq ι]

namespace Ledger

def take (g : Ledger ρ ι) (i : ι) (r : ρ) : Ledger ρ ι := Function.update g r (some i)

def takeAll (g : Ledger ρ ι) (i : ι) (rs : List ρ) : Ledger ρ ι :=
  rs.foldr (fun r g => g.take i r) g

def giveBack (g : Ledger ρ ι) (r : ρ) : Ledger ρ ι := Function.update g r none

omit [DecidableEq ι] in
theorem take_apply (g : Ledger ρ ι) (i : ι) (r q : ρ) :
    g.take i r q = if q = r then some i else g q := Function.update_apply g r (some i) q

omit [DecidableEq ι] in
theorem takeAll_of_notMem (g : Ledger ρ ι) (i : ι) {rs : List ρ} {q : ρ} (hq : q ∉ rs) :
    g.takeAll i rs q = g q := by
  induction rs with
  | nil => rfl
  | cons r rs ih =>
    obtain ⟨hne, hrs⟩ := List.ne_and_not_mem_of_not_mem_cons hq
    rw [takeAll, List.foldr_cons, take_apply, if_neg hne]
    exact ih hrs

omit [DecidableEq ι] in
theorem giveBack_apply (g : Ledger ρ ι) (r q : ρ) :
    g.giveBack r q = if q = r then none else g q := Function.update_apply g r none q

end Ledger

/-- The accounts of all parties are right. -/
structure Balanced (g : Ledger ρ ι) (a : ι → List ρ) : Prop where
  mem_iff : ∀ i r, r ∈ a i ↔ g r = some i
  nodup : ∀ i, (a i).Nodup

namespace Balanced

variable {g : Ledger ρ ι} {a : ι → List ρ} {i j : ι} {r : ρ}

omit [DecidableEq ρ] [DecidableEq ι] in
theorem held (h : Balanced g a) (hr : r ∈ a i) : g r = some i := (h.mem_iff i r).mp hr

omit [DecidableEq ρ] in
/-- The order in an account does not matter. -/
theorem perm (h : Balanced g a) {l : List ρ} (hl : l.Perm (a i)) :
    Balanced g (Function.update a i l) where
  mem_iff j r := by
    rw [Function.update_apply]
    split_ifs with hj
    · rw [hl.mem_iff, h.mem_iff, hj]
    · exact h.mem_iff j r
  nodup j := by
    rw [Function.update_apply]
    split_ifs with hj
    · exact hl.nodup_iff.mpr (h.nodup i)
    · exact h.nodup j

/-- A party takes a free resource. -/
theorem take (h : Balanced g a) (hr : g r = none) :
    Balanced (g.take i r) (Function.update a i (r :: a i)) where
  mem_iff j q := by
    rw [Function.update_apply, Ledger.take_apply]
    split_ifs with hj hq hq
    · simp [hq, hj]
    · rw [List.mem_cons, or_iff_right hq, h.mem_iff, hj]
    · have hfree : q ∉ a j := by rw [h.mem_iff, hq, hr]; simp
      simp [hfree, Ne.symm hj]
    · exact h.mem_iff j q
  nodup j := by
    rw [Function.update_apply]
    split_ifs with hj
    · have hfree : r ∉ a i := by rw [h.mem_iff, hr]; simp
      exact List.nodup_cons.mpr ⟨hfree, h.nodup i⟩
    · exact h.nodup j

/-- A party takes several resources. -/
theorem takeAll (h : Balanced g a) {rs : List ρ} (hfree : ∀ r ∈ rs, g r = none)
    (hrs : rs.Nodup) : Balanced (g.takeAll i rs) (Function.update a i (rs ++ a i)) := by
  induction rs with
  | nil => simpa [Ledger.takeAll] using h
  | cons r rs ih =>
    obtain ⟨hr, hnodup⟩ := List.nodup_cons.mp hrs
    have hrest := ih (fun q hq => hfree q (List.mem_cons_of_mem r hq)) hnodup
    have htaken := hrest.take (i := i) (r := r) (by
      rw [Ledger.takeAll_of_notMem g i hr]
      exact hfree r (List.mem_cons_self ..))
    rw [Function.update_idem, Function.update_self] at htaken
    exact htaken

/-- A party gives back a resource of its account. -/
theorem giveBack (h : Balanced g a) {l : List ρ} (hl : (r :: l).Perm (a i)) :
    Balanced (g.giveBack r) (Function.update a i l) := by
  have hr : g r = some i := h.held (hl.mem_iff.mp (List.mem_cons_self ..))
  have hnodup : r ∉ l ∧ l.Nodup := List.nodup_cons.mp (hl.nodup_iff.mpr (h.nodup i))
  refine ⟨fun j q => ?_, fun j => ?_⟩
  · rw [Function.update_apply, Ledger.giveBack_apply]
    split_ifs with hj hq hq
    · simp [hq, hnodup.1]
    · have hmem : q ∈ l ↔ q ∈ r :: l := by rw [List.mem_cons, or_iff_right hq]
      rw [hmem, hl.mem_iff, h.mem_iff, hj]
    · have hother : q ∉ a j := by
        rw [h.mem_iff, hq, hr]
        exact fun hi => hj (Option.some.inj hi).symm
      simp [hother]
    · exact h.mem_iff j q
  · rw [Function.update_apply]
    split_ifs with hj
    · exact hnodup.2
    · exact h.nodup j

end Balanced

end Transition

end HaPanel
