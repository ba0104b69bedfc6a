import Mathlib.Data.List.Nodup
import Mathlib.Data.List.Perm.Basic
import Mathlib.Data.List.Perm.Subperm

/-!
# Mailboxes with generations

An owner starts workers and takes their letters in the order they were posted.  A worker belongs to
the generation in which it was started, and its last letter is marked as final.  The owner may open
a new generation at any time, and a letter is stale when it is taken in another generation than its
own.

`Settled g m` says that the final letter of generation `g` is on its way in this generation, or was
taken in it.  Every operation keeps this, but opening a generation and throwing the letters away
only do when the letter is no longer on its way.
-/

namespace HaPanel

namespace Transition

structure Letter where
  generation : ℕ
  final : Bool
  deriving DecidableEq

structure Mailbox where
  generation : ℕ
  /-- The generations in which workers were started. -/
  started : List ℕ
  /-- The generations of the workers that have not posted their final letter. -/
  workers : List ℕ
  letters : List Letter
  /-- The letters taken, each with the generation it was taken in. -/
  taken : List (Letter × ℕ)

namespace Mailbox

variable (m : Mailbox)

/-! ### Operations -/

def advance : Mailbox := { m with generation := m.generation + 1 }

def start : Mailbox :=
  { m with started := m.generation :: m.started, workers := m.workers ++ [m.generation] }

/-- A worker posts a letter that is not its last. -/
def post (g : ℕ) : Mailbox := { m with letters := m.letters ++ [⟨g, false⟩] }

/-- The worker `i`, of generation `g`, posts its final letter. -/
def finish (i g : ℕ) : Mailbox :=
  { m with workers := m.workers.eraseIdx i, letters := m.letters ++ [⟨g, true⟩] }

def take : Mailbox :=
  match m.letters with
  | [] => m
  | l :: rest => { m with letters := rest, taken := (l, m.generation) :: m.taken }

def discard : Mailbox := { m with letters := [] }

/-- The generations of the final letters in the box. -/
def finals : List ℕ := (m.letters.filter (·.final)).map (·.generation)

/-- The generations whose final letter has still to be taken. -/
def outstanding : List ℕ := m.workers ++ m.finals

variable {m} {g : ℕ}

theorem mem_outstanding_of_mem {l : Letter} (hl : l ∈ m.letters) (hfinal : l.final = true) :
    l.generation ∈ m.outstanding :=
  List.mem_append_right _ (List.mem_map_of_mem (List.mem_filter.mpr ⟨hl, hfinal⟩))

@[simp] theorem take_generation : m.take.generation = m.generation := by
  unfold take
  split <;> rfl

@[simp] theorem take_started : m.take.started = m.started := by
  unfold take
  split <;> rfl

@[simp] theorem take_workers : m.take.workers = m.workers := by
  unfold take
  split <;> rfl

theorem take_of_nil (hl : m.letters = []) : m.take = m := by simp only [take, hl]

theorem take_taken {l : Letter} {rest : List Letter} (hl : m.letters = l :: rest) :
    m.take.taken = (l, m.generation) :: m.taken := by simp only [take, hl]

theorem outstanding_take_sublist : m.take.outstanding.Sublist m.outstanding := by
  unfold take
  split
  · exact .refl _
  · rename_i l rest hl
    refine List.Sublist.append_left (List.Sublist.map _ ?_) _
    rw [hl]
    exact List.Sublist.filter _ (List.sublist_cons_self l rest)

theorem outstanding_discard_sublist : m.discard.outstanding.Sublist m.outstanding :=
  List.Sublist.append_left (List.nil_sublist _) _

theorem outstanding_post : (m.post g).outstanding = m.outstanding := by
  simp [outstanding, finals, post]

theorem outstanding_finish_perm {i : ℕ} (hi : m.workers[i]? = some g) :
    (m.finish i g).outstanding.Perm m.outstanding := by
  obtain ⟨hlt, rfl⟩ := List.getElem?_eq_some_iff.mp hi
  have hfinals : (m.finish i m.workers[i]).finals = m.finals ++ [m.workers[i]] := by
    simp [finals, finish]
  rw [outstanding, hfinals, ← List.append_assoc]
  calc (m.workers.eraseIdx i ++ m.finals ++ [m.workers[i]]).Perm
        (m.workers[i] :: (m.workers.eraseIdx i ++ m.finals)) := List.perm_append_singleton _ _
    _ |>.Perm m.outstanding := (List.getElem_cons_eraseIdx_perm hlt).append_right _

/-! ### Well-formed mailboxes -/

structure WF (m : Mailbox) : Prop where
  nodup : m.outstanding.Nodup
  known : ∀ g ∈ m.outstanding, g ∈ m.started
  answered : ∀ p ∈ m.taken, p.1.final = true → p.1.generation ∈ m.started

namespace WF

theorem advance (h : m.WF) : m.advance.WF := ⟨h.nodup, h.known, h.answered⟩

theorem start (h : m.WF) (hnew : m.generation ∉ m.started) : m.start.WF := by
  have hperm : m.start.outstanding.Perm (m.generation :: m.outstanding) := by
    rw [outstanding, Mailbox.start, List.append_assoc]
    exact List.perm_middle
  refine ⟨?_, ?_, ?_⟩
  · rw [hperm.nodup_iff]
    exact List.nodup_cons.mpr ⟨fun hmem => hnew (h.known _ hmem), h.nodup⟩
  · intro g hg
    rcases List.mem_cons.mp (hperm.mem_iff.mp hg) with rfl | hg
    · exact List.mem_cons_self
    · exact List.mem_cons_of_mem _ (h.known g hg)
  · exact fun p hp hfinal => List.mem_cons_of_mem _ (h.answered p hp hfinal)

theorem take (h : m.WF) : m.take.WF := by
  refine ⟨h.nodup.sublist outstanding_take_sublist, ?_, ?_⟩
  · intro g hg
    rw [take_started]
    exact h.known g (outstanding_take_sublist.subset hg)
  · rw [take_started]
    cases hl : m.letters with
    | nil =>
      rw [take_of_nil hl]
      exact h.answered
    | cons l rest =>
      rw [take_taken hl]
      intro p hp hfinal
      rcases List.mem_cons.mp hp with rfl | hp
      · exact h.known _ (mem_outstanding_of_mem (hl ▸ List.mem_cons_self) hfinal)
      · exact h.answered p hp hfinal

theorem discard (h : m.WF) : m.discard.WF :=
  ⟨h.nodup.sublist outstanding_discard_sublist,
    fun g hg => h.known g (outstanding_discard_sublist.subset hg), h.answered⟩

theorem post (h : m.WF) : (m.post g).WF := by
  refine ⟨?_, ?_, h.answered⟩
  · rw [outstanding_post]
    exact h.nodup
  · rw [outstanding_post]
    exact h.known

theorem finish (h : m.WF) {i : ℕ} (hi : m.workers[i]? = some g) : (m.finish i g).WF := by
  have hperm := outstanding_finish_perm hi
  exact ⟨hperm.nodup_iff.mpr h.nodup, fun g' hg' => h.known g' (hperm.mem_iff.mp hg'),
    h.answered⟩

end WF

/-! ### The final letter of a generation -/

/-- The final letter of generation `g` is on its way, and this is its generation. -/
structure Waiting (g : ℕ) (m : Mailbox) : Prop where
  current : m.generation = g
  outstanding : g ∈ m.outstanding
  untaken : ∀ p ∈ m.taken, p.1 ≠ ⟨g, true⟩

/-- The final letter of generation `g` was taken, and always in its generation. -/
structure Answered (g : ℕ) (m : Mailbox) : Prop where
  known : g ∈ m.started
  settled : g ∉ m.outstanding
  taken : (⟨g, true⟩, g) ∈ m.taken
  current : ∀ p ∈ m.taken, p.1 = ⟨g, true⟩ → p.2 = g

theorem WF.waiting_start (h : m.WF) (hnew : m.generation ∉ m.started) :
    Waiting m.generation m.start := by
  refine ⟨rfl, ?_, ?_⟩
  · simp [outstanding, Mailbox.start]
  · intro p hp he
    have hknown := h.answered p hp (by rw [he])
    rw [he] at hknown
    exact hnew hknown

/-- The generation of a final letter is not outstanding when the letter is taken. -/
theorem WF.notMem_outstanding_take (hwf : m.WF) {rest : List Letter}
    (hl : m.letters = ⟨g, true⟩ :: rest) : g ∉ m.take.outstanding := by
  have hnodup := hwf.nodup
  have htake : m.outstanding = m.workers ++ g :: m.take.finals := by
    simp [outstanding, finals, Mailbox.take, hl]
  rw [htake, List.nodup_middle, List.nodup_cons] at hnodup
  rw [outstanding, take_workers]
  exact hnodup.1

/-- The final letter is taken. -/
theorem Waiting.take_final (h : Waiting g m) (hwf : m.WF) {rest : List Letter}
    (hl : m.letters = ⟨g, true⟩ :: rest) : Answered g m.take := by
  refine ⟨?_, hwf.notMem_outstanding_take hl, ?_, ?_⟩
  · rw [take_started]
    exact hwf.known g h.outstanding
  · rw [take_taken hl, h.current]
    exact List.mem_cons_self
  · rw [take_taken hl]
    intro p hp he
    rcases List.mem_cons.mp hp with rfl | hp
    · exact h.current
    · exact absurd he (h.untaken p hp)

/-- Another letter is taken. -/
theorem Waiting.take_other (h : Waiting g m) {l : Letter} {rest : List Letter}
    (hl : m.letters = l :: rest) (hlg : l ≠ ⟨g, true⟩) : Waiting g m.take := by
  refine ⟨take_generation.trans h.current, ?_, ?_⟩
  · have hout := h.outstanding
    simp only [Mailbox.outstanding, finals, take, hl, List.mem_append, List.mem_map,
      List.mem_filter, List.mem_cons] at hout ⊢
    rcases hout with hw | ⟨l', ⟨rfl | hl', hfinal⟩, rfl⟩
    · exact .inl hw
    · exact absurd (by cases l'; cases hfinal; rfl) hlg
    · exact .inr ⟨l', ⟨hl', hfinal⟩, rfl⟩
  · rw [take_taken hl]
    intro p hp
    rcases List.mem_cons.mp hp with rfl | hp
    · exact hlg
    · exact h.untaken p hp

theorem Answered.take (h : Answered g m) : Answered g m.take := by
  cases hl : m.letters with
  | nil =>
    rw [take_of_nil hl]
    exact h
  | cons l rest =>
    refine ⟨?_, fun hmem => h.settled (outstanding_take_sublist.subset hmem), ?_, ?_⟩
    · rw [take_started]
      exact h.known
    · rw [take_taken hl]
      exact List.mem_cons_of_mem _ h.taken
    · rw [take_taken hl]
      intro p hp he
      rcases List.mem_cons.mp hp with rfl | hp
      · -- a second final letter of the generation would still be outstanding
        have hl' : (⟨g, true⟩ : Letter) ∈ m.letters := by
          rw [hl, ← he]
          exact List.mem_cons_self
        exact absurd (mem_outstanding_of_mem hl' rfl) h.settled
      · exact h.current p hp he

def Settled (g : ℕ) (m : Mailbox) : Prop := Waiting g m ∨ Answered g m

namespace Settled

/-- The letter is still on its way, or was taken in its generation and in no other. -/
theorem current (h : Settled g m) : ∀ p ∈ m.taken, p.1 = ⟨g, true⟩ → p.2 = g := by
  rcases h with h | h
  · exact fun p hp he => absurd he (h.untaken p hp)
  · exact h.current

theorem outstanding_or_taken (h : Settled g m) :
    g ∈ m.outstanding ∨ (⟨g, true⟩, g) ∈ m.taken := by
  rcases h with h | h
  · exact .inl h.outstanding
  · exact .inr h.taken

theorem advance (h : Settled g m) (hg : g ∉ m.outstanding) : Settled g m.advance := by
  rcases h with h | h
  · exact absurd h.outstanding hg
  · exact .inr ⟨h.known, h.settled, h.taken, h.current⟩

theorem discard (h : Settled g m) (hg : g ∉ m.outstanding) : Settled g m.discard := by
  rcases h with h | h
  · exact absurd h.outstanding hg
  · exact .inr ⟨h.known, fun hmem => hg (outstanding_discard_sublist.subset hmem), h.taken,
      h.current⟩

theorem start (h : Settled g m) (hwf : m.WF) (hnew : m.generation ∉ m.started) :
    Settled g m.start := by
  rcases h with h | h
  · -- a generation that is waited for has its worker
    exact absurd (hwf.known g h.outstanding) (h.current ▸ hnew)
  · refine .inr ⟨List.mem_cons_of_mem _ h.known, ?_, h.taken, h.current⟩
    intro hmem
    rw [outstanding, Mailbox.start, List.append_assoc, List.mem_append, List.singleton_append,
      List.mem_cons] at hmem
    rcases hmem with hw | rfl | hl
    · exact h.settled (List.mem_append_left _ hw)
    · exact hnew h.known
    · exact h.settled (List.mem_append_right _ hl)

theorem post (h : Settled g m) {g' : ℕ} : Settled g (m.post g') := by
  have hout : (m.post g').outstanding = m.outstanding := outstanding_post
  rcases h with h | h
  · exact .inl ⟨h.current, hout ▸ h.outstanding, h.untaken⟩
  · exact .inr ⟨h.known, hout ▸ h.settled, h.taken, h.current⟩

theorem finish (h : Settled g m) {i g' : ℕ} (hi : m.workers[i]? = some g') :
    Settled g (m.finish i g') := by
  have hmem : ∀ g, g ∈ (m.finish i g').outstanding ↔ g ∈ m.outstanding :=
    fun g => (outstanding_finish_perm hi).mem_iff
  rcases h with h | h
  · exact .inl ⟨h.current, (hmem g).mpr h.outstanding, h.untaken⟩
  · exact .inr ⟨h.known, fun hg => h.settled ((hmem g).mp hg), h.taken, h.current⟩

theorem take (h : Settled g m) (hwf : m.WF) : Settled g m.take := by
  rcases h with h | h
  · cases hl : m.letters with
    | nil =>
      rw [take_of_nil hl]
      exact .inl h
    | cons l rest =>
      by_cases hlg : l = ⟨g, true⟩
      · exact .inr (h.take_final hwf (hlg ▸ hl))
      · exact .inl (h.take_other hl hlg)
  · exact .inr h.take

/-- When a final letter is taken in its generation, no letter is waited for any more. -/
theorem notMem_of_take (h : Settled g m) (hwf : m.WF) {rest : List Letter}
    (hl : m.letters = ⟨m.generation, true⟩ :: rest) : g ∉ m.take.outstanding := by
  rcases h with h | h
  · exact hwf.notMem_outstanding_take (h.current ▸ hl)
  · exact fun hmem => h.settled (outstanding_take_sublist.subset hmem)

end Settled

end Mailbox

end Transition

end HaPanel
