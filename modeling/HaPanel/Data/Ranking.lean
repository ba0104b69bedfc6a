import Mathlib.Data.List.Sort
import Mathlib.Data.List.DropRight

/-!
# The best entry for each key

A program that keeps one entry for each key, and replaces it only by one of higher rank, ends up
with a best entry for every key (`isBest_foldl_enter`).  Which entries these are depends on what
was entered and not on the order, except among entries of equal key and rank
(`IsBest.perm_key_rank`).
-/

namespace HaPanel

namespace Ranking

variable {α κ ρ : Type*} [DecidableEq κ] [LinearOrder ρ] (key : α → κ) (rank : α → ρ)

/-- Enter `a`: it replaces the entry with its key if it ranks higher. -/
def enter : List α → α → List α
  | [], a => [a]
  | b :: best, a =>
    if key b = key a then (if rank b < rank a then a :: best else b :: best)
    else b :: enter best a

/-- `best` has for each key in `l` one of the entries of highest rank, and no other entries. -/
structure IsBest (l best : List α) : Prop where
  nodup : (best.map key).Nodup
  keys : ∀ a ∈ l, key a ∈ best.map key
  mem : ∀ b ∈ best, b ∈ l
  highest : ∀ b ∈ best, ∀ a ∈ l, key a = key b → rank a ≤ rank b

/-- The list has the entries of `l`, and those of higher rank come first. -/
structure IsRanked (l r : List α) : Prop where
  perm : r.Perm l
  sorted : r.Pairwise fun a b => rank b ≤ rank a

variable {key rank} {l l' best r r' : List α} {a : α}

/-! ### Entering -/

theorem map_key_enter (best : List α) (a : α) :
    (enter key rank best a).map key =
      if key a ∈ best.map key then best.map key else best.map key ++ [key a] := by
  induction best with
  | nil => simp [enter]
  | cons b best ih =>
    by_cases hkey : key b = key a
    · by_cases hrank : rank b < rank a
      · simp [enter, hkey, hrank]
      · simp [enter, hkey, hrank]
    · rw [enter, if_neg hkey, List.map_cons, ih]
      by_cases hmem : key a ∈ best.map key
      · rw [if_pos hmem, if_pos (by rw [List.map_cons]; exact List.mem_cons_of_mem _ hmem),
          List.map_cons]
      · have hmem' : key a ∉ (b :: best).map key := by
          rw [List.map_cons, List.mem_cons, not_or]
          exact ⟨fun h => hkey h.symm, hmem⟩
        rw [if_neg hmem, if_neg hmem', List.map_cons, List.cons_append]

theorem nodup_map_key_enter (h : (best.map key).Nodup) (a : α) :
    ((enter key rank best a).map key).Nodup := by
  rw [map_key_enter]
  split_ifs with hmem
  · exact h
  · rw [List.nodup_append]
    refine ⟨h, List.nodup_singleton _, ?_⟩
    intro k hk k' hk' heq
    rw [List.mem_singleton.1 hk'] at heq
    exact hmem (heq ▸ hk)

/-- The entries after entering: the new one if it replaces one of its key or there was none, and
the old ones, without one that it replaces. -/
theorem mem_enter {b : α} (hnodup : (best.map key).Nodup) (h : b ∈ enter key rank best a) :
    (b = a ∧ ∀ c ∈ best, key c = key a → rank c < rank a) ∨
      (b ∈ best ∧ (key b = key a → rank a ≤ rank b)) := by
  induction best with
  | nil =>
    rw [enter, List.mem_singleton] at h
    exact .inl ⟨h, by simp⟩
  | cons c best ih =>
    obtain ⟨hc, hnodup⟩ := List.nodup_cons.1 hnodup
    by_cases hkey : key c = key a
    · -- the key occurs here and nowhere else
      have hother : ∀ d ∈ best, key d ≠ key a := by
        intro d hd heq
        exact hc (hkey.trans heq.symm ▸ List.mem_map_of_mem hd)
      by_cases hrank : rank c < rank a
      · rw [enter, if_pos hkey, if_pos hrank, List.mem_cons] at h
        rcases h with rfl | h
        · refine .inl ⟨rfl, ?_⟩
          rw [List.forall_mem_cons]
          exact ⟨fun _ => hrank, fun d hd heq => absurd heq (hother d hd)⟩
        · exact .inr ⟨List.mem_cons_of_mem _ h, fun heq => absurd heq (hother b h)⟩
      · rw [enter, if_pos hkey, if_neg hrank, List.mem_cons] at h
        rcases h with rfl | h
        · exact .inr ⟨List.mem_cons_self, fun _ => not_lt.1 hrank⟩
        · exact .inr ⟨List.mem_cons_of_mem _ h, fun heq => absurd heq (hother b h)⟩
    · rw [enter, if_neg hkey, List.mem_cons] at h
      rcases h with rfl | h
      · exact .inr ⟨List.mem_cons_self, fun heq => absurd heq hkey⟩
      · rcases ih hnodup h with ⟨rfl, hlow⟩ | ⟨hmem, hhigh⟩
        · refine .inl ⟨rfl, ?_⟩
          rw [List.forall_mem_cons]
          exact ⟨fun heq => absurd heq hkey, hlow⟩
        · exact .inr ⟨List.mem_cons_of_mem _ hmem, hhigh⟩

omit [DecidableEq κ] in
theorem IsBest.nil : IsBest key rank [] [] := ⟨List.nodup_nil, by simp, by simp, by simp⟩

/-- **Entering keeps the best entries.** -/
theorem IsBest.enter (h : IsBest key rank l best) (a : α) :
    IsBest key rank (l ++ [a]) (enter key rank best a) := by
  refine ⟨nodup_map_key_enter h.nodup a, ?_, ?_, ?_⟩
  · rw [List.forall_mem_append, List.forall_mem_singleton, map_key_enter]
    split_ifs with hmem
    · exact ⟨h.keys, hmem⟩
    · exact ⟨fun c hc => List.mem_append_left _ (h.keys c hc), by simp⟩
  · intro b hb
    rcases mem_enter h.nodup hb with ⟨rfl, -⟩ | ⟨hmem, -⟩
    · exact List.mem_append_right _ (List.mem_singleton_self _)
    · exact List.mem_append_left _ (h.mem b hmem)
  · intro b hb
    rw [List.forall_mem_append, List.forall_mem_singleton]
    rcases mem_enter h.nodup hb with ⟨rfl, hlow⟩ | ⟨hmem, hhigh⟩
    · -- the entries before were below the one that `b` replaces
      refine ⟨?_, fun _ => le_refl _⟩
      intro c hc hkey
      obtain ⟨d, hd, hdkey⟩ := List.mem_map.1 (h.keys c hc)
      exact (h.highest d hd c hc hdkey.symm).trans (hlow d hd (hdkey.trans hkey)).le
    · exact ⟨h.highest b hmem, fun heq => hhigh heq.symm⟩

/-- **Entering everything** finds the best entries. -/
theorem isBest_foldl_enter (l : List α) :
    IsBest key rank l (l.foldl (Ranking.enter key rank) []) := by
  induction l using List.reverseRecOn with
  | nil => exact .nil
  | append_singleton l a ih =>
    rw [List.foldl_concat]
    exact ih.enter a

/-! ### The order of entering -/

section

omit [DecidableEq κ]

/-- Leaving out keys. -/
theorem IsBest.filter (h : IsBest key rank l best) (p : κ → Bool) :
    IsBest key rank (l.filter fun a => p (key a)) (best.filter fun a => p (key a)) := by
  refine ⟨h.nodup.sublist (List.filter_sublist.map key), ?_, ?_, ?_⟩
  · intro a ha
    obtain ⟨hmem, hp⟩ := List.mem_filter.1 ha
    obtain ⟨b, hb, hkey⟩ := List.mem_map.1 (h.keys a hmem)
    exact List.mem_map.2 ⟨b, List.mem_filter.2 ⟨hb, hkey ▸ hp⟩, hkey⟩
  · intro b hb
    obtain ⟨hmem, hp⟩ := List.mem_filter.1 hb
    exact List.mem_filter.2 ⟨h.mem b hmem, hp⟩
  · intro b hb a ha
    exact h.highest b (List.mem_of_mem_filter hb) a (List.mem_of_mem_filter ha)

/-- Neither the order of the entries nor that of the best ones matters. -/
theorem IsBest.perm (h : IsBest key rank l best) (hl : l'.Perm l) (hr : r.Perm best) :
    IsBest key rank l' r where
  nodup := (hr.map key).nodup_iff.2 h.nodup
  keys a ha := (hr.map key).mem_iff.2 (h.keys a (hl.mem_iff.1 ha))
  mem b hb := hl.mem_iff.2 (h.mem b (hr.mem_iff.1 hb))
  highest b hb a ha := h.highest b (hr.mem_iff.1 hb) a (hl.mem_iff.1 ha)

/-- Two best entries for a key have the same rank. -/
theorem IsBest.exists_same (h : IsBest key rank l r) (h' : IsBest key rank l r') {b : α}
    (hb : b ∈ r) : ∃ b' ∈ r', key b' = key b ∧ rank b' = rank b := by
  have hmem := h.mem b hb
  obtain ⟨b', hb', hkey⟩ := List.mem_map.1 (h'.keys b hmem)
  have hle := h.highest b hb b' (h'.mem b' hb') hkey
  exact ⟨b', hb', hkey, hle.antisymm (h'.highest b' hb' b hmem hkey.symm)⟩

/-- **The keys with their ranks** are determined. -/
theorem IsBest.perm_key_rank (h : IsBest key rank l r) (h' : IsBest key rank l r') :
    (r.map fun a => (key a, rank a)).Perm (r'.map fun a => (key a, rank a)) := by
  have hnodup : ∀ {r : List α}, (r.map key).Nodup → (r.map fun a => (key a, rank a)).Nodup := by
    intro r hr
    refine .of_map Prod.fst ?_
    rwa [List.map_map]
  have hsub : ∀ {r r' : List α}, IsBest key rank l r → IsBest key rank l r' →
      ∀ x, x ∈ r.map (fun a => (key a, rank a)) → x ∈ r'.map fun a => (key a, rank a) := by
    intro r r' h h' x hx
    obtain ⟨b, hb, rfl⟩ := List.mem_map.1 hx
    obtain ⟨b', hb', hkey, hrank⟩ := h.exists_same h' hb
    exact List.mem_map.2 ⟨b', hb', by rw [hkey, hrank]⟩
  rw [List.perm_ext_iff_of_nodup (hnodup h.nodup) (hnodup h'.nodup)]
  exact fun x => ⟨hsub h h' x, hsub h' h x⟩

/-- Without ties the entries are determined. -/
theorem IsBest.perm_of_injective (h : IsBest key rank l r) (h' : IsBest key rank l r')
    (hrank : ∀ a ∈ l, ∀ b ∈ l, rank a = rank b → a = b) : r.Perm r' := by
  have hsub : ∀ {r r' : List α}, IsBest key rank l r → IsBest key rank l r' → r ⊆ r' := by
    intro r r' h h' b hb
    obtain ⟨b', hb', -, heq⟩ := h.exists_same h' hb
    rwa [← hrank b' (h'.mem b' hb') b (h.mem b hb) heq]
  rw [List.perm_ext_iff_of_nodup (.of_map key h.nodup) (.of_map key h'.nodup)]
  exact fun b => ⟨fun hb => hsub h h' hb, fun hb => hsub h' h hb⟩

/-- The ranks of a ranked list are determined. -/
theorem map_rank_eq (hperm : (r.map rank).Perm (r'.map rank))
    (h : r.Pairwise fun a b => rank b ≤ rank a) (h' : r'.Pairwise fun a b => rank b ≤ rank a) :
    r.map rank = r'.map rank := by
  have hsorted : (r.map rank).Pairwise fun a b => b ≤ a := List.pairwise_map.2 h
  have hsorted' : (r'.map rank).Pairwise fun a b => b ≤ a := List.pairwise_map.2 h'
  refine hperm.eq_of_pairwise ?_ hsorted hsorted'
  exact fun a b _ _ hle hge => hge.antisymm hle

/-- Without ties the list is determined. -/
theorem eq_of_perm_of_injective (hperm : r.Perm r')
    (hrank : ∀ a ∈ r, ∀ b ∈ r', rank a = rank b → a = b)
    (h : r.Pairwise fun a b => rank b ≤ rank a) (h' : r'.Pairwise fun a b => rank b ≤ rank a) :
    r = r' := by
  refine hperm.eq_of_pairwise ?_ h h'
  intro a b ha hb hle hge
  exact hrank a ha b hb (hge.antisymm hle)

/-- Every list can be ranked. -/
theorem exists_isRanked (rank : α → ρ) (l : List α) : ∃ r, IsRanked rank l r := by
  have htrans : ∀ a b c : α, decide (rank b ≤ rank a) = true → decide (rank c ≤ rank b) = true →
      decide (rank c ≤ rank a) = true := by
    intro a b c hab hbc
    exact decide_eq_true ((of_decide_eq_true hbc).trans (of_decide_eq_true hab))
  have htotal : ∀ a b : α, (decide (rank b ≤ rank a) || decide (rank a ≤ rank b)) = true := by
    intro a b
    rw [Bool.or_eq_true, decide_eq_true_iff, decide_eq_true_iff]
    exact le_total _ _
  refine ⟨l.mergeSort fun a b => rank b ≤ rank a, List.mergeSort_perm _ _, ?_⟩
  exact (List.pairwise_mergeSort htrans htotal l).imp fun h => of_decide_eq_true h

end

end Ranking

end HaPanel
