import Mathlib.Data.List.Basic
import Mathlib.Tactic.Ring

/-!
# Cells in a strided memory

A memory has an element at every address, and `store` writes some elements one after another.  A
`Raster` places cells of a fixed width in it, side by side in rows, with the rows `stride` addresses
apart.  Cells do not overlap (`Raster.eq_of_cell_add_eq`), so storing a row of cells changes these
cells and nothing else (`Raster.read_storeRow`, `Raster.storeRow_of_outside`).
-/

namespace HaPanel

variable {α : Type*}

/-! ### Memory -/

/-- Write the elements from the address on. -/
def store (mem : ℕ → α) (addr : ℕ) (data : List α) : ℕ → α :=
  fun i => if addr ≤ i then (data[i - addr]?).getD (mem i) else mem i

section

variable {mem : ℕ → α} {addr i j : ℕ} {data : List α}

theorem store_of_lt (h : i < addr) : store mem addr data i = mem i :=
  if_neg (Nat.not_le.mpr h)

theorem store_of_le (h : addr + data.length ≤ i) : store mem addr data i = mem i := by
  have hnone : data[i - addr]? = none := List.getElem?_eq_none (by omega)
  rw [store, if_pos (by omega), hnone, Option.getD_none]

theorem store_add (h : j < data.length) : store mem addr data (addr + j) = data[j] := by
  rw [store, if_pos (Nat.le_add_right _ _), Nat.add_sub_cancel_left, List.getElem?_eq_getElem h,
    Option.getD_some]

theorem store_nil : store mem addr [] = mem := by
  funext i
  simp [store]

/-- Data can be written in two parts. -/
theorem store_append (more : List α) :
    store mem addr (data ++ more) = store (store mem addr data) (addr + data.length) more := by
  funext i
  rcases Nat.lt_or_ge i (addr + data.length) with hlt | hle
  · rw [store_of_lt hlt]
    unfold store
    split_ifs
    · rw [List.getElem?_append_left (by omega)]
    · rfl
  · unfold store
    rw [if_pos (by omega), if_pos hle, List.getElem?_append_right (by omega),
      List.getElem?_eq_none (by omega : data.length ≤ i - addr), Option.getD_none, ite_self,
      Nat.sub_sub]

end

/-! ### Cells -/

/-- A grid of cells, with rows that do not overlap. -/
structure Raster where
  base : ℕ
  /-- The length of a cell. -/
  width : ℕ
  /-- The cells in a row. -/
  cols : ℕ
  /-- The distance between two rows. -/
  stride : ℕ
  fits : cols * width ≤ stride

namespace Raster

variable (L : Raster) {mem : ℕ → α} {x y x' y' i j j' : ℕ}

/-- Where a cell begins. -/
def cell (x y : ℕ) : ℕ := L.base + x * L.width + y * L.stride

/-- The content of a cell. -/
def read (mem : ℕ → α) (x y : ℕ) : List α := (List.range L.width).map fun j => mem (L.cell x y + j)

/-- The address belongs to no cell in the first `rows` rows. -/
def Outside (rows i : ℕ) : Prop :=
  ∀ x y j, x < L.cols → y < rows → j < L.width → i ≠ L.cell x y + j

/-- Store cells side by side, the first one at `x`. -/
def storeRow (mem : ℕ → α) (x y : ℕ) (cells : List (List α)) : ℕ → α :=
  store mem (L.cell x y) cells.flatten

theorem offset_lt (hx : x < L.cols) (hj : j < L.width) : x * L.width + j < L.stride := by
  have hcols : (x + 1) * L.width ≤ L.cols * L.width := Nat.mul_le_mul_right _ hx
  have hfits := L.fits
  rw [Nat.add_mul, Nat.one_mul] at hcols
  omega

/-- **Cells do not overlap.** -/
theorem eq_of_cell_add_eq (hx : x < L.cols) (hx' : x' < L.cols) (hj : j < L.width)
    (hj' : j' < L.width) (h : L.cell x y + j = L.cell x' y' + j') : x = x' ∧ y = y' ∧ j = j' := by
  have hlt := L.offset_lt hx hj
  have hlt' := L.offset_lt hx' hj'
  have hsum : x * L.width + j + y * L.stride = x' * L.width + j' + y' * L.stride := by
    unfold cell at h
    omega
  have hmod := congrArg (· % L.stride) hsum
  have hdiv := congrArg (· / L.stride) hsum
  simp only [Nat.add_mul_mod_self_right, Nat.mod_eq_of_lt hlt, Nat.mod_eq_of_lt hlt'] at hmod
  simp only [Nat.add_mul_div_right _ _ (Nat.zero_lt_of_lt hlt), Nat.div_eq_of_lt hlt,
    Nat.div_eq_of_lt hlt', Nat.zero_add] at hdiv
  -- the same argument once more, inside the row
  have hmod' := congrArg (· % L.width) hmod
  simp only [Nat.mul_add_mod', Nat.mod_eq_of_lt hj, Nat.mod_eq_of_lt hj'] at hmod'
  rw [hmod'] at hmod
  exact ⟨Nat.eq_of_mul_eq_mul_right (Nat.zero_lt_of_lt hj') (by omega), hdiv, hmod'⟩

/-! ### Storing cells -/

section

variable {cell : List α}

theorem read_storeCell (hcell : cell.length = L.width) (hx : x < L.cols) (hx' : x' < L.cols) :
    L.read (store mem (L.cell x y) cell) x' y' =
      if x' = x ∧ y' = y then cell else L.read mem x' y' := by
  split_ifs with hsame
  · obtain ⟨rfl, rfl⟩ := hsame
    refine List.ext_getElem (by simp [read, hcell]) fun j hj hj' => ?_
    simp only [read, List.getElem_map, List.getElem_range]
    exact store_add hj'
  · refine List.map_congr_left fun j hj => ?_
    have hj := List.mem_range.mp hj
    rcases Nat.lt_or_ge (L.cell x' y' + j) (L.cell x y) with hlt | hge
    · exact store_of_lt hlt
    · rcases Nat.lt_or_ge (L.cell x' y' + j) (L.cell x y + cell.length) with hlt | hle
      · have hsum : L.cell x' y' + j = L.cell x y + (L.cell x' y' + j - L.cell x y) := by omega
        obtain ⟨rfl, rfl, -⟩ := L.eq_of_cell_add_eq hx' hx hj (by omega) hsum
        exact absurd ⟨rfl, rfl⟩ hsame
      · exact store_of_le hle

theorem storeCell_of_outside {rows : ℕ} (hcell : cell.length = L.width) (hx : x < L.cols)
    (hy : y < rows) (hi : L.Outside rows i) : store mem (L.cell x y) cell i = mem i := by
  rcases Nat.lt_or_ge i (L.cell x y) with hlt | hge
  · exact store_of_lt hlt
  · rcases Nat.lt_or_ge i (L.cell x y + cell.length) with hlt | hle
    · exact absurd (by omega) (hi x y (i - L.cell x y) hx hy (by omega))
    · exact store_of_le hle

end

section

variable {cells : List (List α)}

theorem storeRow_cons {c : List α} (hc : c.length = L.width) :
    L.storeRow mem x y (c :: cells) = L.storeRow (store mem (L.cell x y) c) (x + 1) y cells := by
  have hnext : L.cell x y + c.length = L.cell (x + 1) y := by
    rw [hc, cell, cell]
    ring
  rw [storeRow, List.flatten_cons, store_append, hnext, storeRow]

/-- **A row of cells is stored**, and the other cells are as before. -/
theorem read_storeRow (hcells : ∀ c ∈ cells, c.length = L.width) (hx : x + cells.length ≤ L.cols)
    (hx' : x' < L.cols) :
    L.read (L.storeRow mem x y cells) x' y' =
      if y' = y ∧ x ≤ x' then (cells[x' - x]?).getD (L.read mem x' y') else L.read mem x' y' := by
  induction cells generalizing mem x with
  | nil => simp [storeRow, store_nil]
  | cons c cells ih =>
    have hc := hcells c List.mem_cons_self
    rw [List.length_cons] at hx
    rw [storeRow_cons L hc, ih (fun d hd => hcells d (List.mem_cons_of_mem _ hd)) (by omega),
      L.read_storeCell hc (by omega) hx']
    by_cases hy : y' = y
    · rcases Nat.lt_trichotomy x' x with hlt | rfl | hgt
      · simp [Nat.not_le.mpr hlt, Nat.not_le.mpr (Nat.lt_succ_of_lt hlt), Nat.ne_of_lt hlt]
      · simp [hy]
      · obtain ⟨k, rfl⟩ := Nat.exists_eq_add_of_lt hgt
        simp [hy, show x + k + 1 - x = k + 1 by omega, show x + k + 1 - (x + 1) = k by omega,
          show x ≤ x + k + 1 by omega, show ¬ x + k + 1 = x by omega]
    · simp [hy]

/-- Nothing but cells is written. -/
theorem storeRow_of_outside {rows : ℕ} (hcells : ∀ c ∈ cells, c.length = L.width)
    (hx : x + cells.length ≤ L.cols) (hy : y < rows) (hi : L.Outside rows i) :
    L.storeRow mem x y cells i = mem i := by
  induction cells generalizing mem x with
  | nil => rw [storeRow, List.flatten_nil, store_nil]
  | cons c cells ih =>
    have hc := hcells c List.mem_cons_self
    rw [List.length_cons] at hx
    rw [storeRow_cons L hc, ih (fun d hd => hcells d (List.mem_cons_of_mem _ hd)) (by omega),
      L.storeCell_of_outside hc (by omega) hy hi]

end

end Raster

end HaPanel
