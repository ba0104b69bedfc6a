import HaPanel.Data.Raster
import HaPanel.Text.Bytes
import HaPanel.Transition.Run

/-!
# The framebuffer

LVGL draws the screen in areas; `display_flush_cb` copies the pixels of an area into the memory of
the framebuffer, row by row, at the place that the mode of the display says.  The place is computed
in unsigned integers of 32 bits.

`flushes_show_last_color` : in a mode that holds the screen, after any flushes of areas on the screen
every pixel has the color of the last flush that covers it, no other byte of the memory has changed,
and the display has been panned once.
-/

namespace HaPanel

namespace Panel

open Text Transition

/-! ### The display -/

/-- `lv_color_t` with 32 bits, as it lies in memory. -/
structure Color where
  blue : UInt8
  green : UInt8
  red : UInt8
  alpha : UInt8
deriving DecidableEq

def Color.bytes (c : Color) : Bytes := [c.blue, c.green, c.red, c.alpha]

/-- What the driver says about the framebuffer: the fields of `vinfo` and `finfo` that are used. -/
structure ScreenInfo where
  bitsPerPixel : ℕ
  xoffset : ℕ
  yoffset : ℕ
  lineLength : ℕ
  smemLen : ℕ
deriving DecidableEq

/-- `lv_area_t` -/
structure Area where
  x1 : ℤ
  y1 : ℤ
  x2 : ℤ
  y2 : ℤ
deriving DecidableEq

/-- A call of `display_flush_cb`. -/
structure Flush where
  area : Area
  colors : List Color
  /-- `lv_disp_flush_is_last` -/
  last : Bool
  /-- `lv_tick_get` -/
  now : UInt32

/-- The variables of the display, and the memory it is mapped to. -/
structure Display where
  fb : ℕ → UInt8
  firstFlush : Bool := true
  /-- How often `display_flush_cb` has panned the display. -/
  pans : ℕ := 0
  fpsWindowStarted : UInt32 := 0
  fpsFrameCount : ℕ := 0
  measuredDisplayFps : ℕ := 0

/-! ### Flushing -/

def recordCompletedFrame (last : Bool) (now : UInt32) (d : Display) : Display :=
  if !last then d
  else
    let started := if d.fpsWindowStarted = 0 then now else d.fpsWindowStarted
    let count := d.fpsFrameCount + 1
    let elapsed := now - started
    if 1000 ≤ elapsed then
      { d with
        measuredDisplayFps := count * 1000 % 2 ^ 32 / elapsed.toNat
        fpsFrameCount := 0
        fpsWindowStarted := now }
    else { d with fpsFrameCount := count, fpsWindowStarted := started }

/-- Where the pixel is in memory, computed with 32 bits. -/
def ScreenInfo.location (screen : ScreenInfo) (x y : ℤ) : ℕ :=
  (((x + screen.xoffset) * (screen.bitsPerPixel / 8 : ℕ) +
    (y + screen.yoffset) * screen.lineLength) % 2 ^ 32).toNat

/-- The loop of `display_flush_cb` over the rows from `y` on. -/
def flushRows (screen : ScreenInfo) (x1 : ℤ) (rowPixels : ℕ) :
    ℕ → ℤ → List Color → (ℕ → UInt8) → (ℕ → UInt8)
  | 0, _, _, fb => fb
  | rows + 1, y, colors, fb =>
    flushRows screen x1 rowPixels rows (y + 1) (colors.drop rowPixels)
      (store fb (screen.location x1 y) ((colors.take rowPixels).flatMap Color.bytes))

def displayFlushCb (screen : ScreenInfo) (d : Display) (f : Flush) : Display :=
  let rowPixels := (f.area.x2 - f.area.x1 + 1).toNat
  let rows := (f.area.y2 - f.area.y1 + 1).toNat
  let d := { d with fb := flushRows screen f.area.x1 rowPixels rows f.area.y1 f.colors d.fb }
  let d := if d.firstFlush then { d with pans := d.pans + 1, firstFlush := false } else d
  recordCompletedFrame f.last f.now d

/-! ### What is shown -/

/-- The mode has four bytes for a pixel and holds the screen of 480 by 480 pixels. -/
structure ScreenInfo.Holds (screen : ScreenInfo) : Prop where
  bitsPerPixel : screen.bitsPerPixel = 32
  row : (screen.xoffset + 480) * 4 ≤ screen.lineLength
  rows : (screen.yoffset + 480) * screen.lineLength ≤ screen.smemLen
  smemLen : screen.smemLen < 2 ^ 32

/-- The area is on the screen, and there is a color for each of its pixels. -/
structure Flush.Valid (f : Flush) : Prop where
  left : 0 ≤ f.area.x1
  width : f.area.x1 ≤ f.area.x2
  right : f.area.x2 < 480
  top : 0 ≤ f.area.y1
  height : f.area.y1 ≤ f.area.y2
  bottom : f.area.y2 < 480
  colors : (f.colors.length : ℤ) = (f.area.y2 - f.area.y1 + 1) * (f.area.x2 - f.area.x1 + 1)

/-- The color of a pixel in the area. -/
def Flush.colorAt (f : Flush) (x y : ℕ) : Option Color :=
  if f.area.x1 ≤ x ∧ x ≤ f.area.x2 ∧ f.area.y1 ≤ y ∧ y ≤ f.area.y2 then
    f.colors[((y - f.area.y1) * (f.area.x2 - f.area.x1 + 1) + (x - f.area.x1)).toNat]?
  else none

/-- The color of the last flush that covers the pixel. -/
def lastColor (flushes : List Flush) (x y : ℕ) : Option Color :=
  flushes.reverse.findSome? fun f => f.colorAt x y

/-- The pixels of the screen in memory. -/
def ScreenInfo.raster (screen : ScreenInfo) (h : screen.Holds) : Raster where
  base := screen.xoffset * 4 + screen.yoffset * screen.lineLength
  width := 4
  cols := 480
  stride := screen.lineLength
  fits := Nat.le_trans (Nat.mul_le_mul_right 4 (Nat.le_add_left 480 _)) h.row

variable {screen : ScreenInfo} (h : screen.Holds)

theorem raster_cell_add_lt {x y j : ℕ} (hx : x < 480) (hy : y < 480) (hj : j < 4) :
    (screen.raster h).cell x y + j < screen.smemLen := by
  have hrows := h.rows
  have hrow := h.row
  have hy : (y + 1) * screen.lineLength ≤ 480 * screen.lineLength := Nat.mul_le_mul_right _ hy
  rw [Nat.add_mul] at hrows hy
  simp only [Raster.cell, ScreenInfo.raster]
  omega

/-- No integer overflows. -/
theorem location_eq_cell {x y : ℕ} (hx : x < 480) (hy : y < 480) :
    screen.location x y = (screen.raster h).cell x y := by
  have hlt := raster_cell_add_lt h hx hy (by decide : 0 < 4)
  have hsmem := h.smemLen
  have hsum : ((x : ℤ) + screen.xoffset) * ((screen.bitsPerPixel / 8 : ℕ) : ℤ) +
      (y + screen.yoffset) * screen.lineLength = ((screen.raster h).cell x y : ℕ) := by
    rw [h.bitsPerPixel, Raster.cell, ScreenInfo.raster]
    push_cast
    ring
  rw [ScreenInfo.location, hsum, Int.emod_eq_of_lt (Int.natCast_nonneg _) (by omega),
    Int.toNat_natCast]

theorem length_colorBytes {colors : List Color} :
    ∀ c ∈ colors.map Color.bytes, c.length = (screen.raster h).width := by
  intro c hc
  obtain ⟨color, -, rfl⟩ := List.mem_map.mp hc
  rfl

/-- A row of the loop. -/
theorem store_row {x y : ℕ} {colors : List Color} {fb : ℕ → UInt8} (hx : x < 480) (hy : y < 480) :
    store fb (screen.location x y) (colors.flatMap Color.bytes) =
      (screen.raster h).storeRow fb x y (colors.map Color.bytes) := by
  rw [location_eq_cell h hx hy, Raster.storeRow, List.flatMap_def]

theorem read_flushRows {x1 y rowPixels rows : ℕ} {colors : List Color} {fb : ℕ → UInt8}
    (hpos : 0 < rowPixels) (hx1 : x1 + rowPixels ≤ 480) (hy : y + rows ≤ 480)
    (hcolors : colors.length = rows * rowPixels) {x' y' : ℕ} (hx' : x' < 480) :
    (screen.raster h).read (flushRows screen x1 rowPixels rows y colors fb) x' y' =
      if x1 ≤ x' ∧ x' < x1 + rowPixels ∧ y ≤ y' ∧ y' < y + rows then
        (colors[(y' - y) * rowPixels + (x' - x1)]?.map Color.bytes).getD
          ((screen.raster h).read fb x' y')
      else (screen.raster h).read fb x' y' := by
  induction rows generalizing y colors fb with
  | zero => rw [flushRows, if_neg (by omega)]
  | succ rows ih =>
    have hlen : (colors.take rowPixels).length = rowPixels := by
      rw [List.length_take, hcolors, Nat.add_mul, Nat.one_mul]
      omega
    have hrest : (colors.drop rowPixels).length = rows * rowPixels := by
      rw [List.length_drop, hcolors, Nat.add_mul, Nat.one_mul]
      omega
    have hstep : flushRows screen x1 rowPixels (rows + 1) y colors fb =
        flushRows screen x1 rowPixels rows ((y + 1 : ℕ) : ℤ) (colors.drop rowPixels)
          ((screen.raster h).storeRow fb x1 y ((colors.take rowPixels).map Color.bytes)) := by
      rw [flushRows, store_row h (by omega) (by omega), Nat.cast_add, Nat.cast_one]
    have hrow : (screen.raster h).read
        ((screen.raster h).storeRow fb x1 y ((colors.take rowPixels).map Color.bytes)) x' y' =
        if x1 ≤ x' ∧ x' < x1 + rowPixels ∧ y' = y then
          (colors[x' - x1]?.map Color.bytes).getD ((screen.raster h).read fb x' y')
        else (screen.raster h).read fb x' y' := by
      rw [(screen.raster h).read_storeRow (length_colorBytes h)
        (by rw [List.length_map, hlen]; exact hx1) hx', List.getElem?_map]
      by_cases hin : x' - x1 < rowPixels
      · rw [List.getElem?_take_of_lt hin]
        exact if_congr (by omega) rfl rfl
      · rw [List.getElem?_eq_none (by omega : (colors.take rowPixels).length ≤ x' - x1),
          Option.map_none, Option.getD_none, ite_self, if_neg (by omega)]
    rw [hstep, ih (by omega) hrest, hrow]
    -- the pixel is in this row, or the loop gets to it later
    by_cases hx : x1 ≤ x' ∧ x' < x1 + rowPixels
    · rcases Nat.lt_trichotomy y' y with hlt | rfl | hgt
      · rw [if_neg (by omega), if_neg (by omega), if_neg (by omega)]
      · rw [if_neg (by omega), if_pos ⟨hx.1, hx.2, rfl⟩, if_pos (by omega), Nat.sub_self,
          Nat.zero_mul, Nat.zero_add]
      · obtain ⟨k, rfl⟩ := Nat.exists_eq_add_of_lt hgt
        have hindex : (y + k + 1 - y) * rowPixels + (x' - x1) =
            rowPixels + ((y + k + 1 - (y + 1)) * rowPixels + (x' - x1)) := by
          rw [show y + k + 1 - y = k + 1 by omega, show y + k + 1 - (y + 1) = k by omega]
          ring
        rw [List.getElem?_drop, hindex, if_neg (by omega : ¬ (_ ∧ _ ∧ y + k + 1 = y))]
        exact if_congr (by omega) rfl rfl
    · rw [if_neg (by omega), if_neg (by omega), if_neg (by omega)]

theorem flushRows_of_outside {x1 y rowPixels rows : ℕ} {colors : List Color} {fb : ℕ → UInt8}
    (hpos : 0 < rowPixels) (hx1 : x1 + rowPixels ≤ 480) (hy : y + rows ≤ 480) {i : ℕ}
    (hi : (screen.raster h).Outside 480 i) :
    flushRows screen x1 rowPixels rows y colors fb i = fb i := by
  induction rows generalizing y colors fb with
  | zero => rfl
  | succ rows ih =>
    have hnext : ((y : ℕ) : ℤ) + 1 = ((y + 1 : ℕ) : ℤ) := by rw [Nat.cast_add, Nat.cast_one]
    have hlen : (colors.take rowPixels).length ≤ rowPixels := List.length_take_le _ _
    rw [flushRows, hnext, ih (by omega), store_row h (by omega) (by omega)]
    refine (screen.raster h).storeRow_of_outside (length_colorBytes h) ?_ (by omega) hi
    rw [List.length_map]
    exact Nat.le_trans (Nat.add_le_add_left hlen x1) hx1

/-! ### Runs -/

theorem fb_recordCompletedFrame (last : Bool) (now : UInt32) (d : Display) :
    (recordCompletedFrame last now d).fb = d.fb ∧ (recordCompletedFrame last now d).pans = d.pans ∧
      (recordCompletedFrame last now d).firstFlush = d.firstFlush := by
  unfold recordCompletedFrame
  simp only
  split_ifs <;> exact ⟨rfl, rfl, rfl⟩

theorem fb_displayFlushCb (d : Display) (f : Flush) :
    (displayFlushCb screen d f).fb = flushRows screen f.area.x1
      (f.area.x2 - f.area.x1 + 1).toNat (f.area.y2 - f.area.y1 + 1).toNat f.area.y1 f.colors d.fb := by
  unfold displayFlushCb
  simp only
  rw [(fb_recordCompletedFrame _ _ _).1]
  split_ifs <;> rfl

theorem pans_displayFlushCb (d : Display) (f : Flush) :
    (displayFlushCb screen d f).pans = d.pans + d.firstFlush.toNat ∧
      (displayFlushCb screen d f).firstFlush = false := by
  unfold displayFlushCb
  simp only
  rw [(fb_recordCompletedFrame _ _ _).2.1, (fb_recordCompletedFrame _ _ _).2.2]
  cases hfirst : d.firstFlush with
  | false => simp
  | true => simp

/-- **A flush** shows its colors in its area. -/
theorem read_displayFlushCb {f : Flush} (hf : f.Valid) (d : Display) {x : ℕ} (hx : x < 480) (y : ℕ) :
    (screen.raster h).read (displayFlushCb screen d f).fb x y =
      ((f.colorAt x y).map Color.bytes).getD ((screen.raster h).read d.fb x y) := by
  obtain ⟨⟨x1, y1, x2, y2⟩, colors, last, now⟩ := f
  obtain ⟨hleft, hwidth, hright, htop, hheight, hbottom, hcolors⟩ := hf
  simp only at hleft hwidth hright htop hheight hbottom hcolors
  lift x1 to ℕ using hleft
  lift y1 to ℕ using htop
  obtain ⟨w, hw⟩ := Int.eq_ofNat_of_zero_le (by omega : 0 ≤ x2 - x1)
  obtain ⟨v, hv⟩ := Int.eq_ofNat_of_zero_le (by omega : 0 ≤ y2 - y1)
  obtain rfl : x2 = x1 + w := by omega
  obtain rfl : y2 = y1 + v := by omega
  have hrow : ((x1 : ℤ) + w - x1 + 1).toNat = w + 1 := by omega
  have hrows : ((y1 : ℤ) + v - y1 + 1).toNat = v + 1 := by omega
  have hlength : colors.length = (v + 1) * (w + 1) := by
    have hcast : (colors.length : ℤ) = ((v + 1) * (w + 1) : ℕ) := by
      rw [hcolors]
      push_cast
      ring
    exact_mod_cast hcast
  rw [fb_displayFlushCb]
  simp only [hrow, hrows]
  rw [read_flushRows h (by omega) (by omega) (by omega) hlength hx, Flush.colorAt]
  by_cases hin : x1 ≤ x ∧ x < x1 + (w + 1) ∧ y1 ≤ y ∧ y < y1 + (v + 1)
  · obtain ⟨k, rfl⟩ := Nat.exists_eq_add_of_le hin.1
    obtain ⟨l, rfl⟩ := Nat.exists_eq_add_of_le hin.2.2.1
    have hindex : (((y1 + l : ℕ) - (y1 : ℤ)) * ((x1 : ℤ) + w - x1 + 1) +
        ((x1 + k : ℕ) - (x1 : ℤ))).toNat = l * (w + 1) + k := by
      have hcast : ((y1 + l : ℕ) - (y1 : ℤ)) * ((x1 : ℤ) + w - x1 + 1) +
          ((x1 + k : ℕ) - (x1 : ℤ)) = ((l * (w + 1) + k : ℕ) : ℤ) := by
        push_cast
        ring
      rw [hcast, Int.toNat_natCast]
    simp only
    rw [if_pos hin, if_pos (by omega), hindex, Nat.add_sub_cancel_left, Nat.add_sub_cancel_left]
  · simp only
    rw [if_neg hin, if_neg (by omega), Option.map_none, Option.getD_none]

theorem displayFlushCb_of_outside {f : Flush} (hf : f.Valid) (d : Display) {i : ℕ}
    (hi : (screen.raster h).Outside 480 i) : (displayFlushCb screen d f).fb i = d.fb i := by
  obtain ⟨hleft, hwidth, hright, htop, hheight, hbottom, -⟩ := hf
  obtain ⟨x1, hx1⟩ := Int.eq_ofNat_of_zero_le hleft
  obtain ⟨y1, hy1⟩ := Int.eq_ofNat_of_zero_le htop
  rw [fb_displayFlushCb, hx1, hy1]
  exact flushRows_of_outside h (by omega) (by omega) (by omega) hi

/-- The mapping ends behind the last pixel. -/
theorem outside_of_smemLen_le {i : ℕ} (hi : screen.smemLen ≤ i) :
    (screen.raster h).Outside 480 i := by
  intro x y j hx hy hj heq
  have := raster_cell_add_lt h hx hy hj
  omega

theorem run_of_outside {flushes : List Flush} (hvalid : ∀ f ∈ flushes, f.Valid) (d : Display) (i : ℕ)
    (hi : (screen.raster h).Outside 480 i) : (run (displayFlushCb screen) d flushes).fb i = d.fb i := by
  induction flushes generalizing d with
  | nil => rfl
  | cons f flushes ih =>
    rw [run_cons, ih fun g hg => hvalid g (List.mem_cons_of_mem _ hg)]
    exact displayFlushCb_of_outside h (hvalid f List.mem_cons_self) d hi

/-- After a run, a pixel has the color of the last flush that covers it. -/
theorem read_run {flushes : List Flush} (hvalid : ∀ f ∈ flushes, f.Valid) (d : Display) {x : ℕ}
    (hx : x < 480) (y : ℕ) :
    (screen.raster h).read (run (displayFlushCb screen) d flushes).fb x y =
      ((lastColor flushes x y).map Color.bytes).getD ((screen.raster h).read d.fb x y) := by
  induction flushes using List.reverseRecOn with
  | nil => rfl
  | append_singleton flushes f ih =>
    have ih := ih fun g hg => hvalid g (List.mem_append_left _ hg)
    rw [run_append, run_cons]
    refine (read_displayFlushCb h (hvalid f (by simp)) _ hx y).trans ?_
    rw [ih, lastColor, lastColor, List.reverse_concat, List.findSome?_cons]
    cases f.colorAt x y <;> rfl

theorem pans_run (flushes : List Flush) (d : Display) :
    (run (displayFlushCb screen) d flushes).pans =
      d.pans + if flushes = [] then 0 else d.firstFlush.toNat := by
  induction flushes generalizing d with
  | nil => rfl
  | cons f flushes ih =>
    have hflush : (displayFlushCb screen d f).pans = d.pans + d.firstFlush.toNat ∧
        (displayFlushCb screen d f).firstFlush = false := pans_displayFlushCb d f
    rw [run_cons, ih, hflush.1, hflush.2]
    simp

/-- **The screen shows the last color of every pixel.**  In a mode that holds the screen, after any
flushes of areas on the screen: a pixel has the color of the last flush that covers it, or is as it
was before; the memory between and around the pixels is as it was before, also what is behind the
mapping; and the first flush alone has panned the display. -/
theorem flushes_show_last_color (screen : ScreenInfo) (h : screen.Holds) (flushes : List Flush)
    (hvalid : ∀ f ∈ flushes, f.Valid) (d : Display) :
    (∀ x < 480, ∀ y, (screen.raster h).read (run (displayFlushCb screen) d flushes).fb x y =
      ((lastColor flushes x y).map Color.bytes).getD ((screen.raster h).read d.fb x y)) ∧
    (∀ i, (screen.raster h).Outside 480 i → (run (displayFlushCb screen) d flushes).fb i = d.fb i) ∧
    (∀ i, screen.smemLen ≤ i → (run (displayFlushCb screen) d flushes).fb i = d.fb i) ∧
    (run (displayFlushCb screen) d flushes).pans =
      d.pans + if flushes = [] then 0 else d.firstFlush.toNat := by
  refine ⟨?_, run_of_outside h hvalid d,
    fun i hi => run_of_outside h hvalid d i (outside_of_smemLen_le h hi), ?_⟩
  · exact fun x hx y => read_run h hvalid d hx y
  · exact pans_run flushes d

/-- A screen that fills its framebuffer. -/
def squareScreen : ScreenInfo := ⟨32, 0, 0, 1920, 921600⟩

theorem squareScreen_holds : squareScreen.Holds :=
  ⟨rfl, by decide, by decide, by decide⟩

/-- A red and a blue pixel side by side, and then green instead of blue. -/
def twoFlushes : List Flush :=
  [⟨⟨0, 0, 1, 0⟩, [⟨0, 0, 255, 255⟩, ⟨255, 0, 0, 255⟩], true, 16⟩,
    ⟨⟨1, 0, 1, 0⟩, [⟨0, 255, 0, 255⟩], true, 32⟩]

theorem valid_twoFlushes : ∀ f ∈ twoFlushes, f.Valid := by
  intro f hf
  simp only [twoFlushes, List.mem_cons, List.not_mem_nil, or_false] at hf
  rcases hf with rfl | rfl
  · exact ⟨by decide, by decide, by decide, by decide, by decide, by decide, rfl⟩
  · exact ⟨by decide, by decide, by decide, by decide, by decide, by decide, rfl⟩

theorem twoFlushes_shown :
    let shown := run (displayFlushCb squareScreen) ⟨fun _ => 0, true, 0, 0, 0, 0⟩ twoFlushes
    (squareScreen.raster squareScreen_holds).read shown.fb 0 0 = [0, 0, 255, 255] ∧
      (squareScreen.raster squareScreen_holds).read shown.fb 1 0 = [0, 255, 0, 255] ∧
      shown.pans = 1 := by
  have h := flushes_show_last_color squareScreen squareScreen_holds _ valid_twoFlushes
    ⟨fun _ => 0, true, 0, 0, 0, 0⟩
  exact ⟨h.1 0 (by decide) 0, h.1 1 (by decide) 0, h.2.2.2⟩

end Panel

end HaPanel
