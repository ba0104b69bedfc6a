import HaPanel.Panel.Framebuffer

/-!
# The preview in the portal

The portal shows a preview of the screen: `screenshot.sh` sends the memory of the framebuffer from
its beginning, and `refreshScreenshot` takes the first 480 rows of 480 pixels from it.  Unlike
`display_flush_cb`, it does not ask for the mode of the display.

`preview_shows_screen_iff` : the preview shows what has been drawn exactly in the modes without an
offset and without bytes between the rows.
-/

namespace HaPanel

namespace Panel

open Text Transition

/-- What `cat /dev/fb0` prints. -/
def framebufferFile (screen : ScreenInfo) (d : Display) : Bytes :=
  (List.range screen.smemLen).map d.fb

/-- A pixel of the preview, with the colors in the order of a canvas. -/
def previewPixel (source : Bytes) (i : ℕ) : Bytes :=
  [source.getD (4 * i + 2) 0, source.getD (4 * i + 1) 0, source.getD (4 * i) 0, 255]

/-- The loop of `refreshScreenshot`, for `n` pixels from the `i`-th one on. -/
def previewLoop (source : Bytes) : ℕ → ℕ → (ℕ → UInt8) → (ℕ → UInt8)
  | 0, _, image => image
  | n + 1, i, image => previewLoop source n (i + 1) (store image (4 * i) (previewPixel source i))

/-- The data of the image that `refreshScreenshot` puts into the canvas, if the response is long
enough. -/
def refreshScreenshot (buffer : Bytes) : Option (ℕ → UInt8) :=
  if buffer.length < 480 * 480 * 4 then none
  else some (previewLoop buffer (480 * 480) 0 fun _ => 0)

theorem canvas_fits : 480 * 4 ≤ 1920 := by decide

/-- The pixels of the canvas. -/
def canvas : Raster := ⟨0, 4, 480, 1920, canvas_fits⟩

/-! ### The image -/

theorem length_previewPixel (source : Bytes) (i : ℕ) : (previewPixel source i).length = 4 := rfl

theorem previewLoop_of_lt {source : Bytes} {n i k : ℕ} {image : ℕ → UInt8} (hk : k < 4 * i) :
    previewLoop source n i image k = image k := by
  induction n generalizing i image with
  | zero => rfl
  | succ n ih => rw [previewLoop, ih (by omega), store_of_lt hk]

/-- Every pixel is stored, and not changed later. -/
theorem previewLoop_add {source : Bytes} {n i k j : ℕ} {image : ℕ → UInt8} (hi : i ≤ k)
    (hk : k < i + n) (hj : j < (previewPixel source k).length) :
    previewLoop source n i image (4 * k + j) = (previewPixel source k)[j] := by
  have hlen := length_previewPixel source k
  induction n generalizing i image with
  | zero => omega
  | succ n ih =>
    rw [previewLoop]
    obtain rfl | hlt := Nat.eq_or_lt_of_le hi
    · rw [previewLoop_of_lt (by omega), store_add hj]
    · exact ih (by omega) (by omega)

theorem read_previewLoop (source : Bytes) {x y : ℕ} (hx : x < 480) (hy : y < 480) :
    canvas.read (previewLoop source (480 * 480) 0 fun _ => 0) x y =
      previewPixel source (480 * y + x) := by
  have hcell : canvas.cell x y = 4 * (480 * y + x) := by
    simp only [Raster.cell, canvas]
    omega
  refine List.ext_getElem ?_ fun j hj hj' => ?_
  · simp [Raster.read, canvas, length_previewPixel]
  · simp only [Raster.read, List.getElem_map, List.getElem_range, hcell]
    exact previewLoop_add (by omega) (by omega) hj'

/-! ### The memory -/

variable {screen : ScreenInfo}

theorem framebufferFile_getD (d : Display) {i : ℕ} (hi : i < screen.smemLen) :
    (framebufferFile screen d).getD i 0 = d.fb i := by
  simp [framebufferFile, hi]

/-- A mode that holds the screen has enough memory for the preview. -/
theorem ScreenInfo.Holds.le_smemLen (h : screen.Holds) : 480 * 480 * 4 ≤ screen.smemLen := by
  have hline : 1920 ≤ screen.lineLength :=
    Nat.le_trans (Nat.mul_le_mul_right 4 (Nat.le_add_left 480 screen.xoffset)) h.row
  calc 480 * 480 * 4 = 480 * 1920 := by norm_num
    _ ≤ (screen.yoffset + 480) * screen.lineLength :=
      Nat.mul_le_mul (Nat.le_add_left 480 screen.yoffset) hline
    _ ≤ screen.smemLen := h.rows

theorem refreshScreenshot_framebufferFile (h : screen.Holds) (d : Display) :
    refreshScreenshot (framebufferFile screen d) =
      some (previewLoop (framebufferFile screen d) (480 * 480) 0 fun _ => 0) := by
  have hlen := h.le_smemLen
  rw [refreshScreenshot, framebufferFile, List.length_map, List.length_range, if_neg (by omega)]

/-- A pixel of the preview, in terms of the memory. -/
theorem previewPixel_framebufferFile (h : screen.Holds) (d : Display) {i : ℕ}
    (hi : i < 480 * 480) :
    previewPixel (framebufferFile screen d) i =
      [d.fb (4 * i + 2), d.fb (4 * i + 1), d.fb (4 * i), 255] := by
  have hlen := h.le_smemLen
  rw [previewPixel, framebufferFile_getD d (by omega), framebufferFile_getD d (by omega),
    framebufferFile_getD d (by omega)]

/-- A pixel of the screen, byte by byte. -/
theorem read_raster (h : screen.Holds) (fb : ℕ → UInt8) (x y : ℕ) :
    (screen.raster h).read fb x y = [fb ((screen.raster h).cell x y),
      fb ((screen.raster h).cell x y + 1), fb ((screen.raster h).cell x y + 2),
      fb ((screen.raster h).cell x y + 3)] := rfl

/-! ### One pixel -/

/-- A flush of one pixel. -/
def dot (x y : ℕ) : Flush := ⟨⟨x, y, x, y⟩, [⟨1, 2, 3, 4⟩], true, 0⟩

theorem valid_dot {x y : ℕ} (hx : x < 480) (hy : y < 480) : (dot x y).Valid :=
  ⟨by simp [dot], le_refl _, by simp [dot, hx], by simp [dot], le_refl _, by simp [dot, hy],
    by simp [dot]⟩

theorem lastColor_dot (x y : ℕ) : lastColor [dot x y] x y = some ⟨1, 2, 3, 4⟩ := by
  simp [lastColor, Flush.colorAt, dot]

/-- On a black screen, the first byte of the pixel is where the pixel begins. -/
theorem eq_cell_of_dot (h : screen.Holds) {x y i : ℕ} (hx : x < 480) (hy : y < 480)
    (hi : (run (displayFlushCb screen) ⟨fun _ => 0, true, 0, 0, 0, 0⟩ [dot x y]).fb i = 1) :
    i = (screen.raster h).cell x y := by
  have hfb : (run (displayFlushCb screen) ⟨fun _ => 0, true, 0, 0, 0, 0⟩ [dot x y]).fb =
      store (fun _ => 0) ((screen.raster h).cell x y) [1, 2, 3, 4] := by
    rw [run_cons, run, List.foldl_nil, fb_displayFlushCb, ← location_eq_cell h hx hy]
    simp [dot, flushRows, Color.bytes]
  rw [hfb] at hi
  obtain hlt | hle := Nat.lt_or_ge i ((screen.raster h).cell x y)
  · rw [store_of_lt hlt] at hi
    exact absurd hi (by decide)
  · obtain ⟨j, rfl⟩ := Nat.exists_eq_add_of_le hle
    rcases Nat.lt_or_ge j 4 with hlt | hge
    · rw [store_add hlt] at hi
      have hbytes : ∀ j : Fin 4, [(1 : UInt8), 2, 3, 4][j] = 1 → j = 0 := by decide
      have hzero := congrArg Fin.val (hbytes ⟨j, hlt⟩ hi)
      exact congrArg _ hzero
    · rw [store_of_le (Nat.add_le_add_left hge _)] at hi
      exact absurd hi (by decide)

/-! ### The preview -/

/-- **The preview shows the screen**, whatever is drawn, exactly in the modes in which the first
pixel is at the beginning of the memory and the rows follow one another. -/
theorem preview_shows_screen_iff (screen : ScreenInfo) (h : screen.Holds) :
    (∀ flushes : List Flush, (∀ f ∈ flushes, f.Valid) → ∀ d : Display, ∃ image,
      refreshScreenshot (framebufferFile screen (run (displayFlushCb screen) d flushes)) =
        some image ∧
      ∀ x < 480, ∀ y < 480, ∀ c, lastColor flushes x y = some c →
        canvas.read image x y = [c.red, c.green, c.blue, 255]) ↔
      screen.xoffset = 0 ∧ screen.yoffset = 0 ∧ screen.lineLength = 1920 := by
  have hrow := h.row
  constructor
  · intro hshown
    -- a single pixel is shown where it is only if it is stored there
    have hcell : ∀ x < 480, ∀ y < 480, 4 * (480 * y + x) = (screen.raster h).cell x y := by
      intro x hx y hy
      obtain ⟨image, himage, hpixels⟩ := hshown [dot x y]
        (List.forall_mem_singleton.mpr (valid_dot hx hy)) ⟨fun _ => 0, true, 0, 0, 0, 0⟩
      have hpixel := hpixels x hx y hy _ (lastColor_dot x y)
      rw [refreshScreenshot_framebufferFile h] at himage
      obtain rfl := Option.some.inj himage
      rw [read_previewLoop _ hx hy, previewPixel_framebufferFile h _ (by omega)] at hpixel
      simp only [List.cons.injEq] at hpixel
      exact eq_cell_of_dot h hx hy hpixel.2.2.1
    have hfirst := hcell 0 (by decide) 0 (by decide)
    have hsecond := hcell 0 (by decide) 1 (by decide)
    simp only [Raster.cell, ScreenInfo.raster] at hfirst hsecond
    have hoffset : screen.yoffset * screen.lineLength = 0 := by omega
    obtain hy | hline := Nat.mul_eq_zero.mp hoffset
    · omega
    · omega
  · rintro ⟨hx0, hy0, hline⟩ flushes hvalid d
    refine ⟨_, refreshScreenshot_framebufferFile h _, fun x hx y hy c hc => ?_⟩
    have hcell : (screen.raster h).cell x y = 4 * (480 * y + x) := by
      simp only [Raster.cell, ScreenInfo.raster, hx0, hy0, hline]
      omega
    have hread := read_run h hvalid d hx y
    rw [hc, Option.map_some, Option.getD_some, read_raster, hcell] at hread
    simp only [Color.bytes, List.cons.injEq] at hread
    rw [read_previewLoop _ hx hy, previewPixel_framebufferFile h _ (by omega), hread.1, hread.2.1,
      hread.2.2.1]

/-- Two pixels on a screen that fills its framebuffer. -/
theorem preview_of_twoFlushes :
    ∃ image, refreshScreenshot (framebufferFile squareScreen
        (run (displayFlushCb squareScreen) ⟨fun _ => 0, true, 0, 0, 0, 0⟩ twoFlushes)) =
          some image ∧
      canvas.read image 0 0 = [255, 0, 0, 255] ∧ canvas.read image 1 0 = [0, 255, 0, 255] := by
  obtain ⟨image, himage, hpixels⟩ := (preview_shows_screen_iff squareScreen squareScreen_holds).mpr
    ⟨rfl, rfl, rfl⟩ twoFlushes valid_twoFlushes ⟨fun _ => 0, true, 0, 0, 0, 0⟩
  exact ⟨image, himage, hpixels 0 (by decide) 0 (by decide) ⟨0, 0, 255, 255⟩ (by decide),
    hpixels 1 (by decide) 0 (by decide) ⟨0, 255, 0, 255⟩ (by decide)⟩

end Panel

end HaPanel
