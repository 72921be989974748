import Mathlib
import OpenOS.Lib.Overwrite
import OpenOS.Lib.Run
import OpenOS.Kernel.Strings

/-! The windowing system of `kernel/gui.c`. The framebuffer is `framebuffer_data`, a function
from cell index to pixel; `gui_draw_pixel` clips to the screen and every other drawing
routine is a sequence of `gui_draw_pixel` calls, so what a routine leaves on a pixel is the
colour of the last call that reaches it. A window is named by its `id`: the source passes the
`window_t *` that `gui_create_window` returned, and each live window has its own id. `kmalloc`'s
answer is an input of `gui_create_window`. Coordinates are `int`s and are integers here; the
floating-point `gui_draw_line` is left out.

`gui_render_all` walks the window list from its head, where `gui_create_window` puts the newest
window, so every window is drawn over the newer ones: on each pixel the oldest visible window
that paints it is the one seen. -/
namespace OpenOS.Gui

open OpenOS.Kernel Overwrite

def guiWidth : Int := 800
def guiHeight : Int := 600

def colorBlack : UInt32 := 0xFF000000
def colorWhite : UInt32 := 0xFFFFFFFF
def colorBlue : UInt32 := 0xFF0000FF
def colorLightgray : UInt32 := 0xFFC0C0C0

/-- `rect_t`. -/
structure Rect where
  x : Int
  y : Int
  width : Int
  height : Int
  deriving DecidableEq, Repr

/-- `window_state_t`. -/
inductive WindowState
  | hidden
  | visible
  | minimized
  deriving DecidableEq, Repr

/-- `window_t`, without its `next` link: the window list is a list. The title is the bytes
before its NUL. -/
structure Window where
  id : UInt32
  title : CString
  rect : Rect
  bgColor : UInt32
  state : WindowState

/-- `gui_state_t` together with `framebuffer_data`. -/
structure GuiState where
  framebuffer : Nat → UInt32
  width : Int
  height : Int
  windowList : List Window
  nextWindowId : UInt32
  initialized : Bool

/-- The statics before `gui_init`: all zero. -/
def guiStatic : GuiState := ⟨fun _ => 0, 0, 0, [], 0, false⟩

/-- `for (int i = lo; i < hi; i++)`. -/
def intRange (lo hi : Int) : List Int := (List.range (hi - lo).toNat).map fun k : Nat => lo + k

/-- `gui_draw_pixel(x, y, color)`: a pixel off the screen is dropped. -/
def guiDrawPixel (x y : Int) (color : UInt32) (g : GuiState) : GuiState :=
  if x < 0 ∨ x ≥ g.width ∨ y < 0 ∨ y ≥ g.height then g
  else { g with framebuffer := Function.update g.framebuffer (y * g.width + x).toNat color }

/-- `gui_clear_screen(color)`: every cell of the screen, by index. -/
def guiClearScreen (color : UInt32) (g : GuiState) : GuiState :=
  { g with framebuffer :=
      (List.range (g.width * g.height).toNat).foldl (fun fb i => Function.update fb i color) g.framebuffer }

/-- `gui_draw_rect(rect, color)`: the top and bottom rows, then the left and right columns. -/
def guiDrawRect (rect : Rect) (color : UInt32) (g : GuiState) : GuiState :=
  let g := (intRange rect.x (rect.x + rect.width)).foldl (fun g x =>
    guiDrawPixel x (rect.y + rect.height - 1) color (guiDrawPixel x rect.y color g)) g
  (intRange rect.y (rect.y + rect.height)).foldl (fun g y =>
    guiDrawPixel (rect.x + rect.width - 1) y color (guiDrawPixel rect.x y color g)) g

/-- `gui_draw_filled_rect(rect, color)`: row by row. -/
def guiDrawFilledRect (rect : Rect) (color : UInt32) (g : GuiState) : GuiState :=
  (intRange rect.y (rect.y + rect.height)).foldl (fun g y =>
    (intRange rect.x (rect.x + rect.width)).foldl (fun g x => guiDrawPixel x y color g) g) g

/-- The box `gui_draw_text` draws for one character at `offset_x`: the border of an 8 by 8
square. -/
def charBox (offsetX y : Int) (color : UInt32) (g : GuiState) : GuiState :=
  (List.range 8).foldl (fun g (dy : Nat) => (List.range 8).foldl (fun g (dx : Nat) =>
    if dx = 0 ∨ dx = 7 ∨ dy = 0 ∨ dy = 7 then guiDrawPixel (offsetX + dx) (y + dy) color g else g) g) g

/-- `gui_draw_text(x, y, text, color)`: a box per character, `offset_x` moving on by 9. -/
def guiDrawText (x y : Int) (text : CString) (color : UInt32) (g : GuiState) : GuiState :=
  (text.foldl (fun (acc : GuiState × Int) _ => (charBox acc.2 y color acc.1, acc.2 + 9)) (g, x)).1

/-- `gui_render_window(window)` for a window: background, border, a title bar 20 pixels
high, and the title. -/
def guiRenderWindow (w : Window) (g : GuiState) : GuiState :=
  if w.state ≠ .visible then g
  else
    let g := guiDrawFilledRect w.rect w.bgColor g
    let g := guiDrawRect w.rect colorBlack g
    let g := guiDrawFilledRect ⟨w.rect.x, w.rect.y, w.rect.width, 20⟩ colorBlue g
    if w.title ≠ [] then guiDrawText (w.rect.x + 5) (w.rect.y + 6) w.title colorWhite g else g

/-- `gui_render_all`: the windows from the head of the list. -/
def guiRenderAll (g : GuiState) : GuiState := g.windowList.foldl (fun g' w => guiRenderWindow w g') g

/-- `gui_init`: once, the 800 by 600 screen, an empty window list, ids from 1, and the screen
cleared to black. -/
def guiInit (g : GuiState) : GuiState :=
  if g.initialized then g
  else guiClearScreen colorBlack
    { g with width := guiWidth, height := guiHeight, windowList := [], nextWindowId := 1, initialized := true }

/-- `gui_create_window(x, y, width, height, title)`, with `allocated` for the answer of
`kmalloc`. The new window goes to the head of the list; the title is cut to 63 bytes. -/
def guiCreateWindow (x y width height : Int) (title : Option CString) (allocated : Bool) (g : GuiState) :
    Option UInt32 × GuiState :=
  if !allocated then (none, g)
  else
    let window : Window := ⟨g.nextWindowId, (title.getD []).take 63, ⟨x, y, width, height⟩, colorLightgray, .visible⟩
    (some window.id, { g with windowList := window :: g.windowList, nextWindowId := g.nextWindowId + 1 })

/-- The unlink loop of `gui_destroy_window`: the first window with the id leaves the list. -/
def unlinkWindow (id : UInt32) : List Window → List Window
  | [] => []
  | w :: rest => if w.id = id then rest else w :: unlinkWindow id rest

/-- A store through the pointer to the window with the id. -/
def updateWindow (id : UInt32) (f : Window → Window) : List Window → List Window
  | [] => []
  | w :: rest => if w.id = id then f w :: rest else w :: updateWindow id f rest

/-- `gui_destroy_window(window)`; `none` is `NULL`. The `kfree` is the heap's. -/
def guiDestroyWindow (window : Option UInt32) (g : GuiState) : GuiState :=
  match window with
  | none => g
  | some id => { g with windowList := unlinkWindow id g.windowList }

/-- `gui_show_window` and `gui_hide_window`. -/
def guiSetWindowState (state : WindowState) (window : Option UInt32) (g : GuiState) : GuiState :=
  match window with
  | none => g
  | some id => { g with windowList := updateWindow id (fun w => { w with state := state }) g.windowList }

def guiShowWindow : Option UInt32 → GuiState → GuiState := guiSetWindowState .visible
def guiHideWindow : Option UInt32 → GuiState → GuiState := guiSetWindowState .hidden

/-- The entry points of `gui.c` other than `gui_draw_line`. -/
inductive GuiCall
  | init
  | drawPixel (x y : Int) (color : UInt32)
  | drawRect (rect : Rect) (color : UInt32)
  | drawFilledRect (rect : Rect) (color : UInt32)
  | drawText (x y : Int) (text : CString) (color : UInt32)
  | createWindow (x y width height : Int) (title : Option CString) (allocated : Bool)
  | destroyWindow (window : Option UInt32)
  | showWindow (window : Option UInt32)
  | hideWindow (window : Option UInt32)
  | renderWindow (window : Option UInt32)
  | renderAll
  | clearScreen (color : UInt32)

/-- `gui_render_window` on a pointer: the window it points to, if it is a live one. -/
def renderById (window : Option UInt32) (g : GuiState) : GuiState :=
  match window.bind fun id => g.windowList.find? (·.id = id) with
  | some w => guiRenderWindow w g
  | none => g

def GuiCall.apply : GuiCall → GuiState → GuiState
  | .init, g => guiInit g
  | .drawPixel x y color, g => guiDrawPixel x y color g
  | .drawRect rect color, g => guiDrawRect rect color g
  | .drawFilledRect rect color, g => guiDrawFilledRect rect color g
  | .drawText x y text color, g => guiDrawText x y text color g
  | .createWindow x y width height title allocated, g => (guiCreateWindow x y width height title allocated g).2
  | .destroyWindow window, g => guiDestroyWindow window g
  | .showWindow window, g => guiShowWindow window g
  | .hideWindow window, g => guiHideWindow window g
  | .renderWindow window, g => renderById window g
  | .renderAll, g => guiRenderAll g
  | .clearScreen color, g => guiClearScreen color g

/-- The calls that create a window: a `gui_create_window` whose `kmalloc` succeeds. -/
def GuiCall.creates : GuiCall → Bool
  | .createWindow _ _ _ _ _ allocated => allocated
  | _ => false

/-- The calls that only draw into the framebuffer. -/
def GuiCall.draws : GuiCall → Bool
  | .init | .createWindow .. | .destroyWindow _ | .showWindow _ | .hideWindow _ => false
  | _ => true

/-- The GUI after `kmain`'s `gui_init`. -/
def guiBoot : GuiState := guiInit guiStatic

/-! ### Pixels -/

/-- The screen `gui_init` sets up. -/
structure Booted (g : GuiState) : Prop where
  width_eq : g.width = guiWidth
  height_eq : g.height = guiHeight

/-- A pixel of the 800 by 600 screen, and its cell. -/
abbrev OnScreen (p : Int × Int) : Prop := 0 ≤ p.1 ∧ p.1 < guiWidth ∧ 0 ≤ p.2 ∧ p.2 < guiHeight

def cell (p : Int × Int) : Nat := (p.2 * guiWidth + p.1).toNat

section Pixel

variable {g : GuiState}

/-- The state of `g'` is that of `g` but for the framebuffer. -/
def Repaints (g g' : GuiState) : Prop := g' = { g with framebuffer := g'.framebuffer }

theorem Repaints.refl (g : GuiState) : Repaints g g := rfl

theorem Repaints.trans {g' g'' : GuiState} (first : Repaints g g') (second : Repaints g' g'') :
    Repaints g g'' := by
  unfold Repaints at *
  rw [second, first]

theorem Repaints.booted {g' : GuiState} (repaints : Repaints g g') (booted : Booted g) : Booted g' := by
  rw [repaints]
  exact ⟨booted.width_eq, booted.height_eq⟩

theorem guiDrawPixel_repaints (x y : Int) (c : UInt32) : Repaints g (guiDrawPixel x y c g) := by
  unfold guiDrawPixel
  split
  · rfl
  · rfl

/-- On the screen, a pixel call writes the pixel it names and no other: the cell index is
one-to-one on the screen. -/
theorem guiDrawPixel_at (booted : Booted g) {p : Int × Int} (on : OnScreen p) (x y : Int) (c : UInt32) :
    (guiDrawPixel x y c g).framebuffer (cell p) = if (x, y) = p then c else g.framebuffer (cell p) := by
  obtain ⟨px, py⟩ := p
  have width := booted.width_eq
  have height := booted.height_eq
  simp only [OnScreen, cell, guiWidth, guiHeight] at on width height ⊢
  unfold guiDrawPixel
  by_cases off : x < 0 ∨ x ≥ g.width ∨ y < 0 ∨ y ≥ g.height
  · rw [if_pos off, if_neg]
    rintro ⟨⟩
    omega
  · rw [if_neg off]
    dsimp only
    rw [Function.update_apply, width]
    by_cases same : (x, y) = (px, py)
    · obtain ⟨rfl, rfl⟩ := Prod.mk.inj same
      simp
    · have apart : (py * 800 + px).toNat ≠ (y * 800 + x).toNat := by
        intro eq
        apply same
        rw [Prod.mk.injEq]
        omega
      rw [if_neg apart, if_neg same]

/-- A sequence of `gui_draw_pixel` calls, oldest first. -/
def drawCalls (calls : List ((Int × Int) × UInt32)) (g : GuiState) : GuiState :=
  calls.foldl (fun g c => guiDrawPixel c.1.1 c.1.2 c.2 g) g

theorem drawCalls_append (a b : List ((Int × Int) × UInt32)) (g : GuiState) :
    drawCalls (a ++ b) g = drawCalls b (drawCalls a g) :=
  List.foldl_append

theorem drawCalls_repaints (calls : List ((Int × Int) × UInt32)) : Repaints g (drawCalls calls g) :=
  Runs.foldl_invariant (Repaints g) (fun _ _ _ before => before.trans (guiDrawPixel_repaints ..))
    (Repaints.refl g)

theorem drawCalls_at (booted : Booted g) {p : Int × Int} (on : OnScreen p)
    (calls : List ((Int × Int) × UInt32)) :
    (drawCalls calls g).framebuffer (cell p) = (lastWrite calls p).getD (g.framebuffer (cell p)) := by
  induction calls generalizing g with
  | nil => rfl
  | cons c calls ih =>
    rw [drawCalls, List.foldl_cons, ← drawCalls, ih ((guiDrawPixel_repaints ..).booted booted), guiDrawPixel_at booted on,
      lastWrite_cons]
    cases lastWrite calls p <;> split <;> simp [*]

end Pixel

/-! ### Routines as pixel calls -/

/-- The same colour on each of a list of cells. -/
def paint (cells : List (Int × Int)) (color : UInt32) : List ((Int × Int) × UInt32) :=
  cells.map fun p => (p, color)

theorem lastWrite_paint (cells : List (Int × Int)) (color : UInt32) (p : Int × Int) :
    lastWrite (paint cells color) p = if p ∈ cells then some color else none := by
  -- the membership test of the library and of this module decide by different instances
  unfold paint
  convert lastWrite_graph cells (fun _ => color) p

theorem paint_append (a b : List (Int × Int)) (color : UInt32) :
    paint (a ++ b) color = paint a color ++ paint b color :=
  List.map_append

theorem drawCalls_paint (cells : List (Int × Int)) (color : UInt32) (g : GuiState) :
    drawCalls (paint cells color) g = cells.foldl (fun g p => guiDrawPixel p.1 p.2 color g) g :=
  List.foldl_map

theorem mem_intRange {lo hi k : Int} : k ∈ intRange lo hi ↔ lo ≤ k ∧ k < hi := by
  simp only [intRange, List.mem_map, List.mem_range]
  constructor
  · rintro ⟨d, below, rfl⟩
    omega
  · intro within
    exact ⟨(k - lo).toNat, by omega, by omega⟩

/-- The cells of a rectangle, row by row as `gui_draw_filled_rect` visits them. -/
def rectCells (r : Rect) : List (Int × Int) :=
  (intRange r.y (r.y + r.height)).flatMap fun y => (intRange r.x (r.x + r.width)).map fun x => (x, y)

/-- The cells `gui_draw_rect` visits: two rows column by column, then two columns row by row. -/
def outlineCells (r : Rect) : List (Int × Int) :=
  (intRange r.x (r.x + r.width)).flatMap (fun x => [(x, r.y), (x, r.y + r.height - 1)]) ++
    (intRange r.y (r.y + r.height)).flatMap fun y => [(r.x, y), (r.x + r.width - 1, y)]

/-- The cells of the box `gui_draw_text` draws for one character. -/
def boxCells (offsetX y : Int) : List (Int × Int) :=
  (List.range 8).flatMap fun dy : Nat =>
    ((List.range 8).filter fun dx : Nat => dx = 0 ∨ dx = 7 ∨ dy = 0 ∨ dy = 7).map fun dx : Nat =>
      (offsetX + dx, y + dy)

/-- The boxes of `n` characters, 9 pixels apart. -/
def textCells (x y : Int) : Nat → List (Int × Int)
  | 0 => []
  | n + 1 => boxCells x y ++ textCells (x + 9) y n

theorem guiDrawFilledRect_eq (r : Rect) (color : UInt32) (g : GuiState) :
    guiDrawFilledRect r color g = drawCalls (paint (rectCells r) color) g := by
  simp only [guiDrawFilledRect, drawCalls_paint, rectCells, List.foldl_flatMap, List.foldl_map]

theorem guiDrawRect_eq (r : Rect) (color : UInt32) (g : GuiState) :
    guiDrawRect r color g = drawCalls (paint (outlineCells r) color) g := by
  simp only [guiDrawRect, drawCalls_paint, outlineCells, List.foldl_append, List.foldl_flatMap,
    List.foldl_cons, List.foldl_nil]

theorem charBox_eq (offsetX y : Int) (color : UInt32) (g : GuiState) :
    charBox offsetX y color g = drawCalls (paint (boxCells offsetX y) color) g := by
  simp only [charBox, drawCalls_paint, boxCells, List.foldl_flatMap, List.foldl_map, List.foldl_filter,
    decide_eq_true_eq]

theorem drawText_loop (y : Int) (color : UInt32) (text : CString) (g : GuiState) (x : Int) :
    text.foldl (fun (acc : GuiState × Int) _ => (charBox acc.2 y color acc.1, acc.2 + 9)) (g, x) =
      (drawCalls (paint (textCells x y text.length) color) g, x + 9 * text.length) := by
  induction text generalizing g x with
  | nil => simp [textCells, drawCalls, paint]
  | cons c text ih =>
    rw [List.foldl_cons]
    dsimp only
    rw [ih, charBox_eq, List.length_cons, textCells, paint_append, drawCalls_append, Prod.mk.injEq]
    refine ⟨rfl, ?_⟩
    push_cast
    ring

theorem guiDrawText_eq (x y : Int) (text : CString) (color : UInt32) (g : GuiState) :
    guiDrawText x y text color g = drawCalls (paint (textCells x y text.length) color) g := by
  rw [guiDrawText, drawText_loop]

/-! ### What each routine paints -/

/-- The pixels of a rectangle. -/
abbrev InRect (r : Rect) (p : Int × Int) : Prop :=
  r.x ≤ p.1 ∧ p.1 < r.x + r.width ∧ r.y ≤ p.2 ∧ p.2 < r.y + r.height

/-- The pixels `gui_draw_rect` reaches: the first and last row over the width, the first and
last column over the height. For a rectangle of width or height 0 or 1 the two coincide or fall
outside the rectangle. -/
abbrev OnOutline (r : Rect) (p : Int × Int) : Prop :=
  (r.x ≤ p.1 ∧ p.1 < r.x + r.width ∧ (p.2 = r.y ∨ p.2 = r.y + r.height - 1)) ∨
    (r.y ≤ p.2 ∧ p.2 < r.y + r.height ∧ (p.1 = r.x ∨ p.1 = r.x + r.width - 1))

/-- The pixels of `n` character boxes from `(x, y)`: column `(p.1 - x) % 9` of a box is 8 wide
and the ninth is the gap. -/
abbrev OnText (x y : Int) (n : Nat) (p : Int × Int) : Prop :=
  x ≤ p.1 ∧ p.1 < x + 9 * n ∧ (p.1 - x) % 9 < 8 ∧ y ≤ p.2 ∧ p.2 < y + 8 ∧
    ((p.1 - x) % 9 = 0 ∨ (p.1 - x) % 9 = 7 ∨ p.2 = y ∨ p.2 = y + 7)

theorem mem_rectCells {r : Rect} {p : Int × Int} : p ∈ rectCells r ↔ InRect r p := by
  obtain ⟨px, py⟩ := p
  simp only [rectCells, List.mem_flatMap, List.mem_map, mem_intRange, Prod.mk.injEq]
  constructor
  · rintro ⟨y, rows, x, columns, rfl, rfl⟩
    exact ⟨columns.1, columns.2, rows.1, rows.2⟩
  · rintro ⟨left, right, top, bottom⟩
    exact ⟨py, ⟨top, bottom⟩, px, ⟨left, right⟩, rfl, rfl⟩

theorem mem_outlineCells {r : Rect} {p : Int × Int} : p ∈ outlineCells r ↔ OnOutline r p := by
  obtain ⟨px, py⟩ := p
  simp only [outlineCells, List.mem_append, List.mem_flatMap, List.mem_cons, List.mem_nil_iff,
    or_false, mem_intRange, Prod.mk.injEq]
  constructor
  · rintro (⟨x, columns, (⟨rfl, rfl⟩ | ⟨rfl, rfl⟩)⟩ | ⟨y, rows, (⟨rfl, rfl⟩ | ⟨rfl, rfl⟩)⟩) <;> omega
  · rintro (⟨left, right, rows⟩ | ⟨top, bottom, columns⟩)
    · exact Or.inl ⟨px, ⟨left, right⟩, by omega⟩
    · exact Or.inr ⟨py, ⟨top, bottom⟩, by omega⟩

theorem mem_boxCells {offsetX y : Int} {p : Int × Int} : p ∈ boxCells offsetX y ↔ OnText offsetX y 1 p := by
  obtain ⟨px, py⟩ := p
  simp only [boxCells, List.mem_flatMap, List.mem_map, List.mem_filter, List.mem_range, decide_eq_true_eq,
    Prod.mk.injEq]
  constructor
  · rintro ⟨dy, rows, dx, ⟨columns, border⟩, rfl, rfl⟩
    omega
  · intro on
    exact ⟨(py - y).toNat, by omega, (px - offsetX).toNat, ⟨by omega, by omega⟩, by omega, by omega⟩

theorem mem_textCells {x y : Int} {n : Nat} {p : Int × Int} : p ∈ textCells x y n ↔ OnText x y n p := by
  induction n generalizing x with
  | zero =>
    simp only [textCells, List.not_mem_nil, false_iff]
    omega
  | succ n ih =>
    rw [textCells, List.mem_append, mem_boxCells, ih]
    omega

/-- The title bar of `gui_render_window`. -/
def titleBar (r : Rect) : Rect := ⟨r.x, r.y, r.width, 20⟩

/-- What `gui_render_window` leaves on a pixel, by the last routine that reaches it: the title
text, the title bar, the border, the background. A hidden or minimized window paints nothing. -/
def windowPaint (w : Window) (p : Int × Int) : Option UInt32 :=
  if w.state ≠ .visible then none
  else if w.title ≠ [] ∧ OnText (w.rect.x + 5) (w.rect.y + 6) w.title.length p then some colorWhite
  else if InRect (titleBar w.rect) p then some colorBlue
  else if OnOutline w.rect p then some colorBlack
  else if InRect w.rect p then some w.bgColor
  else none

/-- The pixel calls of `gui_render_window`. -/
def windowCalls (w : Window) : List ((Int × Int) × UInt32) :=
  if w.state ≠ .visible then []
  else paint (rectCells w.rect) w.bgColor ++ paint (outlineCells w.rect) colorBlack ++
    paint (rectCells (titleBar w.rect)) colorBlue ++
    if w.title ≠ [] then paint (textCells (w.rect.x + 5) (w.rect.y + 6) w.title.length) colorWhite else []

theorem guiRenderWindow_eq (w : Window) (g : GuiState) : guiRenderWindow w g = drawCalls (windowCalls w) g := by
  unfold guiRenderWindow windowCalls
  split
  · rfl
  · simp only [guiDrawFilledRect_eq, guiDrawRect_eq, guiDrawText_eq, drawCalls_append, titleBar]
    split
    · rfl
    · rfl

theorem lastWrite_windowCalls (w : Window) (p : Int × Int) : lastWrite (windowCalls w) p = windowPaint w p := by
  unfold windowCalls windowPaint
  split
  · rfl
  · have text : lastWrite (if w.title ≠ [] then
          paint (textCells (w.rect.x + 5) (w.rect.y + 6) w.title.length) colorWhite else []) p =
        if w.title ≠ [] ∧ OnText (w.rect.x + 5) (w.rect.y + 6) w.title.length p then some colorWhite
        else none := by
      split
      · next titled =>
        rw [lastWrite_paint]
        exact if_congr (mem_textCells.trans (and_iff_right titled).symm) rfl rfl
      · simp only [lastWrite_nil, false_and, *, if_false]
    simp only [lastWrite_append, text, lastWrite_paint, mem_rectCells, mem_outlineCells]
    split_ifs <;> rfl

/-- `gui_render_window` leaves on each pixel of the screen what `windowPaint` says, or what the
pixel held. -/
theorem gui_render_window_paints {g : GuiState} (booted : Booted g) {p : Int × Int} (on : OnScreen p)
    (w : Window) :
    (guiRenderWindow w g).framebuffer (cell p) = (windowPaint w p).getD (g.framebuffer (cell p)) := by
  rw [guiRenderWindow_eq, drawCalls_at booted on, lastWrite_windowCalls]

theorem gui_render_window_paints_title :
    Booted guiBoot ∧ OnScreen (15, 16) ∧
      (guiRenderWindow ⟨1, [65], ⟨10, 10, 100, 50⟩, colorLightgray, .visible⟩ guiBoot).framebuffer (cell (15, 16)) =
        ((windowPaint ⟨1, [65], ⟨10, 10, 100, 50⟩, colorLightgray, .visible⟩ (15, 16)).getD
          (guiBoot.framebuffer (cell (15, 16)))) :=
  ⟨⟨rfl, rfl⟩, by decide, gui_render_window_paints ⟨rfl, rfl⟩ (by decide) _⟩

theorem guiRenderAll_eq (g : GuiState) : guiRenderAll g = drawCalls (g.windowList.flatMap windowCalls) g := by
  -- the list the loop walks is fixed at its start, so the loop is over any list of windows
  suffices loop : ∀ (ws : List Window) (g' : GuiState),
      ws.foldl (fun g' w => guiRenderWindow w g') g' = drawCalls (ws.flatMap windowCalls) g' from
    loop g.windowList g
  intro ws
  induction ws with
  | nil => intro g'; rfl
  | cons w ws ih =>
    intro g'
    rw [List.foldl_cons, ih, guiRenderWindow_eq, List.flatMap_cons, drawCalls_append]

theorem guiRenderAll_at {g : GuiState} (booted : Booted g) {p : Int × Int} (on : OnScreen p) :
    (guiRenderAll g).framebuffer (cell p) =
      (g.windowList.reverse.findSome? fun w => windowPaint w p).getD (g.framebuffer (cell p)) := by
  rw [guiRenderAll_eq, drawCalls_at booted on, lastWrite_flatMap]
  simp only [lastWrite_windowCalls]

/-! ### The window list over a run -/

theorem guiClearScreen_repaints (color : UInt32) (g : GuiState) : Repaints g (guiClearScreen color g) := rfl

theorem renderById_repaints (window : Option UInt32) (g : GuiState) : Repaints g (renderById window g) := by
  unfold renderById
  split
  · rw [guiRenderWindow_eq]
    exact drawCalls_repaints _
  · exact Repaints.refl g

theorem GuiCall.apply_repaints (c : GuiCall) (draws : c.draws = true) (g : GuiState) :
    Repaints g (c.apply g) := by
  cases c
  case drawPixel x y color => exact guiDrawPixel_repaints x y color
  case drawRect r color =>
    rw [GuiCall.apply, guiDrawRect_eq]
    exact drawCalls_repaints _
  case drawFilledRect r color =>
    rw [GuiCall.apply, guiDrawFilledRect_eq]
    exact drawCalls_repaints _
  case drawText x y text color =>
    rw [GuiCall.apply, guiDrawText_eq]
    exact drawCalls_repaints _
  case renderWindow window => exact renderById_repaints window g
  case renderAll =>
    rw [GuiCall.apply, guiRenderAll_eq]
    exact drawCalls_repaints _
  case clearScreen color => exact guiClearScreen_repaints color g
  all_goals simp [GuiCall.draws] at draws

theorem unlinkWindow_sublist (id : UInt32) (ws : List Window) : (unlinkWindow id ws).Sublist ws := by
  induction ws with
  | nil => exact List.Sublist.slnil
  | cons w ws ih =>
    unfold unlinkWindow
    split
    · exact List.sublist_cons_self w ws
    · exact ih.cons_cons w

theorem updateWindow_ids (id : UInt32) (f : Window → Window) (keeps : ∀ w, (f w).id = w.id) (ws : List Window) :
    (updateWindow id f ws).map Window.id = ws.map Window.id := by
  induction ws with
  | nil => rfl
  | cons w ws ih =>
    unfold updateWindow
    split
    · rw [List.map_cons, List.map_cons, keeps]
    · rw [List.map_cons, List.map_cons, ih]

/-- The ids of the window list, newest first. -/
def windowIds (g : GuiState) : List UInt32 := g.windowList.map Window.id

/-- What holds from `gui_init` on while the id counter has not wrapped: the screen is set up,
and the ids fall strictly along the list and stay below `next_window_id`. -/
structure Live (g : GuiState) : Prop where
  booted : Booted g
  initialized : g.initialized = true
  descending : (windowIds g).Pairwise (· > ·)
  below : ∀ id ∈ windowIds g, id < g.nextWindowId

theorem live_guiBoot : Live guiBoot :=
  ⟨⟨rfl, rfl⟩, rfl, List.Pairwise.nil, fun _ mem => absurd mem List.not_mem_nil⟩

section Live

variable {g : GuiState}

theorem Live.repaints {g' : GuiState} (live : Live g) (repaints : Repaints g g') : Live g' := by
  rw [repaints]
  exact ⟨⟨live.booted.width_eq, live.booted.height_eq⟩, live.initialized, live.descending, live.below⟩

theorem Live.createWindow (live : Live g) (x y width height : Int) (title : Option CString) (allocated : Bool)
    (room : allocated = true → g.nextWindowId.toNat + 1 < 2 ^ 32) :
    Live (guiCreateWindow x y width height title allocated g).2 := by
  cases allocated
  · exact live
  · have next : g.nextWindowId < g.nextWindowId + 1 := by
      rw [UInt32.lt_iff_toNat_lt, UInt32.toNat_add, UInt32.toNat_one, Nat.mod_eq_of_lt (room rfl)]
      omega
    refine ⟨⟨live.booted.width_eq, live.booted.height_eq⟩, live.initialized,
      List.Pairwise.cons live.below live.descending, ?_⟩
    intro id mem
    rcases List.mem_cons.mp mem with rfl | old
    · exact next
    · exact UInt32.lt_trans (live.below id old) next

theorem Live.destroyWindow (live : Live g) (window : Option UInt32) : Live (guiDestroyWindow window g) := by
  cases window with
  | none => exact live
  | some id =>
    have sub : (windowIds (guiDestroyWindow (some id) g)).Sublist (windowIds g) :=
      (unlinkWindow_sublist id g.windowList).map Window.id
    exact ⟨⟨live.booted.width_eq, live.booted.height_eq⟩, live.initialized, live.descending.sublist sub,
      fun i mem => live.below i (sub.subset mem)⟩

theorem Live.setWindowState (live : Live g) (state : WindowState) (window : Option UInt32) :
    Live (guiSetWindowState state window g) := by
  cases window with
  | none => exact live
  | some id =>
    have same : windowIds (guiSetWindowState state (some id) g) = windowIds g :=
      updateWindow_ids id (fun w => { w with state := state }) (fun _ => rfl) g.windowList
    refine ⟨⟨live.booted.width_eq, live.booted.height_eq⟩, live.initialized, same ▸ live.descending, ?_⟩
    rw [same]
    exact live.below

theorem Live.apply (live : Live g) (c : GuiCall) (room : c.creates = true → g.nextWindowId.toNat + 1 < 2 ^ 32) :
    Live (c.apply g) := by
  by_cases draws : c.draws = true
  · exact live.repaints (c.apply_repaints draws g)
  cases c
  case init =>
    rw [GuiCall.apply, guiInit, if_pos live.initialized]
    exact live
  case createWindow x y width height title allocated => exact live.createWindow x y width height title allocated room
  case destroyWindow window => exact live.destroyWindow window
  case showWindow window => exact live.setWindowState .visible window
  case hideWindow window => exact live.setWindowState .hidden window
  all_goals simp [GuiCall.draws] at draws

theorem GuiCall.apply_nextWindowId (initialized : g.initialized = true) (c : GuiCall) :
    (c.apply g).nextWindowId = if c.creates then g.nextWindowId + 1 else g.nextWindowId := by
  by_cases draws : c.draws = true
  · have quiet : c.creates = false := by cases c <;> simp_all [GuiCall.draws, GuiCall.creates]
    rw [c.apply_repaints draws g, quiet, if_neg Bool.false_ne_true]
  cases c
  case init => simp [GuiCall.apply, guiInit, initialized, GuiCall.creates]
  case createWindow x y width height title allocated => cases allocated <;> rfl
  case destroyWindow window => cases window <;> rfl
  case showWindow window => cases window <;> rfl
  case hideWindow window => cases window <;> rfl
  all_goals simp [GuiCall.draws] at draws

end Live

/-- A run that creates no more windows than the id counter has room for keeps the invariant,
and the counter has moved on by one for each window created. -/
theorem live_run (calls : List GuiCall) (g : GuiState) (live : Live g)
    (room : g.nextWindowId.toNat + calls.countP GuiCall.creates < 2 ^ 32) :
    Live (Runs.run GuiCall.apply calls g) ∧
      (Runs.run GuiCall.apply calls g).nextWindowId.toNat = g.nextWindowId.toNat + calls.countP GuiCall.creates := by
  induction calls generalizing g with
  | nil => exact ⟨live, rfl⟩
  | cons c calls ih =>
    rw [List.countP_cons] at room
    have roomHere : c.creates = true → g.nextWindowId.toNat + 1 < 2 ^ 32 := by
      intro creates
      rw [if_pos creates] at room
      omega
    -- the call takes one id from the counter, or none
    have counter : (c.apply g).nextWindowId.toNat = g.nextWindowId.toNat + if c.creates then 1 else 0 := by
      rw [GuiCall.apply_nextWindowId live.initialized]
      split
      · next creates => rw [UInt32.toNat_add, UInt32.toNat_one, Nat.mod_eq_of_lt (roomHere creates)]
      · rfl
    obtain ⟨after, counted⟩ := ih (c.apply g) (live.apply c roomHere) (by rw [counter]; omega)
    rw [Runs.run_cons, List.countP_cons, counted, counter]
    exact ⟨after, by omega⟩

/-- From `kmain`'s `gui_init`, over every run of the calls of `gui.c` that creates fewer than
2^32 - 1 windows, `gui_render_all` shows on each pixel the paint of the oldest window, the one
of smallest id, among the windows that paint it. -/
theorem gui_render_all_oldest_on_top (calls : List GuiCall) (few : calls.countP GuiCall.creates < 2 ^ 32 - 1)
    {p : Int × Int} (on : OnScreen p) {w : Window} (live : w ∈ (Runs.run GuiCall.apply calls guiBoot).windowList)
    {color : UInt32} (paints : windowPaint w p = some color)
    (oldest : ∀ w' ∈ (Runs.run GuiCall.apply calls guiBoot).windowList, w'.id < w.id → windowPaint w' p = none) :
    (guiRenderAll (Runs.run GuiCall.apply calls guiBoot)).framebuffer (cell p) = color := by
  have reachable := (live_run calls guiBoot live_guiBoot (by rw [show guiBoot.nextWindowId.toNat = 1 from rfl]; omega)).1
  -- the list reversed is ordered by increasing id, and `findSome?` takes the first that paints
  have increasing : (Runs.run GuiCall.apply calls guiBoot).windowList.reverse.Pairwise fun a b => a.id < b.id :=
    List.pairwise_reverse.mpr (List.pairwise_map.mp reachable.descending)
  rw [guiRenderAll_at reachable.booted on,
    findSome_of_first increasing (List.mem_reverse.mpr live) paints fun w' mem => oldest w' (List.mem_reverse.mp mem)]
  rfl

/-- Two overlapping windows: the newer one's title bar covers `(30, 30)`. -/
def twoWindows : List GuiCall := [.createWindow 0 0 40 40 none true, .createWindow 20 20 40 40 none true]

/-- The newer window's title bar is blue at `(30, 30)`, but the older window is drawn over it. -/
theorem gui_render_all_oldest_on_top_two_windows :
    (guiRenderAll (Runs.run GuiCall.apply twoWindows guiBoot)).framebuffer (cell (30, 30)) = colorLightgray :=
  gui_render_all_oldest_on_top twoWindows (by decide) (by decide)
    (w := ⟨1, [], ⟨0, 0, 40, 40⟩, colorLightgray, .visible⟩) (List.mem_cons_of_mem _ (List.mem_singleton_self _))
    (by decide) (by decide)

theorem Live.ids_nodup {g : GuiState} (live : Live g) : (windowIds g).Nodup := by
  refine live.descending.imp ?_
  intro a b later same
  subst same
  exact UInt32.lt_irrefl a later

theorem unlinkWindow_eq_filter (id : UInt32) {ws : List Window} (unique : (ws.map Window.id).Nodup) :
    unlinkWindow id ws = ws.filter fun w => w.id ≠ id := by
  induction ws with
  | nil => rfl
  | cons w ws ih =>
    rw [List.map_cons, List.nodup_cons] at unique
    unfold unlinkWindow
    split
    · next found =>
      have others : ∀ v ∈ ws, v.id ≠ id := fun v mem same =>
        unique.1 (found ▸ same ▸ List.mem_map_of_mem mem)
      rw [List.filter_cons_of_neg (by simp [found]), List.filter_eq_self.mpr (by simpa using others)]
    · next other => rw [List.filter_cons_of_pos (by simpa using other), ih unique.2]

theorem updateWindow_eq_map (id : UInt32) (f : Window → Window) {ws : List Window}
    (unique : (ws.map Window.id).Nodup) :
    updateWindow id f ws = ws.map fun w => if w.id = id then f w else w := by
  induction ws with
  | nil => rfl
  | cons w ws ih =>
    rw [List.map_cons, List.nodup_cons] at unique
    unfold updateWindow
    split
    · next found =>
      have others : ∀ v ∈ ws, (if v.id = id then f v else v) = v := fun v mem => if_neg fun same =>
        unique.1 (found ▸ (same : v.id = id) ▸ List.mem_map_of_mem mem)
      rw [List.map_cons, if_pos found, List.map_congr_left others, List.map_id']
    · next other => rw [List.map_cons, if_neg other, ih unique.2]

/-- Over every run from `gui_init` that creates fewer than 2^32 - 1 windows, the ids of the
live windows are distinct, so `gui_destroy_window` removes exactly the windows with its id and
`gui_show_window` and `gui_hide_window` set the state of exactly those, the rest of the list
kept in order. -/
theorem gui_window_ops_by_id (calls : List GuiCall) (few : calls.countP GuiCall.creates < 2 ^ 32 - 1)
    (id : UInt32) (state : WindowState) :
    (windowIds (Runs.run GuiCall.apply calls guiBoot)).Nodup ∧
      (guiDestroyWindow (some id) (Runs.run GuiCall.apply calls guiBoot)).windowList =
        (Runs.run GuiCall.apply calls guiBoot).windowList.filter (fun w => w.id ≠ id) ∧
      (guiSetWindowState state (some id) (Runs.run GuiCall.apply calls guiBoot)).windowList =
        (Runs.run GuiCall.apply calls guiBoot).windowList.map
          (fun w => if w.id = id then { w with state := state } else w) := by
  have reachable := (live_run calls guiBoot live_guiBoot (by rw [show guiBoot.nextWindowId.toNat = 1 from rfl]; omega)).1
  exact ⟨reachable.ids_nodup, unlinkWindow_eq_filter id reachable.ids_nodup,
    updateWindow_eq_map id _ reachable.ids_nodup⟩

theorem gui_window_ops_by_id_two_windows :
    (windowIds (Runs.run GuiCall.apply twoWindows guiBoot)).Nodup ∧
      (guiDestroyWindow (some 1) (Runs.run GuiCall.apply twoWindows guiBoot)).windowList =
        (Runs.run GuiCall.apply twoWindows guiBoot).windowList.filter (fun w => w.id ≠ 1) ∧
      (guiSetWindowState .hidden (some 1) (Runs.run GuiCall.apply twoWindows guiBoot)).windowList =
        (Runs.run GuiCall.apply twoWindows guiBoot).windowList.map
          (fun w => if w.id = 1 then { w with state := .hidden } else w) :=
  gui_window_ops_by_id twoWindows (by decide) 1 .hidden

end OpenOS.Gui
