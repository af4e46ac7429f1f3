import VisualNovel.Drawing.Easel
import VisualNovel.Proofs.Act

/-!
A picture over a rectangle in nine pieces. The places of the pieces lie in the rectangle and do not
overlap, but they do not always fill it: a picture that is just as wide, or as high, as two of its
corners has no middle to stretch, and where the rectangle is larger the middle stays free. Main
statement: `sliced_covers`.
-/

namespace VisualNovel

/-! ### Numbers that go round -/

theorem goRound_goRound_add (a b : Int) : goRound (goRound a + b) = goRound (a + b) :=
  Int.bmod_add_bmod

theorem goRound_goRound_sub (a b : Int) : goRound (goRound a - b) = goRound (a - b) :=
  Int.bmod_sub_bmod

theorem goRound_bounds (n : Int) : -2147483648 ≤ goRound n ∧ goRound n ≤ 2147483647 := by
  have hlow := @Int.le_bmod n 4294967296 (by decide)
  have hhigh := @Int.bmod_lt n 4294967296 (by decide)
  unfold goRound
  omega

/-- Numbers closer to each other than a whole round are told apart. -/
theorem goRound_injective {a b : Int} (h : goRound a = goRound b) (hlow : a - b < 4294967296)
    (hhigh : b - a < 4294967296) : a = b := by
  have hzero := Int.bmod_eq_bmod_iff_bmod_sub_eq_zero.1 h
  have hdvd : (4294967296 : Int) ∣ a - b := Int.dvd_of_bmod_eq_zero hzero
  omega

namespace Rect

/-- A rectangle of some size, with numbers of 32 bits. -/
structure IsProper (r : Rect) : Prop where
  x : fits r.x
  y : fits r.y
  width : 0 < r.width ∧ fits r.width
  height : 0 < r.height ∧ fits r.height

/-- A rectangle with numbers of 32 bits, maybe of no size or of a negative one. -/
structure Fits (r : Rect) : Prop where
  x : fits r.x
  y : fits r.y
  width : fits r.width
  height : fits r.height

theorem IsProper.fits {r : Rect} (h : r.IsProper) : r.Fits :=
  ⟨h.x, h.y, h.width.2, h.height.2⟩

/-- The pixels of a rectangle. Like its numbers they go round. -/
def Holds (r : Rect) (pixel : Int × Int) : Prop :=
  ∃ i j, (0 ≤ i ∧ i < r.width) ∧ (0 ≤ j ∧ j < r.height) ∧
    pixel = (goRound (r.x + i), goRound (r.y + j))

/-- Two rectangles without a common pixel. -/
def Apart (r s : Rect) : Prop := ∀ pixel, ¬ (r.Holds pixel ∧ s.Holds pixel)

theorem fits_iff {n : Int} : fits n ↔ -2147483648 ≤ n ∧ n ≤ 2147483647 := by
  simp [fits]

theorem ofNumbers?_of_accepted {x y width height : Int}
    (h : ∀ n ∈ [x, y, width, height], isAccepted n) :
    ofNumbers? x y width height = some ⟨goRound x, goRound y, goRound width, goRound height⟩ :=
  if_pos (List.all_eq_true.2 h)

/-- If its edges have 32 bits, too, the pixels of a rectangle are those between its edges. -/
theorem holds_iff_contains {r : Rect} (h : r.IsProper) (hright : fits (r.x + r.width))
    (hbottom : fits (r.y + r.height)) (x y : Int) : r.Holds (x, y) ↔ r.contains x y := by
  obtain ⟨hx, hy, ⟨-, hwidth⟩, ⟨-, hheight⟩⟩ := h
  rw [fits_iff] at *
  have hr : r.right = r.x + r.width := goRound_of_fits hright.1 hright.2
  have hb : r.bottom = r.y + r.height := goRound_of_fits hbottom.1 hbottom.2
  unfold contains
  simp only [Bool.and_eq_true, decide_eq_true_eq, hr, hb]
  constructor
  · rintro ⟨i, j, hi, hj, heq⟩
    obtain ⟨rfl, rfl⟩ := Prod.mk.inj heq
    rw [goRound_of_fits (by omega) (by omega), goRound_of_fits (by omega) (by omega)]
    omega
  · rintro ⟨⟨⟨hxlow, hxhigh⟩, hylow⟩, hyhigh⟩
    refine ⟨x - r.x, y - r.y, by omega, by omega, ?_⟩
    rw [show r.x + (x - r.x) = x by omega, show r.y + (y - r.y) = y by omega,
      goRound_of_fits (by omega) (by omega), goRound_of_fits (by omega) (by omega)]

end Rect

/-! ### The stretches of a side -/

/-- A stretch of a picture's side and the stretch of a rectangle's side that it goes to. -/
abbrev Band := (Int × Int) × (Int × Int)

namespace Band

/-- The bands of a picture of a length, over the side of a rectangle. -/
def all (source start length corner : Int) : List Band :=
  (stretches 0 source corner).zip (stretches start (goRound (start + length)) corner)

/-- The band with its numbers gone round. -/
def round (b : Band) : Band := ((goRound b.1.1, goRound b.1.2), (goRound b.2.1, goRound b.2.2))

/-- There is something to draw, and room for it. -/
def isDrawn (b : Band) : Bool := 0 < b.1.2 && 0 < b.2.2

/-- The numbers of the band are accepted for rectangles. -/
def IsAccepted (b : Band) : Prop := ∀ n ∈ [b.1.1, b.1.2, b.2.1, b.2.2], Rect.isAccepted n

end Band

/-- The stretches of a rectangle's side that are drawn on: where each begins, counted from the start
    of the side, and how long it is. The middle is missing if the picture has none, or if the side
    has none. -/
def drawnStretches (source length corner : Int) : List (Int × Int) :=
  if 2 * corner < source ∧ 2 * corner < length then
    [(0, corner), (corner, length - 2 * corner), (length - corner, corner)]
  else [(0, corner), (length - corner, corner)]

section Side

variable {source start length corner : Int}

/-- The numbers of a side: a corner is in it twice, and so it is in the picture. -/
structure Fitting (source start length corner : Int) : Prop where
  source : 2 * corner ≤ source ∧ source ≤ 2147483647
  start : -2147483648 ≤ start ∧ start ≤ 2147483647
  length : 2 * corner ≤ length ∧ length ≤ 2147483647
  corner : 0 < corner

theorem Fitting.isAccepted (h : Fitting source start length corner) :
    ∀ b ∈ Band.all source start length corner, b.IsAccepted := by
  obtain ⟨hsource, hstart, hlength, hcorner⟩ := h
  have hstop := goRound_bounds (start + length)
  have haccepted {n : Int} (hlow : -9223372036854775808 ≤ n) (hhigh : n ≤ 9223372036854775807) :
      Rect.isAccepted n := by simp [Rect.isAccepted, hlow, hhigh]
  simp only [Band.all, stretches, Band.IsAccepted, List.zip_cons_cons, List.zip_nil_left,
    List.forall_mem_cons]
  refine ⟨?_, ?_, ?_, by simp⟩ <;> refine ⟨?_, ?_, ?_, ?_, by simp⟩ <;>
    exact haccepted (by omega) (by omega)

/-- The places of the bands that are drawn. -/
theorem Fitting.drawn (h : Fitting source start length corner) :
    (((Band.all source start length corner).map Band.round).filter Band.isDrawn).map (·.2) =
      (drawnStretches source length corner).map fun stretch =>
        (goRound (start + stretch.1), stretch.2) := by
  obtain ⟨hsource, hstart, hlength, hcorner⟩ := h
  have hsame : goRound corner = corner := goRound_of_fits (by omega) (by omega)
  have hsourceMiddle : goRound (source - corner - (0 + corner)) = source - 2 * corner := by
    rw [goRound_of_fits (by omega) (by omega)]
    omega
  have hmiddle : goRound (goRound (start + length) - corner - (start + corner)) =
      length - 2 * corner := by
    rw [Int.sub_sub, goRound_goRound_sub, goRound_of_fits (by omega) (by omega)]
    omega
  have hend : goRound (goRound (start + length) - corner) = goRound (start + (length - corner)) := by
    rw [goRound_goRound_sub, Int.add_sub_assoc]
  have hcornerDrawn (a d : Int) : Band.isDrawn ((a, corner), (d, corner)) = true := by
    simp [Band.isDrawn, hcorner]
  unfold Band.all stretches drawnStretches
  simp only [List.zip_cons_cons, List.zip_nil_left, List.map_cons, List.map_nil, Band.round, hsame,
    hsourceMiddle, hmiddle, hend]
  rw [List.filter_cons_of_pos (hcornerDrawn _ _), List.filter_cons]
  by_cases hdrawn : 2 * corner < source ∧ 2 * corner < length
  · have hsome : Band.isDrawn ((goRound (0 + corner), source - 2 * corner),
        (goRound (start + corner), length - 2 * corner)) = true := by
      simp only [Band.isDrawn, Bool.and_eq_true, decide_eq_true_eq]
      omega
    rw [if_pos hsome, if_pos hdrawn, List.filter_cons_of_pos (hcornerDrawn _ _)]
    simp
  · have hnone : ¬ Band.isDrawn ((goRound (0 + corner), source - 2 * corner),
        (goRound (start + corner), length - 2 * corner)) = true := by
      simp only [Band.isDrawn, Bool.and_eq_true, decide_eq_true_eq]
      omega
    rw [if_neg hnone, if_neg hdrawn, List.filter_cons_of_pos (hcornerDrawn _ _)]
    simp

/-- What is drawn of a side lies in it. -/
theorem Fitting.drawn_inside (h : Fitting source start length corner) {stretch : Int × Int}
    (hstretch : stretch ∈ drawnStretches source length corner) :
    0 ≤ stretch.1 ∧ 0 < stretch.2 ∧ stretch.1 + stretch.2 ≤ length := by
  obtain ⟨-, -, hlength, hcorner⟩ := h
  unfold drawnStretches at hstretch
  split at hstretch <;> simp only [List.mem_cons, List.not_mem_nil, or_false] at hstretch
  · rcases hstretch with rfl | rfl | rfl <;> dsimp only <;> omega
  · rcases hstretch with rfl | rfl <;> dsimp only <;> omega

/-- One stretch ends before the next begins. -/
theorem Fitting.drawn_apart (h : Fitting source start length corner) :
    (drawnStretches source length corner).Pairwise fun a b => a.1 + a.2 ≤ b.1 := by
  obtain ⟨-, -, hlength, hcorner⟩ := h
  unfold drawnStretches
  split
  · simp only [List.pairwise_cons, List.mem_cons, List.not_mem_nil, or_false]
    refine ⟨?_, ?_, by simp, .nil⟩
    · rintro b (rfl | rfl) <;> dsimp only <;> omega
    · rintro b rfl
      dsimp only
      omega
  · simp only [List.pairwise_cons, List.mem_cons, List.not_mem_nil, or_false]
    refine ⟨?_, by simp, .nil⟩
    rintro b rfl
    dsimp only
    omega

/-- A point of the side is drawn on, unless it is in a middle that the picture does not have. -/
theorem Fitting.drawn_iff (h : Fitting source start length corner) {i : Int} (hlow : 0 ≤ i)
    (hhigh : i < length) :
    (∃ stretch ∈ drawnStretches source length corner, stretch.1 ≤ i ∧ i < stretch.1 + stretch.2) ↔
      ¬ (source = 2 * corner ∧ corner ≤ i ∧ i < length - corner) := by
  obtain ⟨hsource, -, hlength, hcorner⟩ := h
  unfold drawnStretches
  split
  · simp only [List.mem_cons, List.not_mem_nil, or_false, exists_eq_or_imp, exists_eq_left]
    omega
  · simp only [List.mem_cons, List.not_mem_nil, or_false, exists_eq_or_imp, exists_eq_left]
    omega

end Side

/-! ### The pieces -/

theorem mapM_eq_some_of_forall {α β : Type} {f : α → Option β} {g : α → β} {as : List α}
    (h : ∀ a ∈ as, f a = some (g a)) : as.mapM f = some (as.map g) := by
  induction as with
  | nil => rfl
  | cons a as ih =>
    obtain ⟨ha, has⟩ := List.forall_mem_cons.1 h
    rw [List.mapM_cons, ha, ih has]
    rfl

/-- What satisfies a condition on its row and one on its column is in a row and in a column that
    do. -/
theorem filter_rows_columns {α : Type} (keep : α → Bool) (rows columns : List α) :
    (rows.flatMap fun row => columns.map (row, ·)).filter (fun cell => keep cell.1 && keep cell.2) =
      (rows.filter keep).flatMap fun row => (columns.filter keep).map (row, ·) := by
  induction rows with
  | nil => rfl
  | cons row rows ih =>
    rw [List.flatMap_cons, List.filter_append, ih, List.filter_map]
    by_cases hrow : keep row
    · rw [List.filter_cons_of_pos hrow, List.flatMap_cons]
      simp [Function.comp_def, hrow]
    · rw [List.filter_cons_of_neg hrow]
      simp [Function.comp_def, hrow]

/-- The place of a piece in a row and a column. -/
def placeOf (row column : Int × Int) : Rect := ⟨column.1, row.1, column.2, row.2⟩

/-- The piece of a row and a column, with its place. -/
def pieceOf (row column : Band) : Rect × Rect := (placeOf row.1 column.1, placeOf row.2 column.2)

/-- The piece has a size, and so has its place. -/
def isDrawnPiece (piece : Rect × Rect) : Bool :=
  0 < piece.1.width && 0 < piece.1.height && 0 < piece.2.width && 0 < piece.2.height

theorem isDrawnPiece_pieceOf (row column : Band) :
    isDrawnPiece (pieceOf row column) = (row.isDrawn && column.isDrawn) := by
  rw [Bool.eq_iff_iff]
  unfold isDrawnPiece Band.isDrawn
  simp only [Bool.and_eq_true, decide_eq_true_eq]
  show ((0 < column.1.2 ∧ 0 < row.1.2) ∧ 0 < column.2.2) ∧ 0 < row.2.2 ↔ _
  omega

/-- The places of the pieces that are drawn, row by row. -/
def piecePlaces (width height corner : Int) (r : Rect) : List Rect :=
  (drawnStretches height r.height corner).flatMap fun row =>
    (drawnStretches width r.width corner).map fun column =>
      placeOf (goRound (r.y + row.1), row.2) (goRound (r.x + column.1), column.2)

/-- The bands of the rows and of the columns make pieces with accepted numbers. -/
theorem Fitting.pieceOf_eq {width height corner : Int} {r : Rect}
    (hcolumns : Fitting width r.x r.width corner) (hrows : Fitting height r.y r.height corner)
    {row column : Band} (hrow : row ∈ Band.all height r.y r.height corner)
    (hcolumn : column ∈ Band.all width r.x r.width corner) :
    (do
      let source ← Rect.ofNumbers? column.1.1 row.1.1 column.1.2 row.1.2
      let place ← Rect.ofNumbers? column.2.1 row.2.1 column.2.2 row.2.2
      return (source, place) : Option (Rect × Rect)) = some (pieceOf row.round column.round) := by
  have hr := hrows.isAccepted row hrow
  have hc := hcolumns.isAccepted column hcolumn
  simp only [Band.IsAccepted, List.forall_mem_cons] at hr hc
  rw [Rect.ofNumbers?_of_accepted (by simp [hr, hc]), Rect.ofNumbers?_of_accepted (by simp [hr, hc])]
  rfl

/-- The pieces of a picture go to places in all rows and columns that are drawn. -/
theorem slices?_eq {width height corner : Int} {r : Rect}
    (hcolumns : Fitting width r.x r.width corner) (hrows : Fitting height r.y r.height corner) :
    ∃ pieces, slices? width height corner r = some pieces ∧
      pieces.map (·.2) = piecePlaces width height corner r := by
  have hrow := hrows.drawn
  have hcolumn := hcolumns.drawn
  have hslices : slices? width height corner r =
      some (((((Band.all height r.y r.height corner).map Band.round).flatMap fun row =>
        ((Band.all width r.x r.width corner).map Band.round).map (row, ·)).map fun cell =>
          pieceOf cell.1 cell.2).filter isDrawnPiece) := by
    unfold slices?
    dsimp only
    rw [mapM_eq_some_of_forall (g := fun cell => pieceOf (Band.round cell.1) (Band.round cell.2))]
    · rw [List.flatMap_map, List.map_flatMap]
      simp only [List.map_map]
      rw [List.map_flatMap]
      simp only [List.map_map]
      rfl
    · intro cell hcell
      obtain ⟨row, hrow, hmem⟩ := List.mem_flatMap.1 hcell
      obtain ⟨column, hcolumn, rfl⟩ := List.mem_map.1 hmem
      exact hcolumns.pieceOf_eq hrows hrow hcolumn
  refine ⟨_, hslices, ?_⟩
  generalize (Band.all height r.y r.height corner).map Band.round = rows at *
  generalize (Band.all width r.x r.width corner).map Band.round = columns at *
  have hdrawn : isDrawnPiece ∘ (fun cell : Band × Band => pieceOf cell.1 cell.2) =
      fun cell => cell.1.isDrawn && cell.2.isDrawn :=
    funext fun cell => isDrawnPiece_pieceOf cell.1 cell.2
  rw [List.filter_map, hdrawn, filter_rows_columns, List.map_map, List.map_flatMap]
  calc ((rows.filter Band.isDrawn).flatMap fun row =>
        ((columns.filter Band.isDrawn).map (row, ·)).map
          ((·.2) ∘ fun cell : Band × Band => pieceOf cell.1 cell.2))
      = ((rows.filter Band.isDrawn).map (·.2)).flatMap fun row =>
          ((columns.filter Band.isDrawn).map (·.2)).map (placeOf row) := by
        rw [List.flatMap_map]
        simp only [List.map_map]
        rfl
    _ = piecePlaces width height corner r := by
        rw [hrow, hcolumn, List.flatMap_map]
        simp only [List.map_map]
        rfl

/-! ### Drawing them -/

/-- The rectangle of the surface that a picture is drawn on. -/
def Stroke.place? : Stroke → Option Rect
  | .blit p x y => some ⟨x, y, p.width, p.height⟩
  | .fill _ | .clip _ => none

namespace Draw

@[simp] theorem outcome_blit (p : Picture) (x y : Int) (e : Easel) :
    (blit p x y).outcome e = (.ok (), { e with strokes := e.strokes ++ [.blit p x y] }) := rfl

/-- A picture is stretched over exactly the rectangle. -/
theorem outcome_stretch {p : Picture} {r : Rect} (hwidth : 0 ≤ r.width) (hheight : 0 ≤ r.height)
    (e : Easel) :
    ∃ s, (stretch p r).outcome e = (.ok (), { e with strokes := e.strokes ++ [s] }) ∧
      s.place? = some r := by
  unfold stretch Picture.scale
  rw [if_neg (by omega)]
  exact ⟨_, rfl, rfl⟩

/-- A piece of a picture goes to its place, stretched if need be. -/
def piece (p : Picture) (piece : Rect × Rect) : Draw Unit := do
  let cut := p.cut piece.1
  let cut ←
    if piece.1.width = piece.2.width ∧ piece.1.height = piece.2.height then pure cut
    else cut.scale piece.2.width piece.2.height
  blit cut piece.2.x piece.2.y

theorem sliced_eq {p : Picture} {r : Rect} {border : Int} {pieces : List (Rect × Rect)}
    (hcorner : cornerSize p.width p.height border r ≠ 0)
    (h : slices? p.width p.height (cornerSize p.width p.height border r) r = some pieces) :
    sliced p r border = pieces.forM (piece p) := by
  unfold sliced
  dsimp only
  rw [if_neg hcorner, h]
  rfl

/-- A piece is drawn on exactly its place. -/
theorem outcome_piece (p : Picture) (source : Rect) {place : Rect} (hwidth : 0 ≤ place.width)
    (hheight : 0 ≤ place.height) (e : Easel) :
    ∃ s, (piece p (source, place)).outcome e = (.ok (), { e with strokes := e.strokes ++ [s] }) ∧
      s.place? = some place := by
  unfold piece
  dsimp only
  split
  · next hsame =>
    refine ⟨_, rfl, ?_⟩
    show some (⟨place.x, place.y, source.width, source.height⟩ : Rect) = _
    rw [hsame.1, hsame.2]
  · unfold Picture.scale
    rw [if_neg (by omega)]
    exact ⟨_, rfl, rfl⟩

theorem outcome_pieces (p : Picture) {pieces : List (Rect × Rect)}
    (h : ∀ place ∈ pieces.map (·.2), 0 ≤ place.width ∧ 0 ≤ place.height) (e : Easel) :
    ∃ strokes, (pieces.forM (piece p)).outcome e =
        (.ok (), { e with strokes := e.strokes ++ strokes }) ∧
      strokes.map Stroke.place? = (pieces.map (·.2)).map some := by
  induction pieces generalizing e with
  | nil => exact ⟨[], by simp, rfl⟩
  | cons first rest ih =>
    obtain ⟨source, place⟩ := first
    rw [List.map_cons, List.forall_mem_cons] at h
    obtain ⟨s, houtcome, hs⟩ := outcome_piece p source h.1.1 h.1.2 e
    obtain ⟨strokes, hrest, hstrokes⟩ := ih h.2 { e with strokes := e.strokes ++ [s] }
    refine ⟨s :: strokes, ?_, by simp [hs, hstrokes]⟩
    show (piece p (source, place) >>= fun _ => rest.forM (piece p)).outcome e = _
    rw [Act.outcome_bind_of_ok houtcome, hrest, List.append_assoc, List.singleton_append]

end Draw

/-! ### What is covered -/

/-- A corner that is drawn is at most half of each side, of the picture and of the rectangle. -/
theorem cornerSize_spec {width height border : Int} {r : Rect}
    (h : cornerSize width height border r ≠ 0) :
    0 < cornerSize width height border r ∧
      2 * cornerSize width height border r ≤ width ∧ 2 * cornerSize width height border r ≤ height ∧
      2 * cornerSize width height border r ≤ r.width ∧
      2 * cornerSize width height border r ≤ r.height := by
  unfold cornerSize at h ⊢
  omega

namespace Rect

/-- A part of a rectangle: where its rows and columns begin, counted from the edges of the whole, and
    how many there are. -/
def part (r : Rect) (rows columns : Int × Int) : Rect :=
  placeOf (goRound (r.y + rows.1), rows.2) (goRound (r.x + columns.1), columns.2)

/-- Rows, or columns, of a rectangle. -/
def Within (length : Int) (stretch : Int × Int) : Prop :=
  0 ≤ stretch.1 ∧ 0 < stretch.2 ∧ stretch.1 + stretch.2 ≤ length

variable {r : Rect} {rows columns : Int × Int}

/-- The pixels of a part are those of the whole in its rows and columns. -/
theorem holds_part_iff (hrows : Within r.height rows)
    (hcolumns : Within r.width columns) {pixel : Int × Int} :
    (r.part rows columns).Holds pixel ↔ ∃ i j, (0 ≤ i ∧ i < r.width) ∧ (0 ≤ j ∧ j < r.height) ∧
      pixel = (goRound (r.x + i), goRound (r.y + j)) ∧
      (columns.1 ≤ i ∧ i < columns.1 + columns.2) ∧ rows.1 ≤ j ∧ j < rows.1 + rows.2 := by
  have hshift (a b c : Int) : goRound (goRound (a + b) + c) = goRound (a + (b + c)) := by
    rw [goRound_goRound_add, Int.add_assoc]
  obtain ⟨hrowLow, -, hrowHigh⟩ := hrows
  obtain ⟨hcolumnLow, -, hcolumnHigh⟩ := hcolumns
  constructor
  · rintro ⟨i, j, hi, hj, rfl⟩
    dsimp only [part, placeOf] at hi hj ⊢
    refine ⟨columns.1 + i, rows.1 + j, by omega, by omega, ?_, by omega, by omega⟩
    rw [hshift, hshift]
  · rintro ⟨i, j, hi, hj, rfl, hcolumn, hrow⟩
    refine ⟨i - columns.1, j - rows.1, ?_, ?_, ?_⟩
    · dsimp only [part, placeOf]
      omega
    · dsimp only [part, placeOf]
      omega
    · dsimp only [part, placeOf]
      rw [hshift, hshift, show columns.1 + (i - columns.1) = i by omega,
        show rows.1 + (j - rows.1) = j by omega]

/-- A pixel of a rectangle is told from the others by its row and its column. -/
theorem pixel_injective (h : r.IsProper) {i j i' j' : Int} (hi : 0 ≤ i ∧ i < r.width)
    (hj : 0 ≤ j ∧ j < r.height) (hi' : 0 ≤ i' ∧ i' < r.width) (hj' : 0 ≤ j' ∧ j' < r.height)
    (heq : (goRound (r.x + i), goRound (r.y + j)) = (goRound (r.x + i'), goRound (r.y + j'))) :
    i = i' ∧ j = j' := by
  have hwidth := fits_iff.1 h.width.2
  have hheight := fits_iff.1 h.height.2
  obtain ⟨hx, hy⟩ := Prod.mk.inj heq
  have hcolumn := goRound_injective hx (by omega) (by omega)
  have hrow := goRound_injective hy (by omega) (by omega)
  omega

/-- Parts in different rows, or in different columns, are apart. -/
theorem apart_part (h : r.IsProper) {rows' columns' : Int × Int} (hrows : Within r.height rows)
    (hcolumns : Within r.width columns) (hrows' : Within r.height rows')
    (hcolumns' : Within r.width columns')
    (hapart : rows.1 + rows.2 ≤ rows'.1 ∨ columns.1 + columns.2 ≤ columns'.1) :
    (r.part rows columns).Apart (r.part rows' columns') := by
  rintro pixel ⟨hpixel, hpixel'⟩
  obtain ⟨i, j, hi, hj, rfl, hcolumn, hrow⟩ := (holds_part_iff hrows hcolumns).1 hpixel
  obtain ⟨i', j', hi', hj', heq, hcolumn', hrow'⟩ := (holds_part_iff hrows' hcolumns').1 hpixel'
  have hsame := pixel_injective h hi hj hi' hj' heq
  omega

end Rect

section Pieces

variable {width height corner : Int} {r : Rect}

theorem Fitting.within {source start length corner : Int}
    (h : Fitting source start length corner) {stretch : Int × Int}
    (hstretch : stretch ∈ drawnStretches source length corner) : Rect.Within length stretch :=
  h.drawn_inside hstretch

/-- The places of the pieces are parts of the rectangle. -/
theorem mem_piecePlaces {place : Rect} :
    place ∈ piecePlaces width height corner r ↔
      ∃ rows ∈ drawnStretches height r.height corner,
        ∃ columns ∈ drawnStretches width r.width corner, r.part rows columns = place := by
  simp only [piecePlaces, List.mem_flatMap, List.mem_map]
  rfl

/-- No two pieces have a pixel in common. -/
theorem piecePlaces_apart (h : r.IsProper) (hcolumns : Fitting width r.x r.width corner)
    (hrows : Fitting height r.y r.height corner) :
    (piecePlaces width height corner r).Pairwise Rect.Apart := by
  unfold piecePlaces
  refine List.pairwise_flatMap.2 ⟨fun row hrow => ?_, ?_⟩
  · refine List.pairwise_map.2 (hcolumns.drawn_apart.imp_of_mem fun {a b} ha hb hab => ?_)
    exact Rect.apart_part h (hrows.within hrow) (hcolumns.within ha) (hrows.within hrow)
      (hcolumns.within hb) (.inr hab)
  · refine hrows.drawn_apart.imp_of_mem fun {a b} ha hb hab => ?_
    intro p hp q hq
    obtain ⟨c, hc, rfl⟩ := List.mem_map.1 hp
    obtain ⟨d, hd, rfl⟩ := List.mem_map.1 hq
    exact Rect.apart_part h (hrows.within ha) (hcolumns.within hc) (hrows.within hb)
      (hcolumns.within hd) (.inl hab)

/-- A pixel is in a piece if its row and its column are drawn. -/
theorem holds_piecePlaces_iff (h : r.IsProper) (hcolumns : Fitting width r.x r.width corner)
    (hrows : Fitting height r.y r.height corner) {i j : Int} (hi : 0 ≤ i ∧ i < r.width)
    (hj : 0 ≤ j ∧ j < r.height) :
    (∃ place ∈ piecePlaces width height corner r,
      place.Holds (goRound (r.x + i), goRound (r.y + j))) ↔
        ¬ (width = 2 * corner ∧ corner ≤ i ∧ i < r.width - corner) ∧
          ¬ (height = 2 * corner ∧ corner ≤ j ∧ j < r.height - corner) := by
  rw [← hcolumns.drawn_iff hi.1 hi.2, ← hrows.drawn_iff hj.1 hj.2]
  constructor
  · rintro ⟨place, hplace, hholds⟩
    obtain ⟨row, hrow, column, hcolumn, rfl⟩ := mem_piecePlaces.1 hplace
    obtain ⟨i', j', hi', hj', heq, hin⟩ :=
      (Rect.holds_part_iff (hrows.within hrow) (hcolumns.within hcolumn)).1 hholds
    obtain ⟨rfl, rfl⟩ := Rect.pixel_injective h hi hj hi' hj' heq
    exact ⟨⟨column, hcolumn, hin.1⟩, row, hrow, hin.2⟩
  · rintro ⟨⟨column, hcolumn, hcolumnIn⟩, row, hrow, hrowIn⟩
    refine ⟨r.part row column, mem_piecePlaces.2 ⟨row, hrow, column, hcolumn, rfl⟩, ?_⟩
    exact (Rect.holds_part_iff (hrows.within hrow) (hcolumns.within hcolumn)).2
      ⟨i, j, hi, hj, rfl, hcolumnIn, hrowIn⟩

/-- The pixels of a piece are pixels of the rectangle. -/
theorem holds_of_mem_piecePlaces (hcolumns : Fitting width r.x r.width corner)
    (hrows : Fitting height r.y r.height corner) {place : Rect}
    (hplace : place ∈ piecePlaces width height corner r) {pixel : Int × Int}
    (hholds : place.Holds pixel) : r.Holds pixel := by
  obtain ⟨row, hrow, column, hcolumn, rfl⟩ := mem_piecePlaces.1 hplace
  obtain ⟨i, j, hi, hj, hpixel, -⟩ :=
    (Rect.holds_part_iff (hrows.within hrow) (hcolumns.within hcolumn)).1 hholds
  exact ⟨i, j, hi, hj, hpixel⟩

end Pieces

/-- The sides of a picture and of a rectangle fit each other, if the picture has corners. -/
theorem fitting_of_corner {p : Picture} {border : Int} (hp : p.width ≤ 2147483647 ∧
    p.height ≤ 2147483647) {r : Rect} (hr : r.Fits)
    (hcorner : cornerSize p.width p.height border r ≠ 0) :
    Fitting p.width r.x r.width (cornerSize p.width p.height border r) ∧
      Fitting p.height r.y r.height (cornerSize p.width p.height border r) := by
  obtain ⟨hpositive, hpwidth, hpheight, hrwidth, hrheight⟩ := cornerSize_spec hcorner
  have hx := Rect.fits_iff.1 hr.x
  have hy := Rect.fits_iff.1 hr.y
  have hwidth := Rect.fits_iff.1 hr.width
  have hheight := Rect.fits_iff.1 hr.height
  exact ⟨⟨⟨hpwidth, hp.1⟩, hx, ⟨hrwidth, hwidth.2⟩, hpositive⟩,
    ⟨⟨hpheight, hp.2⟩, hy, ⟨hrheight, hheight.2⟩, hpositive⟩⟩

/-- A picture with corners is drawn in pieces on exactly their places. -/
theorem Draw.outcome_sliced_of_corner {p : Picture} {border : Int} (hp : p.width ≤ 2147483647 ∧
    p.height ≤ 2147483647) {r : Rect} (hr : r.Fits)
    (hcorner : cornerSize p.width p.height border r ≠ 0) (e : Easel) :
    ∃ strokes, (sliced p r border).outcome e =
        (.ok (), { e with strokes := e.strokes ++ strokes }) ∧
      strokes.map Stroke.place? =
        (piecePlaces p.width p.height (cornerSize p.width p.height border r) r).map some := by
  obtain ⟨hcolumns, hrows⟩ := fitting_of_corner hp hr hcorner
  obtain ⟨pieces, hpieces, hplaces⟩ := slices?_eq hcolumns hrows
  have hsizes : ∀ place ∈ pieces.map (·.2), 0 ≤ place.width ∧ 0 ≤ place.height := by
    intro place hplace
    rw [hplaces] at hplace
    obtain ⟨row, hrow, column, hcolumn, rfl⟩ := mem_piecePlaces.1 hplace
    exact ⟨Int.le_of_lt (hcolumns.within hcolumn).2.1, Int.le_of_lt (hrows.within hrow).2.1⟩
  obtain ⟨strokes, houtcome, hstrokes⟩ := outcome_pieces p hsizes e
  refine ⟨strokes, ?_, hplaces ▸ hstrokes⟩
  rw [sliced_eq hcorner hpieces, houtcome]

/-- The pixel in a column and a row, counted from the corner of the rectangle, is in a middle that
    the picture does not have. -/
def isBetweenCorners (width height border : Int) (r : Rect) (i j : Int) : Prop :=
  let corner := cornerSize width height border r
  corner ≠ 0 ∧ (width = 2 * corner ∧ corner ≤ i ∧ i < r.width - corner ∨
    height = 2 * corner ∧ corner ≤ j ∧ j < r.height - corner)

/-- A picture in nine pieces never fails to be drawn. Its pieces lie in the rectangle, no two of them
    share a pixel, and they cover all of the rectangle but the middle of a picture without a middle:
    between the corners, a picture that is two corners wide or high leaves the rectangle as it
    was. -/
theorem Draw.sliced_covers (p : Picture) (r : Rect) (border : Int) (e : Easel)
    (hp : (0 < p.width ∧ p.width ≤ 2147483647) ∧ 0 < p.height ∧ p.height ≤ 2147483647)
    (hr : r.IsProper) :
    ∃ (strokes : List Stroke) (places : List Rect),
      (sliced p r border).outcome e = (.ok (), { e with strokes := e.strokes ++ strokes }) ∧
      strokes.map Stroke.place? = places.map some ∧
      (∀ place ∈ places, ∀ pixel, place.Holds pixel → r.Holds pixel) ∧
      places.Pairwise Rect.Apart ∧
      ∀ i j, 0 ≤ i ∧ i < r.width → 0 ≤ j ∧ j < r.height →
        ((∃ place ∈ places, place.Holds (goRound (r.x + i), goRound (r.y + j))) ↔
          ¬ isBetweenCorners p.width p.height border r i j) := by
  by_cases hcorner : cornerSize p.width p.height border r = 0
  · obtain ⟨s, houtcome, hs⟩ := outcome_stretch (p := p) (Int.le_of_lt hr.width.1)
      (Int.le_of_lt hr.height.1) e
    refine ⟨[s], [r], ?_, by simp [hs], by simp, by simp, fun i j hi hj => ?_⟩
    · unfold sliced
      dsimp only
      rw [if_pos hcorner, houtcome]
    · refine iff_of_true ⟨r, List.mem_singleton.2 rfl, i, j, hi, hj, rfl⟩ fun hbetween => ?_
      exact hbetween.1 hcorner
  · obtain ⟨hcolumns, hrows⟩ := fitting_of_corner ⟨hp.1.2, hp.2.2⟩ hr.fits hcorner
    obtain ⟨strokes, houtcome, hstrokes⟩ :=
      outcome_sliced_of_corner ⟨hp.1.2, hp.2.2⟩ hr.fits hcorner e
    refine ⟨strokes, _, houtcome, hstrokes, ?_, piecePlaces_apart hr hcolumns hrows, ?_⟩
    · exact fun place hplace pixel => holds_of_mem_piecePlaces hcolumns hrows hplace
    · intro i j hi hj
      rw [holds_piecePlaces_iff hr hcolumns hrows hi hj]
      unfold isBetweenCorners
      dsimp only
      constructor
      · rintro ⟨hcolumn, hrow⟩ ⟨-, hbetween | hbetween⟩
        · exact hcolumn hbetween
        · exact hrow hbetween
      · intro hnot
        exact ⟨fun hcolumn => hnot ⟨hcorner, .inl hcolumn⟩,
          fun hrow => hnot ⟨hcorner, .inr hrow⟩⟩

/-- Four pixels, one for each corner, are all that a picture of two pixels by two leaves on a
    rectangle of ten by ten. The pixel in its middle is between the corners. -/
theorem Draw.sliced_covers_corners_only :
    let p : Picture := { origin := .given "dots", width := 2, height := 2 }
    let r : Rect := ⟨0, 0, 10, 10⟩
    isBetweenCorners p.width p.height 16 r 5 5 ∧
      ∃ (strokes : List Stroke) (places : List Rect),
        (sliced p r 16).outcome { width := 10, height := 10 } =
          (.ok (), { width := 10, height := 10, strokes := strokes }) ∧
        strokes.map Stroke.place? = places.map some ∧ places.Pairwise Rect.Apart ∧
        ¬ ∃ place ∈ places, place.Holds (5, 5) := by
  intro p r
  have hbetween : isBetweenCorners p.width p.height 16 r 5 5 :=
    ⟨by decide, .inl ⟨by decide, by decide, by decide⟩⟩
  obtain ⟨strokes, places, houtcome, hstrokes, -, hapart, hcovered⟩ :=
    Draw.sliced_covers p r 16 { width := 10, height := 10 } (by decide)
      ⟨by decide, by decide, by decide, by decide⟩
  refine ⟨hbetween, strokes, places, houtcome, hstrokes, hapart, fun hholds => ?_⟩
  exact (hcovered 5 5 (by decide) (by decide)).1 hholds hbetween

end VisualNovel
