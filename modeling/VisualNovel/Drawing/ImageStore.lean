import VisualNovel.Act
import VisualNovel.Data
import VisualNovel.Drawing.Picture
import VisualNovel.Files.Path
import VisualNovel.Table

/-!
The images of sprites. An image is developed from its file when it is first asked for at a scale,
and kept from then on; for a file that is missing there is a placeholder.
-/

namespace VisualNovel

/-- How an image is scaled: by a factor, or to a size. -/
inductive Scale where
  | factor (x : Int ⊕ Float)
  | size (sizes : List Int)

/-- Whether two scales are the same; factors of one value are. -/
def Scale.same : Scale → Scale → Bool
  | .factor x, .factor y => Data.sameNumber x y
  | .size xs, .size ys => xs == ys
  | _, _ => false

/-- What an image is kept under: the sprite's id, and the scale if there is one. -/
structure ImageKey where
  id : String
  scale : Option Scale := none

instance : BEq ImageKey where
  beq a b :=
    a.id == b.id &&
      match a.scale, b.scale with
      | none, none => true
      | some s, some t => s.same t
      | _, _ => false

/-- Where images come from, and which are kept. Every picture that is made has a number. -/
structure ImageStore where
  /-- The sizes of the image files, by path. -/
  files : Table String (Int × Int) := []
  root : Path := ⟨"", ["assets"]⟩
  hasDisplay : Bool := false
  kept : Table ImageKey (Nat × Picture) := []
  made : Nat := 0
  /-- The paths that were looked for, in order. -/
  sought : List String := []

namespace ImageStore

/-- The size of a placeholder, unless another one is asked for. -/
def placeholderSize : Int × Int := (48, 48)

/-- The store with another root; what was kept is not any more. -/
def setRoot (store : ImageStore) (root : Path) : ImageStore := { store with root, kept := [] }

/-- The store with nothing kept. -/
def clear (store : ImageStore) : ImageStore := { store with kept := [] }

/-- The path of an image: that of the sprite's id, as a `.png` if it has no suffix. -/
def pathOf (store : ImageStore) (id : String) : Except DrawError Path :=
  let path := store.root / Path.ofString id
  if !path.suffix.isEmpty then .ok path
  else if path.name.isEmpty then .error .noName
  else .ok (path.appendToName ".png")

/-- A picture as it is shown. -/
def ready (store : ImageStore) (p : Picture) : Picture :=
  if store.hasDisplay then p.edit .convert else p

/-- A length after scaling by a factor, at least one pixel. -/
def scaledLength (length : Int) : Int ⊕ Float → Except DrawError Int
  | .inl n => .ok (max 1 (length * n))
  | .inr x =>
    match Number.truncate (Number.ofInt length * x) with
    | .ok n => .ok (max 1 n)
    | .error e => .error (.notPixels e)

/-- A picture at a scale. -/
def scaled (p : Picture) : Option Scale → Except DrawError Picture
  | none => .ok p
  | some (.factor x) => do p.scale (← scaledLength p.width x) (← scaledLength p.height x)
  | some (.size [width, height]) => p.scale (max 1 width) (max 1 height)
  | some (.size _) => .error .notAPair

/-- The picture developed from the file at a path, or from a placeholder. -/
def develop (store : ImageStore) (path : Path) (scale : Option Scale) (missing : Int × Int) :
    Except DrawError Picture := do
  let p ←
    match store.files.get? path.toString with
    | some (width, height) =>
      pure { origin := .file path.toString, width, height : Picture }
    | none => Picture.placeholder missing.1 missing.2
  return store.ready (← scaled p scale)

end ImageStore

/-- Work with a store of images. -/
abbrev Imaging (α : Type) := Act DrawError ImageStore α

namespace Imaging

/-- A number for a picture that is made. -/
def number : Imaging Nat := do
  let n := (← get).made
  Act.change fun s => { s with made := n + 1 }
  return n

/-- The image of a sprite, with its number: the one that is kept, or else one developed now. -/
def load (id : String) (scale : Option Scale := none)
    (missing : Int × Int := ImageStore.placeholderSize) : Imaging (Nat × Picture) := do
  let key : ImageKey := ⟨id, scale⟩
  match (← get).kept.get? key with
  | some image => return image
  | none =>
    let path ← (← get).pathOf id
    Act.change fun s => { s with sought := s.sought ++ [path.toString] }
    let p ← (← get).develop path scale missing
    let n ← number
    Act.change fun s => { s with kept := s.kept.put key (n, p) }
    return (n, p)

/-- The part of a sheet that a frame takes. Frames go from left to right, then from top to
    bottom. -/
def cell (sheetWidth sheetHeight index width height : Int) : Except DrawError Rect := do
  let columns := max 1 (sheetWidth.fdiv width)
  let place ← Rect.make (index % columns * width) (index / columns * height) width height
  return place.clip (← Rect.make 0 0 sheetWidth sheetHeight)

/-- A frame of a sheet, with its number; a placeholder beyond the last one. -/
def frame (id : String) (index width height : Int) : Imaging (Nat × Picture) := do
  let (_, sheet) ← load id none (width, height)
  if width = 0 then throw .noSize
  let area ← cell sheet.width sheet.height index width height
  let p ←
    if area.width = 0 ∨ area.height = 0 then Picture.placeholder width height
    else pure (sheet.cut area)
  return (← number, p)

/-- Images that were made before there was a display are readied for it. -/
def readyAll : Imaging Unit := do
  if (← get).hasDisplay then
    Act.change fun s =>
      let count := s.kept.length
      { s with
        kept := (s.kept.zip (List.range count)).map fun ((key, _, p), i) =>
          (key, s.made + i, p.edit .convert)
        made := s.made + count }

end Imaging

end VisualNovel
