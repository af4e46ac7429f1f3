import VisualNovel.Drawing.Font

/-!
Fonts that are kept because they were asked for lately. Making a font is slow, so as many as the
capacity allows are kept, and the one not asked for the longest goes first.
-/

namespace VisualNovel

/-- The kept fonts with the numbers under which they were made, the one asked for last at the
    end. -/
structure FontCache where
  capacity : Nat
  kept : List (Font × Nat) := []
  made : Nat := 0

namespace FontCache

/-- An empty cache; it keeps at least one font. -/
def ofCapacity (capacity : Int) : FontCache := { capacity := (max 1 capacity).toNat }

/-- The number of a font, which is made if it is not kept. -/
def get (cache : FontCache) (font : Font) : Nat × FontCache :=
  match cache.kept.lookup font with
  | some number =>
    let others := cache.kept.filter fun (f, _) => f != font
    (number, { cache with kept := others ++ [(font, number)] })
  | none =>
    let kept := cache.kept ++ [(font, cache.made)]
    (cache.made,
      { cache with kept := kept.drop (kept.length - cache.capacity), made := cache.made + 1 })

/-- The cache with no font kept. -/
def clear (cache : FontCache) : FontCache := { cache with kept := [] }

end FontCache

end VisualNovel
