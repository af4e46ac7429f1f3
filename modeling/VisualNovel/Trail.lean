/-!
Trails: lists that grow at their end. A trail is kept with its newest item first, so that adding an
item takes the same time however many there are. `toList` shows it, oldest item first.
-/

namespace VisualNovel

structure Trail (α : Type) where
  newestFirst : List α := []
  deriving Repr, DecidableEq

namespace Trail

variable {α : Type}

def toList (t : Trail α) : List α := t.newestFirst.reverse

def length (t : Trail α) : Nat := t.newestFirst.length

def push (t : Trail α) (a : α) : Trail α := ⟨a :: t.newestFirst⟩

/-- The trail with several items more, in order. -/
def append (t : Trail α) (as : List α) : Trail α := ⟨as.reverse ++ t.newestFirst⟩

@[simp] theorem toList_empty : ({} : Trail α).toList = [] := rfl

@[simp] theorem toList_push (t : Trail α) (a : α) : (t.push a).toList = t.toList ++ [a] := by
  simp [push, toList]

@[simp] theorem toList_append (t : Trail α) (as : List α) :
    (t.append as).toList = t.toList ++ as := by
  simp [append, toList]

@[simp] theorem length_toList (t : Trail α) : t.toList.length = t.length := by
  simp [toList, length]

end Trail

end VisualNovel
