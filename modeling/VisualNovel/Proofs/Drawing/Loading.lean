import VisualNovel.Proofs.Drawing.Images
import VisualNovel.Proofs.Drawing.Slices
import VisualNovel.Proofs.Text.Lines

/-!
When images and frames of sheets can be had. As long as the image files have a size, and so has all
that is kept, an image is loaded exactly if its sprite's id names a file, whether that file is there
or not, and what is loaded has a size again.
-/

namespace VisualNovel

open Act

/-! ### Ids that name files -/

/-- Of the path of an id below a directory a last part is left, which can be the name of a file. -/
def Path.Names (root : Path) (id : String) : Prop := (root / ofString id).name ≠ ""

namespace Path

theorem parts_ne_empty {text part : String} (h : part ∈ (ofString text).parts) : part ≠ "" := by
  have hkept := (List.mem_filter.1 h).2
  simp only [Bool.and_eq_true, bne_iff_ne] at hkept
  exact hkept.1

theorem names_of_parts {root : Path} {id : String} (h : (ofString id).parts ≠ []) :
    root.Names id := by
  have hlast : ∃ before, (root / ofString id).parts = before ++ (ofString id).parts := by
    show ∃ before, (join root (ofString id)).parts = _
    unfold join
    split
    · exact ⟨[], rfl⟩
    · exact ⟨root.parts, rfl⟩
  obtain ⟨before, hparts⟩ := hlast
  unfold Names name
  rw [hparts, List.getLast?_append_of_ne_nil _ h, List.getLast?_eq_some_getLast h, Option.getD_some]
  exact parts_ne_empty (List.getLast_mem h)

/-- Whatever lies in a folder has a name, if only that of the folder. -/
theorem names_of_folder (root : Path) (folder : String) (hslash : '/' ∉ folder.toList)
    (hempty : folder ≠ "") (hdot : folder ≠ ".") (id : String) :
    root.Names (folder ++ "/" ++ id) := by
  refine names_of_parts (List.ne_nil_of_mem (a := folder) (List.mem_filter.2 ⟨?_, ?_⟩))
  · have hchars : (folder ++ "/" ++ id).toList = folder.toList ++ '/' :: id.toList := by simp
    rw [hchars, Text.splitAtEach_append hslash, List.map_cons, String.ofList_toList]
    exact List.mem_cons_self
  · simp [hempty, hdot]

end Path

/-- A file is looked for exactly if the id names one. -/
theorem ImageStore.exists_pathOf_iff {store : ImageStore} {id : String} :
    (∃ path, store.pathOf id = .ok path) ↔ store.root.Names id := by
  have hsuffix : ∀ path : Path, path.name = "" → path.suffix = "" := by
    intro path h
    unfold Path.suffix
    rw [h]
    rfl
  unfold pathOf Path.Names
  dsimp only
  generalize store.root / Path.ofString id = path
  by_cases hname : path.name = ""
  · simp [hsuffix path hname, hname]
  · refine ⟨fun _ => hname, fun _ => ?_⟩
    by_cases h : path.suffix.isEmpty = true
    · simp [h, hname]
    · simp [h]

/-! ### Sizes -/

/-- A length in pixels: at least one, in 32 bits. -/
def IsLength (n : Int) : Prop := 1 ≤ n ∧ n ≤ 2147483647

theorem IsLength.nonneg {n : Int} (h : IsLength n) : 0 ≤ n ∧ n ≤ 2147483647 :=
  ⟨by have := h.1; omega, h.2⟩

/-- A picture of some size. -/
structure Picture.Sized (p : Picture) : Prop where
  width : IsLength p.width
  height : IsLength p.height

theorem Rect.isAccepted_iff {n : Int} :
    isAccepted n ↔ -9223372036854775808 ≤ n ∧ n ≤ 9223372036854775807 := by
  simp [isAccepted]

theorem Rect.isAccepted_of_isLength {n : Int} (h : IsLength n) : isAccepted n := by
  have := h.nonneg
  rw [isAccepted_iff]
  omega

theorem Rect.make_of_accepted {x y width height : Int}
    (h : ∀ n ∈ [x, y, width, height], isAccepted n) :
    make x y width height = .ok ⟨goRound x, goRound y, goRound width, goRound height⟩ := by
  rw [make, ofNumbers?_of_accepted h]

/-- A rectangle in the upper left corner. -/
theorem Rect.make_of_length {width height : Int} (hwidth : 0 ≤ width ∧ width ≤ 2147483647)
    (hheight : 0 ≤ height ∧ height ≤ 2147483647) :
    make 0 0 width height = .ok ⟨0, 0, width, height⟩ := by
  rw [make_of_accepted, goRound_of_fits (n := width) (by omega) (by omega),
    goRound_of_fits (n := height) (by omega) (by omega)]
  · rfl
  · intro n hn
    rw [isAccepted_iff]
    simp only [List.mem_cons, List.not_mem_nil, or_false] at hn
    omega

theorem Picture.exists_placeholder {width height : Int} (hwidth : IsLength width)
    (hheight : IsLength height) :
    ∃ p, placeholder width height = .ok p ∧ p.Sized := by
  have hblank : blank width height = .ok { origin := .blank, width, height } :=
    if_neg (by have := hwidth.1; have := hheight.1; omega)
  have harea := Rect.make_of_length hwidth.nonneg hheight.nonneg
  unfold placeholder
  rw [hblank]
  unfold area
  simp only [bind, Except.bind, edit, harea]
  exact ⟨_, rfl, hwidth, hheight⟩

/-! ### Loading -/

namespace ImageStore

/-- A store in which the image files have a size, and so has what is kept, unless it was scaled, for
    ids that name files. -/
structure Sound (store : ImageStore) : Prop where
  files : ∀ path width height, store.files.get? path = some (width, height) →
    IsLength width ∧ IsLength height
  kept : ∀ id p, store.find? ⟨id, none⟩ = some p → p.Sized ∧ store.root.Names id

variable {store store' : ImageStore} {id : String} {missing : Int × Int}

theorem ready_sized (store : ImageStore) {p : Picture} (h : p.Sized) : (store.ready p).Sized := by
  unfold ready
  split
  · exact ⟨h.width, h.height⟩
  · exact h

/-- What is developed has a size, and it is developed exactly if the id names a file. -/
theorem Sound.developed (h : store.Sound) (id : String)
    (hmissing : IsLength missing.1 ∧ IsLength missing.2) :
    (store.root.Names id → ∃ p, store.developed (.image id none missing) = .ok p) ∧
      ∀ p, store.developed (.image id none missing) = .ok p → p.Sized ∧ store.root.Names id := by
  rw [← exists_pathOf_iff]
  cases hpath : store.pathOf id with
  | error e =>
    have herror : store.developed (.image id none missing) = .error e := by
      unfold ImageStore.developed source
      dsimp only [ImageRequest.key]
      rw [hpath]
      rfl
    refine ⟨?_, fun p hp => ?_⟩
    · rintro ⟨path, heq⟩
      cases heq
    · rw [herror] at hp
      cases hp
  | ok path =>
    have hsource : ∃ p, p.Sized ∧ store.developed (.image id none missing) = .ok (store.ready p) := by
      unfold ImageStore.developed source
      dsimp only [ImageRequest.key, ImageRequest.missing]
      rw [hpath]
      simp only [bind, Except.bind]
      cases hfile : store.files.get? path.toString with
      | some size =>
        obtain ⟨hwidth, hheight⟩ := h.files _ size.1 size.2 hfile
        exact ⟨_, ⟨hwidth, hheight⟩, rfl⟩
      | none =>
        obtain ⟨p, hp, hsized⟩ := Picture.exists_placeholder hmissing.1 hmissing.2
        rw [hp]
        exact ⟨p, hsized, rfl⟩
    obtain ⟨p, hsized, hp⟩ := hsource
    refine ⟨fun _ => ⟨_, hp⟩, fun q hq => ?_⟩
    rw [hp] at hq
    cases hq
    exact ⟨store.ready_sized hsized, path, rfl⟩

theorem Sound.follows (h : store.Sound) (hmissing : IsLength missing.1 ∧ IsLength missing.2)
    (hfollows : store.Follows (.image id none missing) store') : store'.Sound := by
  refine ⟨hfollows.files ▸ h.files, fun id' p hp => ?_⟩
  rw [hfollows.kept] at hp
  rw [hfollows.root]
  rcases Option.or_eq_some_iff.1 hp with hold | ⟨-, hnew⟩
  · exact h.kept id' p hold
  · split at hnew
    · next hkey =>
      obtain rfl : id = id' := (ImageKey.beq_iff.1 hkey).1
      refine (h.developed id hmissing).2 p ?_
      cases hdeveloped : store.developed (.image id none missing) with
      | ok q =>
        rw [hdeveloped] at hnew
        cases hnew
        rfl
      | error e =>
        rw [hdeveloped] at hnew
        cases hnew
    · cases hnew

/-- What is there after something was loaded: a picture of some size, and a store as before. -/
structure Loaded (store : ImageStore) (p : Picture) (store' : ImageStore) : Prop where
  sized : p.Sized
  sound : store'.Sound
  root : store'.root = store.root

/-- An image is loaded exactly if its id names a file. -/
theorem Sound.load (h : store.Sound) (id : String)
    (hmissing : IsLength missing.1 ∧ IsLength missing.2) :
    EndsIff (store.root.Names id) (Imaging.load id none missing) store fun image =>
      store.Loaded image.2 := by
  obtain ⟨hpicture, hfollows⟩ := store.load_spec id none missing
  have hsound := h.follows hmissing hfollows
  have hresult {p : Picture} (hp : ((Imaging.load id none missing).outcome store).1.map (·.2) =
      .ok p) (hsized : p.Sized) :
      Ends (Imaging.load id none missing) store fun image => store.Loaded image.2 := by
    cases houtcome : (Imaging.load id none missing).outcome store with
    | mk r store' =>
      rw [houtcome] at hp hsound hfollows
      cases r with
      | error e => cases hp
      | ok image =>
        cases hp
        exact ⟨image, store', houtcome, hsized, hsound, hfollows.root⟩
  cases hfind : store.find? ⟨id, none⟩ with
  | some p =>
    rw [hfind] at hpicture
    obtain ⟨hsized, hnames⟩ := h.kept id p hfind
    exact ⟨fun _ => hresult hpicture hsized, fun _ => hnames⟩
  | none =>
    rw [hfind] at hpicture
    obtain ⟨hok, hdeveloped⟩ := h.developed id hmissing
    constructor
    · intro hnames
      obtain ⟨p, hp⟩ := hok hnames
      exact hresult (hpicture.trans hp) (hdeveloped p hp).1
    · intro hisOk
      obtain ⟨image, houtcome⟩ := exists_outcome_eq_ok hisOk
      rw [houtcome] at hpicture
      exact (hdeveloped image.2 hpicture.symm).2

end ImageStore

/-! ### Frames -/

namespace Imaging

/-- What lies in a rectangle in the upper left corner is no larger. -/
theorem isLength_clip (r : Rect) {width height : Int} (hwidth : IsLength width)
    (hheight : IsLength height) (hw : (r.clip ⟨0, 0, width, height⟩).width ≠ 0) :
    IsLength (r.clip ⟨0, 0, width, height⟩).width ∧
      IsLength (r.clip ⟨0, 0, width, height⟩).height := by
  have hright : Rect.right ⟨0, 0, width, height⟩ = width := by
    show goRound (0 + width) = width
    rw [Int.zero_add]
    exact goRound_of_fits (by have := hwidth.1; omega) hwidth.2
  have hbottom : Rect.bottom ⟨0, 0, width, height⟩ = height := by
    show goRound (0 + height) = height
    rw [Int.zero_add]
    exact goRound_of_fits (by have := hheight.1; omega) hheight.2
  have hwidth' := hwidth.2
  have hheight' := hheight.2
  unfold Rect.clip at hw ⊢
  dsimp only at hw ⊢
  rw [hright, hbottom] at hw ⊢
  split at hw
  · exact absurd rfl hw
  next hsize =>
  rw [if_neg hsize]
  unfold IsLength
  dsimp only
  omega

/-- A frame's part of a sheet is a rectangle, with no pixels or with some of the sheet. -/
theorem exists_cell {sheet : Picture} (hsheet : sheet.Sized) {index width height : Int}
    (hindex : 0 ≤ index ∧ index ≤ 2147483647) (hwidth : IsLength width) (hheight : IsLength height) :
    ∃ area, cell sheet.width sheet.height index width height = .ok area ∧
      (area.width ≠ 0 → IsLength area.width ∧ IsLength area.height) := by
  have haccepted {m n : Int} (hm : 0 ≤ m ∧ m ≤ index) (hn : IsLength n) :
      Rect.isAccepted (m * n) := by
    have hlow : 0 ≤ m * n := Int.mul_nonneg hm.1 hn.nonneg.1
    have hhigh : m * n ≤ 2147483647 * 2147483647 :=
      Int.mul_le_mul (hm.2.trans hindex.2) hn.2 hn.nonneg.1 (by decide)
    rw [Rect.isAccepted_iff]
    omega
  generalize hcolumns : max 1 (sheet.width.fdiv width) = columns
  have hpositive : 0 < columns := by omega
  have hrow : 0 ≤ index / columns := Int.ediv_nonneg hindex.1 hpositive.le
  have hcolumn : index % columns ≤ index := by
    have hsplit := Int.emod_add_mul_ediv index columns
    have hproduct := Int.mul_nonneg hpositive.le hrow
    omega
  have hx := haccepted ⟨Int.emod_nonneg index hpositive.ne', hcolumn⟩ hwidth
  have hy := haccepted ⟨hrow, Int.ediv_le_self columns hindex.1⟩ hheight
  unfold cell
  dsimp only
  have hsize := Rect.isAccepted_of_isLength hwidth
  have hsize' := Rect.isAccepted_of_isLength hheight
  rw [hcolumns, Rect.make_of_accepted (by simp [hx, hy, hsize, hsize']),
    Rect.make_of_length hsheet.width.nonneg hsheet.height.nonneg]
  exact ⟨_, rfl, isLength_clip _ hsheet.width hsheet.height⟩

/-- A frame of a sheet is cut out exactly if the sheet's id names a file. -/
theorem frame_endsIff {store : ImageStore} (h : store.Sound) (id : String)
    {index width height : Int} (hindex : 0 ≤ index ∧ index ≤ 2147483647) (hwidth : IsLength width)
    (hheight : IsLength height) :
    EndsIff (store.root.Names id) (frame id index width height) store fun image =>
      store.Loaded image.2 := by
  refine (h.load id ⟨hwidth, hheight⟩).then_ends fun (_, sheet) store' hloaded => ?_
  have hne : width ≠ 0 := by
    have := hwidth.1
    omega
  have hnumber (p : Picture) (hp : p.Sized) : Ends (do return (← number, p) : Imaging (Nat × Picture))
      store' fun image => store.Loaded image.2 := by
    refine Ends.bind (Ends.get_bind (Ends.change_bind (Ends.pure (Ends.pure ?_))))
    exact ⟨hp, ⟨hloaded.sound.files, hloaded.sound.kept⟩, hloaded.root⟩
  obtain ⟨area, harea, hsize⟩ := exists_cell hloaded.sized hindex hwidth hheight
  dsimp only
  rw [if_neg hne]
  refine Ends.lift_bind harea ?_
  split
  · obtain ⟨p, hp, hsized⟩ := Picture.exists_placeholder hwidth hheight
    exact Ends.lift_bind hp (hnumber p hsized)
  · next hzero =>
    obtain ⟨hw, hh⟩ := hsize fun h => hzero (.inl h)
    exact hnumber _ ⟨hw, hh⟩

end Imaging

end VisualNovel
