import VisualNovel.Drawing.ImageStore
import VisualNovel.Proofs.Act
import VisualNovel.Proofs.Number.Whole
import VisualNovel.Proofs.Table

/-!
What is kept of images, against developing each of them anew. An image is kept under its sprite's id
and its scale, while a placeholder has the size that the request for it names. So a store gives
what the first answered request of a key gave, and that is what an empty store would give as long
as the file is there or the requests agree on the size of the placeholder.
-/

namespace VisualNovel

/-! ### Keys -/

theorem Scale.same_symm {s t : Scale} (h : s.same t) : t.same s := by
  cases s <;> cases t <;> simp only [Scale.same, Bool.false_eq_true] at h ⊢
  · exact Number.sameNumber_iff.2 (Number.sameNumber_iff.1 h).symm
  · rw [beq_iff_eq] at h ⊢
    exact h.symm

theorem Scale.same_trans {r s t : Scale} (h : r.same s) (h' : s.same t) : r.same t := by
  cases r <;> cases s <;> cases t <;> simp only [Scale.same, Bool.false_eq_true] at h h' ⊢
  · exact Number.sameNumber_iff.2 ((Number.sameNumber_iff.1 h).trans (Number.sameNumber_iff.1 h'))
  · rw [beq_iff_eq] at h h' ⊢
    exact h.trans h'

/-- Keys of one sprite whose scales are the same. -/
theorem ImageKey.beq_iff {a b : ImageKey} :
    (a == b) = true ↔ a.id = b.id ∧
      (a.scale = none ∧ b.scale = none ∨
        ∃ s t, a.scale = some s ∧ b.scale = some t ∧ s.same t) := by
  show (a.id == b.id && _) = true ↔ _
  rw [Bool.and_eq_true, beq_iff_eq]
  cases a.scale <;> cases b.scale <;> simp

instance : PartialEquivBEq ImageKey where
  symm h := by
    obtain ⟨hid, hscale⟩ := ImageKey.beq_iff.1 h
    refine ImageKey.beq_iff.2 ⟨hid.symm, ?_⟩
    rcases hscale with ⟨ha, hb⟩ | ⟨s, t, ha, hb, hsame⟩
    · exact .inl ⟨hb, ha⟩
    · exact .inr ⟨t, s, hb, ha, Scale.same_symm hsame⟩
  trans h h' := by
    obtain ⟨hid, hscale⟩ := ImageKey.beq_iff.1 h
    obtain ⟨hid', hscale'⟩ := ImageKey.beq_iff.1 h'
    refine ImageKey.beq_iff.2 ⟨hid.trans hid', ?_⟩
    rcases hscale with ⟨ha, hb⟩ | ⟨s, t, ha, hb, hsame⟩ <;>
      rcases hscale' with ⟨hb', hc⟩ | ⟨t', u, hb', hc, hsame'⟩
    · exact .inl ⟨ha, hc⟩
    · rw [hb] at hb'
      cases hb'
    · rw [hb] at hb'
      cases hb'
    · rw [hb] at hb'
      cases hb'
      exact .inr ⟨s, u, ha, hc, Scale.same_trans hsame hsame'⟩

/-! ### Requests -/

/-- A request for an image, or for a frame of a sheet. -/
inductive ImageRequest where
  | image (id : String) (scale : Option Scale) (missing : Int × Int)
  | frame (id : String) (index width height : Int)

namespace ImageRequest

/-- What is kept for the request: of a sheet it is the whole. -/
def key : ImageRequest → ImageKey
  | .image id scale _ => ⟨id, scale⟩
  | .frame id _ _ _ => ⟨id, none⟩

/-- The size of the placeholder that the request asks for. -/
def missing : ImageRequest → Int × Int
  | .image _ _ missing => missing
  | .frame _ _ width height => (width, height)

/-- The answer to the request, with its number. -/
def answer : ImageRequest → Imaging (Nat × Picture)
  | .image id scale missing => Imaging.load id scale missing
  | .frame id index width height => Imaging.frame id index width height

/-- What is asked for of the picture that is kept: of a sheet it is one frame. -/
def finish : ImageRequest → Picture → Except DrawError Picture
  | .image _ _ _, p => .ok p
  | .frame _ index width height, sheet => do
    if width = 0 then throw .noSize
    let area ← Imaging.cell sheet.width sheet.height index width height
    if area.width = 0 ∨ area.height = 0 then Picture.placeholder width height
    else return sheet.cut area

end ImageRequest

namespace ImageStore

/-- The picture of a request as it is before it is scaled: that of the file, or a placeholder. -/
def source (store : ImageStore) (r : ImageRequest) : Except DrawError Picture := do
  let path ← store.pathOf r.key.id
  match store.files.get? path.toString with
  | some (width, height) => return { origin := .file path.toString, width, height }
  | none => Picture.placeholder r.missing.1 r.missing.2

/-- The picture that is developed for a request. -/
def developed (store : ImageStore) (r : ImageRequest) : Except DrawError Picture := do
  return store.ready (← scaled (← store.source r) r.key.scale)

/-- The picture that is kept under a key. -/
def find? (store : ImageStore) (key : ImageKey) : Option Picture :=
  (store.kept.get? key).map (·.2)

/-- The picture that answers a request. -/
def picture (store : ImageStore) (r : ImageRequest) : Except DrawError Picture :=
  (r.answer.outcome store).1.map (·.2)

/-- The store after requests, whether they were answered or not. -/
def after (store : ImageStore) (rs : List ImageRequest) : ImageStore :=
  rs.foldl (fun store r => (r.answer.outcome store).2) store

/-- The picture that the first answered request of a key had developed. -/
def first? (store : ImageStore) (rs : List ImageRequest) (key : ImageKey) : Option Picture :=
  rs.findSome? fun r => if r.key == key then (store.developed r).toOption else none

/-! ### One request -/

/-- What a request leaves of a store: where images come from stays, and what is developed is kept
    unless there was something under its key. -/
structure Follows (store : ImageStore) (r : ImageRequest) (store' : ImageStore) : Prop where
  files : store'.files = store.files
  root : store'.root = store.root
  hasDisplay : store'.hasDisplay = store.hasDisplay
  kept (key : ImageKey) : store'.find? key =
    (store.find? key).or (if r.key == key then (store.developed r).toOption else none)

theorem developed_eq {store store' : ImageStore} (hfiles : store'.files = store.files)
    (hroot : store'.root = store.root) (hdisplay : store'.hasDisplay = store.hasDisplay)
    (r : ImageRequest) : store'.developed r = store.developed r := by
  unfold developed source pathOf ready
  rw [hfiles, hroot, hdisplay]

theorem find?_congr (store : ImageStore) {key key' : ImageKey} (h : key == key') :
    store.find? key = store.find? key' := by
  unfold find?
  rw [Table.get?_congr h]

/-- A request that finds what is kept changes nothing. -/
theorem Follows.refl {store : ImageStore} {r : ImageRequest} {p : Picture}
    (h : store.find? r.key = some p) : store.Follows r store where
  files := rfl
  root := rfl
  hasDisplay := rfl
  kept key := by
    split
    · next hkey => rw [← find?_congr store hkey, h, Option.some_or]
    · exact Option.or_none.symm

/-- A request that fails keeps nothing. -/
theorem Follows.of_error {store : ImageStore} {r : ImageRequest} {e : DrawError}
    (h : store.developed r = .error e) (sought : List String) :
    store.Follows r { store with sought } where
  files := rfl
  root := rfl
  hasDisplay := rfl
  kept key := by
    rw [h]
    exact ((congrArg _ (ite_self none)).trans Option.or_none).symm

/-- What is developed is kept under the key of its request. -/
theorem Follows.of_ok {store : ImageStore} {r : ImageRequest} {p : Picture}
    (hfind : store.find? r.key = none) (h : store.developed r = .ok p) (sought : List String)
    (number made : Nat) :
    store.Follows r { store with sought, made, kept := store.kept.put r.key (number, p) } where
  files := rfl
  root := rfl
  hasDisplay := rfl
  kept key := by
    have hnone : store.kept.get? r.key = none := Option.map_eq_none_iff.1 hfind
    unfold find?
    rw [h, Table.get?_put_of_not_found hnone, Option.map_or, apply_ite (Option.map _)]
    rfl

/-- A change of the number of pictures does not matter. -/
theorem Follows.number {store store' : ImageStore} {r : ImageRequest} (h : store.Follows r store')
    (made : Nat) : store.Follows r { store' with made } where
  files := h.files
  root := h.root
  hasDisplay := h.hasDisplay
  kept := h.kept

/-- What an image is developed from, path by path. -/
theorem developed_image (store : ImageStore) (id : String) (scale : Option Scale)
    (missing : Int × Int) :
    store.developed (.image id scale missing) =
      (do store.develop (← store.pathOf id) scale missing) := by
  unfold developed source develop
  dsimp only [ImageRequest.key, ImageRequest.missing]
  cases store.pathOf id with
  | error e => rfl
  | ok path =>
    simp only [bind, Except.bind, pure, Except.pure]
    cases store.files.get? path.toString <;> rfl

/-- An image is the one that is kept, or it is developed and kept. -/
theorem load_spec (store : ImageStore) (id : String) (scale : Option Scale)
    (missing : Int × Int) :
    ((Imaging.load id scale missing).outcome store).1.map (·.2) =
        (store.find? ⟨id, scale⟩).elim (store.developed (.image id scale missing)) .ok ∧
      store.Follows (.image id scale missing) ((Imaging.load id scale missing).outcome store).2 := by
  unfold Imaging.load
  rw [Act.outcome_bind_of_ok (Act.outcome_get store)]
  cases hget : store.kept.get? ⟨id, scale⟩ with
  | some image =>
    have hfind : store.find? ⟨id, scale⟩ = some image.2 := by rw [find?, hget, Option.map_some]
    rw [hfind]
    exact ⟨rfl, Follows.refl hfind⟩
  | none =>
    have hfind : store.find? ⟨id, scale⟩ = none := by rw [find?, hget, Option.map_none]
    have hdeveloped := store.developed_image id scale missing
    dsimp only
    rw [Act.outcome_bind_of_ok (Act.outcome_get store), hfind]
    cases hpath : store.pathOf id with
    | error e =>
      rw [hpath] at hdeveloped
      rw [hdeveloped]
      exact ⟨rfl, Follows.of_error hdeveloped store.sought⟩
    | ok path =>
      rw [hpath] at hdeveloped
      have hdevelop : store.developed (.image id scale missing) =
          store.develop path scale missing := hdeveloped
      rw [hdevelop, Act.outcome_bind_of_ok (Act.outcome_lift _ store)]
      rw [Act.outcome_bind_of_ok (Act.outcome_change _ store)]
      rw [Act.outcome_bind_of_ok (Act.outcome_get _)]
      -- From here on the store has one path more among those it looked for, which does not matter
      -- to what is developed.
      generalize store.sought ++ [path.toString] = sought
      have hlift : (liftM (ImageStore.develop { store with sought } path scale missing) :
          Imaging Picture).outcome { store with sought } =
          (store.develop path scale missing, { store with sought }) := Act.outcome_lift _ _
      cases hp : store.develop path scale missing with
      | error e =>
        rw [hp] at hlift hdevelop
        rw [Act.outcome_bind_of_error hlift]
        exact ⟨rfl, Follows.of_error hdevelop _⟩
      | ok p =>
        rw [hp] at hlift hdevelop
        rw [Act.outcome_bind_of_ok hlift]
        exact ⟨rfl, Follows.of_ok hfind hdevelop _ _ _⟩

/-- A request is answered from what is kept or from what is developed, and a frame is cut out. -/
theorem answer_spec (store : ImageStore) (r : ImageRequest) :
    store.picture r = (store.find? r.key).elim (store.developed r) .ok >>= r.finish ∧
      store.Follows r (r.answer.outcome store).2 := by
  cases r with
  | image id scale missing =>
    obtain ⟨hpicture, hfollows⟩ := store.load_spec id scale missing
    refine ⟨?_, hfollows⟩
    unfold picture
    rw [show (ImageRequest.image id scale missing).answer = Imaging.load id scale missing from rfl,
      hpicture]
    exact (bind_pure _).symm
  | frame id index width height =>
    obtain ⟨hpicture, hfollows⟩ := store.load_spec id none (width, height)
    have hsame : store.developed (.image id none (width, height)) =
        store.developed (.frame id index width height) := rfl
    unfold picture
    rw [show (ImageRequest.frame id index width height).answer =
      Imaging.frame id index width height from rfl]
    unfold Imaging.frame
    cases hload : (Imaging.load id none (width, height)).outcome store with
    | mk result store' =>
    rw [hload] at hpicture hfollows
    have hframe : store.Follows (.frame id index width height) store' :=
      ⟨hfollows.files, hfollows.root, hfollows.hasDisplay, hfollows.kept⟩
    have hkey : (ImageRequest.frame id index width height).key = ⟨id, none⟩ := rfl
    rw [hkey, ← hsame, ← hpicture]
    cases result with
    | error e =>
      rw [Act.outcome_bind_of_error hload]
      exact ⟨rfl, hframe⟩
    | ok image =>
      rw [Act.outcome_bind_of_ok hload]
      show _ = ImageRequest.finish (.frame id index width height) image.2 ∧ _
      unfold ImageRequest.finish
      dsimp only
      by_cases hwidth : width = 0
      · rw [if_pos hwidth, if_pos hwidth]
        exact ⟨rfl, hframe⟩
      rw [if_neg hwidth, if_neg hwidth]
      cases Imaging.cell image.2.width image.2.height index width height with
      | error e => exact ⟨rfl, hframe⟩
      | ok area =>
        rw [Act.outcome_bind_of_ok (Act.outcome_lift _ _)]
        show _ = (if area.width = 0 ∨ area.height = 0 then Picture.placeholder width height
          else .ok (image.2.cut area)) ∧ _
        by_cases harea : area.width = 0 ∨ area.height = 0
        · rw [if_pos harea, if_pos harea]
          cases Picture.placeholder width height with
          | error e => exact ⟨rfl, hframe⟩
          | ok p => exact ⟨rfl, hframe.number _⟩
        · rw [if_neg harea, if_neg harea]
          exact ⟨rfl, hframe.number _⟩

/-! ### Requests one after the other -/

/-- After requests there is what was kept before, and what the first answered request of a key had
    developed. -/
theorem after_spec (store : ImageStore) (rs : List ImageRequest) :
    (store.after rs).files = store.files ∧ (store.after rs).root = store.root ∧
      (store.after rs).hasDisplay = store.hasDisplay ∧
      ∀ key, (store.after rs).find? key = (store.find? key).or (store.first? rs key) := by
  induction rs using List.reverseRecOn with
  | nil => exact ⟨rfl, rfl, rfl, fun key => Option.or_none.symm⟩
  | append_singleton rs r ih =>
    obtain ⟨hfiles, hroot, hdisplay, hkept⟩ := ih
    obtain ⟨-, hfollows⟩ := (store.after rs).answer_spec r
    have hafter : store.after (rs ++ [r]) = (r.answer.outcome (store.after rs)).2 := by
      unfold after
      rw [List.foldl_append]
      rfl
    rw [hafter]
    refine ⟨hfollows.files.trans hfiles, hfollows.root.trans hroot,
      hfollows.hasDisplay.trans hdisplay, fun key => ?_⟩
    unfold first? at hkept ⊢
    rw [hfollows.kept key, hkept, developed_eq hfiles hroot hdisplay, List.findSome?_append,
      Option.or_assoc, List.findSome?_singleton]

/-- A request after others is answered by what the first answered one of its key had developed. -/
theorem picture_after (store : ImageStore) (rs : List ImageRequest) (r : ImageRequest) :
    (store.clear.after rs).picture r =
      (store.first? rs r.key).elim (store.developed r) .ok >>= r.finish := by
  obtain ⟨hfiles, hroot, hdisplay, hkept⟩ := store.clear.after_spec rs
  have hclear (r : ImageRequest) : store.clear.developed r = store.developed r :=
    developed_eq rfl rfl rfl r
  have hfirst : store.clear.first? rs r.key = store.first? rs r.key := by
    unfold first?
    simp only [hclear]
  rw [(answer_spec _ r).1, hkept, developed_eq hfiles hroot hdisplay, hclear, hfirst]
  rfl

/-! ### Requests that agree -/

/-- A factor of the same value scales a length to the same one, as long as neither the length nor
    its product with a whole factor takes more than 53 bits. -/
theorem scaledLength_congr {length : Int} {x y : Int ⊕ Float} (h : Data.sameNumber x y)
    (hlength : length.natAbs < 2 ^ 53)
    (hproduct : ∀ n : Int, Data.sameNumber (.inl n) y → (length * n).natAbs < 2 ^ 53) :
    scaledLength length x = scaledLength length y := by
  have hwhole {n : Int} {z : Float} (hz : Number.isEqualTo z n)
      (hn : (length * n).natAbs < 2 ^ 53) :
      scaledLength length (.inr z) = scaledLength length (.inl n) := by
    unfold scaledLength
    dsimp only
    rw [Number.truncate_mul_whole hz hlength hn]
  have hzero : (length * 0).natAbs < 2 ^ 53 := by
    rw [Int.mul_zero]
    exact Nat.two_pow_pos 53
  match x, y, h with
  | .inl m, .inl n, h => rw [eq_of_beq h]
  | .inl m, .inr y, h => exact (hwhole h (hproduct m h)).symm
  | .inr x, .inl n, h => exact hwhole h (hproduct n (beq_self_eq_true n))
  | .inr x, .inr y, h =>
    rcases Number.parts_eq_or_zero (Number.beq_iff_same.1 h) with hparts | ⟨hx, hy⟩
    · unfold scaledLength
      dsimp only
      rw [Number.mul_congr_of_parts_eq _ hparts]
    · exact (hwhole hx hzero).trans (hwhole hy hzero).symm

/-- The size of the picture of a request, and that size after scaling by a whole factor, take at
    most 53 bits. -/
def ScalesExactly (store : ImageStore) (r : ImageRequest) : Prop :=
  ∀ p x, store.source r = .ok p → r.key.scale = some (.factor x) →
    ∀ length ∈ [p.width, p.height], length.natAbs < 2 ^ 53 ∧
      ∀ n : Int, Data.sameNumber (.inl n) x → (length * n).natAbs < 2 ^ 53

/-- Whether there is the file of a request. -/
def HasFile (store : ImageStore) (r : ImageRequest) : Prop :=
  ∃ path size, store.pathOf r.key.id = .ok path ∧ store.files.get? path.toString = some size

/-- A request that gets the same picture as another one of its key: the file is there or they
    agree on the size of the placeholder, and the scales are the same number or are exact. -/
structure StandsFor (store : ImageStore) (r' r : ImageRequest) : Prop where
  missing : store.HasFile r ∨ r'.missing = r.missing
  scale : r'.key.scale = r.key.scale ∨ store.ScalesExactly r

theorem source_eq {store : ImageStore} {r' r : ImageRequest} (hid : r'.key.id = r.key.id)
    (h : store.HasFile r ∨ r'.missing = r.missing) : store.source r' = store.source r := by
  unfold source
  rw [hid]
  rcases h with ⟨path, size, hpath, hfile⟩ | hmissing
  · rw [hpath]
    show (match store.files.get? path.toString with | some (width, height) => _ | none => _) =
      (match store.files.get? path.toString with | some (width, height) => _ | none => _)
    rw [hfile]
  · rw [hmissing]

theorem scaled_congr {p : Picture} {s t : Scale} (h : s.same t)
    (hexact : ∀ x, t = .factor x → ∀ length ∈ [p.width, p.height], length.natAbs < 2 ^ 53 ∧
      ∀ n : Int, Data.sameNumber (.inl n) x → (length * n).natAbs < 2 ^ 53) :
    scaled p (some s) = scaled p (some t) := by
  match s, t, h with
  | .factor x, .factor y, h =>
    have hlength (length : Int) (hmem : length ∈ [p.width, p.height]) :
        scaledLength length x = scaledLength length y := by
      obtain ⟨hsmall, hproduct⟩ := hexact y rfl length hmem
      exact scaledLength_congr h hsmall hproduct
    unfold scaled
    dsimp only
    rw [hlength p.width (by simp), hlength p.height (by simp)]
  | .size xs, .size ys, h => rw [eq_of_beq h]

theorem StandsFor.developed_eq {store : ImageStore} {r' r : ImageRequest}
    (h : store.StandsFor r' r) (hkey : r'.key == r.key) :
    store.developed r' = store.developed r := by
  obtain ⟨hid, hscale⟩ := ImageKey.beq_iff.1 hkey
  unfold developed
  rw [source_eq hid h.missing]
  cases hsource : store.source r with
  | error e => rfl
  | ok p =>
    have hscaled : scaled p r'.key.scale = scaled p r.key.scale := by
      rcases h.scale with heq | hexact
      · rw [heq]
      rcases hscale with ⟨hs, ht⟩ | ⟨s, t, hs, ht, hsame⟩
      · rw [hs, ht]
      · rw [hs, ht]
        exact scaled_congr hsame fun x hx => hexact p x hsource (hx ▸ ht)
    show (do return store.ready (← scaled p r'.key.scale)) =
      (do return store.ready (← scaled p r.key.scale))
    rw [hscaled]

/-- Requests that agree have developed the same. -/
theorem first?_elim_of_standsFor {store : ImageStore} {rs : List ImageRequest} {r : ImageRequest}
    (h : ∀ r' ∈ rs, r'.key == r.key → store.StandsFor r' r) :
    (store.first? rs r.key).elim (store.developed r) .ok = store.developed r := by
  cases hfirst : store.first? rs r.key with
  | none => rfl
  | some p =>
    obtain ⟨r', hmem, hr'⟩ := List.exists_of_findSome?_eq_some hfirst
    split at hr'
    · next hkey =>
      rw [(h r' hmem hkey).developed_eq hkey] at hr'
      cases hdeveloped : store.developed r with
      | error e =>
        rw [hdeveloped] at hr'
        cases hr'
      | ok q =>
        rw [hdeveloped] at hr'
        cases hr'
        rfl
    · cases hr'

/-- After requests since the store was cleared, the picture of a request is the one that the first
    answered request of its key had developed. So it is the picture that an empty store gives, if
    all requests of the key stand for it: the file is there or they agree on the placeholder. -/
theorem images_kept_alike (store : ImageStore) (rs : List ImageRequest) (r : ImageRequest) :
    (store.clear.after rs).picture r =
        (store.first? rs r.key).elim (store.developed r) .ok >>= r.finish ∧
      ((∀ r' ∈ rs, r'.key == r.key → store.StandsFor r' r) →
        (store.clear.after rs).picture r = store.clear.picture r) := by
  refine ⟨picture_after store rs r, fun h => ?_⟩
  have hempty : store.clear.picture r = store.developed r >>= r.finish :=
    picture_after store [] r
  rw [hempty, picture_after, first?_elim_of_standsFor h]

/-- A store of one image, a sheet of two frames. -/
def strip : ImageStore := { files := [("assets/walk.png", (64, 32))] }

theorem images_kept_alike_strip :
    (strip.clear.after [.image "nope" none (48, 48), .frame "walk" 0 32 32]).picture
        (.frame "walk" 1 32 32) =
      .ok { origin := .file "assets/walk.png", edits := [.cut ⟨32, 0, 32, 32⟩], width := 32,
            height := 32 } ∧
    ((strip.clear.after [.image "nope" none (48, 48), .frame "walk" 0 32 32]).picture
        (.image "nope" none (10, 20))).map (fun p => (p.width, p.height)) = .ok (48, 48) ∧
    (strip.clear.picture (.image "nope" none (10, 20))).map (fun p => (p.width, p.height)) =
      .ok (10, 20) := by
  refine ⟨?_, ?_, ?_⟩
  · rw [(images_kept_alike strip _ _).2 ?_]
    · decide +kernel
    · intro r' hr' _
      refine ⟨.inl ⟨⟨"", ["assets", "walk.png"]⟩, (64, 32), rfl, rfl⟩, .inl ?_⟩
      rcases List.mem_pair.1 hr' with rfl | rfl <;> rfl
  · rw [(images_kept_alike strip _ _).1]
    rfl
  · exact congrArg _ (images_kept_alike strip [] _).1

end ImageStore

end VisualNovel
