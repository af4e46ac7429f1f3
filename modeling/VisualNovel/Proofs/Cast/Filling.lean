import VisualNovel.Proofs.Cast.SpriteSheets

/-!
Casts that are filled one definition after the other, as that of a directory is. A character is found
under its own name, and every animation counts at least one frame of at least one pixel.
-/

namespace VisualNovel

/-- A sheet has frames, and they have a size. -/
structure SpriteSheet.Counted (s : SpriteSheet) : Prop where
  frames : 1 ≤ s.frames
  width : 1 ≤ s.frameWidth
  height : 1 ≤ s.frameHeight

theorem SpriteSheet.counted_of_ofFile {files : FileTree} {path : Path} {s : SpriteSheet}
    (h : ofFile files path = .ok s) : s.Counted := by
  obtain ⟨entries, -, hentries⟩ := bind_eq_ok.1 h
  have hdescribes := ofEntries_eq_ok_iff.1 hentries
  exact ⟨hdescribes.frames.pos, hdescribes.frameWidth.pos, hdescribes.frameHeight.pos⟩

namespace Cast

/-- A cast that came about by adding characters and animations one after the other. -/
inductive Filled : Cast → Prop where
  | empty : Filled {}
  | character {cast cast' : Cast} {c : Character} {place : String} (h : Filled cast)
    (hadd : cast.addCharacter c place = .ok cast') : Filled cast'
  | animation {cast cast' : Cast} {sheet : SpriteSheet} {place : String} (h : Filled cast)
    (hadd : cast.addAnimation sheet place = .ok cast') : Filled cast'

variable {cast cast' : Cast}

theorem animations_of_addCharacter {c : Character} {place : String}
    (h : cast.addCharacter c place = .ok cast') : cast'.animations = cast.animations := by
  unfold addCharacter at h
  split at h
  · cases h
  · cases h
    rfl

theorem animations_of_addAnimation {sheet : SpriteSheet} {place : String}
    (h : cast.addAnimation sheet place = .ok cast') :
    cast'.animations = cast.animations.put sheet.name sheet := by
  unfold addAnimation at h
  split at h
  · cases h
  · cases h
    rfl

/-- A character is found under its own name. -/
theorem Filled.name_eq (h : cast.Filled) {name : String} {c : Character}
    (hc : cast.characters.get? name = some c) : c.name = name := by
  induction h with
  | empty => cases hc
  | character h hadd ih =>
    unfold addCharacter at hadd
    split at hadd
    · cases hadd
    · cases hadd
      rw [Table.get?_put] at hc
      split at hc
      · next hname =>
        cases hc
        exact hname.symm
      · exact ih hc
  | animation h hadd ih =>
    unfold addAnimation at hadd
    split at hadd
    · cases hadd
    · cases hadd
      exact ih hc

/-- A cast that was filled by adding, all of whose animations have frames. -/
structure Sound (cast : Cast) : Prop where
  filled : cast.Filled
  counted : ∀ name sheet, (name, sheet) ∈ cast.animations → sheet.Counted

/-- The cast of a directory is sound. -/
theorem sound_of_ofDirectory {files : FileTree} {root : Path}
    (h : ofDirectory files root = .ok cast) : cast.Sound := by
  obtain ⟨characterFiles, -, h⟩ := bind_eq_ok.1 h
  obtain ⟨characters, hcharacters, h⟩ := bind_eq_ok.1 h
  obtain ⟨animationFiles, -, hanimations⟩ := bind_eq_ok.1 h
  have hempty : Sound {} := ⟨.empty, fun _ _ hmem => absurd hmem List.not_mem_nil⟩
  have hbefore : characters.Sound := by
    refine foldlM_induction (fun cast path cast' hcast hstep => ?_) hempty hcharacters
    obtain ⟨c, -, hadd⟩ := bind_eq_ok.1 hstep
    exact ⟨.character hcast.filled hadd, animations_of_addCharacter hadd ▸ hcast.counted⟩
  refine foldlM_induction (fun cast path cast' hcast hstep => ?_) hbefore hanimations
  obtain ⟨sheet, hsheet, hadd⟩ := bind_eq_ok.1 hstep
  refine ⟨.animation hcast.filled hadd, fun name sheet' hmem => ?_⟩
  rw [animations_of_addAnimation hadd] at hmem
  rcases Table.eq_or_mem_of_mem_put hmem with heq | hold
  · cases heq
    exact SpriteSheet.counted_of_ofFile hsheet
  · exact hcast.counted name sheet' hold

end Cast

end VisualNovel
