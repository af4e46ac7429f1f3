import VisualNovel.Proofs.Drawing.Easel
import VisualNovel.Proofs.Player.Opening
import VisualNovel.Proofs.Player.Presses

/-!
The layers of a player, whatever happens to it. The novel is always at the bottom, with at most one
backlog over it. While the backlog is open the novel stands still, and so the backlog never hides
more entries than there are. Main statement: `backlog_over_novel`.
-/

namespace VisualNovel

open Act

/-! ### The backlog -/

namespace Backlog

variable {easel : Easel}

/-- Scrolling stops at both ends. -/
theorem scrollBy_bounds (n total scroll : Int) :
    0 ≤ scrollBy n total scroll ∧ scrollBy n total scroll ≤ max 0 (total - 1) :=
  ⟨le_max_left _ _, max_le (le_max_left _ _) (min_le_left _ _)⟩

theorem textLines_completes {font : Font} (hsize : 0 ≤ font.size) (color : Color) (x y : Int)
    (lines : List (List Char)) :
    Ends (Draw.textLines font color x y lines) easel fun _ _ => True :=
  Draw.textLines_keeps (fun _ _ _ _ => Ends.change trivial) hsize color x y trivial

theorem drawEntry_completes (style : Style) {font : Font} (hsize : 0 ≤ font.size) (y : Int)
    (speaker : Option String) (lines : List (List Char)) :
    Ends (drawEntry style font y speaker lines) easel fun _ _ => True := by
  unfold drawEntry
  cases speaker with
  | none => exact textLines_completes hsize _ _ _ _
  | some name =>
    obtain ⟨p, hp, -⟩ :=
      Draw.exists_ofText { font with bold := true } hsize style.name name.toList
    exact Ends.lift_bind hp (Ends.change_bind (textLines_completes hsize _ _ _ _))

theorem drawEntries_completes (style : Style) {font : Font} (hsize : 0 ≤ font.size) (width y : Int)
    (entries : List HistoryEntry) :
    Ends (drawEntries style font width y entries) easel fun _ _ => True := by
  induction entries generalizing easel y with
  | nil => exact Ends.pure trivial
  | cons entry rest ih =>
    unfold drawEntries
    dsimp only
    -- The height of the entry does not matter, only whether there is room for it.
    generalize y - (_ * font.lineHeight + style.padding / 2) = top
    split
    · exact Ends.pure trivial
    · exact (drawEntry_completes style hsize _ _ _).then_bind fun _ _ _ => ih _

/-- On a surface that can be, a backlog is drawn to the end if it hides no negative number of
    entries. -/
theorem draw_completes (style : Style) (hsize : 4 ≤ style.fontSize) (entries : List HistoryEntry)
    {scroll : Int} (hscroll : 0 ≤ scroll) (hwidth : 0 ≤ easel.width) (hheight : 0 ≤ easel.height) :
    Ends (draw style entries scroll) easel fun _ _ => True := by
  have hblank : Picture.blank easel.width easel.height =
      .ok { origin := .blank, width := easel.width, height := easel.height } := if_neg (by omega)
  unfold draw
  refine Ends.view_bind (Ends.lift_bind hblank (Ends.change_bind ?_))
  rw [if_neg (by omega)]
  exact drawEntries_completes style (by dsimp only; omega) _ _ _

end Backlog

namespace Player

/-! ### One turn -/

variable {p : Player} {turn : Turn}

/-- What becomes of a player in one turn. -/
inductive Changes (p : Player) (turn : Turn) : Player → Prop
  | goesOn (q : Performance Float) : p.layers.active? = some .novel →
      turn ≠ .input (.key .escape) → Changes p turn { p with performance := q }
  | quits : p.layers.active? = some .novel → turn = .input (.key .escape) →
      Changes p turn { p with layers := p.layers.requestQuit }
  | opens : p.layers.active? = some .novel → turn ≠ .input (.key .escape) →
      Changes p turn { p with layers := p.layers.push (.backlog 0) }
  | closes {scrolled : Int} : p.layers.active? = some (.backlog scrolled) →
      Changes p turn { p with layers := p.layers.pop.2 }
  | scrolls {scrolled : Int} (n : Int) : p.layers.active? = some (.backlog scrolled) →
      Changes p turn { p with layers := (p.layers.replaceActive
        (.backlog (Backlog.scrollBy n p.performance.story.history.length scrolled))) }
  | rests : (p.layers.active? = some .novel → turn ≠ .input (.key .escape)) → Changes p turn p

/-- Whatever is done with the performance, the rest of the player stays. -/
theorem cue_lands (c : Cue Float) (p : Player) :
    Lands (cue c) p fun _ p' => ∃ q, p' = { p with performance := q } := by
  rw [Lands, outcome_cue]
  exact ⟨_, rfl⟩

theorem press_lands (p : Player) :
    Lands press p fun _ p' => ∃ q, p' = { p with performance := q } := by
  refine Lands.get_bind ?_
  split
  · exact Lands.pure ⟨p.performance, rfl⟩
  · exact Lands.discard (cue_lands .pressThrough p)

theorem openBacklog_lands (p : Player) :
    Lands openBacklog p fun _ p' =>
      p' = p ∨ p' = { p with layers := p.layers.push (.backlog 0) } := by
  refine Lands.get_bind ?_
  split
  · exact Lands.pure (.inl rfl)
  · exact Lands.change_bind (Lands.pure (.inr rfl))

theorem handleOnNovel_changes (hactive : p.layers.active? = some .novel) (i : Input) :
    Lands (handleOnNovel i) p fun _ => Changes p (.input i) := by
  have hpress (h : i ≠ .key .escape) :
      Lands (do press; return true : Playing Bool) p fun _ => Changes p (.input i) := by
    refine (press_lands p).then_bind ?_ ?_
    · rintro _ ⟨q, rfl⟩
      exact .goesOn q hactive fun heq => h (Turn.input.inj heq)
    · rintro _ _ ⟨q, rfl⟩
      exact Lands.pure (.goesOn q hactive fun heq => h (Turn.input.inj heq))
  have hopen (h : i ≠ .key .escape) : Lands openBacklog p fun _ => Changes p (.input i) := by
    refine (openBacklog_lands p).mono ?_
    rintro _ _ (rfl | rfl)
    · exact .rests fun _ heq => h (Turn.input.inj heq)
    · exact .opens hactive fun heq => h (Turn.input.inj heq)
  have hrest (h : i ≠ .key .escape) :
      Lands (pure false : Playing Bool) p fun _ => Changes p (.input i) :=
    Lands.pure (.rests fun _ heq => h (Turn.input.inj heq))
  unfold handleOnNovel
  split
  · exact Lands.change_bind (Lands.pure (.quits hactive rfl))
  · exact hopen (by simp)
  · next k hescape _ =>
    have hne : Input.key k ≠ .key .escape := fun heq => hescape (Input.key.inj heq)
    split
    · exact hpress hne
    · exact hrest hne
  · exact hpress (by simp)
  · split
    · exact hopen (by simp)
    · exact hrest (by simp)
  · next hescape _ _ _ _ => exact hrest hescape

theorem handleOnBacklog_changes {scrolled : Int}
    (hactive : p.layers.active? = some (.backlog scrolled)) (i : Input) :
    Ends (handleOnBacklog scrolled i) p fun _ => Changes p turn := by
  have hscroll (n : Int) :
      Ends (do scroll n scrolled; return true : Playing Bool) p fun _ => Changes p turn :=
    Ends.bind (Ends.get_bind (Ends.change (Ends.pure (.scrolls n hactive))))
  have hclose : Ends (do changeLayers (·.pop.2); return true : Playing Bool) p
      fun _ => Changes p turn := Ends.change_bind (Ends.pure (.closes hactive))
  have hrest (b : Bool) : Ends (pure b : Playing Bool) p fun _ => Changes p turn :=
    Ends.pure (.rests fun hnovel => by rw [hactive] at hnovel; cases hnovel)
  unfold handleOnBacklog
  split
  · next k =>
    cases k with
    | h | escape => exact hclose
    | up | pageUp | down | pageDown => exact hscroll _
    | _ => exact hrest true
  · exact hscroll _
  · split
    · exact hclose
    · exact hrest false
  · exact hrest false

/-- A backlog takes every turn to its end. -/
theorem take_ends {scrolled : Int} (hactive : p.layers.active? = some (.backlog scrolled))
    (turn : Turn) : Ends (take turn) p fun _ => Changes p turn := by
  cases turn with
  | time dt =>
    refine Ends.get_bind ?_
    rw [hactive]
    exact Ends.pure (.rests fun hnovel => by rw [hactive] at hnovel; cases hnovel)
  | input i =>
    refine Ends.then_bind (Ends.get_bind ?_) fun _ _ h => Ends.pure h
    rw [hactive]
    exact handleOnBacklog_changes hactive i

theorem take_changes (p : Player) (turn : Turn) : Changes p turn ((take turn).outcome p).2 := by
  cases hactive : p.layers.active? with
  | none =>
    have hrest : Changes p turn p := .rests fun hnovel => by rw [hactive] at hnovel; cases hnovel
    cases turn with
    | time dt =>
      refine (Lands.get_bind ?_ : Lands (take (.time dt)) p fun _ => Changes p _)
      rw [hactive]
      exact Lands.pure hrest
    | input i =>
      refine (Lands.discard (Lands.get_bind ?_) : Lands (take (.input i)) p fun _ => Changes p _)
      rw [hactive]
      exact Lands.pure hrest
  | some layer =>
    cases layer with
    | backlog scrolled =>
      obtain ⟨_, _, houtcome, hchanges⟩ := take_ends hactive turn
      rwa [houtcome]
    | novel =>
      cases turn with
      | time dt =>
        refine (Lands.get_bind ?_ : Lands (take (.time dt)) p fun _ => Changes p _)
        rw [hactive]
        dsimp only
        split
        · exact Lands.pure (.rests fun _ => by simp)
        · refine Lands.discard ((cue_lands (.frame dt) p).mono ?_)
          rintro _ _ ⟨q, rfl⟩
          exact .goesOn q hactive (by simp)
      | input i =>
        refine (Lands.discard (Lands.get_bind ?_) : Lands (take (.input i)) p fun _ => Changes p _)
        rw [hactive]
        exact handleOnNovel_changes hactive i

/-! ### What every turn keeps -/

/-- The novel is at the bottom, with at most the backlog over it. The backlog hides entries that
    there are, and never all of them. -/
def Layered (p : Player) : Prop :=
  p.layers.scenes = [.novel] ∨ ∃ scrolled, p.layers.scenes = [.novel, .backlog scrolled] ∧
    0 ≤ scrolled ∧ scrolled ≤ max 0 ((p.performance.story.history.length : Int) - 1)

namespace Layered

theorem scenes_of_novel (h : p.Layered) (hactive : p.layers.active? = some .novel) :
    p.layers.scenes = [.novel] := by
  rcases h with hscenes | ⟨scrolled, hscenes, -⟩
  · exact hscenes
  · rw [SceneStack.active?, hscenes] at hactive
    cases hactive

theorem scenes_of_backlog (h : p.Layered) {scrolled : Int}
    (hactive : p.layers.active? = some (.backlog scrolled)) :
    p.layers.scenes = [.novel, .backlog scrolled] := by
  rcases h with hscenes | ⟨scrolled', hscenes, -⟩
  · rw [SceneStack.active?, hscenes] at hactive
    cases hactive
  · rw [SceneStack.active?, hscenes] at hactive
    cases hactive
    exact hscenes

/-- A backlog that closes uncovers the novel, and nobody is asked to end the program. -/
theorem pop_backlog (h : p.Layered) {scrolled : Int}
    (hactive : p.layers.active? = some (.backlog scrolled)) :
    p.layers.pop.2 = { p.layers with scenes := [.novel] } := by
  rw [SceneStack.pop, hactive]
  dsimp only
  rw [h.scenes_of_backlog hactive]
  simp

theorem of_changes (h : p.Layered) {p' : Player} (hchanges : Changes p turn p') : p'.Layered := by
  cases hchanges with
  | goesOn q hactive => exact .inl (h.scenes_of_novel hactive)
  | quits hactive => exact .inl (h.scenes_of_novel hactive)
  | opens hactive =>
    refine .inr ⟨0, ?_, le_rfl, le_max_left _ _⟩
    show p.layers.scenes ++ _ = _
    rw [h.scenes_of_novel hactive]
    rfl
  | closes hactive =>
    left
    dsimp only
    rw [h.pop_backlog hactive]
  | @scrolls scrolled n hactive =>
    refine .inr ⟨Backlog.scrollBy n _ scrolled, ?_, Backlog.scrollBy_bounds ..⟩
    show p.layers.scenes.dropLast ++ _ = _
    rw [h.scenes_of_backlog hactive]
    rfl
  | rests => exact h

/-- The end of the program is asked for by the Escape key on the novel and by nothing else. -/
theorem quitRequested_iff (h : p.Layered) {p' : Player} (hchanges : Changes p turn p') :
    p'.layers.quitRequested ↔ p.layers.quitRequested ∨
      (turn = .input (.key .escape) ∧ p.layers.active? = some .novel) := by
  cases hchanges with
  | goesOn q hactive hturn => simp [hturn]
  | quits hactive hturn => simp [SceneStack.requestQuit, hactive, hturn]
  | opens hactive hturn => simp [SceneStack.push, hturn]
  | closes hactive => simp [h.pop_backlog hactive, hactive]
  | scrolls n hactive => simp [SceneStack.replaceActive, hactive]
  | rests hrests =>
    exact ⟨.inl, fun hasked => hasked.resolve_right fun ⟨hturn, hactive⟩ => hrests hactive hturn⟩

/-- Under the backlog everything stands still: no turn fails, and it changes only the layers. -/
theorem take_under_backlog (h : p.Layered) {scrolled : Int}
    (hactive : p.layers.active? = some (.backlog scrolled)) (turn : Turn) :
    ∃ layers, layers.quitRequested = p.layers.quitRequested ∧
      (take turn).outcome p = (.ok (), { p with layers }) := by
  have hnot : ¬p.layers.active? = some .novel := by rw [hactive]; simp
  obtain ⟨_, p', houtcome, hchanges⟩ := take_ends hactive turn
  rw [houtcome]
  cases hchanges with
  | goesOn q hnovel => exact absurd hnovel hnot
  | quits hnovel => exact absurd hnovel hnot
  | opens hnovel => exact absurd hnovel hnot
  | closes hbacklog => exact ⟨_, by rw [h.pop_backlog hbacklog], rfl⟩
  | scrolls n => exact ⟨p.layers.replaceActive _, rfl, rfl⟩
  | rests => exact ⟨p.layers, rfl, rfl⟩

theorem after (h : p.Layered) (turns : List Turn) : (p.after turns).Layered := by
  induction turns generalizing p with
  | nil => exact h
  | cons turn rest ih => exact ih (h.of_changes (take_changes p turn))

/-- After some turns the end is asked for if it was before, or if in one of them the Escape key came
    to the novel. -/
theorem quitRequested_after_iff (h : p.Layered) (turns : List Turn) :
    (p.after turns).layers.quitRequested ↔ p.layers.quitRequested ∨
      ∃ before behind, turns = before ++ .input (.key .escape) :: behind ∧
        (p.after before).layers.active? = some .novel := by
  induction turns generalizing p with
  | nil => simp [Player.after]
  | cons turn rest ih =>
    have hstep := take_changes p turn
    refine (ih (h.of_changes hstep)).trans ?_
    rw [h.quitRequested_iff hstep]
    constructor
    · rintro ((hbefore | ⟨rfl, hactive⟩) | ⟨before, behind, rfl, hactive⟩)
      · exact .inl hbefore
      · exact .inr ⟨[], rest, rfl, hactive⟩
      · exact .inr ⟨turn :: before, behind, rfl, hactive⟩
    · rintro (hbefore | ⟨_ | ⟨first, before⟩, behind, hturns, hactive⟩)
      · exact .inl (.inl hbefore)
      · cases hturns
        exact .inl (.inr ⟨rfl, hactive⟩)
      · cases hturns
        exact .inr ⟨before, behind, rfl, hactive⟩

end Layered

/-! ### From the beginning on -/

/-- Entering puts the novel on top, whatever comes of the first script. -/
theorem layers_enter (p : Player) : (enter.outcome p).2.layers = p.layers.push .novel := by
  cases hproblem : p.problem with
  | some message => rw [outcome_enter_of_problem (by simp [hproblem])]
  | none =>
    rw [outcome_enter hproblem]
    cases (Play.cue (.start p.settings.start)).outcome p.performance with
    | mk r performance =>
      cases r with
      | ok answer => rfl
      | error e =>
        dsimp only
        cases e.loadMessage? <;> rfl

/-- Before a novel comes on there is nothing on the screen. -/
theorem layers_of_ofSettings {settings : Settings} {files : FileTree} {images : ImageStore}
    {novel : Player} (h : ofSettings settings files images = .ok novel) : novel.layers = {} := by
  unfold ofSettings at h
  cases hcast : openCast settings files with
  | error e =>
    rw [hcast] at h
    cases h
  | ok opened =>
    rw [hcast] at h
    cases h
    rfl

/-- Let a novel come on, whether it can start its script or not, and let time pass and input come
    in any way. Then the novel is alone, or the backlog is over it and hides as many entries as there
    are, less one, at the most, so that it is drawn to the end. Under the backlog no turn fails, and
    nothing of the player changes but the layers. The end of the program is asked for if and only if
    the Escape key came while the novel was on top. -/
theorem backlog_over_novel (settings : Settings) (files : FileTree) (images : ImageStore)
    (novel : Player) (hnovel : ofSettings settings files images = .ok novel) (turns : List Turn)
    (start p : Player) (hstart : start = (enter.outcome novel).2) (hp : p = start.after turns) :
    (p.layers.scenes = [.novel] ∨ ∃ scrolled, p.layers.scenes = [.novel, .backlog scrolled] ∧
      0 ≤ scrolled ∧ scrolled ≤ max 0 ((p.performance.story.history.length : Int) - 1) ∧
      ∀ easel : Easel, 0 ≤ easel.width → 0 ≤ easel.height →
        ((Backlog.draw p.style p.performance.story.history.entries scrolled).outcome easel).1 =
          .ok ()) ∧
    (∀ scrolled, p.layers.active? = some (.backlog scrolled) → ∀ turn : Turn, ∃ layers,
      layers.quitRequested = p.layers.quitRequested ∧
        (take turn).outcome p = (.ok (), { p with layers })) ∧
    (p.layers.quitRequested ↔ ∃ before behind, turns = before ++ .input (.key .escape) :: behind ∧
      (start.after before).layers.active? = some .novel) := by
  have hlayers : start.layers = ⟨[.novel], false⟩ := by
    rw [hstart, layers_enter, layers_of_ofSettings hnovel]
    rfl
  have hbeginning : start.Layered := .inl (by rw [hlayers])
  have hlayered : p.Layered := hp ▸ hbeginning.after turns
  refine ⟨?_, fun scrolled hactive => hlayered.take_under_backlog hactive, ?_⟩
  · rcases hlayered with hscenes | ⟨scrolled, hscenes, hlow, hhigh⟩
    · exact .inl hscenes
    · refine .inr ⟨scrolled, hscenes, hlow, hhigh, fun easel hwidth hheight => ?_⟩
      have hsize : 4 ≤ p.style.fontSize := (by decide : (4 : Int) ≤ 26)
      obtain ⟨_, _, houtcome, -⟩ := Backlog.draw_completes p.style hsize
        p.performance.story.history.entries hlow hwidth hheight
      rw [houtcome]
  · rw [hp, hbeginning.quitRequested_after_iff turns, hlayers]
    simp
/-- Two lines have been said when the backlog is opened and scrolled by a page. Escape closes it
    without ending the program. -/
theorem backlog_over_novel_two_lines :
    let files := ({} : FileTree).write (Path.ofString "game/content/Chapter 1/1.sabi")
      (.file ("SCENE a\nMC: \"Hello\"\nMC: \"Bye\"\nCURTAIN\n".toList.map (·.toUInt8)))
    let turns : List Turn := [.time (Scalar.decimal 1 2), .input (.click 1), .input (.click 1),
      .time (Scalar.decimal 1 2), .input (.key .h), .input (.key .pageUp)]
    ∃ novel, ofSettings {} files {} = .ok novel ∧ ∃ p, p = (enter.outcome novel).2.after turns ∧
      p.layers.scenes = [.novel, .backlog 1] ∧ p.layers.quitRequested = false ∧
      ((Backlog.draw p.style p.performance.story.history.entries 1).outcome
        { width := 640, height := 480 }).1 = .ok () ∧
      ∃ layers, layers.quitRequested = false ∧
        (take (.input (.key .escape))).outcome p = (.ok (), { p with layers }) := by
  intro files turns
  have hrun : (ofSettings {} files {}).toOption.map (fun novel =>
      ((enter.outcome novel).2.after turns).layers) =
        some ⟨[.novel, .backlog 1], false⟩ := by
    decide +kernel
  cases hnovel : ofSettings {} files {} with
  | error e =>
    rw [hnovel] at hrun
    cases hrun
  | ok novel =>
    rw [hnovel] at hrun
    have hlayers : ((enter.outcome novel).2.after turns).layers = ⟨[.novel, .backlog 1], false⟩ :=
      Option.some.inj hrun
    obtain ⟨hshape, hstill, -⟩ := backlog_over_novel {} files {} novel hnovel turns _ _ rfl rfl
    rw [hlayers] at hshape hstill
    refine ⟨novel, rfl, _, rfl, by rw [hlayers], by rw [hlayers], ?_, hstill 1 rfl _⟩
    rcases hshape with halone | ⟨scrolled, hscenes, -, -, hdrawn⟩
    · cases halone
    · cases hscenes
      exact hdrawn _ (by decide) (by decide)

end Player

end VisualNovel
