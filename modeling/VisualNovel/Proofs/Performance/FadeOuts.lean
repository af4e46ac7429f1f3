import VisualNovel.Proofs.Performance.Waiting
import VisualNovel.Proofs.Stage.FadeOuts

/-!
The stage of a performance. However a performance is operated, from outside and by its handlers,
nothing happens to its stage but that commands are delivered, time passes and the player presses.
So whatever outlives these holds of the stage of every performance, and the fade-outs of a
performance are those in the life of its stage.
-/

namespace VisualNovel

open Act

variable {α : Type}

/-- A property of stages that outlives whatever happens to them. -/
def Stage.Lasting [Scalar α] (I : Stage α → Prop) : Prop := ∀ s deed, I s → I (s.after [deed])

namespace Stage.Lasting

variable [Scalar α] {I : Stage α → Prop}

/-- Work that is a deed. -/
theorem onStage_keeps (hI : Stage.Lasting I) (deed : Deed α) :
    Keeps (fun p => ∃ s, p.stage = some s ∧ I s) (fun _ => True) (Play.onStage deed.work) := by
  refine Keeps.of_lands fun p ⟨s, hs, hIs⟩ => Lands.get_bind ?_
  rw [hs]
  dsimp only
  have hafter (q : Performance α) (signals : List Signal) (hq : q.stage = some (s.after [deed])) :
      ∃ s', (q.hearAll signals).stage = some s' ∧ I s' :=
    ⟨s.after [deed], (q.hearAll_stage signals).trans hq, hI s deed hIs⟩
  refine Lands.change_bind ?_
  split
  · exact Lands.pure (hafter _ _ rfl)
  · exact Lands.throw (hafter _ _ rfl)

/-- In a performance nothing happens to its stage but deeds. -/
theorem lasting (hI : Stage.Lasting I) :
    Performance.Lasting (fun _ => True) (fun _ => True) fun p => ∃ s, p.stage = some s ∧ I s where
  spares _ _ := trivial
  of_eq _ _ h _ _ hstage _ _ := by
    rw [hstage]
    exact h
  hear p signal h := by
    rw [p.hear_stage]
    exact h
  advance _ h := h
  abandon _ _ _ h := h
  begin _ _ _ _ _ _ h _ _ := h
  empty _ _ _ _ h _ _ := ⟨h, trivial⟩
  register _ _ _ _ _ h _ _ := h
  setVariable _ _ _ _ h := h
  eraseVariable _ _ _ h := h
  subscribe _ _ _ _ h := h
  update dt _ := hI.onStage_keeps (.time dt)
  press p stage awaiting h hstage := by
    obtain ⟨s, hs, hIs⟩ := h
    cases hstage.symm.trans hs
    exact ⟨_, rfl, hI stage (.press awaiting) hIs⟩
  step _ _ h _ _ := ⟨h, fun _ _ => trivial⟩
  handle c := hI.onStage_keeps (.command c)
  gives _ _ _ _ _ _ _ _ _ _ _ := trivial
  notice _ _ h := h

/-- What outlives the deeds of a stage holds of the stage of every performance. -/
theorem after (hI : Stage.Lasting I) {p : Performance α} (hp : ∃ s, p.stage = some s ∧ I s)
    (depth : Nat) (cues : List (Cue α)) : ∃ s, (p.after depth cues).stage = some s ∧ I s :=
  hI.lasting.after hp depth fun _ _ => trivial

end Stage.Lasting

namespace Performance

variable [Scalar α]

/-- The stage of a performance has been through deeds only. -/
theorem exists_deeds {p : Performance α} {start : Stage α} (hstage : p.stage = some start)
    (depth : Nat) (cues : List (Cue α)) :
    ∃ deeds, (p.after depth cues).stage = some (start.after deeds) := by
  have hlasting : Stage.Lasting fun s => ∃ deeds, s = start.after deeds := by
    rintro _ deed ⟨deeds, rfl⟩
    exact ⟨deeds ++ [deed], (start.after_append deeds [deed]).symm⟩
  obtain ⟨s, hs, deeds, rfl⟩ := hlasting.after ⟨start, hstage, [], rfl⟩ depth cues
  exact ⟨deeds, hs⟩

/-- Take a performance on an empty stage, and operate it in any way: nothing happens to its stage
    but deeds. Whatever the deeds of a stage are, and whatever fade-out in its life: at its end it
    takes whoever stands under its name. That is the one whom it fades, or somebody who was staged
    under the name since the fade-out began. An actor can be the latter only if another fade-out of
    that name still ran as this one began; a command can end a fade-out only to take the one whom it
    fades; and time takes nobody else. -/
theorem fade_out_takes (p : Performance α) (cast : Cast) (reveal : RevealParams α)
    (durations : EffectDurations α) (logCapacity : Nat) :
    let empty := Stage.empty cast reveal durations logCapacity
    (∀ depth cues, ∃ deeds,
      ((p.withStage empty).after depth cues).stage = some (empty.after deeds)) ∧
    ∀ f : empty.FadeOut,
      (∀ m, f.last.standing? f.who = some m →
        f.ended.standing? f.who ≠ some m ∧ (m = f.number ↔ m < f.begun.nextNumber)) ∧
      (∀ name, f.who = .actor name → (∀ i n, ¬ f.first.Fades i f.who n) →
        f.last.standing? f.who = some f.number) ∧
      (∀ c, f.ending = .command c → f.last.standing? f.who = some f.number) ∧
      ∀ dt, f.ending = .time dt → ∀ other,
        (∀ i n, f.last.Fades i other n → f.ended.animator.isDone i = false) →
          f.ended.standing? other = f.last.standing? other := by
  intro empty
  have hempty : empty.Orderly := Stage.orderly_empty cast reveal durations logCapacity
  refine ⟨fun depth cues => exists_deeds rfl depth cues, fun f => ⟨fun m hm => ?_, ?_, ?_, ?_⟩⟩
  · exact ⟨f.takes hempty hm, f.own_iff hempty hm⟩
  · exact fun _ => f.actor_own hempty
  · exact fun _ => f.command_own hempty
  · exact fun _ hending _ => f.time_stays hempty hending

/-- A script is started anew while its spark fades out, and puts a spark on stage at once. The
    fade-out of the first one, which has the number 0, takes the second one when it is over, in the
    life of a stage and in a performance. -/
theorem fade_out_takes_restaged_spark :
    let cast : Cast := { animations := [("spark", ⟨"spark", "spark.png", 4, 8, 64, 64⟩)] }
    let empty : Stage Float := Stage.empty cast .standard .standard 4
    let spark : Leaving := .animation "spark"
    let second : Float := Scalar.nat 1
    let script := "SCENE a\n(Animation spark appears)\n(Animation spark fades out)\nCURTAIN\n"
    let files := ({} : FileTree).write (Path.ofString "scripts/one/one.sabi")
      (.file (script.toList.map (·.toUInt8)))
    let p : Performance Float :=
      { files, repertoire := { root := Path.ofString "scripts" }, story := {} }
    let cues : List (Cue Float) := [.start ⟨"one", "one"⟩, .tick, .start ⟨"one", "one"⟩, .tick]
    let standing cues := ((p.withStage empty).after 1 cues).stage.map (·.standing? spark)
    (∃ f : empty.FadeOut, f.who = spark ∧ f.number = 0 ∧ f.last.standing? spark = some 1 ∧
      f.ended.standing? spark ≠ some 1) ∧
    standing cues = some (some 1) ∧ standing (cues ++ [.update second]) = some none := by
  intro cast empty spark second script files p cues standing
  let appears : Command := {
    id := 1
    subsystem := .animation
    verb := "appear"
    target := some "spark"
    params := { position := some (.coords [50, 50]), scale := some 1, layer := some 3 } }
  let fades : Command := {
    id := 2
    subsystem := .animation
    verb := "fade"
    target := some "spark"
    params := { direction := some .fadeOut }
    durational := true }
  let f : empty.FadeOut := {
    before := [.command appears]
    beginning := .command fades
    between := [.command appears]
    ending := .time second
    tween := 0
    who := spark
    number := 0
    new := by decide +kernel
    begins := ⟨by decide +kernel, by decide +kernel, .alpha, 2, by decide +kernel⟩
    lasts := ⟨by decide +kernel, by decide +kernel, .alpha, 2, by decide +kernel⟩
    ends := by decide +kernel }
  have hlast : f.last.standing? spark = some 1 := by decide +kernel
  obtain ⟨-, htakes⟩ := fade_out_takes p cast .standard .standard 4
  exact ⟨⟨f, rfl, rfl, hlast, ((htakes f).1 1 hlast).1⟩, by decide +kernel, by decide +kernel⟩

end Performance

end VisualNovel
