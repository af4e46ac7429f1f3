import VisualNovel.Performance.Basic
import VisualNovel.Proofs.Act
import VisualNovel.Proofs.Story.Remember

/-!
Nothing that is done to a performance looks at the diagnostics, so it has the same answer and adds
the same diagnostics, whatever was reported before.
-/

namespace VisualNovel

open Act

variable {α : Type}

namespace Performance

/-- The performance without the diagnostics of its story. -/
def forget (p : Performance α) : Performance α := { p with story := p.story.forget }

/-- The performance with older diagnostics before those of its story. -/
def remember (older : Trail Warning) (p : Performance α) : Performance α :=
  { p with story := p.story.remember older }

/-- Two performances with the same history of late, before which different things were reported. -/
def SameLately (older older' : Trail Warning) (p p' : Performance α) : Prop :=
  ∃ q : Performance α, p = q.remember older ∧ p' = q.remember older'

variable {p p' : Performance α} {older older' : Trail Warning}

theorem remember_forget (p : Performance α) : p.forget.remember p.story.warnings = p := by
  have h := p.story.remember_forget
  cases p
  simp only [remember, forget] at h ⊢
  rw [h]

theorem sameLately_of_forget_eq (h : p.forget = p'.forget) :
    SameLately p.story.warnings p'.story.warnings p p' :=
  ⟨p.forget, p.remember_forget.symm, by rw [h, p'.remember_forget]⟩

theorem SameLately.forget_eq (h : SameLately older older' p p') : p.forget = p'.forget := by
  obtain ⟨q, rfl, rfl⟩ := h
  rfl

theorem hear_remember (signal : Signal) :
    (p.remember older).hear signal = (p.hear signal).remember older := by
  cases signal with
  | completed command =>
    simp [hear, remember, Story.effectCompleted_remember]
  | unresolved command reason =>
    simp [hear, remember, Story.unresolved_remember]

theorem foldl_hear_remember (signals : List Signal) :
    signals.foldl (fun p s => p.hear s) (p.remember older) =
      (signals.foldl (fun p s => p.hear s) p).remember older := by
  induction signals generalizing p with
  | nil => rfl
  | cons signal rest ih => rw [List.foldl_cons, hear_remember, ih, List.foldl_cons]

end Performance

namespace Play

open Performance

variable {older older' : Trail Warning} {β : Type}

/-- What is computed depends on the diagnostics in no way. -/
abbrev Oblivious (older older' : Trail Warning) (a : Play α β) : Prop :=
  ∀ p p', SameLately older older' p p' → Agree (SameLately older older') a p a p'

theorem pure_oblivious (x : β) : Oblivious older older' (pure x : Play α β) :=
  fun _ _ h => Agree.pure rfl h

theorem throw_oblivious (e : PlayError) : Oblivious older older' (throw e : Play α β) :=
  fun _ _ h => Agree.throw h

theorem bind_oblivious {γ : Type} {a : Play α β} {f : β → Play α γ} (ha : Oblivious older older' a)
    (hf : ∀ x, Oblivious older older' (f x)) : Oblivious older older' (a >>= f) :=
  fun p p' h => Agree.bind (ha p p' h) fun x q q' => hf x q q'

theorem get_bind_oblivious {f : Performance α → Play α β}
    (hf : ∀ q : Performance α, Agree (SameLately older older') (f (q.remember older))
      (q.remember older) (f (q.remember older')) (q.remember older')) :
    Oblivious older older' (get >>= f) := by
  rintro _ _ ⟨q, rfl, rfl⟩
  exact Agree.get_bind (hf q)

/-- What is read off the performance is mostly something other than its diagnostics. -/
theorem get_bind_oblivious_of_eq {f : Performance α → Play α β}
    (hsame : ∀ (q : Performance α) o, f (q.remember o) = f q)
    (hf : ∀ q, Oblivious older older' (f q)) : Oblivious older older' (get >>= f) := by
  refine get_bind_oblivious fun q => ?_
  rw [hsame, hsame]
  exact hf q _ _ ⟨q, rfl, rfl⟩

theorem change_oblivious {f : Performance α → Performance α}
    (hf : ∀ (q : Performance α) o, f (q.remember o) = (f q).remember o) :
    Oblivious older older' (Act.change f : Play α Unit) := by
  rintro _ _ ⟨q, rfl, rfl⟩
  exact Agree.change ⟨f q, hf q older, hf q older'⟩

theorem forM_oblivious {xs : List β} {f : β → Play α Unit}
    (hf : ∀ x, Oblivious older older' (f x)) : Oblivious older older' (xs.forM f) :=
  fun _ _ h => Agree.forM h fun x _ => hf x

theorem changeStory_oblivious {f : Story → Story}
    (hf : ∀ (s : Story) o, f (s.remember o) = (f s).remember o) :
    Oblivious older older' (changeStory f : Play α Unit) := by
  refine change_oblivious fun q o => ?_
  simp [remember, hf]

theorem signalStory_oblivious {f : Story → Bool × Story}
    (hf : ∀ (s : Story) o, f (s.remember o) = ((f s).1, (f s).2.remember o)) :
    Oblivious older older' (signalStory f : Play α Bool) := by
  refine get_bind_oblivious fun q => ?_
  simp only [remember, hf]
  refine Agree.bind (Agree.change ⟨{ q with story := (f q.story).2 }, rfl, rfl⟩) ?_
  exact fun _ _ _ h => Agree.pure rfl h

theorem character_oblivious (name : String) :
    Oblivious older older' (character name : Play α Character) := by
  refine get_bind_oblivious_of_eq (fun _ _ => rfl) fun q => ?_
  split
  · exact pure_oblivious _
  · exact throw_oblivious _

theorem onStage_oblivious (work : StageAct α Unit) :
    Oblivious older older' (onStage work : Play α Unit) := by
  refine get_bind_oblivious_of_eq (fun _ _ => rfl) fun q => ?_
  cases q.stage with
  | none => exact pure_oblivious ()
  | some stage =>
    refine bind_oblivious (change_oblivious fun r o => ?_) fun _ => ?_
    · exact foldl_hear_remember (p := { r with stage := some (work.outcome { stage }).2.stage }) _
    · split
      · exact pure_oblivious ()
      · exact throw_oblivious _

theorem start_oblivious (id : ScriptId) : Oblivious older older' (start id : Play α Unit) := by
  refine bind_oblivious (changeStory_oblivious fun _ _ => rfl) fun _ => ?_
  refine get_bind_oblivious_of_eq (fun _ _ => rfl) fun q => ?_
  split
  · exact throw_oblivious _
  · refine bind_oblivious (change_oblivious fun _ _ => rfl) fun _ => ?_
    split
    · exact throw_oblivious _
    · exact changeStory_oblivious fun _ _ => rfl

variable {deliver : Command → Play α Unit}

theorem steps_oblivious (hdeliver : ∀ c, Oblivious older older' (deliver c)) (number count : Nat) :
    Oblivious older older' (steps deliver number count) := by
  induction count with
  | zero => exact pure_oblivious []
  | succ count ih =>
    refine get_bind_oblivious fun q => ?_
    have h : SameLately older older' (q.remember older) (q.remember older') := ⟨q, rfl, rfl⟩
    dsimp only [remember, Story.cursor_remember]
    cases q.story.cursor with
    | none => exact pure_oblivious [] _ _ h
    | some c =>
      dsimp only
      split
      · rw [Story.step_remember, Story.step_remember]
        refine Agree.bind (Agree.change ⟨{ q with story := (q.story.step c).2 }, rfl, rfl⟩) ?_
        intro _ s t hst
        dsimp only
        split
        · exact throw_oblivious _ s t hst
        · exact pure_oblivious [] s t hst
        · next command _ =>
          refine bind_oblivious (hdeliver command) (fun _ => ?_) s t hst
          exact bind_oblivious ih fun _ => pure_oblivious _
      · exact pure_oblivious [] _ _ h

theorem tick_oblivious (hdeliver : ∀ c, Oblivious older older' (deliver c)) :
    Oblivious older older' (tick deliver) := by
  refine get_bind_oblivious_of_eq (fun _ _ => rfl) fun q => ?_
  dsimp only
  split
  · exact pure_oblivious []
  · exact steps_oblivious hdeliver _ _

variable [Scalar α]

theorem press_oblivious (awaiting : Bool) :
    Oblivious older older' (press awaiting : Play α Bool) := by
  refine get_bind_oblivious_of_eq (fun _ _ => rfl) fun q => ?_
  split
  · exact pure_oblivious _
  · exact bind_oblivious (change_oblivious fun _ _ => rfl) fun _ => pure_oblivious _

theorem pressThrough_oblivious : Oblivious older older' (pressThrough : Play α Bool) := by
  refine get_bind_oblivious_of_eq (fun _ _ => rfl) fun q => ?_
  refine bind_oblivious (press_oblivious _) fun goesOn => ?_
  cases goesOn with
  | true =>
    rw [if_pos rfl]
    exact signalStory_oblivious fun _ _ => Story.advance_remember
  | false => exact pure_oblivious _

variable {reaction : Nat → Command → Play α Unit}

theorem publish_oblivious (hreaction : ∀ number c, Oblivious older older' (reaction number c))
    (c : Command) : Oblivious older older' (publish reaction c) := by
  refine get_bind_oblivious_of_eq (fun _ _ => rfl) fun q => ?_
  split
  · exact change_oblivious fun _ _ => rfl
  · refine forM_oblivious fun subscriber => ?_
    cases subscriber with
    | stage => exact onStage_oblivious _
    | handler number => exact hreaction number c

/-- Every operation is. -/
theorem perform_oblivious (hreaction : ∀ number c, Oblivious older older' (reaction number c))
    (cue : Cue α) : Oblivious older older' (perform reaction cue) := by
  have hanswer {β : Type} {a : Play α β} (ha : Oblivious older older' a) (f : β → CueAnswer) :
      Oblivious older older' (a >>= fun x => pure (f x)) :=
    bind_oblivious ha fun _ => pure_oblivious _
  have htick := tick_oblivious (publish_oblivious hreaction)
  cases cue with
  | start id => exact hanswer (start_oblivious id) _
  | tick => exact hanswer htick _
  | countTick => exact hanswer htick _
  | advance => exact hanswer (signalStory_oblivious fun _ _ => Story.advance_remember) _
  | complete command =>
    exact hanswer (signalStory_oblivious fun _ _ => Story.effectCompleted_remember command) _
  | unresolved command reason =>
    exact hanswer (changeStory_oblivious fun _ _ => Story.unresolved_remember command reason) _
  | signal signal => exact hanswer (change_oblivious fun _ _ => hear_remember signal) _
  | register id text =>
    rw [perform]
    split
    · exact throw_oblivious _
    · refine get_bind_oblivious_of_eq (fun _ _ => rfl) fun q => ?_
      split
      · exact throw_oblivious _
      · exact hanswer (change_oblivious fun _ _ => rfl) _
  | write path node => exact hanswer (change_oblivious fun _ _ => rfl) _
  | setVariable name value => exact hanswer (changeStory_oblivious fun _ _ => rfl) _
  | eraseVariable name =>
    refine get_bind_oblivious_of_eq (fun _ _ => rfl) fun q => ?_
    exact hanswer (changeStory_oblivious fun _ _ => rfl) _
  | drain =>
    refine get_bind_oblivious_of_eq (fun _ _ => rfl) fun q => ?_
    exact hanswer (change_oblivious fun _ _ => rfl) _
  | subscribe subsystem respond => exact hanswer (change_oblivious fun _ _ => rfl) _
  | publish c => exact hanswer (publish_oblivious hreaction c) _
  | update dt => exact hanswer (onStage_oblivious _) _
  | frame dt => exact bind_oblivious (onStage_oblivious _) fun _ => hanswer htick _
  | press awaiting => exact hanswer (press_oblivious awaiting) _
  | pressThrough => exact hanswer pressThrough_oblivious _
  | sprite name emotion outfit => exact hanswer (character_oblivious name) _

/-- So is what handlers do, by induction on how deep deliveries nest. -/
theorem react_oblivious (depth number : Nat) (c : Command) :
    Oblivious older older' (react depth number c : Play α Unit) := by
  induction depth generalizing number c with
  | zero => exact throw_oblivious _
  | succ depth ih =>
    refine get_bind_oblivious_of_eq (fun _ _ => rfl) fun q => ?_
    split
    · exact pure_oblivious ()
    · split
      · exact pure_oblivious ()
      · refine bind_oblivious (change_oblivious fun _ _ => rfl) fun _ => forM_oblivious fun cue => ?_
        exact bind_oblivious (perform_oblivious ih cue) fun _ => change_oblivious fun _ _ => rfl

end Play

end VisualNovel
