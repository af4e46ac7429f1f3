import VisualNovel.Proofs.Performance.Lasting
import VisualNovel.Proofs.Performance.Remember
import VisualNovel.Proofs.Performance.Waiting
import VisualNovel.Proofs.Story.Issues

/-!
Signals from outside. The story heeds the one that it waits for and goes on by one directive; any
other one changes nothing and is noted. So it makes no difference, but for these notes, when the
signals that were not heeded are left out.
-/

namespace VisualNovel

open Act

variable {α : Type}

/-! ### One signal -/

/-- Operations that signal something to the story. -/
def Cue.isSignal : Cue α → Bool
  | .advance => true
  | .complete _ => true
  | .unresolved _ _ => true
  | .signal _ => true
  | _ => false

/-- The command that a signal is about. -/
def Cue.about? : Cue α → Option Int
  | .complete command => some command
  | .unresolved command _ => some command
  | .signal s => some s.command
  | _ => none

/-- The story waits for this signal: for the player to go on, or for an effect of the command that
    the signal is about. -/
def Story.heeds (s : Story) : Cue α → Bool
  | .advance => s.wait == some .advance
  | .complete command => s.cursor.any fun c => awaits c command
  | .unresolved command _ => s.cursor.any fun c => awaits c command
  | .signal signal => s.cursor.any fun c => awaits c signal.command
  | _ => false

/-- A signal that the story does not wait for. -/
def Performance.rejects (p : Performance α) (cue : Cue α) : Bool :=
  cue.isSignal && !p.story.heeds cue

namespace Story

variable {s : Story} {c : Cursor} {command : Int}

/-- The story has gone on by one directive from where it waited, and has changed in no other way,
    apart from what it noted. -/
def GoesOn (s s' : Story) : Prop :=
  ∃ c, s.cursor = some c ∧ s'.forget = forget
    { s with cursor := some { c with index := c.index + 1, wait := .ready, pending := none } }

/-- What a signal does to the story, depending on whether it is heeded. -/
def HeedsOrNotes (s : Story) (heeded : Bool) (s' : Story) : Prop :=
  if heeded then s.GoesOn s' else ∃ w, s' = s.warn w

theorem advance_heedsOrNotes (s : Story) :
    s.HeedsOrNotes (s.wait == some .advance) s.advance.2 := by
  unfold HeedsOrNotes advance wait
  cases hc : s.cursor with
  | none => exact ⟨_, rfl⟩
  | some c =>
    by_cases hwait : c.wait = .advance
    · simpa [hwait] using ⟨c, hc, rfl⟩
    · simp [hwait]

theorem effectCompleted_heedsOrNotes (s : Story) (command : Int) :
    s.HeedsOrNotes (s.cursor.any fun c => awaits c command) (s.effectCompleted command).2 := by
  unfold HeedsOrNotes effectCompleted
  cases hc : s.cursor with
  | none => exact ⟨_, rfl⟩
  | some c =>
    by_cases hawaits : awaits c command
    · simpa [hawaits] using ⟨c, hc, rfl⟩
    · simp [hawaits]

theorem unresolved_heedsOrNotes (s : Story) (command : Int) (reason : String) :
    s.HeedsOrNotes (s.cursor.any fun c => awaits c command) (s.unresolved command reason) := by
  unfold HeedsOrNotes unresolved warn
  cases hc : s.cursor with
  | none => exact ⟨_, rfl⟩
  | some c =>
    by_cases hawaits : awaits c command
    · simpa [hawaits] using ⟨c, hc, rfl⟩
    · simp [hawaits]

end Story

namespace Performance

/-- A signal does nothing but to the story. -/
theorem after_signal [Scalar α] (p : Performance α) (depth : Nat) {cue : Cue α}
    (hcue : cue.isSignal) : ∃ s, p.after depth [cue] = { p with story := s } ∧
      p.story.HeedsOrNotes (p.story.heeds cue) s := by
  cases cue with
  | advance => exact ⟨_, rfl, p.story.advance_heedsOrNotes⟩
  | complete command => exact ⟨_, rfl, p.story.effectCompleted_heedsOrNotes command⟩
  | unresolved command reason => exact ⟨_, rfl, p.story.unresolved_heedsOrNotes command reason⟩
  | signal signal =>
    cases signal with
    | completed command => exact ⟨_, rfl, p.story.effectCompleted_heedsOrNotes command⟩
    | unresolved command reason =>
      exact ⟨_, rfl, p.story.unresolved_heedsOrNotes command reason⟩
  | _ => cases hcue

/-- A signal about a command that the story does not wait for leaves the cursor where it is. -/
theorem cursor_after_of_pending_ne [Scalar α] {p : Performance α} {cue : Cue α} {command : Int}
    (hcue : cue.about? = some command)
    (hpending : ∀ c, p.story.cursor = some c → c.pending ≠ some command) (depth : Nat) :
    (p.after depth [cue]).story.cursor = p.story.cursor := by
  have hnot : p.story.cursor.any (fun c => Story.awaits c command) = false := by
    rw [Option.any_eq_false]
    intro c hc
    rw [Bool.eq_false_iff]
    exact fun hawaits => hpending c hc (Story.awaits_iff.1 hawaits).2
  have hsignal : cue.isSignal ∧ p.story.heeds cue = false := by
    cases cue with
    | complete k | unresolved k reason | signal signal =>
      cases hcue
      exact ⟨rfl, hnot⟩
    | _ => cases hcue
  obtain ⟨s, hs, hheeds⟩ := p.after_signal depth hsignal.1
  rw [hsignal.2] at hheeds
  obtain ⟨w, rfl⟩ := hheeds
  rw [hs]
  rfl

end Performance

/-! ### Over a whole life -/

namespace Story

variable {allowed : Cue α → Prop} {settings : RuntimeSettings}

/-- Whatever is done to a story, its record stays in order. -/
theorem Ordered.lasting : Lasting (fun _ : Cue α => True) settings Ordered where
  warn _ _ h := ⟨h.ids_increase, h.id_lt, h.issuer_lt, h.number_lt, h.pending_issued⟩
  resume _ _ _ hc _ h := h.of_cursor hc rfl (.inl rfl)
  halt _ _ _ hc _ _ h := h.of_cursor hc rfl (.inr rfl)
  handOn _ _ _ _ hs hc hready _ hcommand h := h.handOn hs hc hready hcommand
  abandon _ _ _ h := ⟨h.ids_increase, h.id_lt, h.issuer_lt, by simp [abandon], by simp [abandon]⟩
  begin id _ _ script scene _ _ h := h.begin id script scene.name
  setVariable _ _ _ _ h := ⟨h.ids_increase, h.id_lt, h.issuer_lt, h.number_lt, h.pending_issued⟩
  eraseVariable _ _ _ h := ⟨h.ids_increase, h.id_lt, h.issuer_lt, h.number_lt, h.pending_issued⟩
  subscribe _ _ _ _ _ _ _ _ _ := trivial

/-- A story that was started anew stays so, also if it is started once more. -/
theorem Anew.lasting (past : Story) : Lasting (fun _ : Cue α => True) settings (Anew past) where
  warn _ _ h := ⟨h.issued, h.nextCursor, h.number⟩
  resume s c _ hc _ h := ⟨h.issued, h.nextCursor, fun c' hc' => by cases hc'; exact h.number c hc⟩
  halt s c _ hc _ _ h := ⟨h.issued, h.nextCursor, fun c' hc' => by cases hc'; exact h.number c hc⟩
  handOn s c d command _ hc _ _ _ h := by
    refine ⟨?_, h.nextCursor, fun c' hc' => ?_⟩
    · rw [issued_handOn]
      exact h.issued.trans (List.prefix_append _ _)
    · cases hc'
      rw [next_number]
      exact h.number c hc
  abandon _ _ _ h := ⟨h.issued, h.nextCursor, by simp [abandon]⟩
  begin _ _ s _ _ _ _ h := by
    refine ⟨h.issued, Nat.le_succ_of_le h.nextCursor, fun c' hc' => ?_⟩
    cases hc'
    exact h.nextCursor
  setVariable _ _ _ _ h := ⟨h.issued, h.nextCursor, h.number⟩
  eraseVariable _ _ _ h := ⟨h.issued, h.nextCursor, h.number⟩
  subscribe _ _ _ _ _ _ _ _ _ := trivial

end Story

namespace Performance

variable {p : Performance α} {settings : RuntimeSettings} {J : Story → Prop}

/-- A sound performance whose story has a property, with any handlers. -/
theorem keeping_of_sound (hsound : p.Sound settings) (hJ : J p.story) :
    p.Keeping (fun _ => True) settings J :=
  ⟨hsound, fun _ _ _ _ _ _ _ _ _ => trivial, hJ⟩

/-- After a start from outside the story is started anew, also where the start fails. -/
theorem anew_after_start [Scalar α] (hsound : p.Sound settings) (depth : Nat) (id : ScriptId)
    (later : List (Cue α)) : p.story.Anew (p.after depth (.start id :: later)).story := by
  -- Abandoning the story first makes no difference to the start, which does that anyway.
  have habandoned : ({ p with story := p.story.abandon } : Performance α).after depth
      (.start id :: later) = p.after depth (.start id :: later) := rfl
  have hkept : ({ p with story := p.story.abandon } : Performance α).Keeping (fun _ => True)
      settings (Story.Anew p.story) := by
    refine keeping_of_sound ⟨hsound.repertoire_compiled, hsound.story_sound.abandon⟩ ?_
    exact ⟨List.prefix_rfl, Nat.le_refl _, by simp [Story.abandon]⟩
  rw [← habandoned]
  exact (hkept.after (Story.Anew.lasting p.story) depth fun _ _ => trivial).story

end Performance

/-! ### Leaving out what was not heeded -/

/-- What an operation from outside did: its answer, what it added to the diagnostics, and how it
    left everything else. -/
structure Minute (α : Type) where
  isRejected : Bool
  answer : Except PlayError CueAnswer
  left : Performance α
  added : List Warning

namespace Performance

variable [Scalar α] {p p' : Performance α} {depth : Nat}

def minute (depth : Nat) (p : Performance α) (cue : Cue α) : Minute α :=
  let outcome := (Play.perform (Play.react depth) cue).outcome p
  { isRejected := p.rejects cue
    answer := outcome.1
    left := outcome.2.forget
    added := outcome.2.story.diagnostics.drop p.story.diagnostics.length }

/-- The minutes of a run. -/
def minutes (depth : Nat) (p : Performance α) : List (Cue α) → List (Minute α)
  | [] => []
  | cue :: rest => p.minute depth cue :: (p.after depth [cue]).minutes depth rest

/-- A run without the signals that are not heeded in it. -/
def withoutRejected (depth : Nat) (p : Performance α) : List (Cue α) → List (Cue α)
  | [] => []
  | cue :: rest =>
    if p.rejects cue then (p.after depth [cue]).withoutRejected depth rest
    else cue :: (p.after depth [cue]).withoutRejected depth rest

/-- After the same history of late, an operation does the same. -/
theorem after_sameLately (depth : Nat) {older older' : Trail Warning}
    (h : SameLately older older' p p') (cue : Cue α) :
    ((Play.perform (Play.react depth) cue).outcome p).1 =
        ((Play.perform (Play.react depth) cue).outcome p').1 ∧
      SameLately older older' (p.after depth [cue]) (p'.after depth [cue]) :=
  Play.perform_oblivious (Play.react_oblivious depth) cue p p' h

theorem forget_after_eq (depth : Nat) (h : p.forget = p'.forget) (cue : Cue α) :
    (p.after depth [cue]).forget = (p'.after depth [cue]).forget :=
  (after_sameLately depth (sameLately_of_forget_eq h) cue).2.forget_eq

/-- An operation only adds to the diagnostics. -/
theorem diagnostics_after (p : Performance α) (depth : Nat) (cue : Cue α) :
    (p.after depth [cue]).story.diagnostics =
      p.story.diagnostics ++ (p.minute depth cue).added := by
  have hforget : p.forget = p.forget := rfl
  obtain ⟨-, q, hq, -⟩ := after_sameLately depth (sameLately_of_forget_eq hforget) cue
  have hdiagnostics : (p.after depth [cue]).story.diagnostics =
      p.story.diagnostics ++ q.story.diagnostics := by
    rw [hq]
    exact Story.diagnostics_remember
  have hadded : (p.minute depth cue).added =
      (p.after depth [cue]).story.diagnostics.drop p.story.diagnostics.length := rfl
  rw [hadded, hdiagnostics, List.drop_left]

theorem minute_eq (h : p.forget = p'.forget) (cue : Cue α) :
    p.minute depth cue = p'.minute depth cue := by
  obtain ⟨hanswer, q, hq, hq'⟩ :=
    after_sameLately depth (sameLately_of_forget_eq h) cue
  have hadded : (p.minute depth cue).added = (p'.minute depth cue).added := by
    have hp := p.diagnostics_after depth cue
    have hp' := p'.diagnostics_after depth cue
    rw [hq] at hp
    rw [hq'] at hp'
    have hleft := @Story.diagnostics_remember q.story p.story.warnings
    have hright := @Story.diagnostics_remember q.story p'.story.warnings
    rw [List.append_cancel_left (hp.symm.trans hleft),
      List.append_cancel_left (hp'.symm.trans hright)]
  have hrejects : p.rejects cue = p'.rejects cue := by
    have hcursor : p.story.cursor = p'.story.cursor := congrArg (·.story.cursor) h
    cases cue <;> simp [rejects, Story.heeds, Story.wait, hcursor]
  unfold minute at hadded ⊢
  simp only [Minute.mk.injEq]
  exact ⟨hrejects, hanswer, forget_after_eq depth h cue, hadded⟩

/-- A signal that is not heeded changes nothing but the diagnostics. -/
theorem after_of_rejects {cue : Cue α} (h : p.rejects cue) (depth : Nat) :
    ∃ w, p.after depth [cue] = { p with story := p.story.warn w } := by
  simp only [rejects, Bool.and_eq_true, Bool.not_eq_true'] at h
  obtain ⟨s, hs, hheeds⟩ := p.after_signal depth h.1
  rw [h.2] at hheeds
  obtain ⟨w, rfl⟩ := hheeds
  exact ⟨w, hs⟩

theorem forget_after_of_rejects {cue : Cue α} (h : p.rejects cue) :
    (p.after depth [cue]).forget = p.forget := by
  obtain ⟨w, hw⟩ := after_of_rejects h depth
  rw [hw]
  rfl

/-- The minutes of a run without the signals that were not heeded are those of the whole run, without
    the entries of these signals. -/
theorem minutes_withoutRejected (depth : Nat) (h : p.forget = p'.forget) (cues : List (Cue α)) :
    p.minutes depth (p'.withoutRejected depth cues) =
        (p'.minutes depth cues).filter (fun m => !m.isRejected) ∧
      (p.after depth (p'.withoutRejected depth cues)).forget = (p'.after depth cues).forget := by
  induction cues generalizing p p' with
  | nil => exact ⟨rfl, h⟩
  | cons cue rest ih =>
    rw [withoutRejected, minutes]
    cases hrejected : p'.rejects cue with
    | true =>
      obtain ⟨hminutes, hforget⟩ := ih (h.trans (forget_after_of_rejects hrejected).symm)
      refine ⟨?_, hforget⟩
      have hleft : (p'.minute depth cue).isRejected = true := hrejected
      rw [List.filter_cons_of_neg (by simp [hleft])]
      exact hminutes
    | false =>
      obtain ⟨hminutes, hforget⟩ := ih (forget_after_eq depth h cue)
      refine ⟨?_, hforget⟩
      have hkept : (p'.minute depth cue).isRejected = false := hrejected
      rw [List.filter_cons_of_pos (by simp [hkept]), ← hminutes, ← minute_eq h cue]
      rfl

/-- The diagnostics of a run are those in its minutes. -/
theorem diagnostics_after_run (p : Performance α) (cues : List (Cue α)) :
    (p.after depth cues).story.diagnostics =
      p.story.diagnostics ++ (p.minutes depth cues).flatMap (·.added) := by
  induction cues generalizing p with
  | nil => exact (List.append_nil _).symm
  | cons cue rest ih =>
    have hrest : p.after depth (cue :: rest) = (p.after depth [cue]).after depth rest := rfl
    rw [hrest, ih, diagnostics_after, minutes, List.flatMap_cons, List.append_assoc]

/-- A signal that the story waits for takes the cursor to the next directive of its scene, ready and
    waiting for nothing; any other signal adds one diagnostic and changes nothing else.

    Take a performance without scripts, a cursor or issued commands, and operate it in any way, with
    any handlers. The ids of its commands grow over its whole life, so a signal about a command that
    came from another cursor leaves the present one where it is, and so does a signal about a command
    from before a start. Leave out every signal from outside that the story does not wait for: the
    other operations then have the same answers, leave everything but the diagnostics the same, and
    add the same diagnostics as before. -/
theorem signals_heeded_or_noted (p : Performance α) (hcursor : p.story.cursor = none)
    (hshelf : p.repertoire.shelf = []) (hissued : p.story.issued.toList = []) (depth : Nat)
    (cues : List (Cue α)) (q : Performance α) (hq : q = p.after depth cues) :
    (∀ (r : Performance α) (cue : Cue α), cue.isSignal → ∃ s,
      r.after depth [cue] = { r with story := s } ∧
        (r.story.heeds cue → r.story.GoesOn s) ∧
        (¬ r.story.heeds cue → ∃ w, s = r.story.warn w)) ∧
      (q.story.commands.map (·.id)).Pairwise (· < ·) ∧
      (∀ c issue, q.story.cursor = some c → issue ∈ q.story.issued.toList →
        issue.cursor ≠ c.number → ∀ cue : Cue α, cue.about? = some issue.command.id →
          (q.after depth [cue]).story.cursor = some c) ∧
      (∀ before id later, cues = before ++ .start id :: later →
        ∀ command ∈ (p.after depth before).story.commands, ∀ cue : Cue α,
          cue.about? = some command.id →
            (q.after depth [cue]).story.cursor = q.story.cursor) ∧
      p.minutes depth (p.withoutRejected depth cues) =
        (p.minutes depth cues).filter (fun m => !m.isRejected) ∧
      (p.after depth (p.withoutRejected depth cues)).forget = q.forget ∧
      ∀ cues', (p.after depth cues').story.diagnostics =
        p.story.diagnostics ++ (p.minutes depth cues').flatMap (·.added) := by
  have hsound : p.Sound p.story.settings := by
    refine ⟨fun entry hentry => ?_, rfl, fun c hc => ?_⟩
    · simp [hshelf] at hentry
    · simp [hcursor] at hc
  have hfresh : p.story.Ordered := by
    constructor <;> simp [Story.commands, hissued, hcursor]
  have hordered (cues : List (Cue α)) : (p.after depth cues).story.Ordered :=
    ((keeping_of_sound hsound hfresh).after Story.Ordered.lasting depth fun _ _ => trivial).story
  obtain ⟨hminutes, hforget⟩ := minutes_withoutRejected depth (p := p) rfl cues
  refine ⟨?_, ?_, ?_, ?_, hminutes, hq ▸ hforget, p.diagnostics_after_run⟩
  · intro r cue hcue
    obtain ⟨s, hs, hheeds⟩ := r.after_signal depth hcue
    refine ⟨s, hs, fun hheeded => ?_, fun hnot => ?_⟩
    · rwa [Story.HeedsOrNotes, if_pos hheeded] at hheeds
    · rwa [Story.HeedsOrNotes, if_neg hnot] at hheeds
  · exact hq ▸ (hordered cues).ids_increase
  · intro c issue hc hissue hother cue hcue
    rw [← hc]
    refine cursor_after_of_pending_ne hcue (fun c' hc' => ?_) depth
    rw [hc] at hc'
    cases hc'
    exact (hq ▸ hordered cues : q.story.Ordered).pending_ne hc hissue hother
  · rintro before id later rfl command hcommand cue hcue
    obtain ⟨issue, hissue, rfl⟩ := List.mem_map.1 hcommand
    have hanew : (p.after depth before).story.Anew q.story := by
      have hsplit : p.after depth (before ++ .start id :: later) =
          (p.after depth before).after depth (.start id :: later) := List.foldl_append
      rw [hq, hsplit]
      exact anew_after_start (hsound.after depth before) depth id later
    refine cursor_after_of_pending_ne hcue (fun c hc => ?_) depth
    refine (hq ▸ hordered _ : q.story.Ordered).pending_ne hc (hanew.issued.subset hissue) ?_
    have hlt := (hordered before).issuer_lt issue hissue
    have hle := hanew.number c hc
    omega

/-- A line is said and the script started again; acknowledgements of the first line and of no
    command at all come too late, and one press is one too many. -/
theorem signals_heeded_or_noted_started_again :
    let p : Performance Float := { repertoire := { root := Path.ofString "scripts" }, story := {} }
    let cues : List (Cue Float) :=
      [.register ⟨"one", "one"⟩ "SCENE a\n(mia moves to left)\nMC: \"Hello\"\nCURTAIN\n",
        .start ⟨"one", "one"⟩, .tick, .advance, .start ⟨"one", "one"⟩, .tick, .complete 1,
        .unresolved 2 "mia is ill", .tick, .complete 7, .advance, .advance]
    let q := p.after 1 cues
    (p.withoutRejected 1 cues).length = 8 ∧ q.story.commands.map (·.id) = [1, 2, 3] ∧
      (p.after 1 (p.withoutRejected 1 cues)).forget = q.forget ∧
      ∃ c, q.story.cursor = some c ∧ c.wait = .ready ∧
        (q.after 1 [.complete 1]).story.cursor = some c := by
  intro p cues q
  have hready : q.story.cursor.map (·.wait) = some .ready := by decide +kernel
  obtain ⟨c, hc, hwait⟩ := Option.map_eq_some_iff.1 hready
  obtain ⟨-, -, -, hstale, -, hforget, -⟩ :=
    signals_heeded_or_noted p rfl rfl rfl 1 cues q rfl
  refine ⟨by decide +kernel, by decide +kernel, hforget, c, hc, hwait, ?_⟩
  have hissued : ∃ command ∈ (p.after 1 (cues.take 4)).story.commands, command.id = 1 := by
    decide +kernel
  obtain ⟨command, hcommand, hid⟩ := hissued
  have hsplit : cues = cues.take 4 ++ .start ⟨"one", "one"⟩ :: cues.drop 5 := rfl
  rw [← hc]
  exact hstale _ _ _ hsplit command hcommand (.complete 1) (congrArg some hid.symm)

end Performance

end VisualNovel
