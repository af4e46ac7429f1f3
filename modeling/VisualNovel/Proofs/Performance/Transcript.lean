import VisualNovel.Proofs.Performance.Signalling
import VisualNovel.Proofs.Performance.Timing
import VisualNovel.Proofs.Performance.Walking
import VisualNovel.Proofs.Story.Transcript

/-!
The transcript of a performance. Handlers may operate the story while a command is being delivered,
but each of them finds the transcript and the record of issued commands in step.
-/

namespace VisualNovel

open Act

variable {α : Type}

/-- What a story has carried out, with all that was known of it at an earlier moment. -/
def Story.TellsOn (starts : List Script) (executions : List Execution)
    (entries : List HistoryEntry) (settings : RuntimeSettings) (s : Story) : Prop :=
  ∃ starts' executions', s.Transcribed settings starts' executions' ∧ starts <+: starts' ∧
    executions <+: executions' ∧ entries <+: s.history.entries

/-- Whatever is done to a story, its transcript goes on where it was. -/
theorem Story.TellsOn.lasting (starts : List Script) (executions : List Execution)
    (entries : List HistoryEntry) (settings : RuntimeSettings) :
    Story.Lasting (fun _ : Cue α => True) settings
      (Story.TellsOn starts executions entries settings) where
  warn s w := by
    rintro ⟨starts', executions', h, hstarts, hexecutions, hentries⟩
    exact ⟨starts', executions', h.of_eq rfl rfl rfl fun _ hc => hc, hstarts, hexecutions, hentries⟩
  resume s c hs hc hwait := by
    rintro ⟨starts', executions', h, hstarts, hexecutions, hentries⟩
    have hahead : c.resume.ahead = c.ahead := (hs.cursor_sound c hc).ahead_resume hwait
    exact ⟨starts', executions', h.of_ahead_eq hc rfl rfl hahead, hstarts, hexecutions, hentries⟩
  halt s c hs hc hready hhere := by
    rintro ⟨starts', executions', h, hstarts, hexecutions, hentries⟩
    have hahead : c.halt.ahead = c.ahead := by
      simp [Cursor.ahead, Cursor.halt, Cursor.place, hready]
    exact ⟨starts', executions', h.of_ahead_eq hc rfl rfl hahead, hstarts, hexecutions, hentries⟩
  handOn s c d command hs hc hready hd hcommand := by
    rintro ⟨starts', executions', h, hstarts, hexecutions, hentries⟩
    refine ⟨starts', _, h.handOn hs hc hready hd hcommand, hstarts,
      hexecutions.trans (List.prefix_append _ _), hentries.trans ?_⟩
    have hnoted : (s.handOn c d command).history.entries = _ := Story.entries_noted
    rw [hnoted]
    exact List.prefix_append _ _
  abandon _ _ s := by
    rintro ⟨starts', executions', h, hstarts, hexecutions, hentries⟩
    have habandoned (c : Cursor) (hc : s.abandon.cursor = some c) : s.cursor = some c := by
      simp [Story.abandon] at hc
    exact ⟨starts', executions', h.of_eq rfl rfl rfl habandoned, hstarts, hexecutions, hentries⟩
  begin id _ s script scene hcompiled hfirst := by
    rintro ⟨starts', executions', h, hstarts, hexecutions, hentries⟩
    exact ⟨_, executions', h.begin id hcompiled hfirst, hstarts.trans (List.prefix_append _ _),
      hexecutions, hentries⟩
  setVariable name value _ s := by
    rintro ⟨starts', executions', h, hstarts, hexecutions, hentries⟩
    exact ⟨starts', executions', h.of_eq rfl rfl rfl fun _ hc => hc, hstarts, hexecutions, hentries⟩
  eraseVariable name _ s := by
    rintro ⟨starts', executions', h, hstarts, hexecutions, hentries⟩
    exact ⟨starts', executions', h.of_eq rfl rfl rfl fun _ hc => hc, hstarts, hexecutions, hentries⟩
  subscribe _ _ _ _ _ _ _ _ _ := trivial

namespace Play

variable {deliver deliver' : Command → Play α Unit}

end Play

namespace Performance

end Performance

end VisualNovel
