import VisualNovel.Proofs.Script.Echo
import VisualNovel.Proofs.Story.Awaiting
import VisualNovel.Proofs.Story.Issues
import VisualNovel.Proofs.Story.Walk

/-!
The transcript of a story. An entry is recorded in the same step that issues the command it shows,
so the two records tell of the same directives in the same order, whoever has started the story, and
how often.
-/

namespace VisualNovel

/-- A line that is said, or an entry of the log. -/
def Command.isTranscribed (c : Command) : Bool :=
  (c.subsystem == .dialogue && c.verb == "say") || (c.subsystem == .log && c.verb == "emit")

/-- A directive that was carried out, and the command that was issued for it. -/
structure Execution where
  directive : Directive
  issue : Issue

/-- An entry of the transcript shows what a command says and who says it, and its echo, alone in a
    scene of any name, is a script that says the directive. -/
structure HistoryEntry.Records (e : HistoryEntry) (x : Execution) : Prop where
  text : x.issue.command.params.text = some (some e.text)
  speaker : e.speaker = x.issue.command.params.speaker.join.filter (!·.isEmpty)
  log_speaker : x.issue.command.subsystem = .log → e.speaker = none
  echo : ∀ name source, IsName name →
    Script.compile (Script.around name e.echo) source = .ok (Script.only name x.directive source)

/-- Where the walk through a script begins: at the first directive of its first scene. -/
def Script.opening (s : Script) : Place := ⟨(s.scenes.head?.map (·.name)).getD "", 0⟩

/-- The directives that a cursor has carried out. -/
def executedBy (number : Nat) (executions : List Execution) : List Directive :=
  (executions.filter (·.issue.cursor == number)).map (·.directive)

/-- What a story has carried out since it was made. Each of `starts` is a script that it was started
    with; a cursor has the number of its start. What was issued are the commands of `executions`,
    one for each directive on the walk through each script, and what was recorded are the lines said
    and the entries of the log among them. -/
structure Story.Transcribed (s : Story) (settings : RuntimeSettings) (starts : List Script)
    (executions : List Execution) : Prop where
  issued_eq : s.issued.toList = executions.map (·.issue)
  records : List.Forall₂ HistoryEntry.Records s.history.entries
    (executions.filter (·.issue.command.isTranscribed))
  carried : ∀ x ∈ executions, ∃ told : Story, told.settings = settings ∧
    x.directive.dispatch (told.resolve x.directive).1 x.issue.command.id = .ok x.issue.command
  starts_length : starts.length = s.nextCursor
  issuer_lt : ∀ x ∈ executions, x.issue.cursor < starts.length
  walks : ∀ n script, starts[n]? = some script → script.Compiled ∧
    executedBy n executions = script.walk script.opening (executedBy n executions).length
  cursor : ∀ c, s.cursor = some c → starts[c.number]? = some c.script ∧
    c.ahead = c.script.placeAfter c.script.opening (executedBy c.number executions).length

namespace Story

variable {s : Story} {c : Cursor} {d : Directive} {command : Command}

/-- The entry that a directive leaves in the transcript, if it leaves one. -/
def left (s : Story) (d : Directive) : List HistoryEntry :=
  Option.toList <| entry? d (s.resolve d).1

theorem entries_noted : (s.noted d).history.entries = s.history.entries ++ s.left d := by
  unfold noted left
  dsimp only
  split
  · next e he => rw [he, History.entries_record, Option.toList_some]
  · next he => rw [he, Option.toList_none, List.append_nil]

/-- A directive leaves an entry if and only if its command is one that the transcript shows. -/
theorem left_records (hd : d.WellFormed) {id : Int}
    (hcommand : d.dispatch (s.resolve d).1 id = .ok command) (number : Nat) :
    List.Forall₂ HistoryEntry.Records (s.left d)
      ([(⟨d, ⟨number, command⟩⟩ : Execution)].filter (·.issue.command.isTranscribed)) := by
  have hecho {e : HistoryEntry} (he : entry? d (s.resolve d).1 = some e) (name : String)
      (source : Option String) (hname : IsName name) :
      Script.compile (Script.around name e.echo) source = .ok (Script.only name d source) :=
    compile_echo hd he hname source
  cases d with
  | dialogue line =>
    cases hcommand
    exact .cons ⟨rfl, rfl, (fun hlog => by cases hlog), hecho rfl⟩ .nil
  | log message =>
    cases hcommand
    exact .cons ⟨rfl, rfl, fun _ => rfl, hecho rfl⟩ .nil
  | stage direction =>
    cases hcommand
    have hnot : (direction.target.kind.subsystem == .dialogue) = false ∧
        (direction.target.kind.subsystem == .log) = false := by
      cases direction.target.kind <;> exact ⟨rfl, rfl⟩
    simp [Command.isTranscribed, hnot, left, entry?]

end Story

@[simp] theorem executedBy_concat (number : Nat) (executions : List Execution) (x : Execution) :
    executedBy number (executions ++ [x]) = executedBy number executions ++
      if x.issue.cursor = number then [x.directive] else [] := by
  unfold executedBy
  rw [List.filter_append, List.map_append]
  split
  · next heq => simp [heq]
  · next hne => simp [hne]

/-- A cursor that is yet to come has carried out nothing. -/
theorem executedBy_eq_nil {number : Nat} {executions : List Execution}
    (h : ∀ x ∈ executions, x.issue.cursor < number) : executedBy number executions = [] := by
  unfold executedBy
  rw [List.map_eq_nil_iff, List.filter_eq_nil_iff]
  intro x hx hnumber
  have hlt := h x hx
  have heq : x.issue.cursor = number := by simpa using hnumber
  omega

namespace Story.Transcribed

variable {settings : RuntimeSettings} {s : Story} {c : Cursor} {starts : List Script}
  {executions : List Execution}

/-- Everything but the cursor, the commands and the entries may change. -/
theorem of_eq (h : s.Transcribed settings starts executions) {s' : Story}
    (hissued : s'.issued = s.issued) (hhistory : s'.history = s.history)
    (hnext : s'.nextCursor = s.nextCursor) (hcursor : ∀ c, s'.cursor = some c → s.cursor = some c) :
    s'.Transcribed settings starts executions where
  issued_eq := hissued ▸ h.issued_eq
  records := hhistory ▸ h.records
  carried := h.carried
  starts_length := h.starts_length.trans hnext.symm
  issuer_lt := h.issuer_lt
  walks := h.walks
  cursor c hc := h.cursor c (hcursor c hc)

/-- The cursor may change as long as it goes on from where it would have gone on. -/
theorem of_ahead_eq (h : s.Transcribed settings starts executions) (hc : s.cursor = some c)
    {c' : Cursor} (hscript : c'.script = c.script) (hnumber : c'.number = c.number)
    (hahead : c'.ahead = c.ahead) :
    Story.Transcribed { s with cursor := some c' } settings starts executions := by
  refine { h with cursor := fun c₁ hc₁ => ?_ }
  cases hc₁
  rw [hscript, hnumber, hahead]
  exact h.cursor c hc

/-- A command that is issued is that of the next directive on the walk of its cursor, and what the
    transcript shows of it is recorded with it. -/
theorem handOn (h : s.Transcribed settings starts executions) (hs : s.Sound settings)
    (hc : s.cursor = some c) (hready : c.wait = .ready) {d : Directive} (hd : c.here = some d)
    {command : Command} (hcommand : d.dispatch (s.resolve d).1 s.nextId = .ok command) :
    (s.handOn c d command).Transcribed settings starts
      (executions ++ [⟨d, ⟨c.number, command⟩⟩]) := by
  obtain ⟨hstart, hahead⟩ := h.cursor c hc
  have hid : command.id = s.nextId := id_of_dispatch hcommand
  have hplace : c.place =
      c.script.placeAfter c.script.opening (executedBy c.number executions).length := by
    rw [← hahead, Cursor.ahead, if_neg (by simp [hready])]
  have hat : c.script.at?
      (c.script.placeAfter c.script.opening (executedBy c.number executions).length) = some d := by
    rw [← hplace]
    exact hd
  obtain ⟨hnextScript, hnextAhead⟩ := Cursor.ahead_next hready hd s
  have hwellFormed : d.WellFormed := (hs.cursor_sound c hc).here_wellFormed hd
  refine ⟨?_, ?_, ?_, h.starts_length, ?_, ?_, ?_⟩
  · rw [issued_handOn, h.issued_eq, List.map_append, List.map_singleton]
  · have hentries : (s.handOn c d command).history.entries = _ := entries_noted
    rw [hentries, List.filter_append]
    exact List.rel_append h.records (left_records hwellFormed hcommand c.number)
  · intro x hx
    rcases List.mem_append.1 hx with hold | hnew
    · exact h.carried x hold
    · cases List.mem_singleton.1 hnew
      exact ⟨s, hs.settings_eq, hid ▸ hcommand⟩
  · intro x hx
    rcases List.mem_append.1 hx with hold | hnew
    · exact h.issuer_lt x hold
    · cases List.mem_singleton.1 hnew
      exact (List.getElem?_eq_some_iff.1 hstart).1
  · intro n script hscript
    obtain ⟨hcompiled, hwalk⟩ := h.walks n script hscript
    refine ⟨hcompiled, ?_⟩
    rw [executedBy_concat]
    split
    · next heq =>
      cases heq
      rw [hstart] at hscript
      cases hscript
      rw [List.length_append, List.length_singleton, Script.walk_succ hat, ← hwalk]
    · rwa [List.append_nil]
  · intro c' hc'
    cases hc'
    rw [next_number, hnextScript, hnextAhead, hplace, executedBy_concat, if_pos rfl,
      List.length_append, List.length_singleton, Script.placeAfter]
    exact ⟨hstart, rfl⟩

/-- A start adds a script whose walk begins. -/
theorem begin (h : s.Transcribed settings starts executions) (id : ScriptId) {script : Script}
    (hcompiled : script.Compiled) {scene : Scene} (hfirst : script.scenes.head? = some scene) :
    (s.begin id script scene.name).Transcribed settings (starts ++ [script]) executions := by
  have hnone : executedBy starts.length executions = [] := executedBy_eq_nil h.issuer_lt
  have hopening : script.opening = ⟨scene.name, 0⟩ := by
    unfold Script.opening
    rw [hfirst]
    rfl
  refine ⟨h.issued_eq, h.records, h.carried, ?_, fun x hx => ?_, fun n script' hscript => ?_,
    fun c hc => ?_⟩
  · rw [List.length_append, List.length_singleton, h.starts_length]
    rfl
  · rw [List.length_append]
    exact Nat.lt_add_right 1 (h.issuer_lt x hx)
  · rcases Nat.lt_or_ge n starts.length with hlt | hge
    · rw [List.getElem?_append_left hlt] at hscript
      exact h.walks n script' hscript
    · rw [List.getElem?_append_right hge, List.getElem?_singleton] at hscript
      split at hscript
      · next hzero =>
        cases hscript
        have hn : n = starts.length := by omega
        rw [hn, hnone]
        exact ⟨hcompiled, rfl⟩
      · cases hscript
  · cases hc
    dsimp only
    rw [← h.starts_length, hnone, List.getElem?_concat_length]
    exact ⟨rfl, hopening.symm⟩

end Story.Transcribed

end VisualNovel
