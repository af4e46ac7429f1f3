import Mathlib.Data.List.Forall2
import VisualNovel.Proofs.Story.Soundness

/-!
The walk through a script: from a place on, one directive after the other, where a jump leads to the
beginning of its scene, until a curtain is reached. A story that is not started anew hands on the
commands of the directives on the walk, each once and in their order, however often it has to wait
on its way.
-/

namespace VisualNovel

/-- A place in a script: a scene, and the index of a directive in it or of its curtain. -/
structure Place where
  scene : String
  index : Nat
  deriving Repr, DecidableEq

namespace Script

/-- The directive at a place, none at a curtain. -/
def at? (s : Script) (p : Place) : Option Directive :=
  (s.scene? p.scene).bind fun scene => scene.directive? p.index

/-- The next place on a walk. A jump goes to the first directive of its scene, and every other
    directive to the one behind it; a walk that has reached a curtain stays there. -/
def onward (s : Script) (p : Place) : Place :=
  match s.at? p with
  | none => p
  | some d =>
    match d.jumpTarget? with
    | some target => ⟨target, 0⟩
    | none => ⟨p.scene, p.index + 1⟩

/-- The place that a walk has reached after so many directives. -/
def placeAfter (s : Script) (origin : Place) : Nat → Place
  | 0 => origin
  | n + 1 => s.onward (s.placeAfter origin n)

/-- The first directives on the walk from a place, fewer than asked for if it ends before. -/
def walk (s : Script) (origin : Place) : Nat → List Directive
  | 0 => []
  | n + 1 => s.walk origin n ++ (s.at? (s.placeAfter origin n)).toList

variable {s : Script} {origin : Place} {n : Nat}

theorem walk_succ {d : Directive} (h : s.at? (s.placeAfter origin n) = some d) :
    s.walk origin (n + 1) = s.walk origin n ++ [d] := by
  rw [walk, h, Option.toList_some]

end Script

namespace Cursor

def place (c : Cursor) : Place := ⟨c.scene, c.index⟩

/-- The place from which the cursor hands on its next command: while it waits, that is the place
    where it goes on. -/
def ahead (c : Cursor) : Place :=
  if c.wait = .advance ∨ c.wait = .effect then c.script.onward c.place else c.place

variable {c : Cursor} {d : Directive}

theorem onward_place (hd : c.here = some d) (hjump : d.jumpTarget? = none) :
    c.script.onward c.place = c.skip.place := by
  have hat : c.script.at? c.place = some d := hd
  unfold Script.onward
  rw [hat]
  dsimp only
  rw [hjump]
  rfl

/-- Handing on the command of a directive takes a ready cursor one place further, be it that it goes
    there at once or that it waits first. -/
theorem ahead_next (hready : c.wait = .ready) (hd : c.here = some d) (s : Story) :
    (s.next c d).script = c.script ∧ (s.next c d).ahead = c.script.onward c.place := by
  have hat : c.script.at? c.place = some d := hd
  unfold Story.next
  cases hjump : d.jumpTarget? with
  | some target =>
    refine ⟨rfl, ?_⟩
    unfold Script.onward
    rw [hat]
    simp [hjump, ahead, enter, place]
  | none =>
    have hskip : c.skip.ahead = c.script.onward c.place := by
      rw [onward_place hd hjump]
      simp [ahead, skip, hready]
    cases d with
    | dialogue line => exact ⟨rfl, if_pos (.inl rfl)⟩
    | log message =>
      dsimp only [Story.moveOn]
      split
      · exact ⟨rfl, if_pos (.inl rfl)⟩
      · exact ⟨rfl, hskip⟩
    | stage direction =>
      dsimp only [Story.moveOn]
      split
      · exact ⟨rfl, if_pos (.inr rfl)⟩
      · exact ⟨rfl, hskip⟩

/-- A ready cursor does not halt at a directive. -/
theorem next_wait_ne_halted (hready : c.wait = .ready) (s : Story) :
    (s.next c d).wait ≠ .halted := by
  unfold Story.next
  split
  · simp [enter]
  · cases d with
    | dialogue line => simp [Story.moveOn, await]
    | log message =>
      dsimp only [Story.moveOn]
      split <;> simp [await, skip, hready]
    | stage direction =>
      dsimp only [Story.moveOn]
      split <;> simp [await, skip, hready]

/-- The directive that a sound cursor waits at is no jump. -/
theorem Sound.exists_here_of_waiting {settings : RuntimeSettings} (h : c.Sound settings)
    (hwait : c.wait = .advance ∨ c.wait = .effect) :
    ∃ d, c.here = some d ∧ d.jumpTarget? = none := by
  rcases hwait with hwait | hwait
  · rcases h.advance_at hwait with ⟨line, hline⟩ | ⟨-, message, hmessage⟩
    · exact ⟨_, hline, rfl⟩
    · exact ⟨_, hmessage, rfl⟩
  · obtain ⟨direction, hdirection, haction⟩ := h.effect_at hwait
    refine ⟨_, hdirection, ?_⟩
    have hjump : direction.isJump = false := by
      rcases haction with haction | haction <;> simp [StageDirection.isJump, haction]
    simp [Directive.jumpTarget?, hjump]

/-- Resuming takes a waiting cursor to the place ahead. -/
theorem Sound.ahead_resume {settings : RuntimeSettings} (h : c.Sound settings)
    (hwait : c.wait = .advance ∨ c.wait = .effect) : c.resume.ahead = c.ahead := by
  obtain ⟨d, hd, hjump⟩ := h.exists_here_of_waiting hwait
  have hresumed : c.resume.ahead = c.skip.place := if_neg (by simp [Cursor.resume])
  rw [hresumed, ← onward_place hd hjump, ahead, if_pos hwait]

end Cursor

/-! ### Stories on a walk -/

/-- A command that carries out a directive of a story: it is what the directive dispatches to once
    its expressions are evaluated under one of these tables. -/
def Command.CarriesOut (c : Command) (tables : Variables → Prop) (s : Story) (d : Directive) :
    Prop :=
  ∃ bindings, tables bindings ∧
    d.dispatch (Story.resolve { s with bindings := bindings } d).1 c.id = .ok c

/-- Commands that carry out the first directives of a walk, in order and with ids that count up. -/
structure Script.Carried (script : Script) (origin : Place) (tables : Variables → Prop)
    (s : Story) (commands : List Command) : Prop where
  ids : commands.map (·.id) = (List.range commands.length).map fun i : Nat => s.nextId + i
  walk : List.Forall₂ (fun d c => Command.CarriesOut c tables s d)
    (script.walk origin commands.length) commands

/-- A story that has come from `start` and handed on these commands since, without leaving the walk
    from `origin`. -/
structure Story.OnWalk (s : Story) (script : Script) (origin : Place)
    (tables : Variables → Prop) (start : Story) (commands : List Command) : Prop where
  playerName_eq : s.settings.playerNameVariable = start.settings.playerNameVariable
  bindings : tables s.bindings
  commands_eq : s.commands = start.commands ++ commands
  nextId_eq : s.nextId = start.nextId + commands.length
  carried : script.Carried origin tables start commands
  cursor : ∃ c, s.cursor = some c ∧ c.script = script ∧
    c.ahead = script.placeAfter origin commands.length ∧ (c.wait = .halted → c.here = none)

namespace Script.Carried

variable {script : Script} {origin : Place} {tables : Variables → Prop} {s : Story}
  {commands : List Command}

theorem nil : script.Carried origin tables s [] := ⟨rfl, List.Forall₂.nil⟩

theorem concat (h : script.Carried origin tables s commands) {d : Directive} {c : Command}
    (hd : script.at? (script.placeAfter origin commands.length) = some d)
    (hid : c.id = s.nextId + commands.length) (hc : c.CarriesOut tables s d) :
    script.Carried origin tables s (commands ++ [c]) := by
  refine ⟨?_, ?_⟩
  · rw [List.map_append, h.ids, List.length_append, List.length_singleton, List.range_succ,
      List.map_append, List.map_singleton, List.map_singleton, hid]
  · rw [List.length_append, List.length_singleton, walk_succ hd]
    exact List.rel_append h.walk (List.Forall₂.cons hc List.Forall₂.nil)

end Script.Carried

namespace Story.OnWalk

variable {script : Script} {origin : Place} {tables : Variables → Prop} {start s : Story}
  {commands : List Command} {c : Cursor}

theorem warn (h : s.OnWalk script origin tables start commands) (w : Warning) :
    (s.warn w).OnWalk script origin tables start commands :=
  ⟨h.playerName_eq, h.bindings, h.commands_eq, h.nextId_eq, h.carried, h.cursor⟩

/-- The cursor may change as long as it goes on from where it would have gone on. -/
theorem of_ahead_eq (h : s.OnWalk script origin tables start commands) (hc : s.cursor = some c)
    {c' : Cursor} (hscript : c'.script = c.script) (hahead : c'.ahead = c.ahead)
    (hhalted : c'.wait = .halted → c'.here = none) :
    Story.OnWalk { s with cursor := some c' } script origin tables start commands := by
  refine ⟨h.playerName_eq, h.bindings, h.commands_eq, h.nextId_eq, h.carried, ?_⟩
  obtain ⟨c₀, hc₀, hscript₀, hahead₀, -⟩ := h.cursor
  rw [hc] at hc₀
  cases hc₀
  exact ⟨c', rfl, hscript.trans hscript₀, hahead.trans hahead₀, hhalted⟩

theorem resume {settings : RuntimeSettings} (h : s.OnWalk script origin tables start commands)
    (hs : s.Sound settings) (hc : s.cursor = some c) (hwait : c.wait = .advance ∨ c.wait = .effect) :
    Story.OnWalk { s with cursor := some c.resume } script origin tables start commands := by
  refine h.of_ahead_eq hc rfl ((hs.cursor_sound c hc).ahead_resume hwait) fun hhalted => ?_
  simp [Cursor.resume] at hhalted

theorem halt (h : s.OnWalk script origin tables start commands) (hc : s.cursor = some c)
    (hready : c.wait = .ready) (hhere : c.here = none) :
    Story.OnWalk { s with cursor := some c.halt } script origin tables start commands := by
  refine h.of_ahead_eq hc rfl ?_ fun _ => hhere
  simp [Cursor.ahead, Cursor.halt, Cursor.place, hready]

/-- A command that is handed on is that of the next directive on the walk. -/
theorem handOn (h : s.OnWalk script origin tables start commands) (hc : s.cursor = some c)
    (hready : c.wait = .ready) {d : Directive} (hd : c.here = some d) {command : Command}
    (hcommand : d.dispatch (s.resolve d).1 s.nextId = .ok command) :
    (s.handOn c d command).OnWalk script origin tables start (commands ++ [command]) := by
  obtain ⟨c₀, hc₀, hscript, hahead, -⟩ := h.cursor
  rw [hc] at hc₀
  cases hc₀
  have hplace : c.place = script.placeAfter origin commands.length := by
    rw [← hahead, Cursor.ahead, if_neg (by simp [hready])]
  have hat : script.at? (script.placeAfter origin commands.length) = some d := by
    rw [← hplace, ← hscript]
    exact hd
  have hid : command.id = s.nextId := id_of_dispatch hcommand
  have hcarries : command.CarriesOut tables start d := by
    refine ⟨s.bindings, h.bindings, ?_⟩
    have hresolve : Story.resolve { start with bindings := s.bindings } d = s.resolve d := by
      cases d <;> simp [Story.resolve, Story.speakerName, h.playerName_eq]
    rw [hresolve, hid]
    exact hcommand
  obtain ⟨hnextScript, hnextAhead⟩ := Cursor.ahead_next hready hd s
  refine ⟨h.playerName_eq, h.bindings, ?_, ?_, ?_, ?_⟩
  · have hissued : (s.handOn c d command).commands = s.commands ++ [command] := by
      simp [Story.commands, Story.handOn]
    rw [hissued, h.commands_eq, List.append_assoc]
  · show s.nextId + 1 = _
    rw [h.nextId_eq, List.length_append, List.length_singleton]
    omega
  · exact h.carried.concat hat (hid.trans h.nextId_eq) hcarries
  · refine ⟨s.next c d, rfl, hnextScript.trans hscript, ?_, fun hhalted => ?_⟩
    · rw [hnextAhead, hscript, hplace, List.length_append, List.length_singleton, Script.placeAfter]
    · exact absurd hhalted (Cursor.next_wait_ne_halted hready s)

/-- A story that has halted is at the end of its walk. -/
theorem at_curtain (h : s.OnWalk script origin tables start commands) (hhalted : s.isHalted) :
    script.at? (script.placeAfter origin commands.length) = none := by
  obtain ⟨c, hc, hscript, hahead, hcurtain⟩ := h.cursor
  have hwait : c.wait = .halted := by simpa [Story.isHalted, Story.wait, hc] using hhalted
  rw [← hahead, Cursor.ahead, if_neg (by simp [hwait]), ← hscript]
  exact hcurtain hwait

end Story.OnWalk

end VisualNovel
