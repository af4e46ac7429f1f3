import VisualNovel.Script.Compile

/-!
What a validated script promises to whoever plays it: a scene to begin with, and for each jump
the name of a scene of the same script.
-/

namespace VisualNovel.Script

/-- A loop without results succeeds exactly if each of its rounds does. -/
theorem forM_eq_ok_iff {ε α : Type} {xs : List α} {f : α → Except ε Unit} :
    xs.forM f = .ok () ↔ ∀ x ∈ xs, f x = .ok () := by
  induction xs with
  | nil => simp [List.forM, pure, Except.pure]
  | cons x xs ih =>
    show (f x >>= fun _ => xs.forM f) = .ok () ↔ _
    rw [List.forall_mem_cons, ← ih]
    cases f x <;> simp [bind, Except.bind]

/-- A direction that goes to another scene goes to one of this script. -/
def JumpsWithin (s : Script) (d : StageDirection) : Prop :=
  d.isJump → ∃ target, d.params.name = some (some target) ∧ s.hasScene target

theorem checkDirective_eq_ok_iff {s : Script} {scene : String} {d : Numbered} :
    s.checkDirective scene d = .ok () ↔
      ∀ direction, d.directive = .stage direction → s.JumpsWithin direction := by
  unfold checkDirective JumpsWithin
  cases hd : d.directive with
  | dialogue line => simp
  | log message => simp
  | stage direction =>
    simp only [Directive.stage.injEq, forall_eq']
    by_cases hjump : direction.isJump
    · simp only [hjump, if_true, true_imp_iff]
      cases hname : direction.params.name with
      | none => simp
      | some target => cases target <;> simp
    · simp [hjump]

/-- Validation accepts the scripts that have a scene and jump only within themselves. -/
theorem validate_eq_ok_iff {s : Script} :
    s.validate = .ok () ↔ s.scenes ≠ [] ∧
      ∀ scene ∈ s.scenes, ∀ d ∈ scene.directives, ∀ direction,
        d.directive = .stage direction → s.JumpsWithin direction := by
  unfold validate
  cases hs : s.scenes with
  | nil => simp
  | cons first rest =>
    simp only [List.isEmpty_cons, Bool.false_eq_true, if_false, forM_eq_ok_iff,
      checkDirective_eq_ok_iff, ne_eq, reduceCtorEq, not_false_eq_true, true_and]

/-- Some text reads as this script. -/
def Compiled (s : Script) : Prop := ∃ text source, compile text source = .ok s

/-- What compilation gives has passed validation. -/
theorem Compiled.validate {s : Script} (h : s.Compiled) : s.validate = .ok () := by
  obtain ⟨text, source, hcompile⟩ := h
  unfold compile at hcompile
  cases hparse : parse text source with
  | error e => simp [hparse, bind, Except.bind] at hcompile
  | ok parsed =>
    cases hvalid : parsed.validate with
    | error e => simp [hparse, hvalid, bind, Except.bind] at hcompile
    | ok u =>
      simp only [hparse, hvalid, bind, Except.bind, pure, Except.pure, Except.ok.injEq] at hcompile
      exact hcompile ▸ hvalid

theorem scene?_mem {s : Script} {name : String} {scene : Scene}
    (h : s.scene? name = some scene) : scene ∈ s.scenes :=
  List.mem_of_find?_eq_some h

/-- Every scene of a script can be found under its name, or an earlier one of that name. -/
theorem hasScene_of_mem {s : Script} {scene : Scene} (h : scene ∈ s.scenes) :
    s.hasScene scene.name := by
  unfold hasScene scene?
  rw [List.find?_isSome]
  exact ⟨scene, h, by simp⟩

end VisualNovel.Script

namespace VisualNovel.Scene

theorem directive?_mem {s : Scene} {index : Nat} {d : Directive}
    (h : s.directive? index = some d) : ∃ n ∈ s.directives, n.directive = d := by
  obtain ⟨n, hn, rfl⟩ := Option.map_eq_some_iff.1 h
  exact ⟨n, List.mem_of_getElem? hn, rfl⟩

/-- An index that has a directive has a next one within the scene. -/
theorem succ_le_length {s : Scene} {index : Nat} {d : Directive}
    (h : s.directive? index = some d) : index + 1 ≤ s.length := by
  obtain ⟨n, hn, -⟩ := Option.map_eq_some_iff.1 h
  obtain ⟨hlt, -⟩ := List.getElem?_eq_some_iff.1 hn
  exact hlt

theorem length_le_of_directive?_eq_none {s : Scene} {index : Nat}
    (h : s.directive? index = none) : s.length ≤ index := by
  simpa [directive?, length] using h

end VisualNovel.Scene
