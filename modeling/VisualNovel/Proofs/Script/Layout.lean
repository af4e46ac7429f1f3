import VisualNovel.Proofs.Failing
import VisualNovel.Proofs.Script.Pieces
import VisualNovel.Proofs.Script.RoundTrip
import Mathlib.Logic.Relation

/-!
The layout of a text: its blank lines, its comments and the blanks around what is said on a line.
A text that compiles compiles to the same content in any other layout.
-/

namespace VisualNovel

/-- What a scene says, whatever lines it stands on. -/
def Scene.content (s : Scene) : String × List Directive :=
  (s.name, s.directives.map (·.directive))

/-! ### Equality -/

open Script (TokenValue)

theorem Showing.number_mem {s : Showing} {vs : List TokenValue}
    (h : PhraseOption.InAnyOrder s.options vs) {x : Float} (hx : x ∈ s.params.numbers) :
    .number x ∈ vs := by
  obtain ⟨position, scale, layer⟩ := s
  rcases List.mem_append.1 hx with hx | hx
  · cases position with
    | none => cases hx
    | some xy =>
      obtain ⟨piece, hpiece, hsub⟩ := h.exists_spelled (.lies xy.1 xy.2) (by simp [options])
      cases hpiece
      have hx : x ∈ [xy.1, xy.2] := hx
      exact hsub (by simpa using hx)
  · obtain rfl : scale = some x := Option.mem_toList.1 hx
    obtain ⟨piece, hpiece, hsub⟩ := h.exists_spelled (.scaled x) (by simp [options])
    cases hpiece
    exact hsub (by simp)

/-- The numbers that a phrase says stand among its tokens. -/
theorem Phrase.Spelled.number_mem {p : Phrase} {vs : List TokenValue} (h : p.Spelled vs) {x : Float}
    (hx : x ∈ p.direction.params.numbers) : .number x ∈ vs := by
  cases h with
  | @actorAppears name e _ hname h | @actorFadesIn name e _ hname h =>
    obtain ⟨place, facing, emotion⟩ := e
    cases place <;> simp [Phrase.direction, Entrance.params, Params.numbers] at hx
  | animationAppears h => exact List.mem_append_right [_, _, _] (Showing.number_mem h hx)
  | _ => simp_all [Phrase.direction, Params.numbers]

theorem Phrase.extra_eq_nil (p : Phrase) : p.direction.params.extra = [] := by
  cases p <;> rfl

/-- What is read off a text equals itself, since its numbers are numbers. -/
theorem Script.directive_beq_self {text : List Char} {d : Directive}
    (h : Script.directive text = .ok d) : d == d := by
  cases d with
  | dialogue d => exact Directive.beq_dialogue d
  | log message => exact Directive.beq_log message
  | stage d =>
    obtain ⟨p, vs, hp, hparsed, rfl⟩ := Script.directive_spelled h
    refine Directive.beq_stage (StageDirection.beq_of (Params.beq_self ?_ p.extra_eq_nil))
    intro x hx
    obtain ⟨text, after, hnumber⟩ := hparsed _ (hp.number_mem hx)
    exact (Script.isNumber_of_numberAt? hnumber).beq_self

namespace Script

open Text

/-! ### Lines that say something -/

/-- Nothing is said on the line: it is blank, or a comment. -/
def isIdle (trimmed : List Char) : Bool := trimmed.isEmpty || trimmed.take 2 == ['/', '/']

/-- What the lines say, without the blanks around it. -/
def said (lines : List (List Char)) : List (List Char) :=
  (lines.map trim).filter fun text => !isIdle text

@[simp] theorem said_nil : said [] = [] := rfl

@[simp] theorem said_append (lines lines' : List (List Char)) :
    said (lines ++ lines') = said lines ++ said lines' := by
  simp [said]

theorem said_cons (line : List Char) (lines : List (List Char)) :
    said (line :: lines) = if isIdle (trim line) then said lines else trim line :: said lines := by
  simp only [said, List.map_cons, List.filter_cons]
  cases isIdle (trim line) <;> rfl

theorem said_congr {line line' : List Char} (h : trim line' = trim line)
    (lines : List (List Char)) : said (line' :: lines) = said (line :: lines) := by
  rw [said_cons, said_cons, h]

/-- A line changes its layout: a blank line or a comment is put between two lines, the blanks at
    either end of a line become others, or a carriage return goes in front of its line feed. -/
inductive Relaid : List (List Char) → List (List Char) → Prop
  | blank (before after : List (List Char)) (line : List Char) (h : ∀ c ∈ line, isBlank c) :
    Relaid (before ++ after) (before ++ line :: after)
  | comment (before after : List (List Char)) (blanks note : List Char)
      (h : ∀ c ∈ blanks, isBlank c) :
    Relaid (before ++ after) (before ++ (blanks ++ '/' :: '/' :: note) :: after)
  | lead (before after : List (List Char)) (blanks blanks' line : List Char)
      (h : ∀ c ∈ blanks, isBlank c) (h' : ∀ c ∈ blanks', isBlank c) :
    Relaid (before ++ (blanks ++ line) :: after) (before ++ (blanks' ++ line) :: after)
  | trail (before after : List (List Char)) (blanks blanks' line : List Char)
      (h : ∀ c ∈ blanks, isBlank c) (h' : ∀ c ∈ blanks', isBlank c) :
    Relaid (before ++ (line ++ blanks) :: after) (before ++ (line ++ blanks') :: after)
  | ending (before after : List (List Char)) (line : List Char) :
    Relaid (before ++ line :: after) (before ++ (line ++ ['\r']) :: after)

theorem isIdle_comment {blanks : List Char} (h : ∀ c ∈ blanks, isBlank c) (note : List Char) :
    isIdle (trim (blanks ++ '/' :: '/' :: note)) := by
  have hends : Ends isBlank ('/' :: '/' :: note) := ends_cons.2 (by decide)
  have hhead := head?_trimEnd (c := '/') (by decide) note
  rw [trim, trimStart_append h hends,
    show '/' :: '/' :: note = ['/'] ++ '/' :: note from rfl, trimEnd_append_cons (by decide)]
  obtain ⟨rest, hrest⟩ := List.head?_eq_some_iff.1 hhead
  rw [hrest]
  rfl

theorem return_blank : ∀ c ∈ ['\r'], isBlank c := List.forall_mem_singleton.2 (by decide)

/-- What is said stays the same in another layout. -/
theorem Relaid.said_eq {lines lines' : List (List Char)} (h : Relaid lines lines') :
    said lines' = said lines := by
  cases h with
  | blank before after line h =>
    rw [said_append, said_append, said_cons, trim_eq_nil h]
    rfl
  | comment before after blanks note h =>
    rw [said_append, said_append, said_cons, if_pos (isIdle_comment h note)]
  | lead before after blanks blanks' line h h' =>
    have htrim := (trim_blanks_append h' line).trans (trim_blanks_append h line).symm
    rw [said_append, said_append, said_congr htrim]
  | trail before after blanks blanks' line h h' =>
    have htrim := (trim_append_blanks h' line).trans (trim_append_blanks h line).symm
    rw [said_append, said_append, said_congr htrim]
  | ending before after line =>
    have htrim : trim (line ++ ['\r']) = trim line := trim_append_blanks return_blank line
    rw [said_append, said_append, said_congr htrim]

theorem said_eq_of_relaid {lines lines' : List (List Char)}
    (h : Relation.ReflTransGen Relaid lines lines') : said lines' = said lines := by
  induction h with
  | refl => rfl
  | tail _ hstep ih => exact hstep.said_eq.trans ih

theorem trim_dropReturn (raw : List Char) : trim (dropReturn raw) = trim raw := by
  unfold dropReturn
  split
  · next hlast =>
    obtain ⟨front, rfl⟩ := List.getLast?_eq_some_iff.1 (beq_iff_eq.1 hlast)
    rw [List.dropLast_concat]
    exact (trim_append_blanks return_blank front).symm
  · rfl

theorem numberLines_text (number offset : Nat) (raws : List (List Char)) :
    (numberLines number offset raws).map (·.text) = raws.map dropReturn := by
  induction raws generalizing number offset with
  | nil => rfl
  | cons raw rest ih => rw [numberLines, List.map_cons, List.map_cons, ih]

theorem said_map_dropReturn (raws : List (List Char)) : said (raws.map dropReturn) = said raws := by
  have htrim : trim ∘ dropReturn = trim := funext trim_dropReturn
  rw [said, said, List.map_map, htrim]

/-- The lines of a text say what stands between its line feeds. -/
theorem said_linesOf (text : List Char) :
    said ((linesOf text).map (·.text)) = said (splitAtEach '\n' text) := by
  unfold linesOf
  dsimp only
  rw [numberLines_text, said_map_dropReturn]
  split
  · next hlast =>
    obtain ⟨front, hfront⟩ := List.getLast?_eq_some_iff.1 (beq_iff_eq.1 hlast)
    rw [hfront, List.dropLast_concat, said_append]
    exact (List.append_nil _).symm
  · rfl

/-! ### One line -/

/-- What a line does to what has been compiled before it, unless it is refused. -/
inductive Progress.Takes (p : Progress) (line : Line) : Progress → Prop
  | idle (h : isIdle (trim line.text)) : Takes p line { p with last := some line }
  | opens {name : List Char} (hopens : opensScene (trim line.text)) (hcurrent : p.current = none)
      (hname : sceneName? (trim line.text) = some name)
      (hnew : (p.closed.any fun s => s.name == String.ofList name) = false) :
    Takes p line
      { p with current := some ⟨String.ofList name, [], line.number⟩, last := some line }
  | closes {scene : OpenScene} (hcurtain : trim line.text = "CURTAIN".toList)
      (hcurrent : p.current = some scene) :
    Takes p line
      { closed := p.closed ++ [⟨scene.name, scene.reversed.reverse, scene.line⟩]
        current := none
        last := some line }
  | tells {scene : OpenScene} {d : Directive} (hidle : isIdle (trim line.text) = false)
      (hopens : opensScene (trim line.text) = false) (hcurtain : trim line.text ≠ "CURTAIN".toList)
      (hcurrent : p.current = some scene) (hd : directive (trimStart line.text) = .ok d) :
    Takes p line
      { p with
        current := some { scene with reversed := ⟨d, line.number⟩ :: scene.reversed }
        last := some line }

/-- A line that opens a scene is neither blank nor a comment. -/
theorem isIdle_of_opensScene {text : List Char} (h : opensScene text) : isIdle text = false := by
  unfold opensScene at h
  split at h
  · rfl
  · cases h

/-- A line is compiled exactly if it is one of these, and does what they do. -/
theorem step_eq_ok_iff {source : Option String} {p p' : Progress} {line : Line} :
    p.step source line = .ok p' ↔ p.Takes line p' := by
  constructor
  · intro h
    unfold Progress.step at h
    dsimp only at h
    split at h
    · next hidle =>
      cases h
      exact .idle hidle
    next hidle =>
    split at h
    · next hopens =>
      split at h
      · cases h
      next hcurrent =>
      split at h
      · cases h
      next name hname =>
      split at h
      · cases h
      next hnew =>
      cases h
      exact .opens hopens hcurrent hname (by simpa using hnew)
    next hopens =>
    split at h
    · cases h
    next scene hcurrent =>
    split at h
    · next hcurtain =>
      cases h
      exact .closes (beq_iff_eq.1 hcurtain) hcurrent
    next hcurtain =>
    split at h
    · cases h
    next d hd =>
    cases h
    exact .tells (Bool.not_eq_true _ ▸ hidle) (Bool.not_eq_true _ ▸ hopens)
      (fun heq => hcurtain (beq_iff_eq.2 heq)) hcurrent hd
  · intro h
    unfold Progress.step
    have htrim : trimEnd (trimStart line.text) = trim line.text := rfl
    have hidle : ((trim line.text).isEmpty || (trim line.text).take 2 == ['/', '/']) =
        isIdle (trim line.text) := rfl
    dsimp only
    rw [htrim, hidle]
    cases h with
    | idle h => exact if_pos h
    | opens hopens hcurrent hname hnew =>
      have hbusy : ¬ isIdle (trim line.text) := by simp [isIdle_of_opensScene hopens]
      rw [if_neg hbusy, if_pos hopens, hcurrent, hname]
      simp only [hnew]
      rfl
    | closes hcurtain hcurrent =>
      rw [hcurtain, hcurrent]
      rfl
    | tells hidle hopens hcurtain hcurrent hd =>
      have hbusy : ¬ isIdle (trim line.text) := by simp [hidle]
      rw [if_neg hbusy, if_neg (by simp [hopens]), hcurrent]
      simp only [beq_eq_false_iff_ne.2 hcurtain, hd]
      rfl

/-! ### Content -/

def OpenScene.content (s : OpenScene) : String × List Directive :=
  (s.name, s.reversed.map (·.directive))

/-- The same has been compiled, but of other lines. -/
structure Progress.Like (p q : Progress) : Prop where
  closed : q.closed.map (·.content) = p.closed.map (·.content)
  current : q.current.map (·.content) = p.current.map (·.content)

variable {source source' : Option String} {p q p' : Progress} {line line' : Line}

theorem Progress.Like.current_eq_some (h : p.Like q) {scene : OpenScene}
    (hcurrent : p.current = some scene) : ∃ scene', q.current = some scene' ∧
      scene'.name = scene.name ∧
      scene'.reversed.map (·.directive) = scene.reversed.map (·.directive) := by
  have hcontent := h.current
  rw [hcurrent] at hcontent
  obtain ⟨scene', hscene', heq⟩ := Option.map_eq_some_iff.1 hcontent
  exact ⟨scene', hscene', congrArg Prod.fst heq, congrArg Prod.snd heq⟩

theorem Progress.Like.current_eq_none (h : p.Like q) (hcurrent : p.current = none) :
    q.current = none := by
  have hcontent := h.current
  rwa [hcurrent, Option.map_none, Option.map_eq_none_iff] at hcontent

theorem Progress.Like.closed_names (h : p.Like q) :
    q.closed.map (·.name) = p.closed.map (·.name) := by
  have hnames := congrArg (List.map Prod.fst) h.closed
  rwa [List.map_map, List.map_map] at hnames

theorem Progress.Takes.of_idle (h : p.Takes line p') (hidle : isIdle (trim line.text)) :
    p' = { p with last := some line } := by
  cases h with
  | idle _ => rfl
  | opens hopens _ _ _ => simp [isIdle_of_opensScene hopens] at hidle
  | closes hcurtain _ =>
    rw [hcurtain] at hidle
    cases hidle
  | tells hbusy _ _ _ _ => simp [hbusy] at hidle

/-- Lines that differ in their blanks do the same to the same. -/
theorem Progress.Takes.like (h : p.Takes line p') (hlike : p.Like q)
    (htrim : trim line'.text = trim line.text) : ∃ q', q.Takes line' q' ∧ p'.Like q' := by
  cases h with
  | idle h =>
    rw [← htrim] at h
    exact ⟨_, .idle h, hlike.closed, hlike.current⟩
  | @opens name hopens hcurrent hname hnew =>
    rw [← htrim] at hopens hname
    have hnew' : (q.closed.any fun s => s.name == String.ofList name) = false := by
      have hany (scenes : List Scene) : (scenes.any fun s => s.name == String.ofList name) =
          (scenes.map (·.name)).any (· == String.ofList name) := by
        rw [List.any_map]
        rfl
      rw [hany, hlike.closed_names, ← hany, hnew]
    exact ⟨_, .opens hopens (hlike.current_eq_none hcurrent) hname hnew', hlike.closed, rfl⟩
  | @closes scene hcurtain hcurrent =>
    rw [← htrim] at hcurtain
    obtain ⟨scene', hcurrent', hname, hdirectives⟩ := hlike.current_eq_some hcurrent
    refine ⟨_, .closes hcurtain hcurrent', ?_, rfl⟩
    rw [List.map_append, List.map_append, hlike.closed]
    simp only [Scene.content, List.map_cons, List.map_nil, List.map_reverse, hname, hdirectives]
  | @tells scene d hidle hopens hcurtain hcurrent hd =>
    rw [← htrim] at hidle hopens hcurtain
    obtain ⟨scene', hcurrent', hname, hdirectives⟩ := hlike.current_eq_some hcurrent
    refine ⟨_, .tells hidle hopens hcurtain hcurrent' (directive_congr hd htrim), hlike.closed, ?_⟩
    simp only [Option.map_some, OpenScene.content, List.map_cons, hname, hdirectives]

/-! ### All lines -/

theorem foldlM_cons_eq_ok {lines : List Line} :
    (line :: lines).foldlM (Progress.step source) p = .ok p' ↔
      ∃ next, p.Takes line next ∧ lines.foldlM (Progress.step source) next = .ok p' := by
  rw [List.foldlM_cons]
  constructor
  · intro h
    cases hstep : p.step source line with
    | error e =>
      rw [hstep] at h
      cases h
    | ok next =>
      rw [hstep] at h
      exact ⟨next, step_eq_ok_iff.1 hstep, h⟩
  · rintro ⟨next, htakes, h⟩
    rw [step_eq_ok_iff.2 htakes]
    exact h

/-- Lines on which nothing is said are passed over. -/
theorem exists_foldlM_idle (source : Option String) {lines : List Line} (hlike : p.Like q)
    (hidle : ∀ line ∈ lines, isIdle (trim line.text)) (rest : List Line) :
    ∃ q', p.Like q' ∧ (lines ++ rest).foldlM (Progress.step source) q =
      rest.foldlM (Progress.step source) q' := by
  induction lines generalizing q with
  | nil => exact ⟨q, hlike, rfl⟩
  | cons line lines ih =>
    obtain ⟨hline, hlines⟩ := List.forall_mem_cons.1 hidle
    have hlike' : p.Like { q with last := some line } := ⟨hlike.closed, hlike.current⟩
    obtain ⟨q', hq', hfold⟩ := ih hlike' hlines
    refine ⟨q', hq', ?_⟩
    rw [List.cons_append, foldlM_cons_of_ok (step_eq_ok_iff.2 (.idle hline)), hfold]

/-- Lines say a text first if that stands on one of them, and nothing is said before. -/
theorem exists_of_said_eq_cons {lines : List Line} {text : List Char} {texts : List (List Char)}
    (h : said (lines.map (·.text)) = text :: texts) :
    ∃ front line rest, lines = front ++ line :: rest ∧
      (∀ line ∈ front, isIdle (trim line.text)) ∧ trim line.text = text ∧
      said (rest.map (·.text)) = texts := by
  induction lines with
  | nil => cases h
  | cons line lines ih =>
    rw [List.map_cons, said_cons] at h
    split at h
    · next hidle =>
      obtain ⟨front, line', rest, rfl, hfront, hline', hrest⟩ := ih h
      exact ⟨line :: front, line', rest, rfl, List.forall_mem_cons.2 ⟨hidle, hfront⟩, hline', hrest⟩
    · cases h
      exact ⟨[], line, lines, rfl, by simp, rfl, rfl⟩

theorem idle_of_said_eq_nil {lines : List Line} (h : said (lines.map (·.text)) = []) :
    ∀ line ∈ lines, isIdle (trim line.text) := by
  simpa [said] using h

/-- Lines that say the same are compiled to the same content. -/
theorem foldlM_like (source' : Option String) {lines lines' : List Line}
    (hsaid : said (lines'.map (·.text)) = said (lines.map (·.text))) (hlike : p.Like q)
    (h : lines.foldlM (Progress.step source) p = .ok p') :
    ∃ q', lines'.foldlM (Progress.step source') q = .ok q' ∧ p'.Like q' := by
  induction lines generalizing p q lines' with
  | nil =>
    cases h
    obtain ⟨q', hq', hfold⟩ := exists_foldlM_idle source' hlike (idle_of_said_eq_nil hsaid) []
    rw [List.append_nil] at hfold
    exact ⟨q', hfold, hq'⟩
  | cons line lines ih =>
    obtain ⟨next, htakes, hrest⟩ := foldlM_cons_eq_ok.1 h
    rw [List.map_cons, said_cons] at hsaid
    split at hsaid
    · next hidle =>
      rw [htakes.of_idle hidle] at hrest
      exact ih (p := { p with last := some line }) hsaid ⟨hlike.closed, hlike.current⟩ hrest
    · obtain ⟨front, line', rest, rfl, hfront, htrim, hsaid⟩ := exists_of_said_eq_cons hsaid
      obtain ⟨q₁, hq₁, hfold⟩ := exists_foldlM_idle source' hlike hfront (line' :: rest)
      obtain ⟨q₂, htakes', hq₂⟩ := htakes.like hq₁ htrim
      obtain ⟨q', hq', hlike'⟩ := ih hsaid hq₂ hrest
      refine ⟨q', ?_, hlike'⟩
      rw [hfold]
      exact foldlM_cons_eq_ok.2 ⟨q₂, htakes', hq'⟩

/-! ### The byte order mark -/

theorem dropMark_eq_self {text : List Char} (h : text.head? ≠ some '\ufeff') :
    dropMark text = text := by
  unfold dropMark
  split
  · exact absurd rfl h
  · rfl

/-- No line that is compiled begins with a byte order mark behind its blanks. -/
theorem Progress.Takes.head_ne_mark (h : p.Takes line p')
    (hbusy : isIdle (trim line.text) = false) :
    (trim line.text).head? ≠ some '\ufeff' := by
  intro hmark
  obtain ⟨rest, hrest⟩ := List.head?_eq_some_iff.1 hmark
  cases h with
  | idle hidle => simp [hbusy] at hidle
  | opens hopens _ _ _ =>
    rw [hrest] at hopens
    cases hopens
  | closes hcurtain _ => cases hrest.symm.trans hcurtain
  | tells _ _ _ _ hd =>
    -- what is left of the line begins as the whole does
    have hstart : (trimStart line.text).head? = some '\ufeff' := by
      obtain ⟨blanks, heq, -⟩ := exists_blanks_trimEnd (trimStart line.text)
      rw [heq, show trimEnd (trimStart line.text) = _ from hrest]
      rfl
    obtain ⟨more, hmore⟩ := List.head?_eq_some_iff.1 hstart
    rw [hmore] at hd
    cases hd

theorem head_ne_mark_of_foldlM {lines : List Line}
    (h : lines.foldlM (Progress.step source) p = .ok p') :
    ∀ text ∈ said (lines.map (·.text)), text.head? ≠ some '\ufeff' := by
  induction lines generalizing p with
  | nil => simp
  | cons line lines ih =>
    obtain ⟨next, htakes, hrest⟩ := foldlM_cons_eq_ok.1 h
    rw [List.map_cons, said_cons]
    split
    · exact ih hrest
    · next hbusy =>
      exact List.forall_mem_cons.2 ⟨htakes.head_ne_mark (by simpa using hbusy), ih hrest⟩

/-- A text that says nothing with a byte order mark in front does not begin with one. -/
theorem head_ne_mark_of_said {text : List Char}
    (h : ∀ line ∈ said (splitAtEach '\n' text), line.head? ≠ some '\ufeff') :
    text.head? ≠ some '\ufeff' := by
  intro hmark
  obtain ⟨rest, rfl⟩ := List.head?_eq_some_iff.1 hmark
  obtain ⟨line, lines, hlines⟩ : ∃ line lines,
      splitAtEach '\n' ('\ufeff' :: rest) = ('\ufeff' :: line) :: lines := by
    rw [splitAtEach]
    cases splitAtEach '\n' rest with
    | nil => exact ⟨_, _, rfl⟩
    | cons line lines => exact ⟨_, _, rfl⟩
  have hhead := head?_trim (c := '\ufeff') (by decide) line
  obtain ⟨more, hmore⟩ := List.head?_eq_some_iff.1 hhead
  rw [hlines, said_cons, hmore] at h
  exact h _ List.mem_cons_self rfl

/-! ### Texts -/

theorem finish_eq_ok_iff {s : Script} : p.finish source = .ok s ↔
    p.current = none ∧ p.closed ≠ [] ∧ s = ⟨p.closed, source.getD ""⟩ := by
  unfold Progress.finish
  split
  · next hcurrent _ => simp [hcurrent]
  · next hcurrent _ => simp [hcurrent]
  · next hcurrent =>
    split
    · next hempty => simp [List.isEmpty_iff.1 hempty]
    · next hsome =>
      simp only [List.isEmpty_iff] at hsome
      simp [hcurrent, hsome, eq_comm]

/-- A text is read line by line, and then at its end. -/
theorem parse_eq (text : String) (source : Option String) : parse text source =
    (linesOf (dropMark text.toList)).foldlM (Progress.step source) {} >>= (·.finish source) :=
  rfl

/-- What was read is a script only once it is validated. -/
theorem compile_eq (text : String) (source : Option String) : compile text source =
    parse text source >>= fun s => s.validate >>= fun _ => .ok s :=
  rfl

theorem parse_eq_ok_iff {text : String} {s : Script} :
    parse text source = .ok s ↔ ∃ p : Progress,
      (linesOf (dropMark text.toList)).foldlM (Progress.step source) {} = .ok p ∧
      p.finish source = .ok s :=
  bind_eq_ok

/-- A text compiles exactly if its lines do, no scene is left open, there is one, and the scenes
    make a valid script. -/
theorem compile_eq_ok_iff {text : String} {s : Script} :
    compile text source = .ok s ↔ ∃ p : Progress,
      (linesOf (dropMark text.toList)).foldlM (Progress.step source) {} = .ok p ∧
      p.finish source = .ok s ∧ s.validate = .ok () := by
  simp only [compile_eq, parse_eq, bind_eq_ok, Except.ok.injEq]
  constructor
  · rintro ⟨s', ⟨p, hfold, hfinish⟩, u, hvalid, rfl⟩
    exact ⟨p, hfold, hfinish, hvalid⟩
  · rintro ⟨p, hfold, hfinish, hvalid⟩
    exact ⟨s, ⟨p, hfold, hfinish⟩, (), hvalid, rfl⟩

/-- A text fails to compile at one of its lines, at its end, or as a script. -/
theorem compile_eq_error_iff {text : String} {e : CompileError} :
    compile text source = .error e ↔
      (linesOf (dropMark text.toList)).foldlM (Progress.step source) {} = .error e ∨
      ∃ p : Progress, (linesOf (dropMark text.toList)).foldlM (Progress.step source) {} = .ok p ∧
        (p.finish source = .error e ∨ ∃ s, p.finish source = .ok s ∧ s.validate = .error e) := by
  simp only [compile_eq, parse_eq, bind_eq_error, bind_eq_ok]
  constructor
  · rintro ((hfold | ⟨p, hfold, hfinish⟩) | ⟨s, ⟨p, hfold, hfinish⟩, hvalid | ⟨u, -, hok⟩⟩)
    · exact .inl hfold
    · exact .inr ⟨p, hfold, .inl hfinish⟩
    · exact .inr ⟨p, hfold, .inr ⟨s, hfinish, hvalid⟩⟩
    · cases hok
  · rintro (hfold | ⟨p, hfold, hfinish | ⟨s, hfinish, hvalid⟩⟩)
    · exact .inl (.inl hfold)
    · exact .inl (.inr ⟨p, hfold, hfinish⟩)
    · exact .inr ⟨s, ⟨p, hfold, hfinish⟩, .inl hvalid⟩

/-- Each directive that was compiled stands on a line. -/
theorem written_of_foldlM {lines : List Line}
    (h : lines.foldlM (Progress.step source) {} = .ok p) : p.Written := by
  have hnone : Progress.Written {} := ⟨by simp, by simp⟩
  rcases @foldlM_step_outcome source {} hnone lines with ⟨p', hfold, hp⟩ | ⟨e, hfold, -⟩
  · cases h.symm.trans hfold
    exact hp
  · cases h.symm.trans hfold

/-- The same content under the same names makes the same scenes, if every directive equals
    itself. -/
theorem sameScenes_of_content {scenes scenes' : List Scene}
    (h : scenes'.map (·.content) = scenes.map (·.content))
    (hself : ∀ scene ∈ scenes, ∀ d ∈ scene.directives, d.directive == d.directive) :
    SameScenes scenes scenes' := by
  induction scenes generalizing scenes' with
  | nil =>
    rw [List.map_eq_nil_iff.1 h]
    exact .nil
  | cons scene scenes ih =>
    obtain ⟨scene', rest, rfl, hcontent, hrest⟩ := List.map_eq_cons_iff.1 h
    obtain ⟨hscene, hscenes⟩ := List.forall_mem_cons.1 hself
    refine .cons ?_ (ih hrest hscenes)
    have hname : scene'.name = scene.name := congrArg Prod.fst hcontent
    have hdirectives : scene'.directives.map (·.directive) = scene.directives.map (·.directive) :=
      congrArg Prod.snd hcontent
    have hall (ds : List Numbered) (hds : ∀ d ∈ ds, d.directive == d.directive) :
        ds.map (·.directive) == ds.map (·.directive) := by
      induction ds with
      | nil => rfl
      | cons d ds ih =>
        obtain ⟨hd, hds⟩ := List.forall_mem_cons.1 hds
        simp only [List.map_cons, List.cons_beq_cons, hd, ih hds, Bool.and_self]
    simp [Scene.same, hname, hdirectives, hall _ hscene]

/-- A text that compiles compiles to the same content in any other layout, with its scenes in the
    same order. -/
theorem compile_relaid {text text' : String} {s : Script} (h : compile text source = .ok s)
    (hmark : text.toList.head? ≠ some '\ufeff')
    (hrelaid : Relation.ReflTransGen Relaid (splitAtEach '\n' text.toList)
      (splitAtEach '\n' text'.toList)) (source' : Option String) :
    ∃ s', compile text' source' = .ok s' ∧ s.same s' ∧
      s'.scenes.map (·.name) = s.scenes.map (·.name) := by
  have hs : s.WellFormed := Compiled.wellFormed ⟨text, source, h⟩
  obtain ⟨p, hfold, hfinish, hvalid⟩ := compile_eq_ok_iff.1 h
  obtain ⟨hcurrent, hne, rfl⟩ := finish_eq_ok_iff.1 hfinish
  have hsaid := said_eq_of_relaid hrelaid
  rw [dropMark_eq_self hmark] at hfold
  have hmarks := head_ne_mark_of_foldlM hfold
  rw [said_linesOf, ← hsaid] at hmarks
  have hmark' := head_ne_mark_of_said hmarks
  have hlines : said ((linesOf text'.toList).map (·.text)) =
      said ((linesOf text.toList).map (·.text)) := by
    rw [said_linesOf, said_linesOf, hsaid]
  obtain ⟨q, hfold', hlike⟩ := foldlM_like source' (q := {}) hlines ⟨rfl, rfl⟩ hfold
  have hself : ∀ scene ∈ p.closed, ∀ d ∈ scene.directives, d.directive == d.directive := by
    intro scene hscene d hd
    obtain ⟨line, hline⟩ := (written_of_foldlM hfold).closed scene hscene d hd
    exact directive_beq_self hline
  have hsame : SameScenes p.closed q.closed := sameScenes_of_content hlike.closed hself
  have hne' : q.closed ≠ [] := by
    intro hnil
    have hlength := hsame.length_eq
    rw [hnil] at hlength
    exact hne (List.length_eq_zero_iff.1 hlength)
  have hsame' : SameScenes (Script.scenes ⟨p.closed, source.getD ""⟩)
      (Script.scenes ⟨q.closed, source'.getD ""⟩) := hsame
  refine ⟨⟨q.closed, source'.getD ""⟩, compile_eq_ok_iff.2 ⟨q, ?_, ?_, hsame'.validate hs⟩,
    hsame'.same hs.names_nodup, hsame'.names⟩
  · rw [dropMark_eq_self hmark', hfold']
  · exact finish_eq_ok_iff.2 ⟨hlike.current_eq_none hcurrent, hne', rfl⟩

/-- A scene of one line, written again with a comment, a blank line, other blanks and carriage
    returns. -/
theorem compile_relaid_hello :
    ∃ s s', compile "SCENE a\n  Nayu: \"Hi\" \nCURTAIN" = .ok s ∧
      compile "SCENE a\r\n\t// aside\n\u3000Nayu: \"Hi\"\t\r\n \nCURTAIN" = .ok s' ∧
      s.same s' ∧ s'.scenes.map (·.name) = s.scenes.map (·.name) := by
  obtain ⟨hi, hhi⟩ : ∃ hi, hi = "Nayu: \"Hi\"".toList := ⟨_, rfl⟩
  have hlines : splitAtEach '\n' "SCENE a\n  Nayu: \"Hi\" \nCURTAIN".toList =
      ["SCENE a".toList, [' ', ' '] ++ (hi ++ [' ']), "CURTAIN".toList] := by
    rw [hhi]
    decide
  have hlines' : splitAtEach '\n'
      "SCENE a\r\n\t// aside\n\u3000Nayu: \"Hi\"\t\r\n \nCURTAIN".toList =
      ["SCENE a".toList ++ ['\r'], ['\t'] ++ '/' :: '/' :: " aside".toList,
        ('\u3000' :: hi) ++ ['\t', '\r'], [' '], "CURTAIN".toList] := by
    rw [hhi]
    decide
  have hrelaid : Relation.ReflTransGen Relaid
      (splitAtEach '\n' "SCENE a\n  Nayu: \"Hi\" \nCURTAIN".toList)
      (splitAtEach '\n'
        "SCENE a\r\n\t// aside\n\u3000Nayu: \"Hi\"\t\r\n \nCURTAIN".toList) := by
    rw [hlines, hlines']
    have hblanks {cs : List Char} (h : cs.all isBlank) : ∀ c ∈ cs, isBlank c :=
      List.all_eq_true.1 h
    have hlead := @hblanks [' ', ' '] (by decide)
    have hlead' := @hblanks ['\u3000'] (by decide)
    have htrail := @hblanks [' '] (by decide)
    have htrail' := @hblanks ['\t', '\r'] (by decide)
    refine .head (.ending [] _ "SCENE a".toList) ?_
    refine .head (.comment [_] _ ['\t'] " aside".toList (hblanks (by decide))) ?_
    refine .head (.lead [_, _] _ [' ', ' '] ['\u3000'] (hi ++ [' ']) hlead hlead') ?_
    refine .head (.trail [_, _] _ [' '] ['\t', '\r'] ('\u3000' :: hi) htrail htrail') ?_
    exact .single (.blank [_, _, _] _ [' '] htrail)
  have hcompiles : (compile "SCENE a\n  Nayu: \"Hi\" \nCURTAIN").toOption.isSome := by
    decide +kernel
  cases hcompile : compile "SCENE a\n  Nayu: \"Hi\" \nCURTAIN" with
  | error e => simp [hcompile, Except.toOption] at hcompiles
  | ok s =>
    obtain ⟨s', hs'⟩ := compile_relaid hcompile (by decide) hrelaid none
    exact ⟨s, s', rfl, hs'⟩

end Script

end VisualNovel
