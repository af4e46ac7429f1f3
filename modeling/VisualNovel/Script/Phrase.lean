import VisualNovel.Script.Basic
import VisualNovel.Script.Token

/-!
The phrases of a stage direction. A phrase starts with its target, goes on with a verb and may end
in options, which come in any order and each at most once. The vocabulary is closed: a phrase is
read to its last token or not at all.

A reader never lengthens the list of tokens, which is what `Reading` records; together with the
keyword that introduces each option this makes the loop over the options end.
-/

namespace VisualNovel.Script

/-- The outcome of reading from a list of tokens: a value and what is left, or a flaw. -/
abbrev Reading (α : Type) (ts : List Token) : Type :=
  Except Flaw (α × { rest : List Token // rest.length ≤ ts.length })

namespace Reading

/-- Nothing is read. -/
def done {α : Type} (a : α) (ts : List Token) : Reading α ts := .ok (a, ⟨ts, Nat.le_refl _⟩)

/-- One reader after the other. -/
def andThen {α β : Type} {ts : List Token} (first : Reading α ts)
    (second : α → (rest : List Token) → Reading β rest) : Reading β ts :=
  match first with
  | .error flaw => .error flaw
  | .ok (a, ⟨rest, h⟩) =>
    match second a rest with
    | .error flaw => .error flaw
    | .ok (b, ⟨rest', h'⟩) => .ok (b, ⟨rest', Nat.le_trans h' h⟩)

/-- What is read, changed. -/
def mapValue {α β : Type} {ts : List Token} (f : α → β) (r : Reading α ts) : Reading β ts :=
  r.map fun (a, rest) => (f a, rest)

/-- A token of the kind that `accept` takes. -/
def one {α : Type} (m : Mistake) (accept : TokenValue → Option α) :
    (ts : List Token) → Reading α ts
  | [] => .error ⟨m, [], []⟩
  | t :: rest =>
    match accept t.value with
    | some a => .ok (a, ⟨rest, by simp⟩)
    | none => .error (t.flaw m)

end Reading

/-- The word of a token that is one. -/
def TokenValue.word? : TokenValue → Option String
  | .word w => some w
  | _ => none

/-- The number of a token that is one. -/
def TokenValue.number? : TokenValue → Option Float
  | .number x => some x
  | _ => none

/-- One of these words. -/
def keyword (ws : List String) : (ts : List Token) → Reading String ts :=
  Reading.one (.expectedWord ws) fun v => v.word?.filter fun w => ws.contains w

/-- Any word. -/
def identifier (what : String) : (ts : List Token) → Reading String ts :=
  Reading.one (.expected what) TokenValue.word?

/-- Any number. -/
def number (what : String) : (ts : List Token) → Reading Float ts :=
  Reading.one (.expected what) TokenValue.number?

/-- The member of a vocabulary of single words. -/
def member (α : Type) [Vocabulary α] : (ts : List Token) → Reading α ts :=
  Reading.one (.expectedWord (Vocabulary.words α)) fun v => v.word?.bind Vocabulary.ofWord?

/-- The member of a vocabulary, if the next token is one. -/
def optionalMember (α : Type) [Vocabulary α] (ts : List Token) : Reading (Option α) ts :=
  match ts with
  | [] => Reading.done none []
  | t :: rest =>
    match t.value.word?.bind (Vocabulary.ofWord? (α := α)) with
    | some a => .ok (some a, ⟨rest, by simp⟩)
    | none => Reading.done none (t :: rest)

/-- A word, or a quoted text without variables. -/
def nameOrText (what : String) : (ts : List Token) → Reading String ts
  | [] => .error ⟨.expected what, [], []⟩
  | t :: rest =>
    match t.value with
    | .word w => .ok (w, ⟨rest, by simp⟩)
    | .text e =>
      if e.variableNames.isEmpty then .ok (e.literalText, ⟨rest, by simp⟩)
      else .error (t.flaw (.variablesIn what))
    | .number _ => .error (t.flaw (.expected what))

/-- The verb of a phrase about `subject`. -/
def verb (subject : String) (verbs : List String) : (ts : List Token) → Reading String ts
  | [] => .error ⟨.expected "a verb", [], []⟩
  | t :: rest =>
    match t.value.word?.filter fun w => verbs.contains w with
    | some w => .ok (w, ⟨rest, by simp⟩)
    | none => .error (t.flaw (.unknownVerb subject))

/-- A named place, of one word or two. -/
def place (ts : List Token) : Reading Position ts :=
  (keyword ["center", "left", "right", "far", "invisible"] ts).andThen fun first rest =>
    if first == "far" then
      (keyword ["left", "right"] rest).mapValue fun w =>
        if w == "left" then .farLeft else .farRight
    else if first == "invisible" then
      (keyword ["left", "right"] rest).mapValue fun w =>
        if w == "left" then .invisibleLeft else .invisibleRight
    else
      Reading.done (if first == "left" then .left else if first == "right" then .right else .center)
        rest

/-- The coordinates of an animation. -/
def coordinates (ts : List Token) : Reading Placement ts :=
  (number "x position" ts).andThen fun x rest =>
    (number "y position" rest).mapValue fun y => .coords [x, y]

/-- A factor that is not negative. -/
def scaleFactor : (ts : List Token) → Reading Float ts
  | [] => .error ⟨.expected "scale", [], []⟩
  | t :: rest =>
    match t.value.number? with
    | none => .error (t.flaw (.expected "scale"))
    | some x => if x < 0 then .error (t.flaw .negativeScale) else .ok (x, ⟨rest, by simp⟩)

/-- A number without a fraction. -/
def layerIndex : (ts : List Token) → Reading Int ts
  | [] => .error ⟨.expected "layer", [], []⟩
  | t :: rest =>
    match t.value.number? with
    | none => .error (t.flaw (.expected "layer"))
    | some x =>
      if Number.isWhole x then
        match Number.truncate x with
        | .ok n => .ok (n, ⟨rest, by simp⟩)
        | .error _ => .error (t.flaw .fractionalLayer)
      else .error (t.flaw .fractionalLayer)

/-- What an option does to the parameters of its phrase. -/
abbrev Setter := Params → Params

/-- The options that a phrase allows: what follows each keyword. -/
abbrev OptionTable := String → Option ((ts : List Token) → Reading Setter ts)

/-- The options of an actor that comes on stage. -/
def actorOptions : OptionTable
  | "at" => some fun ts =>
    (place ts).mapValue fun p params => { params with position := some (.place p) }
  | "looking" => some fun ts =>
    (member Facing ts).mapValue fun f params => { params with facing := some f }
  | "as" => some fun ts =>
    (identifier "emotion" ts).mapValue fun e params => { params with emotion := some (some e) }
  | _ => none

/-- The options of an animation that comes on stage. -/
def animationOptions : OptionTable
  | "at" => some fun ts =>
    (coordinates ts).mapValue fun p params => { params with position := some p }
  | "scale" => some fun ts =>
    (scaleFactor ts).mapValue fun x params => { params with scale := some x }
  | "layer" => some fun ts =>
    (layerIndex ts).mapValue fun n params => { params with layer := some n }
  | _ => none

/-- Options up to the last token; `used` holds the keywords so far. -/
def options (table : OptionTable) (used : List String) (params : Params) :
    List Token → Except Flaw Params
  | [] => .ok params
  | t :: rest =>
    match t.value.word?.bind fun w => (table w).map (w, ·) with
    | none => .error (t.flaw .unexpectedToken)
    | some (w, read) =>
      if used.contains w then .error (t.flaw (.repeatedOption w))
      else
        match read rest with
        | .error flaw => .error flaw
        | .ok (set, ⟨after, _⟩) => options table (w :: used) (set params) after
  termination_by ts => ts.length

/-- A phrase ends where its tokens do. -/
def atEnd {α : Type} {ts : List Token} (r : Reading α ts) : Except Flaw α :=
  match r with
  | .error flaw => .error flaw
  | .ok (a, ⟨[], _⟩) => .ok a
  | .ok (_, ⟨t :: _, _⟩) => .error (t.flaw .unexpectedToken)

/-- A reader, then one that reads to the last token. -/
def finishWith {α : Type} {ts : List Token} (r : Reading α ts)
    (finish : α → List Token → Except Flaw StageDirection) : Except Flaw StageDirection :=
  match r with
  | .error flaw => .error flaw
  | .ok (a, ⟨rest, _⟩) => finish a rest

/-- `Scene NAME begins` -/
def scenePhrase (ts : List Token) : Except Flaw StageDirection :=
  atEnd <| (nameOrText "scene name" ts).andThen fun name rest =>
    (keyword ["begins"] rest).mapValue fun _ =>
      { target := ⟨.scene, none⟩, action := .jump, params := { name := some (some name) } }

/-- `Background changes to ID` -/
def backgroundPhrase (ts : List Token) : Except Flaw StageDirection :=
  atEnd <| (keyword ["changes"] ts).andThen fun _ rest =>
    (keyword ["to"] rest).andThen fun _ rest =>
      (nameOrText "background id" rest).mapValue fun id =>
        { target := ⟨.background, none⟩, action := .change, params := { id := some (some id) } }

/-- `GUI textbox|namebox changes to ID [sliced|auto]` -/
def panelPhrase (ts : List Token) : Except Flaw StageDirection :=
  atEnd <| (member Panel ts).andThen fun panel rest =>
    (keyword ["changes"] rest).andThen fun _ rest =>
      (keyword ["to"] rest).andThen fun _ rest =>
        (nameOrText "GUI sprite id" rest).andThen fun id rest =>
          (optionalMember Scaling rest).mapValue fun scaling =>
            { target := ⟨.gui, some (Vocabulary.word panel)⟩
              action := .change
              params := { element := some panel, id := some (some id), scaling } }

/-- `NAME appears|disappears|fades in|fades out|moves to PLACE|looks left|right`, with options
    where the actor comes on stage. -/
def actorPhrase (name : String) (ts : List Token) : Except Flaw StageDirection :=
  let direction (action : Action) (params : Params) : StageDirection :=
    { target := ⟨.actor, some name⟩, action := action, params := params }
  finishWith
    (verb s!"actor '{name}'" ["appears", "disappears", "fades", "moves", "looks"] ts)
    fun w rest =>
      if w == "appears" then (options actorOptions [] {} rest).map (direction .appear)
      else if w == "disappears" then atEnd (Reading.done (direction .disappear {}) rest)
      else if w == "fades" then
        finishWith (member Fade rest) fun fade rest =>
          let params : Params := { direction := some fade }
          match fade with
          | .fadeIn => (options actorOptions [] params rest).map (direction .fade)
          | .fadeOut => atEnd (Reading.done (direction .fade params) rest)
      else if w == "moves" then
        atEnd <| (keyword ["to"] rest).andThen fun _ rest =>
          (place rest).mapValue fun p => direction .move { position := some (.place p) }
      else
        atEnd <| (member Facing rest).mapValue fun f => direction .look { facing := some f }

/-- `Animation NAME appears|fades in|fades out|moves to X Y|looks left|right`, with options where
    it appears. -/
def animationPhrase (ts : List Token) : Except Flaw StageDirection :=
  finishWith (identifier "animation name" ts) fun name rest =>
    let direction (action : Action) (params : Params) : StageDirection :=
      { target := ⟨.animation, some name⟩, action := action, params := params }
    finishWith (verb s!"animation '{name}'" ["appears", "fades", "moves", "looks"] rest)
      fun w rest =>
        if w == "appears" then (options animationOptions [] {} rest).map (direction .appear)
        else if w == "fades" then
          atEnd <| (member Fade rest).mapValue fun fade =>
            direction .fade { direction := some fade }
        else if w == "moves" then
          atEnd <| (keyword ["to"] rest).andThen fun _ rest =>
            (coordinates rest).mapValue fun p => direction .move { position := some p }
        else
          atEnd <| (member Facing rest).mapValue fun f => direction .look { facing := some f }

/-- The direction that a list of tokens says. -/
def phrase : List Token → Except Flaw StageDirection
  | [] => .error ⟨.expected "a target", [], []⟩
  | head :: rest =>
    match head.value.word? with
    | none => .error (head.flaw (.expected "a target"))
    | some "Scene" => scenePhrase rest
    | some "Background" => backgroundPhrase rest
    | some "GUI" => panelPhrase rest
    | some "Animation" => animationPhrase rest
    | some name => actorPhrase name rest

end VisualNovel.Script
