import VisualNovel.Cast.Directory
import VisualNovel.Proofs.Failing

/-!
What keeps a definition file from being used. A breach of the format is told together with the
place of the definition. Everything else that can go wrong has one of a few causes, which lie in the
bytes of a file, in a datum without a text, in a number beyond every double, or in a path.
-/

namespace VisualNovel

/-! ### Definitions -/

/-- A datum whose text the definition of a character asks for. -/
inductive Character.Names (entries : List (Data × Data)) : Data → Prop where
  | choice {key : String} {d : Data} (hkey : key ∈ ["outfit", "emotion", "description"])
      (h : Data.get? key entries = some d) : Names entries d
  | outfit {outfits : List (Data × Data)} {d value : Data}
      (h : Data.get? "outfits" entries = some (.map outfits)) (hd : (d, value) ∈ outfits) :
      Names entries d
  | emotion {outfits emotions : List (Data × Data)} {outfit d value : Data}
      (h : Data.get? "outfits" entries = some (.map outfits))
      (houtfit : (outfit, .map emotions) ∈ outfits) (hd : (d, value) ∈ emotions) :
      Names entries d

/-- A failure of the definition of a character: it breaches the format, or something that it names
    has no text. -/
def Character.Fails (entries : List (Data × Data)) (e : DefinitionError) : Prop :=
  e.message?.isSome ∨ e = .unrealValue ∧ ∃ d, Names entries d ∧ d.isWritable = false

/-- A failure of the definition of an animation: it breaches the format, or a number in it is beyond
    every double. -/
def SpriteSheet.Fails (entries : List (Data × Data)) (e : DefinitionError) : Prop :=
  e.message?.isSome ∨ e = .tooLarge ∧
    ∃ key n, key ∈ ["frames", "fps", "frame_width", "frame_height"] ∧
      Data.get? key entries = some (.int n) ∧ (Number.ofInt n).isInf

theorem requireText_failsWith {P : DefinitionError → Prop} {place key : String}
    {entries : List (Data × Data)} (hP : ∀ e, e.message?.isSome → P e) :
    FailsWith P (requireText place key entries) := by
  unfold requireText
  split
  · exact FailsWith.ok _
  · exact FailsWith.error (hP _ rfl)

theorem requireText_eq_ok_iff {place key text : String} {entries : List (Data × Data)} :
    requireText place key entries = .ok text ↔
      ∃ d, Data.get? key entries = some d ∧ d.trimmed? = some text := by
  rw [← Option.bind_eq_some_iff]
  unfold requireText
  cases (Data.get? key entries).bind Data.trimmed? <;> simp

namespace Character

variable {place : String} {entries : List (Data × Data)}

theorem textOf_failsWith {d : Data} (hd : Names entries d) :
    FailsWith (Fails entries) (textOf d) := by
  unfold textOf Data.display?
  by_cases hwritable : d.isWritable
  · rw [if_pos hwritable]
    exact FailsWith.ok _
  · rw [if_neg hwritable]
    exact FailsWith.error (.inr ⟨rfl, d, hd, by simpa using hwritable⟩)

theorem readEmotions_failsWith {outfit : String} {emotions : List (Data × Data)}
    (hnames : ∀ entry ∈ emotions, Names entries entry.1) :
    FailsWith (Fails entries) (readEmotions place outfit emotions) := by
  refine FailsWith.foldlM (fun entry hentry table => ?_) []
  obtain ⟨key, value⟩ := entry
  apply FailsWith.bind (textOf_failsWith (hnames _ hentry))
  intro emotion _
  split
  · exact FailsWith.ok _
  · exact FailsWith.error (.inl rfl)

theorem readOutfits_failsWith {outfits : List (Data × Data)}
    (houtfits : Data.get? "outfits" entries = some (.map outfits)) :
    FailsWith (Fails entries) (readOutfits place outfits) := by
  refine FailsWith.foldlM (fun entry hentry table => ?_) []
  obtain ⟨key, value⟩ := entry
  apply FailsWith.bind (textOf_failsWith (.outfit houtfits hentry))
  intro outfit _
  split
  · next first rest hvalue =>
    have hmap : value = .map (first :: rest) := by
      cases value <;> simp_all [Data.entries?]
    subst hmap
    apply FailsWith.bind
    · apply readEmotions_failsWith
      intro emotion hemotion
      exact .emotion houtfits hentry hemotion
    · exact fun _ _ => FailsWith.ok _
  · exact FailsWith.error (.inl rfl)

theorem choice?_failsWith {key : String} (hkey : key ∈ ["outfit", "emotion", "description"]) :
    FailsWith (Fails entries) (choice? entries key) := by
  unfold choice?
  split
  · next d hd =>
    have hget : Data.get? key entries = some d := (Option.filter_eq_some_iff.1 hd).1
    exact FailsWith.bind (textOf_failsWith (.choice hkey hget)) fun _ _ => FailsWith.ok _
  · exact FailsWith.ok _

theorem ofEntries_failsWith : FailsWith (Fails entries) (ofEntries place entries) := by
  refine FailsWith.bind (requireText_failsWith fun _ h => .inl h) fun name _ => ?_
  dsimp only
  split
  · next first rest hget =>
    obtain ⟨d, hd, hentries⟩ := Option.bind_eq_some_iff.1 hget
    have hmap : d = .map (first :: rest) := by
      cases d <;> simp_all [Data.entries?]
    refine FailsWith.bind (readOutfits_failsWith (hmap ▸ hd)) fun outfits _ => ?_
    refine FailsWith.bind (choice?_failsWith (by simp)) fun outfit? _ => ?_
    split
    · exact FailsWith.error (.inl rfl)
    · refine FailsWith.bind (choice?_failsWith (by simp)) fun emotion? _ => ?_
      split
      · exact FailsWith.error (.inl rfl)
      · exact FailsWith.bind (choice?_failsWith (by simp)) fun _ _ => FailsWith.ok _
  · exact FailsWith.error (.inl rfl)

end Character

namespace SpriteSheet

variable {place : String} {entries : List (Data × Data)}

theorem requireNumber_failsWith {key : String} :
    FailsWith (Fails entries) (requireNumber place key entries) := by
  unfold requireNumber
  split
  · exact FailsWith.ok _
  · exact FailsWith.ok _
  · exact FailsWith.error (.inl rfl)

theorem get?_of_requireNumber_eq_whole {key : String} {n : Int}
    (h : requireNumber place key entries = .ok (.whole n)) :
    Data.get? key entries = some (.int n) := by
  unfold requireNumber at h
  split at h
  · next hget =>
    cases h
    exact hget
  · cases h
  · cases h

theorem toDouble_failsWith {key : String} {n : Int}
    (hkey : key ∈ ["frames", "fps", "frame_width", "frame_height"])
    (hget : Data.get? key entries = some (.int n)) :
    FailsWith (Fails entries) (toDouble n) := by
  unfold toDouble
  dsimp only
  split
  · next hlarge => exact FailsWith.error (.inr ⟨rfl, key, n, hkey, hget, hlarge⟩)
  · exact FailsWith.ok _

theorem requireCount_failsWith {key : String}
    (hkey : key ∈ ["frames", "fps", "frame_width", "frame_height"]) :
    FailsWith (Fails entries) (requireCount place key entries) := by
  refine FailsWith.bind requireNumber_failsWith fun quantity hquantity => ?_
  cases quantity with
  | whole n =>
    have hget := get?_of_requireNumber_eq_whole hquantity
    have hdouble : FailsWith (Fails entries) (discard (toDouble n)) :=
      FailsWith.bind (toDouble_failsWith hkey hget) fun _ _ => FailsWith.ok _
    refine FailsWith.bind hdouble fun _ _ => ?_
    split
    · exact FailsWith.error (.inl rfl)
    · exact FailsWith.ok _
  | real x =>
    dsimp only
    split
    · exact FailsWith.error (.inl rfl)
    split
    · exact FailsWith.error (.inl rfl)
    split
    · exact FailsWith.ok _
    · exact FailsWith.error (.inl rfl)

theorem requireRate_failsWith {key : String}
    (hkey : key ∈ ["frames", "fps", "frame_width", "frame_height"]) :
    FailsWith (Fails entries) (requireRate place key entries) := by
  refine FailsWith.bind requireNumber_failsWith fun quantity hquantity => ?_
  cases quantity with
  | whole n =>
    dsimp only
    split
    · exact FailsWith.error (.inl rfl)
    · exact toDouble_failsWith hkey (get?_of_requireNumber_eq_whole hquantity)
  | real x =>
    dsimp only
    split
    · exact FailsWith.error (.inl rfl)
    · exact FailsWith.ok _

theorem ofEntries_failsWith : FailsWith (Fails entries) (ofEntries place entries) := by
  refine FailsWith.bind (requireText_failsWith fun _ h => .inl h) fun name _ => ?_
  refine FailsWith.bind (requireText_failsWith fun _ h => .inl h) fun sheet _ => ?_
  refine FailsWith.bind (requireCount_failsWith (by simp)) fun frames _ => ?_
  refine FailsWith.bind (requireRate_failsWith (by simp)) fun rate _ => ?_
  refine FailsWith.bind (requireCount_failsWith (by simp)) fun width _ => ?_
  exact FailsWith.bind (requireCount_failsWith (by simp)) fun _ _ => FailsWith.ok _

end SpriteSheet

/-! ### Definition files -/

/-- How a definition file fails with something that is no breach of the format. -/
inductive DefinitionError.Breaks (files : FileTree) (path : Path) : DefinitionError → Prop where
  | unnameable (h : path.isNameable = false) : Breaks files path .noPath
  | undecoded {bytes : List UInt8} {flaw : Text.Utf8Error} (hread : files.read path = .ok bytes)
      (h : Text.decodeUtf8 bytes = .error flaw) : Breaks files path .notUtf8
  | fault {fault : Yaml.Fault}
      (h : Yaml.readFile files path = .error (.malformed (.scalar fault))) :
      Breaks files path (if fault = .tooLarge then .tooLarge else .unrealValue)
  | unwritable {entries : List (Data × Data)} {d : Data}
      (hread : readDefinition files path = .ok entries) (hd : Character.Names entries d)
      (h : d.isWritable = false) : Breaks files path .unrealValue
  | tooLarge {entries : List (Data × Data)} {key : String} {n : Int}
      (hread : readDefinition files path = .ok entries)
      (hkey : key ∈ ["frames", "fps", "frame_width", "frame_height"])
      (hget : Data.get? key entries = some (.int n)) (h : (Number.ofInt n).isInf) :
      Breaks files path .tooLarge

variable {files : FileTree} {path : Path}

namespace Cast

/-- How the definitions below a directory fail with something that is no breach of the format. -/
inductive Breaks (files : FileTree) (root : Path) : DefinitionError → Prop where
  | folder {kind : String} (hkind : kind ∈ ["characters", "animations"])
      (h : files.node? (root / ⟨"", [kind]⟩) = .error .nameTooLong) : Breaks files root .longPath
  | file {kind : String} {paths : List Path} {path : Path} {e : DefinitionError}
      (hkind : kind ∈ ["characters", "animations"])
      (hpaths : definitionFiles files (root / ⟨"", [kind]⟩) = .ok paths) (hpath : path ∈ paths)
      (h : e.Breaks files path) : Breaks files root e

variable {root : Path} {cast : Cast}

end Cast

end VisualNovel
