/-!
Nodes: a document as it is written, before anything is said about what its scalars mean.
-/

namespace VisualNovel.Yaml

/-- A node of a document. What a plain scalar means depends on its text; a quoted one is a text. -/
inductive Node where
  | plain (text : List Char)
  | quoted (text : String)
  | list (items : List Node)
  | map (entries : List (Node × Node))
  deriving Inhabited

end VisualNovel.Yaml
