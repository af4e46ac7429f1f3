import VisualNovel.Proofs.Script.Locating
import VisualNovel.Proofs.Text.Decoding
import VisualNovel.Script.Repertoire

/-!
Where a mistake stands in its file. Offsets are counted in the text without the byte order mark that
it may begin with, so a place in the file is as many bytes further on as the mark has. Main
statement: `loadScriptFile_malformed`.
-/

namespace VisualNovel

open Text Script

/-- The byte order mark that a text begins with, if it does. -/
def markOf (text : List Char) : List Char := if text.head? = some '\ufeff' then ['\ufeff'] else []

theorem markOf_append_dropMark (text : List Char) : markOf text ++ dropMark text = text := by
  by_cases hmark : text.head? = some '\ufeff'
  · obtain ⟨rest, rfl⟩ := List.head?_eq_some_iff.1 hmark
    rfl
  · rw [markOf, if_neg hmark, dropMark_eq_self hmark, List.nil_append]

/-- A line from one of its characters on stands behind the text before that character. -/
theorem drop_isPrefix_of_standsIn {text raw before rest : List Char} {n k : Nat}
    (hraw : (splitAtEach '\n' text)[n]? = some raw)
    (hbefore : before = unlines ((splitAtEach '\n' text).take n) ++ (dropReturn raw).take k)
    (htext : text = before ++ rest) : (dropReturn raw).drop k <+: rest := by
  have hreturn := (List.prefix_append_right_inj (unlines ((splitAtEach '\n' text).take n))).2
    (dropReturn_isPrefix raw)
  have hline := hreturn.trans (unlines_take_isPrefix hraw)
  rw [← List.take_append_drop k (dropReturn raw), ← List.append_assoc, ← hbefore] at hline
  rw [htext] at hline
  exact (List.prefix_append_right_inj before).1 hline

/-- A mistake that is reported with a column stands in the file as many bytes behind its offset as
    the byte order mark of the file has: from there on the bytes read as the line from that column
    on, and what follows it. -/
theorem loadScriptFile_malformed {files : FileTree} {path : Path} {e : SyntaxError}
    (h : loadScriptFile files path = .error (.compile (.malformed e))) (hcolumn : 1 ≤ e.column) :
    ∃ (bytes : List UInt8) (text raw rest : List Char) (n k offset : Nat),
      files.read path = .ok bytes ∧ decodeUtf8 bytes = .ok text ∧
      (splitAtEach '\n' (dropMark text))[n]? = some raw ∧ e.line = n + 1 ∧
      e.column = k + 1 ∧ k ≤ (dropReturn raw).length ∧ e.offset = offset ∧
      decodeUtf8 (bytes.drop (utf8Length (markOf text) + offset)) = .ok rest ∧
      (dropReturn raw).drop k <+: rest := by
  unfold loadScriptFile at h
  dsimp only at h
  split at h
  · cases h
  split at h
  · cases h
  next bytes hread =>
  split at h
  · cases h
  next text hdecode =>
  have hcompile : compile (String.ofList text) (some path.toString) = .error (.malformed e) := by
    cases hresult : compile (String.ofList text) (some path.toString) with
    | ok script =>
      rw [hresult] at h
      cases h
    | error failure =>
      rw [hresult] at h
      cases h
      rfl
  obtain hzero | ⟨line, hline, flaw, hflaw, rfl⟩ := compile_malformed hcompile
  · omega
  obtain ⟨n, k, raw, before, hraw, hnumber, hplace, hk, hbefore, ⟨rest, hrest⟩, hoffset, -⟩ :=
    locate_standsIn hline hflaw
  rw [String.toList_ofList] at hraw hbefore hrest
  refine ⟨bytes, text, raw, rest, n, k, utf8Length before, hread, hdecode, hraw, hnumber, hplace,
    hk, ?_, ?_, drop_isPrefix_of_standsIn hraw hbefore hrest.symm⟩
  · rw [hoffset, utf8ByteSize_ofList]
  · rw [← utf8Length_append]
    refine decodeUtf8_append ?_
    rw [List.append_assoc, hrest, markOf_append_dropMark, hdecode]

/-- Behind a byte order mark the reported offset is three bytes short of the verb that it is
    about. -/
theorem loadScriptFile_malformed_marked :
    let path := Path.ofString "x.sabi"
    let written := "SCENE a\n    (Nayu dances)\nCURTAIN\n".toList.map (·.toUInt8)
    let files := ({} : FileTree).write path (.file ([0xef, 0xbb, 0xbf] ++ written))
    let e : SyntaxError := ⟨.unknownVerb "actor 'Nayu'", some "x.sabi", 2, 11, 18, "dances"⟩
    loadScriptFile files path = .error (.compile (.malformed e)) ∧
      ∃ (bytes : List UInt8) (text raw rest : List Char) (n k offset : Nat),
        files.read path = .ok bytes ∧ decodeUtf8 bytes = .ok text ∧
        (splitAtEach '\n' (dropMark text))[n]? = some raw ∧ e.line = n + 1 ∧
        e.column = k + 1 ∧ k ≤ (dropReturn raw).length ∧ e.offset = offset ∧
        decodeUtf8 (bytes.drop (utf8Length (markOf text) + offset)) = .ok rest ∧
        (dropReturn raw).drop k <+: rest := by
  intro path written files e
  have hload : loadScriptFile files path = .error (.compile (.malformed e)) :=
    eq_error_of_errorOf? (by decide +kernel)
  exact ⟨hload, loadScriptFile_malformed hload (by decide)⟩

end VisualNovel
