import Mathlib
import Reckon.Session
import Reckon.Proofs.Utf8

set_option autoImplicit false

/-!
# Line breaks from the input file to the server

The client reads its input text, from a text file or from the member an archive gives, with
`Input.readText`, which turns a carriage return, alone or before a line feed, into a line feed. It
sends the text encoded as UTF-8, and the server decodes it and cuts it into lines. Cutting into
lines already reads a carriage return, alone or before a line feed, as one line break, so the
translation merges, splits and loses no line (`Text.linesOf_unifyNewlines`), and decoding gives the
sent text back. The server therefore evaluates the expressions of the file's own text
(`sent_text_keeps_expressions`).
-/

namespace Reckon

namespace Text

/-- A line feed ends a line: the lines of a text that starts with one are an empty line, then
the lines of the rest. -/
theorem linesOf_newline (cs : List Char) : linesOf ('\n' :: cs) = [] :: linesOf cs := by
  simp [linesOf, isLineBreak]

theorem linesOf_unifyNewlines (cs : List Char) : linesOf (unifyNewlines cs) = linesOf cs := by
  fun_induction unifyNewlines cs with
  | case1 => rfl
  | case2 cs ih => rw [linesOf_newline, ih, linesOf]
  | case3 cs hcs ih =>
    -- a carriage return not followed by a line feed ends a line by itself
    rw [linesOf_newline, ih]
    cases cs with
    | nil => simp [linesOf, isLineBreak]
    | cons c cs =>
      have hc : c ≠ '\n' := fun h => hcs cs (by rw [h])
      simp [linesOf, isLineBreak, hc]
  | case4 c cs hcrlf hcr ih =>
    -- any other character is read the same way in both texts
    rw [linesOf.eq_3 c _ (fun _ h => absurd h hcr),
      linesOf.eq_3 c cs hcrlf, ih]

end Text

/-- The text of a UTF-8 file reaches the server with its lines, and so its expressions, unchanged:
the client reads it with its carriage returns turned into line feeds and sends that, the server
decodes the bytes back into the same text, and its lines, trimmed and with the empty ones left out,
are those of the file's own text. -/
theorem sent_text_keeps_expressions (text : String) :
    ∃ content, Input.readText text.toUTF8 = .ok content ∧
      Batch.receive content.toUTF8 = .ok content ∧ Text.lines content = Text.lines text ∧
        Batch.expressions content = Batch.expressions text := by
  have hlines : Text.lines (String.ofList (Text.unifyNewlines text.toList)) = Text.lines text := by
    rw [Text.lines, String.toList_ofList, Text.linesOf_unifyNewlines, Text.lines]
  refine ⟨String.ofList (Text.unifyNewlines text.toList), ?_, ?_, hlines, ?_⟩
  · rw [Input.readText, (Text.decodeUtf8_eq_ok_iff _ _).2 rfl]
  · rw [Batch.receive, (Text.decodeUtf8_eq_ok_iff _ _).2 rfl]
  · rw [Batch.expressions, hlines, Batch.expressions]

end Reckon
