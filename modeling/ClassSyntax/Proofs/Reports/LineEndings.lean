import ClassSyntax.Report
import ClassSyntax.Verdict
import ClassSyntax.Proofs.Lexing.LineEndings
import ClassSyntax.Proofs.Records.Accounting
import ClassSyntax.Proofs.Reports.SourceLines

/-!
# Line ends make no difference

A carriage return in front of each newline changes nothing that is made of a text: not its tokens and what the
parser says about them, not the lines that reports show, and not the records that are read from it.

* `Text.map_trim_lines`: the lines of both texts, without the blanks around them.
* `Fault.report_withReturns`: reports show lines without blanks.
* `Record.readAll_withReturns`: records are read from lines without blanks.
* `withReturns_unseen`: all of this for one text.
-/

namespace ClassSyntax

/-! ## Lines without blanks -/

namespace Text

/-- A blank at the end is trimmed. -/
theorem trim_concat {c : Char} (blank : isBlank c = true) (text : List Char) :
    trim (text ++ [c]) = trim text := by
  have atEnd (front : List Char) : trimEnd (front ++ [c]) = trimEnd front := by
    rw [trimEnd, List.reverse_concat, List.dropWhile_cons_of_pos blank, ← trimEnd]
  unfold trim trimStart
  rw [List.dropWhile_append]
  split
  · rename_i empty
    rw [List.isEmpty_iff.mp empty, List.dropWhile_cons_of_pos blank, List.dropWhile_nil]
  · exact atEnd _

theorem trim_dropReturn (line : List Char) :
    trim (dropReturn line).reverse = trim line.reverse := by
  unfold dropReturn
  split
  · rw [List.reverse_cons, trim_concat (by decide)]
  · rfl

theorem map_trim_linesFrom (current text : List Char) :
    (linesFrom current [] (withReturns text)).map trim = (linesFrom current [] text).map trim := by
  induction text generalizing current with
  | nil => rfl
  | cons c text ih =>
      by_cases newline : c = '\n'
      · subst newline
        have returned : linesFrom current [] ('\r' :: '\n' :: withReturns text) =
            current.reverse :: lines (withReturns text) :=
          linesFrom_newline ('\r' :: current) (withReturns text)
        rw [withReturns_newline, returned, linesFrom_newline, List.map_cons, List.map_cons,
          trim_dropReturn, lines, lines, ih]
      · rw [withReturns_cons newline, linesFrom, linesFrom, if_neg newline, if_neg newline, ih]

/-- The lines are the same but for blanks at their ends. -/
theorem map_trim_lines (text : List Char) :
    (lines (withReturns text)).map trim = (lines text).map trim := map_trim_linesFrom [] text

theorem map_trim_line? (text : List Char) (number : UInt32) :
    (line? (withReturns text) number).map trim = (line? text number).map trim := by
  unfold line?
  split
  · rfl
  · rw [← List.getElem?_map, ← List.getElem?_map, map_trim_lines]

end Text

theorem toList_withReturns (source : String) :
    (withReturns source).toList = Text.withReturns source.toList := String.toList_ofList

/-! ## Reports -/

namespace Fault

/-- A report shows its line without blanks. -/
theorem excerpt_eq (fault : Fault) (content : String) :
    fault.excerpt content =
      match (Text.line? content.toList fault.line).map Text.trim with
      | none => fault.render ++ "\n"
      | some shown =>
          let number := toString fault.line.toNat
          gutter number ++ "\n" ++ number ++ " | " ++ String.ofList shown ++ "\n" ++
            gutter number ++ "\n" := by
  unfold excerpt
  cases Text.line? content.toList fault.line <;> rfl

theorem report_withReturns (fault : Fault) (content path : String) :
    fault.report (withReturns content) path = fault.report content path := by
  rw [report, report, excerpt_eq, excerpt_eq, toList_withReturns, Text.map_trim_line?]

end Fault

/-! ## Records -/

namespace Record

theorem entries_withReturns (text : String) : entries (withReturns text) = entries text := by
  rw [entries, entries, entriesFrom, entriesFrom, toList_withReturns, Text.map_trim_lines]

theorem readAll_withReturns (text : String) : readAll (withReturns text) = readAll text := by
  rw [readAll_eq, readAll_eq, entries_withReturns]

end Record

/-! ## A whole text -/

/-- A carriage return in front of each newline of a text changes nothing of its tokens, of the verdict on them,
of what is reported with the text, and of what is read from it as records. -/
theorem withReturns_unseen (text : String) :
    tokenize (withReturns text) = tokenize text ∧
      checkSource (withReturns text) = checkSource text ∧
      (∀ (fault : Fault) path, fault.report (withReturns text) path = fault.report text path) ∧
      Record.readAll (withReturns text) = Record.readAll text := by
  have same := tokenize_withReturns text
  exact ⟨same, congrArg check same, fun fault path => fault.report_withReturns text path,
    Record.readAll_withReturns text⟩

end ClassSyntax
