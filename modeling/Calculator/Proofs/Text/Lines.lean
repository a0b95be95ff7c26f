import Calculator.Text.Blank
import Mathlib.Data.List.TakeWhile

/-!
# Lines

A text is cut into lines by the rule that line editors follow as well, whether
its last line is ended by a line feed or not, and the rule leaves nothing open.
-/

namespace Calculator
namespace Text

/-- Lines that were cut off before stand in front of the others. -/
theorem cutLines_before (current : List Char) (before : List String)
    (characters : List Char) :
    cutLines current before characters =
      before.reverse ++ cutLines current [] characters := by
  induction characters generalizing current before with
  | nil =>
      simp only [cutLines]
      split <;> simp
  | cons first rest induction =>
      by_cases feed : first = '\n'
      · subst feed
        simp only [cutLines]
        rw [induction, induction [] [_]]
        simp
      · rw [cutLines, cutLines, induction]
        · exact feed
        · exact feed

/-- Characters without a line feed belong to the current line. -/
theorem cutLines_append {line : List Char} (unbroken : '\n' ∉ line)
    (current rest : List Char) :
    cutLines current [] (line ++ rest) =
      cutLines (line.reverse ++ current) [] rest := by
  induction line generalizing current with
  | nil => rfl
  | cons first line induction =>
      rw [List.mem_cons, not_or] at unbroken
      rw [List.cons_append, cutLines, induction unbroken.2, List.reverse_cons,
        List.append_assoc, List.singleton_append]
      exact fun feed => unbroken.1 feed.symm

/-- What ends a line is dropped: a line feed and one carriage return before it.
-/
theorem lines_append_feed {line : String} (unbroken : '\n' ∉ line.toList)
    (rest : String) :
    lines (line ++ "\n" ++ rest) =
      String.ofList (dropReturn line.toList.reverse).reverse :: lines rest := by
  have feed_eq : (line ++ "\n" ++ rest).toList =
      line.toList ++ '\n' :: rest.toList := by
    simp
  rw [lines, feed_eq, cutLines_append unbroken, List.append_nil, cutLines,
    cutLines_before]
  rfl

theorem dropReturn_eq_self {line : List Char}
    (plain : line.head? ≠ some '\r') : dropReturn line = line := by
  unfold dropReturn
  split
  · exact absurd rfl plain
  · rfl

/-- A rule for the lines of an input, as line editors follow it: each line is
yielded without the line feed that ends it, or without the carriage return and
the line feed.  What follows the last line feed is a line unless it is empty. -/
structure YieldsLines (editor : String → List String) : Prop where
  nothing : editor "" = []
  last : ∀ line, line ≠ "" → '\n' ∉ line.toList → editor line = [line]
  feed : ∀ line rest, '\n' ∉ line.toList → line.toList.getLast? ≠ some '\r' →
    editor (line ++ "\n" ++ rest) = line :: editor rest
  returnFeed : ∀ line rest, '\n' ∉ line.toList →
    editor (line ++ "\r\n" ++ rest) = line :: editor rest

theorem yieldsLines_lines : YieldsLines lines where
  nothing := rfl
  last line notEmpty unbroken := by
    have cut := cutLines_append unbroken [] []
    rw [List.append_nil, List.append_nil] at cut
    simp [lines, cut, cutLines, notEmpty]
  feed line rest unbroken plain := by
    rw [← List.head?_reverse] at plain
    rw [lines_append_feed unbroken, dropReturn_eq_self plain]
    simp
  returnFeed line rest unbroken := by
    have whole : line ++ "\r\n" ++ rest = line ++ "\r" ++ "\n" ++ rest := by
      simp [String.append_assoc]
    rw [whole, lines_append_feed (by simpa using unbroken)]
    simp [dropReturn]

/-- Every text is empty, a line that nothing ends, or a line that is ended in one
of the two ways. -/
theorem exists_line (text : String) :
    text = "" ∨ text ≠ "" ∧ '\n' ∉ text.toList ∨
      ∃ line rest, '\n' ∉ line.toList ∧
        (text = line ++ "\n" ++ rest ∧ line.toList.getLast? ≠ some '\r' ∨
          text = line ++ "\r\n" ++ rest) := by
  have whole := text.toList.takeWhile_append_dropWhile (p := (· != '\n'))
  have unbroken : '\n' ∉ text.toList.takeWhile (· != '\n') := by
    intro feed
    have different := List.mem_takeWhile_imp feed
    simp at different
  have ended := text.toList.head?_dropWhile_not (· != '\n')
  generalize text.toList.takeWhile (· != '\n') = line,
    text.toList.dropWhile (· != '\n') = later at whole unbroken ended
  cases later with
  | nil =>
      rw [List.append_nil] at whole
      rw [whole] at unbroken
      by_cases isEmpty : text = ""
      · exact .inl isEmpty
      · exact .inr (.inl ⟨isEmpty, unbroken⟩)
  | cons feed rest =>
      have isFeed : feed = '\n' := by simpa using ended
      subst isFeed
      right
      right
      by_cases returns : line.getLast? = some '\r'
      · obtain ⟨start, rfl⟩ := List.getLast?_eq_some_iff.mp returns
        refine ⟨.ofList start, .ofList rest, ?_, .inr (String.toList_inj.mp ?_)⟩
        · simpa using unbroken
        · simp [← whole]
      · refine ⟨.ofList line, .ofList rest, ?_,
          .inl ⟨String.toList_inj.mp ?_, ?_⟩⟩
        · simpa using unbroken
        · simp [← whole]
        · simpa using returns

/-- The rule leaves nothing open. -/
theorem YieldsLines.unique {editor other : String → List String}
    (yields : YieldsLines editor) (yieldsOther : YieldsLines other) :
    editor = other := by
  funext text
  have feed_length : "\n".length = 1 := rfl
  have returnFeed_length : "\r\n".length = 2 := rfl
  induction size : text.length using Nat.strongRecOn generalizing text with
  | _ length induction =>
  rcases exists_line text with
    rfl | ⟨notEmpty, unbroken⟩ |
      ⟨line, rest, unbroken, ⟨rfl, plain⟩ | rfl⟩
  · rw [yields.nothing, yieldsOther.nothing]
  · rw [yields.last text notEmpty unbroken,
      yieldsOther.last text notEmpty unbroken]
  · have rest_eq : editor rest = other rest :=
      induction rest.length (by simp [← size, feed_length]) rest rfl
    rw [yields.feed line rest unbroken plain,
      yieldsOther.feed line rest unbroken plain, rest_eq]
  · have rest_eq : editor rest = other rest :=
      induction rest.length (by simp [← size, returnFeed_length]) rest rfl
    rw [yields.returnFeed line rest unbroken,
      yieldsOther.returnFeed line rest unbroken, rest_eq]

end Text
end Calculator
