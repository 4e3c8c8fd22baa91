import Lexer.Text.Lines

/-! # Lines of composed texts

A text that ends with a line feed has the same lines whatever follows it, and **ended lines**, each with a
carriage return and a line feed behind it, are the lines of the text they make up.  A carriage return at the
end of a line is safe there, since only the one in front of the line feed is dropped. -/

namespace Lexer.Text

/-- Dropping a carriage return adds no character. -/
theorem mem_of_mem_dropReturn {c : Char} {line : Text} (member : c ∈ dropReturn line) : c ∈ line := by
  rw [dropReturn] at member
  split at member
  · exact List.dropLast_subset line member
  · exact member

/-- Lines hold no line feed if the start of the first one does not. -/
theorem feed_not_mem_linesFrom {current text line : Text} (free : '\n' ∉ current)
    (member : line ∈ linesFrom current text) : '\n' ∉ line := by
  induction text generalizing current with
  | nil =>
      rw [linesFrom] at member
      split at member
      · exact absurd member List.not_mem_nil
      · obtain rfl := List.mem_singleton.1 member
        rwa [List.mem_reverse]
  | cons c text ih =>
      rw [linesFrom] at member
      split at member
      · rcases List.mem_cons.1 member with rfl | later
        · intro feed
          have inside := mem_of_mem_dropReturn feed
          rw [List.mem_reverse] at inside
          exact free inside
        · exact ih List.not_mem_nil later
      · next noFeed =>
          refine ih ?_ member
          rw [List.mem_cons, not_or]
          exact ⟨fun same => noFeed same.symm, free⟩

/-- **A line holds no line feed.** -/
theorem feed_not_mem_of_mem_lines {text line : Text} (member : line ∈ lines text) : '\n' ∉ line :=
  feed_not_mem_linesFrom List.not_mem_nil member

/-- **A text that ends with a line feed**, or an empty one, has its lines in front of those of any text. -/
theorem lines_append_of_ends {text : Text} (ends : text = [] ∨ text.getLast? = some '\n')
    (rest : Text) : lines (text ++ rest) = lines text ++ lines rest := by
  rcases ends with rfl | last
  · rw [List.nil_append, lines_nil, List.nil_append]
  · obtain ⟨before, rfl⟩ := List.getLast?_eq_some_iff.1 last
    rw [List.append_assoc, List.singleton_append, lines_append]

/-- **An ended line** has a carriage return and a line feed behind it. -/
def ended (line : Text) : Text :=
  line ++ ['\r', '\n']

/-- The characters of a line stay together up to its end. -/
theorem linesFrom_line {line : Text} (free : '\n' ∉ line) (current rest : Text) :
    linesFrom current (line ++ rest) = linesFrom (line.reverse ++ current) rest := by
  induction line generalizing current with
  | nil => rfl
  | cons c line ih =>
      rw [List.mem_cons, not_or] at free
      rw [List.cons_append, linesFrom, if_neg (Ne.symm free.1), ih free.2, List.reverse_cons,
        List.append_assoc, List.singleton_append]

/-- An ended line comes in front of the others. -/
theorem lines_ended_append {line : Text} (free : '\n' ∉ line) (rest : Text) :
    lines (ended line ++ rest) = line :: lines rest := by
  have dropped : dropReturn ('\r' :: line.reverse).reverse = line := by
    rw [List.reverse_cons, List.reverse_reverse, dropReturn, List.getLast?_concat, if_pos rfl,
      List.dropLast_concat]
  rw [lines, ended, List.append_assoc, linesFrom_line free, List.append_nil, List.cons_append,
    linesFrom, if_neg (by decide), List.singleton_append, linesFrom, if_pos rfl, dropped, lines]

/-- **Ended lines** are the lines of the text they make up. -/
theorem lines_flatMap_ended {all : List Text} (free : ∀ line ∈ all, '\n' ∉ line) :
    lines (all.flatMap ended) = all := by
  induction all with
  | nil => rfl
  | cons line all ih =>
      rw [List.forall_mem_cons] at free
      rw [List.flatMap_cons, lines_ended_append free.1, ih free.2]

end Lexer.Text
