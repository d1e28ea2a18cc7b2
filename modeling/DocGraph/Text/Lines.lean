/-!
Lines of a text. A line ends at a newline, or at a carriage return directly before one; the text
after the last newline is a line of its own unless it is empty.
-/
namespace DocGraph.Text

def lines : List Char → List (List Char)
  | [] => []
  | '\r' :: '\n' :: rest => [] :: lines rest
  | '\n' :: rest => [] :: lines rest
  | c :: rest =>
      match lines rest with
      | [] => [[c]]
      | line :: later => (c :: line) :: later

def joinLines (parts : List (List Char)) : List Char := ['\n'].intercalate parts

theorem lines_eq_nil {cs : List Char} (empty : lines cs = []) : cs = [] := by
  unfold lines at empty
  split at empty
  · rfl
  · cases empty
  · cases empty
  · split at empty <;> cases empty

end DocGraph.Text
