import Lox.Text.Grapheme
/-!
What a line editor reading from a pipe makes of the backspaces in a line. The line is cut into
extended grapheme clusters; each cluster is kept, except that a backspace removes the bytes of
the last kept cluster. The editor notes each cluster's size in bytes in one byte, so a cluster of
256 bytes or more is noted modulo 256 and only that many bytes of it go. When the bytes removed
would end inside a character the editor stops the program instead (`none`). A line without a
backspace comes out as it went in (`apply_of_no_backspace`).
-/
namespace Lox.Backspace

/-- The backspace character. -/
def mark : Char := '\x08'

/-- The size a cluster is noted with: its UTF-8 length modulo 256. -/
def notedSize (g : List Char) : Nat := g.foldr (fun c n => c.utf8Size + n) 0 % 256

/-- Removes bytes from the end of a text given reversed; `none` if a character would be cut. -/
def dropBytes : Nat → List Char → Option (List Char)
  | 0, out => some out
  | _ + 1, [] => none
  | n + 1, c :: out =>
    if c.utf8Size ≤ n + 1 then dropBytes (n + 1 - c.utf8Size) out else none

/-- Edits the clusters of a line into the kept text (reversed), given the sizes of the clusters
kept so far, latest first. -/
def edit : List (List Char) → List Char → List Nat → Option (List Char)
  | [], out, _ => some out
  | g :: gs, out, sizes =>
    if g = [mark] then
      match sizes with
      | [] => edit gs out []
      | n :: ns => (dropBytes n out).bind fun out => edit gs out ns
    else edit gs (g.reverse ++ out) (notedSize g :: sizes)

/-- A line after its backspaces, or `none` if the editor stops. -/
def apply (line : String) : Option String :=
  if line.contains mark then
    (edit (Grapheme.clusters line.toList) [] []).map fun out => String.ofList out.reverse
  else some line

theorem apply_of_no_backspace (line : String) (h : line.contains mark = false) :
    apply line = some line := by
  simp [apply, h]

end Lox.Backspace
