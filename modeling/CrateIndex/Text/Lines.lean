import CrateIndex.Text.Basic

/-!
# Lines

A line ends at a line feed, at a carriage return, or at the two in that order, and at nothing else.
-/

namespace CrateIndex.Text

/-- The text with every line end written as a line feed. -/
def unifyLineEnds : Text → Text
  | [] => []
  | c :: s =>
    if c = '\r' then
      match s with
      | [] => ['\n']
      | d :: rest =>
        if d = '\n' then CodePoint.ofChar '\n' :: unifyLineEnds rest
        else CodePoint.ofChar '\n' :: unifyLineEnds (d :: rest)
    else c :: unifyLineEnds s

/-- The lines of a text. After the last line end one more line follows, which may be empty. -/
def lines (s : Text) : List Text := splitOn '\n' (unifyLineEnds s)

end CrateIndex.Text
