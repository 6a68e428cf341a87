import Abacus.Text.Blank

/-!
# Lines

A text is cut into lines at line feeds, carriage returns (a carriage return before a line feed
belongs to it) and eight further separators.

* `Text.lines`: the lines, without their ends; a text that ends with a separator has no empty last
  line.
* `Text.entries`: the lines trimmed, without those that are blank.
* `Text.normalizeNewlines`: every newline of a file read as text is a line feed.
-/

namespace Abacus

namespace CodePoint

/-- The code points that end a line. -/
def isLineBreak (c : CodePoint) : Bool :=
  (0xA ≤ c.val && c.val ≤ 0xD) || (0x1C ≤ c.val && c.val ≤ 0x1E) || c.val = 0x85 ||
    c.val = 0x2028 || c.val = 0x2029

end CodePoint

namespace Text

/-- Carriage returns, and those before a line feed together with it, become line feeds. -/
def normalizeNewlines : Text → Text
  | [] => []
  | c :: rest =>
    if c = '\r' then
      CodePoint.ofChar '\n' ::
        (match rest with
         | [] => []
         | d :: tail => if d = '\n' then normalizeNewlines tail else normalizeNewlines (d :: tail))
    else c :: normalizeNewlines rest

/-- The lines of a text whose carriage returns all stand alone. -/
def cutLines : Text → List Text
  | [] => []
  | c :: rest =>
    if c.isLineBreak then [] :: cutLines rest
    else
      match cutLines rest with
      | [] => [[c]]
      | line :: lines => (c :: line) :: lines

/-- The lines of a text. -/
def lines (t : Text) : List Text := cutLines (normalizeNewlines t)

/-- The lines of a text, trimmed, without those that are blank. -/
def entries (t : Text) : List Text := (t.lines.map Text.trim).filter fun line => !line.isEmpty

end Text

end Abacus
