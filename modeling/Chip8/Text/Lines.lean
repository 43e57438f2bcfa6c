/-
The lines of a text. A line ends at any of the characters and pairs that separate lines; what stands
after the last of them is a line only if it is not empty.
-/

namespace Chip8.Lines

/-- The characters that end a line: feeds, returns, the information separators, the next-line
control and the line and paragraph separators. -/
def isEnd (c : Char) : Bool :=
  ['\n', '\r', '\x0b', '\x0c', '\x1c', '\x1d', '\x1e', '\u0085', '\u2028', '\u2029'].contains c

/-- The lines of the characters to come, after the characters of the present line, latest first. -/
def splitFrom (line : List Char) : List Char → List (List Char)
  | [] => if line.isEmpty then [] else [line.reverse]
  | '\r' :: '\n' :: r => line.reverse :: splitFrom [] r
  | c :: r => if isEnd c then line.reverse :: splitFrom [] r else splitFrom (c :: line) r

def split (s : String) : List String := (splitFrom [] s.toList).map String.ofList

end Chip8.Lines
