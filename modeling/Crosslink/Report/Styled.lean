import Crosslink.Text.Basic

/-!
# Reports on a terminal

Reports are written in Markdown. On a terminal their heading lines are
shown in bold, and every line ends in a line feed.
-/

namespace Crosslink

def boldLine (line : List Char) : List Char :=
  "\x1b[1m".toList ++ line ++ "\x1b[0m".toList

/-- A line of a report as it is shown. -/
def styledLine : List Char → List Char
  | '#' :: line => boldLine ('#' :: line)
  | line => line

def styled (report : String) : String :=
  String.ofList
    ((Text.lines report.toList).flatMap fun line => styledLine line ++ ['\n'])

end Crosslink
