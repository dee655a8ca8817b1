import Sahabino.Lib.PyText

/-!
# Lines of Python texts

`str.splitlines`: a text is cut at every line boundary, `\r\n` counts as
one, and nothing is left behind a boundary at the very end.
-/

namespace Py

def isBreak (c : Char) : Bool :=
  [0xA, 0xB, 0xC, 0xD, 0x1C, 0x1D, 0x1E, 0x85, 0x2028, 0x2029].contains c.toNat

/-- The lines of what follows `line`, which has been read already. -/
def linesFrom (line : List Char) : List Char → List (List Char)
  | [] => if line = [] then [] else [line]
  | '\r' :: '\n' :: rest => line :: linesFrom [] rest
  | c :: rest => if isBreak c then line :: linesFrom [] rest else linesFrom (line ++ [c]) rest

def splitLines (s : List Char) : List (List Char) := linesFrom [] s

/-- `text.splitlines()` -/
def textLines (text : String) : List String := (splitLines text.toList).map String.ofList

end Py
