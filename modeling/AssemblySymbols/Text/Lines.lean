/-! Lines of a text. A line feed ends a line, with the carriage return right before it, and the
text after the last one is a line only if it is not empty. -/
namespace AssemblySymbols.Text

/-- A line without the carriage return it may end in. -/
def dropReturn (line : List Char) : List Char :=
  match line.getLast? with
  | some '\r' => line.dropLast
  | _ => line

/-- The lines that remain, `line` being the characters read of the present one, last first. -/
def linesAfter (line : List Char) : List Char → List (List Char)
  | [] => if line.isEmpty then [] else [line.reverse]
  | '\n' :: rest => dropReturn line.reverse :: linesAfter [] rest
  | c :: rest => linesAfter (c :: line) rest

def lines (text : List Char) : List (List Char) := linesAfter [] text

end AssemblySymbols.Text
