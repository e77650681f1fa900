import AssemblySymbols.Ignore.Pattern
import AssemblySymbols.Text.Blank
import AssemblySymbols.Text.Lines

/-! The lines of an ignore file. Of the lines that apply to a path the last one decides. -/
namespace AssemblySymbols

inductive IgnoreVerdict where
  | ignored
  | kept
deriving DecidableEq, Repr

structure IgnoreRule where
  pattern : IgnorePattern
  verdict : IgnoreVerdict
  onlyDirectories : Bool

namespace IgnoreRule

def applies (rule : IgnoreRule) (path : String) (isDirectory : Bool) : Bool :=
  (!rule.onlyDirectories || isDirectory) && rule.pattern.accepts path

/-- Trailing white space is no part of a line, unless its last character is an escaped space. -/
def trimLine (line : List Char) : List Char :=
  match line.reverse with
  | ' ' :: '\\' :: _ => line
  | _ => Text.trimEnd line

/-- A line without the marks at its head: that it keeps paths, and that it starts at its directory. -/
def splitMarks (line : List Char) : IgnoreVerdict × Bool × List Char :=
  match line with
  | '\\' :: '!' :: rest => (.ignored, false, '!' :: rest)
  | '\\' :: '#' :: rest => (.ignored, false, '#' :: rest)
  | '!' :: '/' :: rest => (.kept, true, rest)
  | '!' :: rest => (.kept, false, rest)
  | '/' :: rest => (.ignored, true, rest)
  | _ => (.ignored, false, line)

/-- A slash at the end, which may be escaped, restricts a line to directories. -/
def splitSlash (line : List Char) : Bool × List Char :=
  match line.reverse with
  | '/' :: '\\' :: rest => (true, rest.reverse)
  | '/' :: rest => (true, rest.reverse)
  | _ => (false, line)

/-- The whole pattern of a line: without a slash it applies at any depth, and two stars at the end
leave out the directory itself. -/
def complete (anchored : Bool) (text : List Char) : List Char :=
  let text :=
    if anchored || text.contains '/' || text = ['*', '*'] then text else '*' :: '*' :: '/' :: text
  if ['*', '*', '/'].isPrefixOf text.reverse then text ++ ['/', '*'] else text

/-- The rule that a line writes. Blank lines, comments and faulty patterns write none. -/
def parse? (line : List Char) : Option IgnoreRule :=
  if line.head? = some '#' then none
  else match trimLine line with
    | [] => none
    | line =>
      let (verdict, anchored, line) := splitMarks line
      let (onlyDirectories, line) := splitSlash line
      (IgnorePattern.parse? (complete anchored line)).map fun pattern =>
        ⟨pattern, verdict, onlyDirectories⟩

end IgnoreRule

abbrev IgnoreRules := List IgnoreRule

namespace IgnoreRules

/-- The decoded lines of a file up to the first that is no text. -/
def readableLines (symbols : List (Option Char)) : List (List Char) :=
  let readable := (symbols.takeWhile Option.isSome).filterMap id
  let lines := Text.lines readable
  if symbols.all Option.isSome || readable.getLast? = some '\n' then lines else lines.dropLast

/-- A byte order mark at the head of a file is no part of its first line. -/
def ofSymbols (symbols : List (Option Char)) : IgnoreRules :=
  match readableLines symbols with
  | [] => []
  | first :: rest => (first.dropWhile (· == '\uFEFF') :: rest).filterMap IgnoreRule.parse?

/-- The verdict on a path relative to the directory of the rules. -/
def verdict? (rules : IgnoreRules) (path : String) (isDirectory : Bool) : Option IgnoreVerdict :=
  (rules.reverse.find? (·.applies path isDirectory)).map IgnoreRule.verdict

end IgnoreRules
end AssemblySymbols
