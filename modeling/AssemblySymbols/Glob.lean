/-! Glob patterns for paths. A star, a question mark and a class stand for slashes like for any other
character; two stars form a component of their own and stand for any number of directories. -/
namespace AssemblySymbols

namespace Glob

/-- A character of a class, or all between two. -/
inductive Specifier where
  | single (c : Char)
  | range (first last : Char)
deriving DecidableEq, Repr

inductive Token where
  | literal (c : Char)
  | anyChar
  | anySequence
  /-- Nothing, or a text that ends in a slash; at the end of a pattern any text. -/
  | anyDirectories
  | oneOf (specifiers : List Specifier)
  | noneOf (specifiers : List Specifier)
deriving DecidableEq, Repr

inductive SyntaxCause where
  | starRun
  | partOfComponent
  | unclosedClass
deriving DecidableEq, Repr

/-- A text that is no pattern, with the character at which this shows. -/
structure SyntaxError where
  cause : SyntaxCause
  position : Nat
deriving DecidableEq, Repr

def SyntaxCause.message : SyntaxCause → String
  | starRun => "wildcards are either regular `*` or recursive `**`"
  | partOfComponent => "recursive wildcards must form a single path component"
  | unclosedClass => "invalid range pattern"

def SyntaxError.message (error : SyntaxError) : String :=
  "Pattern syntax error near position " ++ toString error.position ++ ": " ++ error.cause.message

namespace Specifier

def contains : Specifier → Char → Bool
  | single c, d => c == d
  | range first last, d => first ≤ d && d ≤ last

/-- The specifiers that the text of a class writes. A hyphen between two characters makes a range. -/
def ofText : List Char → List Specifier
  | first :: '-' :: last :: rest => range first last :: ofText rest
  | c :: rest => single c :: ofText rest
  | [] => []

end Specifier

/-- The text of a class behind its opening bracket, which holds at least one character of whatever
kind, and what follows the closing bracket. -/
def splitClass? : List Char → Option (List Char × List Char)
  | [] => none
  | first :: rest =>
    match rest.dropWhile (· != ']') with
    | [] => none
    | _ :: after => some (first :: rest.takeWhile (· != ']'), after)

theorem splitClass?_length {text inside after : List Char}
    (found : splitClass? text = some (inside, after)) : after.length < text.length := by
  cases text with
  | nil => simp [splitClass?] at found
  | cons first rest =>
    have shorter := (List.dropWhile_suffix (l := rest) (· != ']')).length_le
    simp only [splitClass?] at found
    split at found
    · simp at found
    · next closing tail split =>
      simp only [Option.some.injEq, Prod.mk.injEq] at found
      obtain ⟨-, rfl⟩ := found
      rw [split] at shorter
      simp only [List.length_cons] at shorter ⊢
      omega

/-- A class in a pattern, behind its opening bracket. -/
def readClass? : List Char → Option (Token × List Char)
  | '!' :: rest =>
    match splitClass? rest with
    | some (inside, after) => some (.noneOf (Specifier.ofText inside), after)
    | none => none
  | text =>
    match splitClass? text with
    | some (inside, after) => some (.oneOf (Specifier.ofText inside), after)
    | none => none

theorem readClass?_length {text after : List Char} {token : Token}
    (found : readClass? text = some (token, after)) : after.length < text.length := by
  unfold readClass? at found
  split at found
  · split at found
    · next split =>
      have := splitClass?_length split
      simp only [Option.some.injEq, Prod.mk.injEq] at found
      simp only [List.length_cons, ← found.2]
      omega
    · simp at found
  · split at found
    · next split =>
      have := splitClass?_length split
      simp only [Option.some.injEq, Prod.mk.injEq] at found
      simpa only [← found.2] using this
    · simp at found

/-- Reads a pattern from a position on, `before` being the character in front of it. -/
def parseFrom (position : Nat) (before : Option Char) (text : List Char) :
    Except SyntaxError (List Token) :=
  match text with
  | [] => .ok []
  | '?' :: rest => do
    pure (.anyChar :: (← parseFrom (position + 1) (some '?') rest))
  | '*' :: '*' :: '*' :: _ => throw ⟨.starRun, position + 2⟩
  | '*' :: '*' :: rest =>
    if before.all (· == '/') then
      match rest with
      | [] => .ok [.anyDirectories]
      | '/' :: rest => do
        pure (.anyDirectories :: (← parseFrom (position + 3) (some '/') rest))
      | _ => throw ⟨.partOfComponent, position + 2⟩
    else throw ⟨.partOfComponent, position - 1⟩
  | '*' :: rest => do
    pure (.anySequence :: (← parseFrom (position + 1) (some '*') rest))
  | '[' :: rest =>
    match found : readClass? rest with
    | none => throw ⟨.unclosedClass, position⟩
    | some (token, after) => do
      have : after.length < rest.length := readClass?_length found
      pure (token :: (← parseFrom (position + (rest.length - after.length) + 1) (some ']') after))
  | c :: rest => do
    pure (.literal c :: (← parseFrom (position + 1) (some c) rest))
termination_by text.length

end Glob

/-- A pattern, as the sequence of what it stands for. -/
structure Glob where
  tokens : List Glob.Token
deriving DecidableEq, Repr

namespace Glob

def parse (text : String) : Except SyntaxError Glob := do
  pure ⟨← parseFrom 0 none text.toList⟩

/-- The ends of a text, the text itself included, longest first. -/
def tails : List Char → List (List Char)
  | [] => [[]]
  | c :: rest => (c :: rest) :: tails rest

/-- The ends of a text behind each of its slashes. -/
def tailsBehindSlash : List Char → List (List Char)
  | [] => []
  | c :: rest => if c = '/' then rest :: tailsBehindSlash rest else tailsBehindSlash rest

def matchesTokens : List Token → List Char → Bool
  | [], text => text.isEmpty
  | .anySequence :: tokens, text => (tails text).any (matchesTokens tokens)
  | .anyDirectories :: tokens, text =>
    matchesTokens tokens text || (tailsBehindSlash text).any (matchesTokens tokens) ||
      matchesTokens tokens []
  | .literal d :: tokens, c :: text => c == d && matchesTokens tokens text
  | .anyChar :: tokens, _ :: text => matchesTokens tokens text
  | .oneOf specifiers :: tokens, c :: text =>
    specifiers.any (·.contains c) && matchesTokens tokens text
  | .noneOf specifiers :: tokens, c :: text =>
    !specifiers.any (·.contains c) && matchesTokens tokens text
  | _ :: _, [] => false

def accepts (glob : Glob) (text : String) : Bool := matchesTokens glob.tokens text.toList

end Glob
end AssemblySymbols
