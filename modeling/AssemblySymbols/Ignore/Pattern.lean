import AssemblySymbols.Text.Utf8

/-! The patterns of ignore files. They are held against the bytes of a path; unlike in other patterns
a star stops at a slash, and braces enclose alternatives. -/
namespace AssemblySymbols

namespace IgnorePattern

inductive Token where
  | literal (c : Char)
  /-- One byte that is no slash. -/
  | anyByte
  /-- Any bytes without a slash. -/
  | anyBytes
  /-- Nothing, or directories up to and with a slash. -/
  | leadingDirectories
  /-- A slash and anything. -/
  | everythingBelow
  /-- A slash, or two with anything in between. -/
  | directoriesBetween
  | byteClass (negated : Bool) (ranges : List (Char × Char))
  | oneOf (branches : List (List Token))

/-- Alternatives that are being read, and the tokens of each, last first. -/
structure Branches where
  finished : List (List Token)
  current : List Token

structure Reader where
  inner : Branches
  /-- The alternatives around the inner ones. -/
  outer : List Branches
  /-- A bracket opens a class. This ends with the first bracket that is not closed. -/
  classes : Bool

namespace Reader

def start : Reader := ⟨⟨[], []⟩, [], true⟩

def inBraces (reader : Reader) : Bool := !reader.outer.isEmpty

def push (reader : Reader) (token : Token) : Reader :=
  { reader with inner := { reader.inner with current := token :: reader.inner.current } }

def openBraces (reader : Reader) : Reader :=
  { reader with inner := ⟨[], []⟩, outer := reader.inner :: reader.outer }

/-- Starts the next alternative; outside of braces a comma is a comma. -/
def comma (reader : Reader) : Reader :=
  if reader.inBraces then
    { reader with inner := ⟨reader.inner.current.reverse :: reader.inner.finished, []⟩ }
  else reader.push (.literal ',')

def closeBraces? (reader : Reader) : Option Reader :=
  match reader.outer with
  | [] => none
  | around :: outer =>
    let branches := (reader.inner.current.reverse :: reader.inner.finished).reverse
    some ({ reader with inner := around, outer := outer }.push (.oneOf branches))

/-- Two stars behind a slash take the place of that slash, and join with two stars before it. -/
def replaceLast (reader : Reader) (token : Token) : Reader :=
  match reader.inner.current with
  | .leadingDirectories :: _ | .everythingBelow :: _ | [] => reader
  | _ :: before => { reader with inner := { reader.inner with current := token :: before } }

/-- The tokens read, if all braces are closed. -/
def finish? (reader : Reader) : Option (List Token) :=
  if reader.inBraces then none else some reader.inner.current.reverse

end Reader

inductive ClassReading where
  | closed (ranges : List (Char × Char)) (rest : List Char)
  | unclosed
  | descending

/-- Reads a class behind its opening bracket. `ranges` are those read, last first; `isFirst` says
that nothing has been read yet, and `inRange` that a hyphen has. -/
def readRanges (ranges : List (Char × Char)) (isFirst inRange : Bool) : List Char → ClassReading
  | [] => .unclosed
  | c :: rest =>
    if c = ']' && !isFirst then
      .closed (if inRange then ('-', '-') :: ranges else ranges).reverse rest
    else if c = '-' && !isFirst && !inRange then readRanges ranges false true rest
    else match inRange, ranges with
      | true, (low, _) :: before =>
        if c < low then .descending else readRanges ((low, c) :: before) false false rest
      | _, _ => readRanges ((c, c) :: ranges) false false rest

theorem readRanges_length {ranges closedRanges : List (Char × Char)} {isFirst inRange : Bool}
    {text rest : List Char}
    (closed : readRanges ranges isFirst inRange text = .closed closedRanges rest) :
    rest.length < text.length := by
  induction text generalizing ranges isFirst inRange with
  | nil => simp [readRanges] at closed
  | cons c tail ih =>
    simp only [readRanges] at closed
    split at closed
    · simp only [ClassReading.closed.injEq] at closed
      simp [closed.2]
    · split at closed
      · exact Nat.lt_succ_of_lt (ih closed)
      · split at closed
        · split at closed
          · simp at closed
          · exact Nat.lt_succ_of_lt (ih closed)
        · exact Nat.lt_succ_of_lt (ih closed)

/-- A class is negated by an exclamation mark or a caret. -/
def splitNegation : List Char → Bool × List Char
  | '!' :: rest => (true, rest)
  | '^' :: rest => (true, rest)
  | text => (false, text)

theorem splitNegation_length (text : List Char) : (splitNegation text).2.length ≤ text.length := by
  unfold splitNegation
  split <;> simp

/-- Two stars stand at the start of a component. -/
def startsComponent (reader : Reader) (before : Option Char) : Bool :=
  before == some '/' || (reader.inBraces && (before == some ',' || before == some '{'))

/-- Two stars stand at the end of a component that is the last. -/
def endsPattern (reader : Reader) (rest : List Char) : Bool :=
  match rest.head? with
  | none => true
  | some c => reader.inBraces && (c == ',' || c == '}')

/-- Reads on, `before` being the character in front. -/
def readFrom (reader : Reader) (before : Option Char) (text : List Char) : Option (List Token) :=
  match text with
  | [] => reader.finish?
  | '?' :: rest => readFrom (reader.push .anyByte) (some '?') rest
  | '*' :: '*' :: '/' :: rest =>
    if reader.inner.current.isEmpty then
      readFrom (reader.push .leadingDirectories) (some '/') rest
    else if startsComponent reader before then
      readFrom (reader.replaceLast .directoriesBetween) (some '/') rest
    else readFrom ((reader.push .anyBytes).push .anyBytes) (some '*') ('/' :: rest)
  | '*' :: '*' :: rest =>
    if reader.inner.current.isEmpty && rest.isEmpty then
      readFrom (reader.push .leadingDirectories) (some '*') rest
    else if !reader.inner.current.isEmpty && startsComponent reader before &&
        endsPattern reader rest then
      readFrom (reader.replaceLast .everythingBelow) (some '*') rest
    else readFrom ((reader.push .anyBytes).push .anyBytes) (some '*') rest
  | '*' :: rest => readFrom (reader.push .anyBytes) (some '*') rest
  | '{' :: rest => readFrom reader.openBraces (some '{') rest
  | '}' :: rest =>
    match reader.closeBraces? with
    | none => none
    | some reader => readFrom reader (some '}') rest
  | ',' :: rest => readFrom reader.comma (some ',') rest
  | ['\\'] => none
  | '\\' :: c :: rest => readFrom (reader.push (.literal c)) (some c) rest
  | c :: rest =>
    if c = '[' && reader.classes then
      match closed : readRanges [] true false (splitNegation rest).2 with
      | .closed ranges after =>
        have : after.length < rest.length :=
          Nat.lt_of_lt_of_le (readRanges_length closed) (splitNegation_length rest)
        readFrom (reader.push (.byteClass (splitNegation rest).1 ranges)) (some ']') after
      | .unclosed => readFrom ({ reader with classes := false }.push (.literal '[')) (some '[') rest
      | .descending => none
    else readFrom (reader.push (.literal c)) (some c) rest
termination_by text.length

open Text (Bytes)

def slash : UInt8 := 47

def charBytes (c : Char) : Bytes := Text.encode [c]

def tails : Bytes → List Bytes
  | [] => [[]]
  | b :: rest => (b :: rest) :: tails rest

def tailsBehindSlash : Bytes → List Bytes
  | [] => []
  | b :: rest => if b = slash then rest :: tailsBehindSlash rest else tailsBehindSlash rest

/-- The ends of a text in front of which no slash stands. -/
def tailsOfName : Bytes → List Bytes
  | [] => [[]]
  | b :: rest => if b = slash then [b :: rest] else (b :: rest) :: tailsOfName rest

/-- What the byte class of a range holds. Of characters beyond ASCII the bytes count one by one, and
the range runs from the last byte of its first character to the first byte of its last. -/
def rangeContains (range : Char × Char) (b : UInt8) : Bool :=
  let first := charBytes range.1
  let last := charBytes range.2
  if range.1 = range.2 then first.contains b
  else first.dropLast.contains b || last.tail.contains b ||
    ((first.getLast?.any (· ≤ b)) && last.head?.any (b ≤ ·))

mutual

/-- The token stands for nothing at all. -/
def Token.isVoid : Token → Bool
  | .oneOf branches => areVoidBranches branches
  | _ => false

def areVoid : List Token → Bool
  | [] => true
  | token :: rest => token.isVoid && areVoid rest

def areVoidBranches : List (List Token) → Bool
  | [] => true
  | branch :: rest => areVoid branch && areVoidBranches rest

end

mutual

/-- What may remain of a text behind a part of it that a token stands for. -/
def Token.rests : Token → Bytes → List Bytes
  | .literal c, text => if (charBytes c).isPrefixOf text then [text.drop (charBytes c).length] else []
  | .anyByte, text =>
    match text with
    | b :: rest => if b = slash then [] else [rest]
    | [] => []
  | .anyBytes, text => tailsOfName text
  | .leadingDirectories, text => text :: tailsBehindSlash text
  | .everythingBelow, text =>
    match text with
    | b :: rest => if b = slash then tails rest else []
    | [] => []
  | .directoriesBetween, text =>
    match text with
    | b :: rest => if b = slash then rest :: tailsBehindSlash rest else []
    | [] => []
  | .byteClass negated ranges, text =>
    match text with
    | b :: rest => if ranges.any (rangeContains · b) != negated then [rest] else []
    | [] => []
  | .oneOf branches, text =>
    if areVoidBranches branches then [text] else restsOfBranches branches text

def restsOf : List Token → Bytes → List Bytes
  | [], text => [text]
  | token :: tokens, text => (token.rests text).flatMap (restsOf tokens)

/-- Alternatives that stand for nothing are left out. -/
def restsOfBranches : List (List Token) → Bytes → List Bytes
  | [], _ => []
  | branch :: branches, text =>
    (if areVoid branch then [] else restsOf branch text) ++ restsOfBranches branches text

end

end IgnorePattern

structure IgnorePattern where
  tokens : List IgnorePattern.Token

namespace IgnorePattern

def parse? (text : List Char) : Option IgnorePattern := (readFrom .start none text).map IgnorePattern.mk

/-- Two stars alone stand for everything. -/
def accepts (pattern : IgnorePattern) (path : String) : Bool :=
  match pattern.tokens with
  | [.leadingDirectories] => true
  | tokens => (restsOf tokens (Text.encode path.toList)).any List.isEmpty

end IgnorePattern
end AssemblySymbols
