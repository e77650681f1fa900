import AssemblySymbols.Session.Scan

/-! Questions to a session. The first one initializes it; one that has been cancelled finds nothing. -/
namespace AssemblySymbols.Session

def kindOf? (session : Session) (discovered : Option (List Opening)) (cancelled : Bool)
    (name : String) : Session × Option Kind :=
  let (session, _) := session.ensureInitialized discovered
  (session, if cancelled then none else session.index.kindOf? name)

def definitionsOf (session : Session) (discovered : Option (List Opening)) (cancelled : Bool)
    (name : String) : Session × List Site :=
  let (session, _) := session.ensureInitialized discovered
  (session, if cancelled then [] else session.index.definitionsOf name)

/-- The identifier at a place in a text. -/
def identifierIn? (text : String) (position : Position) : Option Identifier :=
  (lineText? text.toList position.line).bind (identifierAt? · position.character)

/-- The definitions of the identifier at a place in a text. -/
def definitionsAt (session : Session) (discovered : Option (List Opening)) (cancelled : Bool)
    (text : String) (position : Position) : Session × List Site :=
  match identifierIn? text position with
  | some identifier => session.definitionsOf discovered cancelled identifier.name
  | none => (session, [])

end AssemblySymbols.Session
