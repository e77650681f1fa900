/-! How definitions are told apart: by what they define and by whether case matters. -/
namespace AssemblySymbols

/-- What a defined name stands for. -/
inductive Kind where
  /-- A place in code or data. -/
  | label
  /-- A computed or substituted quantity. -/
  | value
deriving DecidableEq, Repr

namespace Kind

def text : Kind → String
  | label => "label"
  | value => "value"

inductive ReadError where
  | unknown (text : String)
deriving DecidableEq, Repr

def ReadError.message : ReadError → String
  | unknown text => "Unknown definition kind: " ++ text

def read (text : String) : Except ReadError Kind :=
  if text = "label" then .ok .label
  else if text = "value" then .ok .value
  else .error (.unknown text)

end Kind

inductive CasePolicy where
  | sensitive
  | insensitive
deriving DecidableEq, Repr

/-- One of the four classes of definitions. -/
structure SymbolClass where
  kind : Kind
  policy : CasePolicy
deriving DecidableEq, Repr

namespace SymbolClass

/-- All classes, labels before values and sensitive before insensitive. -/
def all : List SymbolClass :=
  [⟨.label, .sensitive⟩, ⟨.label, .insensitive⟩, ⟨.value, .sensitive⟩, ⟨.value, .insensitive⟩]

end SymbolClass

/-- One value for each class. -/
structure ByClass (α : Type) where
  labelsSensitive : α
  labelsInsensitive : α
  valuesSensitive : α
  valuesInsensitive : α
deriving DecidableEq, Repr

namespace ByClass
variable {α β : Type}

def replicate (value : α) : ByClass α := ⟨value, value, value, value⟩

def get (parts : ByClass α) : SymbolClass → α
  | ⟨.label, .sensitive⟩ => parts.labelsSensitive
  | ⟨.label, .insensitive⟩ => parts.labelsInsensitive
  | ⟨.value, .sensitive⟩ => parts.valuesSensitive
  | ⟨.value, .insensitive⟩ => parts.valuesInsensitive

def ofFn (value : SymbolClass → α) : ByClass α :=
  ⟨value ⟨.label, .sensitive⟩, value ⟨.label, .insensitive⟩, value ⟨.value, .sensitive⟩,
    value ⟨.value, .insensitive⟩⟩

def modify (parts : ByClass α) (part : SymbolClass) (change : α → α) : ByClass α :=
  ofFn fun other => if other = part then change (parts.get other) else parts.get other

def map (change : α → β) (parts : ByClass α) : ByClass β := ofFn fun part => change (parts.get part)

def toList (parts : ByClass α) : List α := SymbolClass.all.map parts.get

@[simp] theorem get_ofFn (value : SymbolClass → α) (part : SymbolClass) :
    (ofFn value).get part = value part := by
  obtain ⟨kind, policy⟩ := part
  cases kind <;> cases policy <;> rfl

@[simp] theorem get_map (change : α → β) (parts : ByClass α) (part : SymbolClass) :
    (parts.map change).get part = change (parts.get part) := get_ofFn ..

@[simp] theorem get_modify (parts : ByClass α) (part other : SymbolClass) (change : α → α) :
    (parts.modify part change).get other =
      if other = part then change (parts.get other) else parts.get other := get_ofFn ..

theorem ext_get {left right : ByClass α} (same : ∀ part, left.get part = right.get part) :
    left = right := by
  cases left; cases right
  have h₁ := same ⟨.label, .sensitive⟩
  have h₂ := same ⟨.label, .insensitive⟩
  have h₃ := same ⟨.value, .sensitive⟩
  have h₄ := same ⟨.value, .insensitive⟩
  simp_all [get]

end ByClass
end AssemblySymbols
