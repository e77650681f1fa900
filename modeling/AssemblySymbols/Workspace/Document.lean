import AssemblySymbols.Settings
import AssemblySymbols.Text.Lowercase

/-! Documents and the choice of those that are indexed. -/
namespace AssemblySymbols

structure Document where
  uri : String
  /-- The language that an editor has given to the document. -/
  languageId : Option String
  text : String
deriving DecidableEq, Repr

/-- Which documents are indexed: those in one of the languages and those with one of the extensions,
which are without their dot and in lower case. -/
structure DocumentFilter where
  languageIds : List String
  extensions : List String
deriving DecidableEq, Repr

namespace DocumentFilter

/-- Extensions are the same if they differ in the case of ASCII letters only. -/
def foldCase (extension : String) : String := String.ofList (Text.asciiLowercase extension.toList)

def ofLists (languageIds extensions : List String) : DocumentFilter where
  languageIds := languageIds
  extensions := extensions.map fun extension =>
    foldCase (String.ofList (extension.toList.dropWhile (· == '.')))

def ofSettings (settings : Settings) : DocumentFilter :=
  ofLists settings.languageIds settings.extensions

def acceptsPath (filter : DocumentFilter) (path : Path) : Bool :=
  path.extension?.any fun extension => filter.extensions.contains (foldCase extension)

def accepts (filter : DocumentFilter) (document : Document) : Bool :=
  document.languageId.any filter.languageIds.contains || filter.acceptsPath ⟨document.uri⟩

end DocumentFilter
end AssemblySymbols
