/-! Why an access to the disk fails. -/
namespace AssemblySymbols

inductive DiskError where
  | notFound
  | busy
  | alreadyExists
  | notADirectory
  | isADirectory
  /-- A directory cannot be moved into itself. -/
  | invalidArgument
  | nameTooLong
  | notEmpty
  | linkLoop
  /-- A path holds the character that ends names. -/
  | nulInName
deriving DecidableEq, Repr

namespace DiskError

/-- The number that the operating system gives to an error of its own. -/
def code? : DiskError → Option Nat
  | notFound => some 2
  | busy => some 16
  | alreadyExists => some 17
  | notADirectory => some 20
  | isADirectory => some 21
  | invalidArgument => some 22
  | nameTooLong => some 36
  | notEmpty => some 39
  | linkLoop => some 40
  | nulInName => none

def kindName : DiskError → String
  | notFound => "NotFound"
  | busy => "ResourceBusy"
  | alreadyExists => "AlreadyExists"
  | notADirectory => "NotADirectory"
  | isADirectory => "IsADirectory"
  | invalidArgument | nulInName => "InvalidInput"
  | nameTooLong => "InvalidFilename"
  | notEmpty => "DirectoryNotEmpty"
  | linkLoop => "FilesystemLoop"

def description : DiskError → String
  | notFound => "No such file or directory"
  | busy => "Device or resource busy"
  | alreadyExists => "File exists"
  | notADirectory => "Not a directory"
  | isADirectory => "Is a directory"
  | invalidArgument => "Invalid argument"
  | nameTooLong => "File name too long"
  | notEmpty => "Directory not empty"
  | linkLoop => "Too many levels of symbolic links"
  | nulInName => "file name contained an unexpected NUL byte"

def message (error : DiskError) : String :=
  match error.code? with
  | some code => error.description ++ " (os error " ++ toString code ++ ")"
  | none => error.description

end DiskError
end AssemblySymbols
