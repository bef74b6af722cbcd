import BoardConsole.Files
import BoardConsole.Log
import BoardConsole.ObjectFile.Segment

/-!
# Loading object files

Where the segments of an object file come from.
-/

namespace BoardConsole.Debugger

open ObjectFile (Segment)

/-- Why an object file cannot be used. -/
inductive LoadFault
  /-- It cannot be read. -/
  | unreadable (fault : FileFault)
  /-- It is not an object file. -/
  | malformed (fault : ObjectFile.RecordFault)
  deriving DecidableEq, Repr

/-- What is said about an object file that cannot be used. -/
def LoadFault.message (file : String) : LoadFault → String
  | .unreadable fault => s!"Could not open {file}: {fault.message}"
  | .malformed fault => s!"Could not parse {file}: {fault.message}"

/-- A source of object files. -/
structure Loader where
  /-- The segments of a file. -/
  load : String → Except LoadFault (List Segment)
  /-- What loading a file gives reason to remark. -/
  remarks : String → List Log.Record := fun _ => []

namespace Loader

/-- The same segments under every name. -/
def fixed (segments : List Segment) : Loader where
  load _ := .ok segments

/-- The segments of a file in a file tree. -/
def loadFrom (files : Files) (file : String) : Except LoadFault (List Segment) :=
  match files.readText file with
  | .error fault => .error (.unreadable fault)
  | .ok text =>
    match ObjectFile.segments text with
    | .error fault => .error (.malformed fault)
    | .ok segments => .ok segments

/-- Object files in a file tree. -/
def ofFiles (files : Files) : Loader where
  load := loadFrom files
  remarks file :=
    match loadFrom files file with
    | .error _ => []
    | .ok segments => [⟨.debug, ObjectFile.summary segments⟩]

end Loader

end BoardConsole.Debugger
