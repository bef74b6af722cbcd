import BoardConsole.Text.Utf8

/-!
# Files

The file tree the program reads from: directories, regular files, character devices and sockets
by their absolute path, and a working directory that other paths start at.  A path is walked name
by name; the walk fails at the first name that is missing, too long or below something that is not
a directory.
-/

namespace BoardConsole

/-- Why a file cannot be used. -/
inductive FileFault
  /-- Nothing has this name. -/
  | missing
  /-- There is nobody behind the name. -/
  | noDevice
  /-- A name stands below something that is not a directory. -/
  | notDirectory
  /-- A directory has no bytes to read. -/
  | isDirectory
  /-- The path, or one name of it, is too long. -/
  | nameTooLong
  /-- No path holds the character NUL. -/
  | holdsNul
  /-- The bytes are no text. -/
  | notText
  deriving DecidableEq, Repr

/-- What is said about a file that cannot be used. -/
def FileFault.message : FileFault → String
  | .missing => "No such file or directory (os error 2)"
  | .noDevice => "No such device or address (os error 6)"
  | .notDirectory => "Not a directory (os error 20)"
  | .isDirectory => "Is a directory (os error 21)"
  | .nameTooLong => "File name too long (os error 36)"
  | .holdsNul => "file name contained an unexpected NUL byte"
  | .notText => "stream did not contain valid UTF-8"

/-- What a path may lead to. -/
inductive FileItem
  /-- A regular file and its bytes. -/
  | file (bytes : Bytes)
  /-- A directory. -/
  | directory
  /-- A character device that has nothing to read and is no terminal, and what the system says to
  treating it as one. -/
  | device (refusal : String)
  /-- A terminal, such as a serial port; as a file it has nothing to read either. -/
  | terminal
  /-- A socket. -/
  | socket
  deriving DecidableEq, Repr

/-- A file tree with a working directory. -/
structure Files where
  /-- What is there, by the names that lead to it from the root; the latest entry counts. -/
  entries : List (List String × FileItem)
  /-- The working directory. -/
  here : List String
  deriving Repr

namespace Files

/-- The names in a path. -/
def names (path : String) : List String := (path.splitOn "/").filter (· ≠ "")

/-- The longest path, in bytes. -/
def pathLimit : Nat := 4095

/-- The longest name, in bytes. -/
def nameLimit : Nat := 255

/-- What is at a place; the root is always there. -/
def item? (files : Files) (place : List String) : Option FileItem :=
  if place.isEmpty then some .directory else files.entries.lookup place

/-- Names followed from a place on. -/
def walk (files : Files) : List String → List String → Except FileFault (List String)
  | place, [] => .ok place
  | place, name :: rest =>
    if files.item? place ≠ some .directory then .error .notDirectory
    else if name = "." then files.walk place rest
    else if name = ".." then files.walk place.dropLast rest
    else if nameLimit < name.utf8ByteSize then .error .nameTooLong
    else if (files.item? (place ++ [name])).isNone then .error .missing
    else files.walk (place ++ [name]) rest

/-- What a path leads to.  A path that ends in a slash leads to directories only. -/
def find (files : Files) (path : String) : Except FileFault FileItem :=
  if path.toList.contains '\x00' then .error .holdsNul
  else if path.isEmpty then .error .missing
  else if pathLimit < path.utf8ByteSize then .error .nameTooLong
  else
    let steps := names path ++ if path.endsWith "/" then ["."] else []
    match files.walk (if path.startsWith "/" then [] else files.here) steps with
    | .error fault => .error fault
    | .ok place => .ok ((files.item? place).getD .directory)

/-- The bytes of a file. -/
def read (files : Files) (path : String) : Except FileFault Bytes :=
  match files.find path with
  | .error fault => .error fault
  | .ok (.file bytes) => .ok bytes
  | .ok .directory => .error .isDirectory
  | .ok (.device _) => .ok []
  | .ok .terminal => .ok []
  | .ok .socket => .error .noDevice

/-- The text of a file. -/
def readText (files : Files) (path : String) : Except FileFault (List Char) :=
  match files.read path with
  | .error fault => .error fault
  | .ok bytes =>
    match Utf8.decode? bytes with
    | none => .error .notText
    | some text => .ok text

/-- The last name of a path, if it names something in a directory: paths that end in `..` and the
root do not. -/
def lastName? (path : String) : Option String :=
  match ((names path).filter (· ≠ ".")).getLast? with
  | some ".." => none
  | name => name

/-- The tree with one more thing in it, and the directories that lead there. -/
def add (files : Files) (path : String) (item : FileItem) : Files :=
  let place := files.here ++ names path
  let above := (List.range place.length).map fun n => (place.take n, FileItem.directory)
  { files with entries := (place, item) :: (above.filter fun entry =>
      (files.item? entry.1).isNone) ++ files.entries }

/-- Character devices that are no terminals. -/
def usualDevices : List (String × String) :=
  [ ("null", "Not a typewriter"), ("zero", "Not a typewriter"), ("full", "Not a typewriter")
  , ("random", "Invalid argument"), ("urandom", "Invalid argument")
  , ("tty", "No such device or address") ]

/-- Directories below the root. -/
def usualDirectories : List String :=
  [ "bin", "boot", "dev", "etc", "home", "lib", "media", "mnt", "opt", "proc", "root", "run"
  , "sbin", "srv", "sys", "tmp", "usr", "var" ]

/-- The list of accounts: the administrator's. -/
def accounts : Bytes := Utf8.encode "root:x:0:0:root:/root:/bin/bash\n".toList

/-- A tree with an empty working directory and the usual places around it. -/
def usual : Files where
  here := ["tmp", "work"]
  entries :=
    (["tmp", "work"], .directory) :: (["etc", "passwd"], .file accounts) :: (["dev", "ptmx"], .terminal)
      :: usualDevices.map (fun (name, refusal) => (["dev", name], .device refusal))
      ++ usualDirectories.map (fun name => ([name], .directory))

end Files

end BoardConsole
