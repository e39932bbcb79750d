import HdlLint.Path
import HdlLint.Text.Quoted
import HdlLint.Text.Utf8
import HdlLint.Text.Blank

/-!
# Files

A picture of the files that a run can see: the current directory, the files and directories by
their absolute places, and the paths at which the system lets nobody look (`Refusal`), as where a
directory on the way may not be searched or a name is too long. Reading a file fails for one of five
causes (`FileFault`), each with its message.

Left out is what concerns a file itself: what can be looked at can be read and written. There are no
links in the picture, a current directory is always there, and nothing changes but by
`FileSystem.write`.

* `FileSystem.read`, `FileSystem.readText`: the bytes and the text of a file;
* `FileSystem.exists?`, `FileSystem.isFile`: what stands at a path, if one may look;
* `FileSystem.write`: a picture with one file changed;
* `FileSystem.readSourceLine`, `FileSystem.sourceLine`: one line of a source file, whatever its bytes
  are.
-/

namespace HdlLint

/-- What stands at a place. -/
inductive Entry
  | file (bytes : List UInt8)
  | directory
deriving DecidableEq, Repr

/-- Whether an entry is a file. -/
def Entry.isFile : Entry → Bool
  | .file _ => true
  | .directory => false

/-- What the system answers where it lets nobody look: the number of an error and its text. -/
structure Refusal where
  number : Nat
  reason : String
deriving DecidableEq, Repr

namespace Refusal

/-- The numbers of errors that say no more than that nothing stands at a path. -/
def absenceNumbers : List Nat :=
  [2, 9, 20, 40]

/-- Whether a refusal counts as there being nothing. -/
def isAbsence (r : Refusal) : Bool :=
  absenceNumbers.contains r.number

end Refusal

/-- Why a file cannot be read or written. -/
inductive FileFault
  | notFound
  | isDirectory
  | notDirectory
  /-- The name holds a null character, which no file name can hold. -/
  | nulInName
  /-- The system does not let one look at the path. -/
  | refused (refusal : Refusal)
deriving DecidableEq, Repr

/-- The files that a run can see. -/
structure FileSystem where
  /-- The parts of the current directory, from the root. -/
  current : List String
  /-- What stands at the places that are known, by their parts from the root. The directories
  above a known place need no entry. -/
  entries : List (List String × Entry)
  /-- What the system answers to a look at a path, where it does not show what stands there. -/
  refusal? : Path → Option Refusal := fun _ => none

namespace FileFault

/-- The message of a fault on a path. -/
def message (fault : FileFault) (path : Path) : String :=
  let shown := Text.quote path.toString
  match fault with
  | .notFound => "[Errno 2] No such file or directory: " ++ shown
  | .isDirectory => "[Errno 21] Is a directory: " ++ shown
  | .notDirectory => "[Errno 20] Not a directory: " ++ shown
  | .nulInName => "embedded null byte"
  | .refused r => s!"[Errno {r.number}] {r.reason}: " ++ shown

end FileFault

namespace FileSystem

/-- The current directory as a path. -/
def currentPath (fs : FileSystem) : Path :=
  ⟨.slash, fs.current⟩

/-- The first entry at a place. -/
def entryAt? (place : List String) : List (List String × Entry) → Option Entry
  | [] => none
  | e :: es => if e.1 = place then some e.2 else entryAt? place es

/-- What stands at a place: an entry, or a directory above one. -/
def at? (fs : FileSystem) (place : List String) : Option Entry :=
  match entryAt? place fs.entries with
  | some e => some e
  | none =>
    if place.isPrefixOf fs.current || fs.entries.any fun e => place.isPrefixOf e.1
    then some .directory else none

/-- Follows the parts of a path from a place on. Every place on the way is a directory. -/
def follow (fs : FileSystem) (place : List String) : List String → Except FileFault (List String)
  | [] => .ok place
  | part :: parts =>
    match fs.at? place with
    | none => .error .notFound
    | some (.file _) => .error .notDirectory
    | some .directory =>
      if part = ".." then fs.follow place.dropLast parts else fs.follow (place ++ [part]) parts

/-- The place that a path names. -/
def place (fs : FileSystem) (path : Path) : Except FileFault (List String) :=
  if path.parts.any fun part => part.toList.contains '\x00' then .error .nulInName
  else
    match fs.refusal? path with
    | some refusal => .error (.refused refusal)
    | none => fs.follow (if path.isAbsolute then [] else fs.current) path.parts

/-- What stands at a path. -/
def lookup (fs : FileSystem) (path : Path) : Except FileFault Entry :=
  match fs.place path with
  | .error fault => .error fault
  | .ok place =>
    match fs.at? place with
    | some e => .ok e
    | none => .error .notFound

/-- Whether an entry of some kind stands at a path, if one may look there. -/
def finds (fs : FileSystem) (isWanted : Entry → Bool) (path : Path) : Except Refusal Bool :=
  match fs.lookup path with
  | .ok e => .ok (isWanted e)
  | .error (.refused refusal) => if refusal.isAbsence then .ok false else .error refusal
  | .error _ => .ok false

/-- Whether anything stands at a path. -/
def exists? (fs : FileSystem) (path : Path) : Except Refusal Bool :=
  fs.finds (fun _ => true) path

/-- Whether a file stands at a path. -/
def isFile (fs : FileSystem) (path : Path) : Except Refusal Bool :=
  fs.finds Entry.isFile path

/-- The bytes of the file at a path. -/
def read (fs : FileSystem) (path : Path) : Except FileFault (List UInt8) :=
  match fs.lookup path with
  | .ok (.file bytes) => .ok bytes
  | .ok .directory => .error .isDirectory
  | .error fault => .error fault

/-- Replaces the entry at a place, or adds one. -/
def setEntry (place : List String) (e : Entry) :
    List (List String × Entry) → List (List String × Entry)
  | [] => [(place, e)]
  | e' :: es => if e'.1 = place then (place, e) :: es else e' :: setEntry place e es

/-- The picture after a file was written. Its directory must stand. -/
def write (fs : FileSystem) (path : Path) (bytes : List UInt8) : Except FileFault FileSystem :=
  match fs.place path with
  | .error fault => .error fault
  | .ok place =>
    match fs.at? place with
    | some .directory => .error .isDirectory
    | some (.file _) => .ok { fs with entries := setEntry place (.file bytes) fs.entries }
    | none =>
      match fs.at? place.dropLast with
      | some .directory => .ok { fs with entries := setEntry place (.file bytes) fs.entries }
      | some (.file _) => .error .notDirectory
      | none => .error .notFound

/-! ## Text files -/

/-- Line ends of text files: `\r\n` and lone `\r` become `\n`. -/
def newlines : List Char → List Char
  | '\r' :: '\n' :: rest => '\n' :: newlines rest
  | '\r' :: rest => '\n' :: newlines rest
  | c :: rest => c :: newlines rest
  | [] => []

/-- Why the text of a file cannot be read. -/
inductive ReadFault
  | file (fault : FileFault)
  | encoding (fault : Text.Utf8Fault)
deriving DecidableEq, Repr

/-- The message of a reading fault on a path. -/
def ReadFault.message (fault : ReadFault) (path : Path) : String :=
  match fault with
  | .file fault => fault.message path
  | .encoding fault => fault.message

/-- The text of the file at a path, with `\n` for every line end. -/
def readText (fs : FileSystem) (path : Path) : Except ReadFault (List Char) :=
  match fs.read path with
  | .error fault => .error (.file fault)
  | .ok bytes =>
    match Text.decode bytes with
    | .error fault => .error (.encoding fault)
    | .ok chars => .ok (newlines chars)

/-- A line of a text by its number, counted from one. -/
def lineAt? (lines : List (List Char)) (number : Int) : Option (List Char) :=
  if number < 1 then none else lines[(number - 1).toNat]?

/-- Whether the text of a path names a directory, by a slash or a lone point at its end. -/
def namesDirectory (path : String) : Bool :=
  "/".toList.isSuffixOf path.toList || "/.".toList.isSuffixOf path.toList

/-- The bytes of the file that is opened under a path as it is written. -/
def openBytes (fs : FileSystem) (path : String) : Except FileFault (List UInt8) :=
  match fs.read (Path.ofString path) with
  | .error fault => .error fault
  | .ok bytes => if namesDirectory path then .error .notDirectory else .ok bytes

/-- A line of a source file by its number, without its end. Bytes that are no UTF-8 show as
replacement characters. A file that cannot be opened has no lines, but a path with a null character
is an error. -/
def readSourceLine (fs : FileSystem) (path : String) (number : Int) :
    Except FileFault (Option String) :=
  match fs.openBytes path with
  | .error .nulInName => .error .nulInName
  | .error _ => .ok none
  | .ok bytes =>
    .ok ((lineAt? (Text.sourceLines (Text.decodeLossy bytes)) number).map String.ofList)

/-- The line of a source file to show, if there is one. This is `readSourceLine` for all names that a
file can have (`readSourceLine_eq_sourceLine`). A name with a null character has no line here, where
a program that reports on it ends with the error that `readSourceLine` gives. -/
def sourceLine (fs : FileSystem) (path : String) (number : Int) : Option String :=
  match fs.readSourceLine path number with
  | .error _ => none
  | .ok line => line

end FileSystem

end HdlLint
