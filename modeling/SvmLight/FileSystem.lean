import SvmLight.Error

/-!
# File systems

A path leads to a regular file, to a directory, to something else, or nowhere, with a reason. What
it leads to is known without opening it. Opening it is another matter: a file that is there may be
one that nobody is permitted to read. So there are two answers to a path, and an `Entry` holds both:

* `FileSystem.entry` — what it leads to;
* `FileSystem.opened` — what opening it gives.

What has been opened has a `Content`. Reading it can fail, too: at once, if it is a directory, or
after some octets, if there is a fault in a device. A file system does not change while it is read,
so what failed once will fail again.

`ofEntries` is a file system seen from a **working directory** with files and empty directories in
it. A path is walked name by name. `.` and empty names stay, `..` goes up, and of what lies outside
the working directory only this is known: it is made of directories, and there is one file that can
be written, but not read.
-/

namespace SvmLight

/-- What there is to be read when something has been opened. -/
structure Content where
  /-- the octets in front of the end, or of a fault -/
  octets : List UInt8
  /-- why nothing can be read behind the octets, if that is not their end -/
  fault? : Option IoError
deriving DecidableEq

/-- Nothing can be read of a directory. -/
def Content.directory : Content := ⟨[], some .isADirectory⟩

/-- What a path leads to, with what comes of opening it. -/
inductive Entry where
  /-- a regular file: what can be read of it, or why it cannot be opened -/
  | file (opened : Except IoError Content)
  /-- a directory, or why it cannot be opened -/
  | directory (opened : Except IoError Unit)
  /-- something else, such as a device, that is opened like a file -/
  | other (opened : Except IoError Content)

/-- What opening it gives. -/
def Entry.opened : Entry → Except IoError Content
  | .file opened => opened
  | .directory opened => opened.map fun _ => .directory
  | .other opened => opened

/-- An unchanging file system. -/
structure FileSystem where
  /-- what a path leads to, or why it leads nowhere -/
  entry : String → Except IoError Entry

namespace FileSystem

/-- What opening a path gives, or why it cannot be opened. -/
def opened (files : FileSystem) (path : String) : Except IoError Content :=
  files.entry path >>= Entry.opened

theorem opened_of_file {files : FileSystem} {path : String} {result : Except IoError Content}
    (h : files.entry path = .ok (.file result)) : files.opened path = result := by
  rw [opened, h]
  rfl

/-- How many octets can be read of a path; what cannot be opened has none. -/
def size (files : FileSystem) (path : String) : Nat :=
  match files.opened path with
  | .ok content => content.octets.length
  | .error _ => 0

/-- How many octets can be read of several paths. -/
def totalSize (files : FileSystem) : List String → Nat
  | [] => 0
  | path :: paths => files.size path + files.totalSize paths

end FileSystem

/-! ### Seen from a working directory -/

/-- What stands in the working directory. -/
inductive Node where
  /-- a file with these octets -/
  | file (octets : List UInt8)
  /-- a directory with nothing in it -/
  | directory
deriving DecidableEq

namespace FileSystem

/-- Where a walk along a path stands. -/
inductive Spot where
  /-- in the working directory -/
  | here
  /-- in a directory in it -/
  | inside
  /-- in a directory outside it -/
  | outside
  /-- at a file -/
  | file (octets : List UInt8)

/-- A single name has at most this many octets. -/
def nameLimit : Nat := 255

/-- A path has fewer octets than this. -/
def pathLimit : Nat := 4096

/-- One step of a walk: looks a name up where the walk stands. -/
def Spot.step (entries : List (String × Node)) (spot : Spot) (name : String) :
    Except IoError Spot :=
  match spot with
  | .file _ => .error .notADirectory
  | .here =>
    if name = "" ∨ name = "." then .ok .here
    else if name = ".." then .ok .outside
    else if nameLimit < name.utf8ByteSize then .error .nameTooLong
    else
      match entries.lookup name with
      | some (.file octets) => .ok (.file octets)
      | some .directory => .ok .inside
      | none => .error .notFound
  | .inside =>
    if name = "" ∨ name = "." then .ok .inside
    else if name = ".." then .ok .here
    else if nameLimit < name.utf8ByteSize then .error .nameTooLong
    else .error .notFound
  | .outside =>
    if name = "" ∨ name = "." ∨ name = ".." then .ok .outside
    else if nameLimit < name.utf8ByteSize then .error .nameTooLong
    else .error .notFound

/-- What stands where a walk ends. -/
def Spot.entry : Spot → Entry
  | .file octets => .file (.ok ⟨octets, none⟩)
  | _ => .directory (.ok ())

/-- The path of a file outside that can be written, but not read, whoever asks. -/
def writeOnly : String := "/proc/sys/vm/drop_caches"

/-- What a path leads to from a working directory with these entries. A path that begins with a
slash begins outside. -/
def walk (entries : List (String × Node)) (path : String) : Except IoError Entry :=
  let text := path.toList
  if text.contains (Char.ofNat 0) then .error .nulInPath
  else if text.isEmpty then .error .notFound
  else if pathLimit ≤ path.utf8ByteSize then .error .nameTooLong
  else if path = writeOnly then .ok (.file (.error .permissionDenied))
  else
    let start : Spot := if text.head? = some '/' then .outside else .here
    let names := (text.splitOn '/').map String.ofList
    (names.foldlM (Spot.step entries) start).map Spot.entry

/-- The file system seen from a working directory with these entries. -/
def ofEntries (entries : List (String × Node)) : FileSystem := ⟨walk entries⟩

end FileSystem

end SvmLight
