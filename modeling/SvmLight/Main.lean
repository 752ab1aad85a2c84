import SvmLight.Program

/-!
# The command line program

`summarize` looks up every word of the command line as a path, so that the rest is a pure function,
and prints what that function yields.
-/

namespace SvmLight

/-- Why a path cannot be opened, or not be read. -/
def reason : IO.Error → IoError
  | .permissionDenied .. => .permissionDenied
  | .inappropriateType .. => .notADirectory
  | .hardwareFault .. => .deviceFault
  | _ => .notFound

/-- What comes of trying. -/
def attempt {α : Type} (act : IO α) : IO (Except IoError α) := do
  try
    return .ok (← act)
  catch e =>
    return .error (reason e)

/-- Reads on behind some octets, in so many pieces at most. -/
def readOn (handle : IO.FS.Handle) (octets : ByteArray) : Nat → IO Content
  | 0 => return ⟨octets.toList, none⟩
  | pieces + 1 => do
    match ← attempt (handle.read 65536) with
    | .error e => return ⟨octets.toList, some e⟩
    | .ok piece =>
      if piece.isEmpty then return ⟨octets.toList, none⟩
      else readOn handle (octets ++ piece) pieces

/-- What comes of opening a path, and what can be read then. -/
def openFile (path : String) : IO (Except IoError Content) := do
  match ← attempt (IO.FS.Handle.mk path .read) with
  | .error e => return .error e
  | .ok handle => return .ok (← readOn handle .empty UInt64.size)

/-- What a path leads to, and what comes of opening it. -/
def readEntry (path : String) : IO (Except IoError Entry) := do
  match ← attempt (System.mkFilePath [path]).metadata with
  | .error e => return .error e
  | .ok metadata =>
    match metadata.type with
    | .dir =>
      let listed ← attempt (System.mkFilePath [path]).readDir
      return .ok (.directory (listed.map fun _ => ()))
    | .file => return .ok (.file (← openFile path))
    | _ => return .ok (.other (← openFile path))

/-- The part of the file system that the words of a command line lead to. -/
def readFiles (words : List String) : IO FileSystem := do
  let entries ← words.mapM fun word => do return (word, ← readEntry word)
  return ⟨fun path => (entries.lookup path).getD (.error .notFound)⟩

/-- A seed that is a new one each time. -/
def freshSeed : IO UInt64 := do
  return UInt64.ofNat (← IO.rand 0 (UInt64.size - 1))

/-- Prints a summary of the files that the words name, or why there is none. -/
def summarize (words : List String) : IO UInt32 := do
  let transcript := Transcript.ofWords (← readFiles words) words (← freshSeed)
  transcript.printed.forM fun text => IO.println text
  let code := transcript.ending.exitCode
  match transcript.ending.message? with
  | none => return code
  | some message =>
    if code = 0 then IO.println message else IO.eprintln message
    return code

end SvmLight

/-- The command line program. -/
def main (words : List String) : IO UInt32 := SvmLight.summarize words
