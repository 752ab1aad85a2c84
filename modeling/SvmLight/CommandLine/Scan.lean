import SvmLight.CommandLine.Given

/-!
# Scanning a command line

The words of a command line are read from left to right.

* `--name` and `--name=value` name an argument; so do the letters after a single dash. A word of
  this form is never a value and never a file.
* Every other word, a lone dash included, is the value of the parameter before it if that still
  waits for one, and an input file otherwise.
* After the word `--` all words are input files.

Files that follow each other and the value after a parameter are **open**: they are judged when
the next argument with a known name begins, when another kind of word follows, or at the end. So
an unknown name is reported before anything that is open, and a known one after it.
-/

namespace SvmLight

/-! ### Words -/

/-- The forms of a word. -/
inductive Word where
  /-- a name, and a value if one is attached -/
  | named (name : String) (value? : Option String)
  /-- letters, each of which names an argument -/
  | letters (letters : List Char)
  /-- neither of these -/
  | plain (text : String)
deriving DecidableEq

/-- The form of a word. -/
def Word.ofString (word : String) : Word :=
  match word.toList with
  | '-' :: '-' :: t =>
    let parts := Text.breakAt '=' t
    .named (String.ofList parts.1) (parts.2.map String.ofList)
  | '-' :: c :: t => .letters (c :: t)
  | _ => .plain word

/-- After this word all words are input files. -/
def Word.endOfNames : String := "--"

/-! ### The scan -/

/-- What has been read and is still to be judged. -/
inductive Open where
  /-- a parameter and the word after it, if that is its value -/
  | parameter (p : Parameter) (value? : Option String)
  /-- some input files -/
  | inputs (paths : List String)
deriving DecidableEq

/-- How far a command line has been read. -/
structure Scan where
  /-- what has been judged and taken -/
  given : Given := {}
  /-- what is still to be judged -/
  pending : Option Open := none
deriving DecidableEq

namespace Scan

variable (files : FileSystem)

/-- Judges what is open, and takes it. -/
def close (s : Scan) : Except UsageError Given :=
  match s.pending with
  | none => .ok s.given
  | some (.parameter p none) => .error (.missingValue p)
  | some (.parameter p (some value)) => s.given.assign p value
  | some (.inputs paths) => s.given.addInputs files paths

/-- Reads the name of an argument that is given no value. -/
def enter (s : Scan) (argument : Argument) : Except UsageError Scan := do
  let given ← s.close files
  match argument with
  | .flag f => return ⟨← given.switchOn f, none⟩
  | .parameter p => return ⟨given, some (.parameter p none)⟩
  | .help => throw .helpRequested

/-- Reads the name of an argument with a value attached. -/
def enterWith (s : Scan) (argument : Argument) (value : String) : Except UsageError Scan :=
  match argument with
  | .parameter p => do
    let given ← s.close files
    return ⟨← given.assign p value, none⟩
  | _ => throw (.unexpectedValue argument.name)

/-- Reads the path of an input file. -/
def input (s : Scan) (path : String) : Except UsageError Scan :=
  match s.pending with
  | some (.inputs paths) => .ok { s with pending := some (.inputs (paths ++ [path])) }
  | _ => do return ⟨← s.close files, some (.inputs [path])⟩

/-- Reads a word before the end of names. -/
def step (s : Scan) (word : String) : Except UsageError Scan :=
  match Word.ofString word with
  | .named name value? =>
    match Argument.ofName? name, value? with
    | none, _ => .error (.unknownArgument word)
    | some argument, none => s.enter files argument
    | some argument, some value => s.enterWith files argument value
  | .letters letters =>
    letters.foldlM (fun s letter =>
      match Argument.ofLetter? letter with
      | none => .error (.unknownArgument word)
      | some argument => s.enter files argument) s
  | .plain text =>
    match s.pending with
    | some (.parameter p none) => .ok { s with pending := some (.parameter p (some text)) }
    | _ => s.input files text

/-- Reads all words. -/
def run (s : Scan) : List String → Except UsageError Scan
  | [] => .ok s
  | word :: words =>
    if word = Word.endOfNames then words.foldlM (input files) s
    else do
      let s ← s.step files word
      s.run words

end Scan

/-- Reads a command line. Input files are looked up in the file system. -/
def Arguments.ofWords (files : FileSystem) (words : List String) : Except UsageError Arguments := do
  let scan ← ({} : Scan).run files words
  (← scan.close files).arguments

end SvmLight
