import SvmLight.CommandLine.Scan
import SvmLight.Source.Files
import SvmLight.Summary

/-!
# The program

The program reads its command line and prints a summary of the files that it names. All that it
does is a function of the command line and the file system, its **transcript**; `Main` carries out
the rest.

A command line that is not carried out, settings that are not valid and files that cannot be read
end the program before any line of the summary. A halt can also come up when batches are counted,
after the records have been printed; an error is no halt then.

The program **warns** of each line that it skips, and of the error that ends the second pass. Log
and summary share one output, so a warning stands among the lines of the summary. Three things that
also go there are left out: the time, the colours and the target in front of a warning, the lines
of detail that the flag `--verbose` adds to the log, and the running time, which is the last line of
a complete summary.
-/

namespace SvmLight

/-! ### How the program ends -/

/-- How the program ends. -/
inductive Ending where
  /-- the summary is complete -/
  | completed
  /-- the command line is not carried out -/
  | usage (e : UsageError)
  /-- the settings or the files do not permit it -/
  | stopped (e : Error)
  /-- a counter has no number that is high enough -/
  | overflow
  /-- a vector of `2 ^ 63` bytes or more is asked for -/
  | oversize
deriving DecidableEq

namespace Ending

/-- What the program says in the end, if it is not done. -/
def message? : Ending → Option String
  | .completed => none
  | .usage e => some e.message
  | .stopped e => some e.message
  | .overflow => some "attempt to add with overflow"
  | .oversize => some "capacity overflow"

/-- The exit code of the program. Help that was asked for is no failure to the outside. -/
def exitCode : Ending → UInt32
  | .completed => 0
  | .usage .helpRequested => 0
  | .usage _ => 2
  | .stopped _ => 1
  | .overflow => 101
  | .oversize => 101

/-- The end that a halt of the first pass makes. -/
def ofHalt : Halt → Ending
  | .failed e => .stopped e
  | .overflow => .overflow
  | .oversize => .oversize

end Ending

/-! ### What the program prints -/

/-- What is printed at once. -/
inductive Output where
  /-- a line of the summary -/
  | line (text : String)
  /-- a warning, and the error that it is about -/
  | warning (text : String) (cause : Error)
deriving DecidableEq

namespace Output

/-- The warning of a line that is skipped. -/
def skipping (e : Error) : Output := .warning "skipping malformed record" e

/-- The warning of the error that ends the second pass. -/
def stopping (e : Error) : Output := .warning "batching stopped" e

/-- What is printed, as text. -/
def text : Output → String
  | .line text => text
  | .warning text cause => "WARN " ++ text ++ " error=" ++ cause.message

/-- The lines of a text, without those that begin a warning. A warning may go on with other lines,
as an error names a path, and a path may have newlines. -/
def summaryLines : Output → List String
  | .line text => [text]
  | .warning text cause =>
    ((Output.warning text cause).text.toList.splitOn '\n').tail.map String.ofList

end Output

/-- What the program prints, and how it ends. -/
structure Transcript where
  /-- what is printed -/
  output : List Output
  /-- how the program ends after it -/
  ending : Ending
deriving DecidableEq

namespace Transcript

/-- All that is printed, as texts. -/
def printed (t : Transcript) : List String := t.output.map Output.text

/-- All lines that are printed, without those that begin a warning. -/
def lines (t : Transcript) : List String := t.output.flatMap Output.summaryLines

/-- Nothing is printed before the end. -/
def silent (ending : Ending) : Transcript := ⟨[], ending⟩

/-- Summarizes the input of a reader; `entropy` is the seed where the arguments give none. -/
def ofReader {σ : Type} [LineSource σ] (a : Arguments) (entropy : UInt64) (r : Reader σ) :
    Transcript :=
  let first := r.harvest a.limit
  let skips := first.value.errors.map Output.skipping
  match first.halt? with
  | some halt => ⟨skips, .ofHalt halt⟩
  | none =>
    let records := a.arrange entropy first.value.records
    -- this is printed before the second pass begins
    let shown := skips ++ (Summary.recordLines records).map .line
    let second := first.reader.rewind.countBatches a.batchSize
    let counts :=
      (Summary.countLines ⟨records, first.value.skipped, a.batchSize, second.value⟩).map .line
    match second.halt? with
    | none => ⟨shown ++ counts, .completed⟩
    | some (.failed e) => ⟨shown ++ .stopping e :: counts, .completed⟩
    | some halt => ⟨shown, .ofHalt halt⟩

/-- Summarizes the files that the arguments name. -/
def ofArguments (files : FileSystem) (a : Arguments) (entropy : UInt64) : Transcript :=
  match Settings.ofOptions a.options with
  | .error e => silent (.stopped (.settings e))
  | .ok settings => ofReader a entropy (Reader.start settings (FileLines.ofPaths files a.inputs))

/-- Carries out a command line. -/
def ofWords (files : FileSystem) (words : List String) (entropy : UInt64) : Transcript :=
  match Arguments.ofWords files words with
  | .error e => silent (.usage e)
  | .ok a => ofArguments files a entropy

end Transcript

end SvmLight
