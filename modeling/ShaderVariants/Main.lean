import ShaderVariants.CommandLine.Execution
import ShaderVariants.Text.Utf8

/-!
# The program

The outer layer: a host on the disk and the standard streams. What the program
does is decided by the command line modules.
-/

namespace ShaderVariants

/-- A run on the disk that knows whether the log tells more. -/
abbrev Disk := ReaderT Bool IO

namespace Disk

/-- The number of the system's error, which some operations give as a negative one. -/
def errorNumber (code : UInt32) : Nat :=
  let n := code.toNat
  if n < UInt32.size / 2 then n else UInt32.size - n

/-- The cause behind an error number; `words` are the system's. -/
def causeOfNumber (number : Nat) (words : String) : IoCause :=
  match number with
  | 2 => .notFound
  | 16 => .busy
  | 17 => .alreadyExists
  | 20 => .notADirectory
  | 21 => .isADirectory
  | 36 => .nameTooLong
  | _ => .other (IoCause.numbered words.toList number)

/-- The cause behind an error. -/
def causeOfError : IO.Error → IoCause
  | .alreadyExists _ code words | .noFileOrDirectory _ code words
  | .invalidArgument _ code words | .permissionDenied _ code words
  | .resourceExhausted _ code words | .inappropriateType _ code words
  | .noSuchThing _ code words | .otherError code words | .resourceBusy code words =>
    causeOfNumber (errorNumber code) words
  | e => .other (toString e).toList

/-- An operation of the system. -/
def proceed {α : Type} (operation : IO α) : Disk (Except IoCause α) := do
  try return .ok (← operation)
  catch e => return .error (causeOfError e)

/-- The path as the operations take it. They take texts alone. -/
def systemPath (p : Path) : Except IoCause String :=
  if p.glyphs = [] then .error .notFound
  else if '\x00' ∈ p.text then .error .invalidPath
  else if p.glyphs ≠ .ofText p.text then .error (.other "path is not valid UTF-8")
  else .ok (String.ofList p.text)

/-- An operation on a path that the system would take. -/
def attempt {α : Type} (p : Path) (operation : String → IO α) : Disk (Except IoCause α) :=
  match systemPath p with
  | .ok name => proceed (operation name)
  | .error cause => return .error cause

instance : Host Disk where
  File := IO.FS.Handle
  readText p := do
    let bytes ← attempt p fun name => IO.FS.readBinFile name
    return bytes.bind fun bytes =>
      match Text.ofUtf8? bytes with
      | some text => .ok text
      | none => .error .invalidUtf8
  makeDirectory p := attempt p fun name => IO.FS.createDir name
  createFile p := attempt p fun name => IO.FS.Handle.mk name .write
  writeAll file text := proceed (file.write text.toUtf8)
  syncAll file := proceed file.flush
  rename source target :=
    match systemPath target with
    | .ok newName => attempt source fun name => IO.FS.rename name newName
    | .error cause => return .error cause
  removeFile p := attempt p fun name => IO.FS.removeFile name
  isDirectory p := do
    let answer ← attempt p fun name => do (← IO.FS.realPath name).isDir
    return answer.toOption.getD false
  pathExists p := do
    let answer ← attempt p fun name => do (← IO.FS.realPath name).pathExists
    return answer.toOption.getD false
  report e := do
    let verbose ← read
    if e.level = .trace ∨ (e.level = .debug ∧ !verbose) then pure ()
    else
      let line := e.level.word ++ ' ' :: e.message.flatMap Text.terminalForm
      IO.eprintln (String.ofList line)

end Disk

/-- How the program is called. -/
def usage : String :=
  "\n".intercalate
    ["Usage: shader-gen [OPTIONS] <INPUT> <OUTPUT_DIR>",
      "",
      "Options:",
      "  -n, --namespace <NAMESPACE>  C++ namespace of the generated types",
      "  -c, --config <CONFIG>        TOML settings file",
      "      --check                  Only check that the output files are up to date",
      "  -v, --verbose                Tell the log more",
      "  -h, --help                   Print this help",
      "  -V, --version                Print the version"]

end ShaderVariants

section

open ShaderVariants ShaderVariants.CommandLine

/-- Runs the program on its arguments. -/
def main (arguments : List String) : IO UInt32 := do
  match Options.parse (arguments.map String.toList) with
  | .ok options => return (← (execute options : Disk Nat).run options.verbose).toUInt32
  | .error stop =>
    match stop with
    | .help => IO.println usage
    | .version => IO.print (String.ofList versionText)
    | .usageFault => IO.eprintln usage
    return stop.exitCode.toUInt32

end
