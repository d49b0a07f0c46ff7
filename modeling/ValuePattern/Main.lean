import ValuePattern.Command.Run
/-!
The program around a run. It takes a command from its arguments, gives the run what can be read from
the file that the command names or from the standard input, all of it before the run begins, and
prints what the run leaves behind.
-/
namespace ValuePattern

/-- What the program leaves to packages: reading its arguments, from which a command comes or, for a
question about the program or a wrong use of it, an answer at once; and decoding JSON. -/
structure Packages where
  readArguments : List String → Except Outcome Command
  decode : Json.Decoder

/-- How many bytes are asked for at once. -/
def chunkSize : USize := 65536

/-- Reads up to the end or to something that goes wrong. What was read before that counts. -/
def readInput (read : USize → IO ByteArray) : IO Input := do
  let mut bytes := ByteArray.empty
  repeat
    match ← (read chunkSize).toBaseIO with
    | .ok more =>
      if more.isEmpty then break
      bytes := bytes ++ more
    | .error fault => return ⟨bytes.toList, some (toString fault)⟩
  return ⟨bytes.toList, none⟩

/-- Opens a file of the file system. -/
def openPath (path : String) : IO Opened := do
  match ← (IO.FS.Handle.mk path .read).toBaseIO with
  | .ok handle => return .content (← readInput handle.read)
  | .error refusal => return .refused (toString refusal)

/-- What a command takes from outside. -/
def Command.surroundings (decode : Json.Decoder) (command : Command) : IO Surroundings := do
  let nothing : Input := ⟨[], none⟩
  match command with
  | explain _ => return ⟨fun _ => .content nothing, nothing, decode⟩
  | check _ none | dispatch _ none =>
    let stdin ← readInput (← IO.getStdin).read
    return ⟨fun _ => .content nothing, stdin, decode⟩
  | check _ (some path) | dispatch _ (some path) =>
    let opened ← openPath path
    return ⟨fun _ => opened, nothing, decode⟩

/-- The program, given its packages. -/
def program (packages : Packages) (arguments : List String) : IO UInt32 := do
  let outcome ← match packages.readArguments arguments with
    | .error answer => pure answer
    | .ok command => pure (command.run (← command.surroundings packages.decode))
  IO.print outcome.stdout
  IO.eprint outcome.stderr
  return outcome.code.toUInt32

end ValuePattern
