import ShaderEffect.Command.Run

/-!
# The command line tool
-/

namespace ShaderEffect

/-- A failure of the file system. -/
def FileError.ofSystem : IO.Error → FileError
  | .noFileOrDirectory .. => .notFound
  | .alreadyExists .. => .alreadyExists
  | .inappropriateType _ 21 _ => .isADirectory
  | .inappropriateType .. => .notADirectory
  | error => .other (toString error)

/-- An action on the file system that may fail. -/
def attemptOnDisk {α : Type} (action : IO α) : IO (Except FileError α) := do
  try
    return .ok (← action)
  catch error => return .error (.ofSystem error)

/-- The files on disk. -/
def diskAccess : FileAccess IO where
  read path := attemptOnDisk do return (← IO.FS.readBinFile path).data.toList
  createDirectories path := attemptOnDisk (IO.FS.createDirAll path)
  write path content := attemptOnDisk (IO.FS.writeBinFile path content.toByteArray)

/-- How to call the tool. -/
def usage : String :=
  "usage:\n" ++
  "  validate -i FILE\n" ++
  "  transpile -i FILE -e EFFECT -m METHOD -f hlsl|glsl [-v VERSION]\n" ++
  "  reflect -i FILE -e EFFECT\n" ++
  "  pack -i FILE [-o DIRECTORY] [-c FILE] [--serial]\n"

end ShaderEffect

open ShaderEffect in
/-- Run the command that the arguments ask for. -/
def main (arguments : List String) : IO UInt32 := do
  match Command.ofArguments? arguments with
  | none =>
    IO.eprint usage
    return 2
  | some command =>
    let output ← command.run diskAccess
    IO.eprint output.stderr
    IO.print output.stdout
    return if output.succeeded then 0 else 1
