import EvmObject.Command.Answer

/-!
# The program

Reads the command line, loads the files that it names, prints what the command answers, and leaves
with status 1 after an error and with status 2 if the command line cannot be read.
-/

namespace EvmObject.Program

/-- Loads a file or a folder with everything below it. -/
partial def load (entry : IO.FS.DirEntry) : IO FileTree := do
  if ← entry.path.isDir then
    let entries ← entry.path.readDir
    let loaded ← entries.toList.mapM fun inner => do return (inner.fileName, ← load inner)
    return .folder loaded
  else
    try
      return .file (← IO.FS.readFile entry.path)
    catch _ =>
      return .unreadable

/-- Loads what stands at a path, if anything does. -/
def loadPath (path : String) : IO (Option FileTree) := do
  let here ← IO.currentDir
  let entry : IO.FS.DirEntry := ⟨here, path⟩
  if path.isEmpty || !(← entry.path.pathExists) then return none
  return some (← load entry)

/-- How to call the program. -/
def usage : String :=
  "usage: validate <hex> [--max-size <bytes>] [--version <number>]\n" ++
  "       print <hex>\n" ++
  "       run <hex> [--max-steps <number>]\n" ++
  "       suite <path>..."

end EvmObject.Program

open EvmObject in
/-- Runs one command. -/
def main (arguments : List String) : IO UInt32 := do
  match Command.Request.read? arguments with
  | none =>
    IO.eprintln EvmObject.Program.usage
    return 2
  | some request =>
    let trees ← request.paths.mapM fun path => do return (path, ← EvmObject.Program.loadPath path)
    let answer := request.answer fun path => (trees.lookup path).join
    IO.print answer.output
    match answer.error? with
    | none => return 0
    | some error =>
      IO.eprintln s!"Error: {error.message?.getD error.name}"
      return 1
