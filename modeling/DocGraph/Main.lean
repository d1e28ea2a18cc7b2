import DocGraph.Command

/-!
The program: it takes a picture of the files that its arguments name, runs the command line on it,
and prints the outcome.
-/
namespace DocGraph

/-- The file or directory at a path. Of a directory only what may hold JSON is read. -/
partial def snapshot (path : String) : IO (Option Node) := do
  let place := (← IO.currentDir) / path
  if ← place.isDir then
    let entries ← (← place.readDir).toList.filterMapM fun entry => do
      let inner := entry.path.toString
      if Path.isJson entry.fileName || (← entry.path.isDir) then
        return (← snapshot inner).map (entry.fileName, ·)
      else return none
    return some (.directory entries)
  else
    try return some (.file (← IO.FS.readBinFile place))
    catch _ => return none

/-- The pictures of some paths; no file has an empty path. -/
def snapshots (paths : List String) : IO (List (String × Node)) :=
  (paths.filter fun path => path ≠ "").filterMapM fun path => do return (← snapshot path).map (path, ·)

end DocGraph

def main (args : List String) : IO UInt32 := do
  let nodes ← DocGraph.snapshots (DocGraph.Command.pathsOf args)
  let outcome := DocGraph.Command.run (fun path => nodes.lookup path) args
  IO.print outcome.output
  return outcome.exit.toUInt32
