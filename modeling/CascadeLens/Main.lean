import CascadeLens.Command.Run

/-! The command line over the files of the machine. The web is not within reach of it. -/

namespace CascadeLens

/-- Whether there is something at a path that is a directory, or something that is none. -/
def isDirectoryAt? (path : Path) : IO (Option Bool) := do
  try
    return some (← (← IO.FS.realPath (String.ofList path.text)).isDir)
  catch _ => return none

/-- The kind of what is at a path. -/
def kindAt (path : Path) : IO (Except FileFault FileKind) := do
  match ← isDirectoryAt? path with
  | some isDirectory => return .ok (if isDirectory then .directory else .file)
  | none =>
    let above ← (List.range path.parts.length).mapM fun count =>
      isDirectoryAt? { path with parts := path.parts.take count }
    return .error (if above.contains (some false) then .notDirectory else .missing)

def bytesAt (path : Path) : IO (Except FileFault (List UInt8)) := do
  match ← kindAt path with
  | .error fault => return .error fault
  | .ok .directory => return .error .isDirectory
  | .ok .file => return .ok (← IO.FS.readBinFile (String.ofList path.text)).toList

/-- The files below a directory, down to a depth, by their paths from there. -/
def filesBelow (directory : Path) : Nat → IO (List Path)
  | 0 => return []
  | depth + 1 => do
    match ← kindAt directory with
    | .ok .directory =>
      let place ← IO.FS.realPath (String.ofList directory.text)
      let found ← (← place.readDir).toList.mapM fun entry => do
        let name := Path.parse entry.fileName.toList
        match ← kindAt (directory.join name) with
        | .ok .file => return [name]
        | .ok .directory => return (← filesBelow (directory.join name) depth).map name.join
        | .error _ => return []
      return found.flatten
    | _ => return []

def machine : IO (World IO) := do
  let directory ← IO.currentDir
  return {
    directory := Path.parse directory.toString.toList
    kind := kindAt
    read := bytesAt
    below := (filesBelow · 1000)
    exchange := fun _ => return .error (.broken "the web is not within reach".toList) }

open Command in
/-- Writes what a command has to say, and gives its exit code. -/
def report : Outcome → IO UInt32
  | .usage targetNotChosen => do
    IO.eprintln (String.ofList usageLine)
    IO.eprintln (if targetNotChosen then "Error: Give exactly one of --selector or --lines."
      else "Error: The arguments make no sense.")
    return 2
  | .brokenDown cause => do
    IO.eprintln (match cause with
      | .encoding => "The page is not UTF-8."
      | .unsupportedSelector => "The selector picks no elements."
      | .refusedPage => "The text is not taken for a page.")
    return 1
  | .finished code verbose lines => do
    IO.print (String.ofList (outputOf lines))
    IO.eprint (String.ofList (errorsOf verbose lines))
    return code.toUInt32

end CascadeLens

def main (arguments : List String) : IO UInt32 := do
  let world ← CascadeLens.machine
  CascadeLens.report (← CascadeLens.Command.run world (arguments.map String.toList))
