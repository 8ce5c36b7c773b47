/-
The program. It takes a picture of the files that a command line can reach, runs on the picture, and carries out what the
run leaves behind. Nothing is decided here. Standard output is taken to have room, and log lines bear no real time.

The picture holds what stands at the paths that are named, the sources below them, and the repositories around them.
Links lead to where they really end.
-/
import AppAudit.Command.Run
import AppAudit.Report.Guid

namespace AppAudit

namespace Picture

/-! ## Taking the picture -/

/-- the kind of what stands at a path, if anything does -/
def kind? (path : List Char) : IO (Option IO.FS.FileType) := do
  let file := (← IO.currentDir) / String.ofList path
  try
    return some (← file.symlinkMetadata).type
  catch _ => return none

/-- the bytes of a file; none if it cannot be read -/
def bytesOf (path : List Char) : IO (List UInt8) := do
  try
    return (← IO.FS.readBinFile (String.ofList path)).toList
  catch _ => return []

/-- the paths on the way to an absolute path, from the top down -/
def way (path : List Char) : List (List Char) :=
  let names := FileSystem.parts path
  (List.range names.length).map fun k => '/' :: Path.joinNames (names.take (k + 1))

/-- adds what stands on the way to an absolute path -/
partial def addWay (fs : FileSystem) (path : List Char) : IO FileSystem := do
  let mut fs := fs
  for here in way path do
    match ← kind? here with
    | none => pure ()
    | some .dir => fs := fs.addDir here
    | some .file => fs := fs.addFile here (← bytesOf here)
    | some .other =>
      fs := fs.set (Path.names here) (.device (if here = "/dev/full".toList then .full else .null))
    | some .symlink =>
      try
        let goal := (← IO.FS.realPath (String.ofList here)).toString.toList
        fs ← addWay (fs.addLink here goal) goal
      catch _ => fs := fs.addLink here "/dev/null/missing".toList
  return fs

/-- adds the entries below a directory that pass a test; directories that fail it are not entered -/
partial def addBelow (fs : FileSystem) (path : List Char) (wanted : Name → Bool → Bool) : IO FileSystem := do
  let mut fs := fs
  try
    for e in ← ((← IO.currentDir) / String.ofList path).readDir do
      let child := Path.join [path, e.fileName.toList]
      let isDir := (← kind? child) matches some .dir
      if wanted e.fileName.toList isDir then
        fs ← addWay fs child
        if isDir then fs ← addBelow fs child wanted
  catch _ => pure ()
  return fs

/-- what a walk looks at -/
def isWalked (name : Name) (isDir : Bool) : Bool := if isDir then !isSkippedDir name else hasSourceExtension name

/-- adds what a repository keeps in a directory -/
def addRepository (fs : FileSystem) (gitDir : List Char) : IO FileSystem := do
  let mut fs := fs
  for name in ["HEAD", "config", "packed-refs", "refs"] do
    fs ← addWay fs (Path.join [gitDir, name.toList])
  addBelow fs (Path.join [gitDir, "refs".toList]) fun _ _ => true

/-- adds everything that matters about a named path -/
def addNamed (fs : FileSystem) (path : List Char) : IO FileSystem := do
  let mut fs ← addBelow (← addWay fs path) path isWalked
  for above in ['/'] :: way (Path.clean path) do
    fs ← addWay fs (Path.join [above, ".git".toList])
    match fs.gitDir? above with
    | some gitDir => fs ← addRepository fs gitDir
    | none => pure ()
  return fs

/-- the paths that a command line names -/
def named (home : Option (List Char)) (line : List (List Char)) : List (List Char) :=
  let (c, rest) := Command.select line
  match c.read rest with
  | .error _ => []
  | .ok line =>
    ((line.text "config" :: line.text "output" :: line.arguments).filter fun path => !path.isEmpty).filterMap
      fun path => (expandHome home path).toOption

/-- how the working directory is spelled by the environment, if that leads there -/
def spelling? (cwd : List Char) : IO (Option RootedPath) := do
  let spelled := ((← IO.getEnv "PWD").getD "").toList
  if h : Path.isAbs spelled = true then
    try
      let same := (← IO.FS.realPath (String.ofList spelled)) == (← IO.FS.realPath (String.ofList cwd))
      return if same then some ⟨spelled, h⟩ else none
    catch _ => return none
  else return none

/-- the files that a run can reach from a working directory, by its real names and as it is spelled -/
def take (cwd spelled : List Char) (paths : List (List Char)) : IO FileSystem := do
  let mut fs : FileSystem := ⟨.dir [], Path.names cwd⟩
  fs ← addWay fs cwd
  fs ← addWay fs (Path.join [cwd, Config.usualPath])
  for path in paths do
    for start in if Path.isAbs path then [[]] else [cwd ++ ['/'], spelled ++ ['/']] do
      fs ← addNamed fs (start ++ path)
  return fs

/-! ## Carrying out -/

/-- writes the files that are new or different -/
def save (before after : FileSystem) : IO Unit := do
  for (path, bytes) in before.changesBelow after [] do
    let path := '/' :: path
    IO.FS.createDirAll (String.ofList (Path.dir path))
    IO.FS.writeBinFile (String.ofList path) (ByteArray.mk bytes.toArray)

end Picture

/-- runs the program on real files -/
def runProgram (arguments : List String) : IO UInt32 := do
  let line := arguments.map String.toList
  let home := ((← IO.getEnv "HOME").filter (· ≠ "")).map String.toList
  let cwd := (← IO.currentDir).toString.toList
  let spelling ← Picture.spelling? cwd
  let files ← Picture.take cwd ((spelling.map RootedPath.text).getD cwd) (Picture.named home line)
  let env : Environment :=
    { files, home
      cwd := spelling.getD files.cwdPath
      logLevel := (← IO.getEnv "MOBILEAUDIT_LOG_LEVEL").getD ""
      guid := Guid.ofBytes (← IO.getRandomBytes 16).toList }
  let o := env.run line
  Picture.save files o.files
  (← IO.getStdout).write (ByteArray.mk o.stdout.toArray)
  IO.eprint o.stderr
  return o.exitCode.toNat.toUInt32

end AppAudit

def main (arguments : List String) : IO UInt32 := AppAudit.runProgram arguments
