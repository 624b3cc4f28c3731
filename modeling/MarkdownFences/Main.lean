import MarkdownFences.Program
import Std.Time.Format

namespace MarkdownFences

def Store.takeIn (s : Store) (p : Path) : IO Store := do
  let here ← IO.currentDir
  let mut s := s
  for n in [0:p.names.length] do
    let part : Path := ⟨p.slashes, p.names.take (n + 1)⟩
    let file := here / String.ofList part.text
    if let .ok names := s.resolve part then
      if ← file.isDir then s := s.put names .directory
      else if ← file.pathExists then
        if let .ok bytes ← (IO.FS.readBinFile file).toBaseIO then
          s := s.put names (.file bytes.toList)
  return s

def Store.bringOut (old new : Store) : IO Unit := do
  let here ← IO.currentDir
  for (p, bytes) in new.files do
    unless (old.read p).toOption == some bytes do
      let file := here / String.ofList p.text
      if let some directory := file.parent then IO.FS.createDirAll directory
      IO.FS.writeBinFile file ⟨bytes.toArray⟩

def namedVariables (envFile : Text) : IO (List (Text × List UInt8)) := do
  let names := Settings.Field.all.flatMap fun f => [f.name, f.name.toUpper]
  let references := (Settings.EnvFile.references envFile).map String.ofList
  (names ++ references).filterMapM fun n => do
    return (← IO.getEnv n).map fun v => (n.toList, v.toUTF8.toList)

def noLine (_ : Text) (_ : Unit) (_ : Remote.Request) : Unit × Remote.Reply :=
  ((), .fault ⟨"unreachable", .transport, none, "connection refused".toList⟩)

def write (out : IO.FS.Stream) (t : Text) : IO Unit := do
  out.putStr (String.ofList t)
  out.flush

def now : IO Text := do
  return ((← Std.Time.PlainDateTime.now).format "uuuu-MM-dd'T'HH:mm:ss").toList

def writeFault (f : Fault) : IO UInt32 := do
  write (← IO.getStderr) ("Error: ".toList ++ f.message ++ ['\n'])
  return 1

def surroundings (arguments : List Text) : IO (Program.Surroundings Unit) := do
  let store ← Store.empty.takeIn (.ofString ".env")
  let envFile := Text.ofUtf8Lossy ((Program.envFile store).getD [])
  let environment ← namedVariables envFile
  let mut store := store
  if let .ok (.ok p) := Program.prepare arguments environment store then
    store ← store.takeIn p.settings.cachePath
    for a in p.arguments.paths do
      store ← store.takeIn (.ofText a)
  return {
    environment, store
    root := (← IO.currentDir).toString.toList
    listing := .notThere
    send := noLine
    line := ()
    interactive := ← (← IO.getStdout).isTty }

def runHere (arguments : List Text) : IO UInt32 := do
  let w ← surroundings arguments
  let started ← IO.monoMsNow
  let stage ← IO.lazyPure fun _ => Program.examine arguments w
  let ended ← IO.monoMsNow
  match stage.bind (·.conclude w (.ratio (ended - started) 1000)) with
  | .error f => writeFault f
  | .ok o =>
    Store.bringOut w.store o.store
    write (← IO.getStdout) o.ending.output
    let time ← now
    for n in o.ending.notices do
      write (← IO.getStderr) (n.render time ++ ['\n'])
    return UInt32.ofNat (o.ending.code.getD 0)

end MarkdownFences

def main (arguments : List String) : IO UInt32 :=
  MarkdownFences.runHere (arguments.map String.toList)
