import RaftAdmin.Http.Client
import RaftAdmin.Log.Filter
import RaftAdmin.Log.Settings
import RaftAdmin.Script.Session
import RaftAdmin.Shell.Run
import RaftAdmin.Site.Load

/-!
# The program

A whole run of the program: from its arguments, its environment, the files and the network to its
output, its log and its exit code.

## The model

The site file is loaded before it is known what to log, so nothing is logged until then. Whatever
goes wrong before a command is run ends the program with a line of output.
-/

namespace RaftAdmin.Program

/-- What a run leaves behind. -/
structure Outcome (τ : Type) where
  /-- The exit code. -/
  code : Int
  /-- The output. -/
  output : String
  /-- The format of the log. -/
  format : LogFormat
  /-- The log. -/
  log : List LogEvent
  /-- The state of the network. -/
  network : τ

/-- The exit code as the operating system keeps it. -/
def exitStatus (code : Int) : UInt8 := UInt8.ofNat (code % 256).toNat

/-- The event for a configuration with a site file. -/
def usingSiteFile (path : String) : LogEvent :=
  .debug .program ("Using site properties from " ++ path)

/-- Runs a script that starts with some events already reported. -/
def runScript {τ : Type} (k : Connector τ) (c : Configuration) (settings : LogSettings)
    (events : List LogEvent) (p : Script Int) (network : τ) : Outcome τ :=
  let (code, s) := Session.run k p (.start network c none)
  ⟨code, s.sink.written, settings.format,
    (events ++ s.events).filter (LogFilter.ofText settings.filter).passes, s.cluster⟩

/-- The outcome of a run that ends before a command is run. -/
def abort {τ : Type} (format : LogFormat) (log : List LogEvent) (message : String) (network : τ) :
    Outcome τ :=
  ⟨exitError, message ++ "\n", format, log, network⟩

/-- Runs what the command line asks for, when it is known what to log. -/
def runConfigured {τ : Type} (t : Http.Transport τ) (line : Arguments.CommandLine)
    (c : Configuration) (settings : LogSettings) (network : τ) : Outcome τ :=
  let events := c.siteFile?.toList.map usingSiteFile
  match Http.Settings.read c with
  | (.error e, _) =>
    abort settings.format (events.filter (LogFilter.ofText settings.filter).passes) e.chainMessage
      network
  | (.ok http, c) =>
    let script :=
      match line.command? with
      | some command => Shell.execute c command
      | none => Shell.explainUsage
    runScript (Http.connector http t) c settings events script network

/-- Runs what the command line asks for. -/
def runLine {τ : Type} (env : Environment) (files : FileTree) (t : Http.Transport τ)
    (line : Arguments.CommandLine) (network : τ) : Outcome τ :=
  match (Configuration.load env files line.path?).1 with
  | .error e => abort .text [] ("loading site properties: " ++ e.chainMessage) network
  | .ok c =>
    match LogSettings.read c line.logFormat? env.logFilter? with
    | (.error e, _) => abort .text [] e.chainMessage network
    | (.ok settings, c) => runConfigured t line c settings network

/-- The paths that a run may read. -/
def sitePaths (env : Environment) (words : List OsText) : List OsText :=
  match Arguments.read words with
  | .error _ => []
  | .ok line => Configuration.sitePaths env line.path?

/-- Runs the program with its arguments, the name of the program first. -/
def run {τ : Type} (env : Environment) (files : FileTree) (t : Http.Transport τ)
    (words : List OsText) (network : τ) : Outcome τ :=
  match Arguments.read words with
  | .error stop =>
    ⟨Help.exitCode stop, String.join (Help.fragments (Shell.programName words) stop), .text, [],
      network⟩
  | .ok line => runLine env files t line network

end RaftAdmin.Program
