import RaftAdmin.Config.Basic
import RaftAdmin.Log.Event
import RaftAdmin.Site.FileTree
import RaftAdmin.Site.Nested
import RaftAdmin.Site.Properties

/-!
# Loading the site file

The site file supplies the defaults of an installation, such as the peers and the group id of each
service.

## The model

A site file that is named must be there. Otherwise the first one is taken that is found in the
directories to be searched, and without any the declared defaults remain. The path that is named
comes from the arguments and need not be a text; of the environment only texts are taken.
-/

namespace RaftAdmin

/-- What the program takes from its environment. -/
structure Environment where
  /-- The home directory. -/
  home? : Option String
  /-- A directory to be searched for the site file first. -/
  confDir? : Option String
  /-- The log filter. -/
  logFilter? : Option String
deriving DecidableEq, Repr, Inhabited

namespace Site

/-- The name of the site file in each directory. -/
def fileName : String := "quorumsh-site.properties"

/-- The directory that every installation may use. -/
def sharedDirectory : String := "/etc/quorumsh"

/-- The directories to be searched, in order. -/
def searchDirs (env : Environment) (confDir? : Option String) : List String :=
  (env.confDir?.filter (!·.isEmpty)).toList ++ confDir?.toList
    ++ (env.home?.map fun home => Path.join home ".quorumsh").toList ++ [sharedDirectory]

/-- The paths that a site file may have in directories. -/
def candidates (dirs : List String) : List String := dirs.map fun dir => Path.join dir fileName

/-- The first site file in directories. -/
def find? (files : FileTree) (dirs : List String) : Option String :=
  (candidates dirs).find? fun path => files.isFile path

/-- Whether the name of a file says that it is a YAML file. -/
def isYaml (path : OsText) : Bool :=
  Path.extension? path = some (.text "yaml") || Path.extension? path = some (.text "yml")

/-- The entries of a site file in order. -/
def load (files : FileTree) (path : OsText) : Except ConfigError (List (String × String)) :=
  match files.readText path with
  | .error fault => .error (.siteUnreadable path.shown fault)
  | .ok contents =>
    if isYaml path then Nested.read path.shown contents else Properties.read path.shown contents

/-- The event for a site file that was read. -/
def loadedEntries (path : String) (count : Nat) : LogEvent :=
  .debug .siteFile
    ("Loaded " ++ Text.numeral count ++ " entries from site file " ++ path)

end Site

namespace Configuration

/-- The event for a configuration with a site file. -/
def loadedFrom (path : String) : LogEvent :=
  .info .configuration ("Loaded site properties from " ++ path)

/-- The event for a configuration without a site file. -/
def noSiteFile : LogEvent :=
  .debug .configuration "No site properties file found, using defaults"

/-- The directories to be searched when no site file is named. -/
def siteDirs (env : Environment) : List String :=
  Site.searchDirs env (empty.get .confDir).toOption

/-- The site file to load: the one that is named, or the first that is found. -/
def siteFileFor (env : Environment) (files : FileTree) (path? : Option OsText) : Option OsText :=
  match path? with
  | some path => some path
  | none => (Site.find? files (siteDirs env)).map .text

/-- The paths that may be read in order to load the site file. -/
def sitePaths (env : Environment) (path? : Option OsText) : List OsText :=
  match path? with
  | some path => [path]
  | none => (Site.candidates (siteDirs env)).map .text

/-- The defaults and the site file, with what is logged about it. -/
def load (env : Environment) (files : FileTree) (path? : Option OsText) :
    Except ConfigError Configuration × List LogEvent :=
  match siteFileFor env files path? with
  | none => (.ok empty, [noSiteFile])
  | some path =>
    match Site.load files path with
    | .error e => (.error e, [])
    | .ok entries =>
      (.ok { empty.merge entries with siteFile? := some path.shown },
        [Site.loadedEntries path.shown entries.length, loadedFrom path.shown])

end Configuration

end RaftAdmin
