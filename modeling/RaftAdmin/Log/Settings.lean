import RaftAdmin.Config.Typed

/-!
# Log settings

What is logged, and how: the filter comes from the environment or from a property, the format from
the command line or from a property.
-/

namespace RaftAdmin

/-- Filter and format of the logs. -/
structure LogSettings where
  /-- The text of the filter. -/
  filter : String
  /-- The format. -/
  format : LogFormat
deriving DecidableEq, Repr

namespace LogSettings

/-- The filter: a nonempty one of the environment wins over the property. -/
def filterOf (c : Configuration) (environment? : Option String) :
    Except ConfigError String × Configuration :=
  match environment? with
  | some filter =>
    if filter.isEmpty then (c.get .loggerLevel, c.afterReading .loggerLevel) else (.ok filter, c)
  | none => (c.get .loggerLevel, c.afterReading .loggerLevel)

/-- The format: one of the command line wins over the property. -/
def formatOf (c : Configuration) (option? : Option LogFormat) :
    Except ConfigError LogFormat × Configuration :=
  match option? with
  | some format => (.ok format, c)
  | none => (c.getLogFormat .loggerFormat, c.afterReading .loggerFormat)

/-- The settings, and the configuration after reading them. -/
def read (c : Configuration) (option? : Option LogFormat) (environment? : Option String) :
    Except ConfigError LogSettings × Configuration :=
  match filterOf c environment? with
  | (.error e, c) => (.error e, c)
  | (.ok filter, c) =>
    match formatOf c option? with
    | (.error e, c) => (.error e, c)
    | (.ok format, c) => (.ok ⟨filter, format⟩, c)

end LogSettings

end RaftAdmin
