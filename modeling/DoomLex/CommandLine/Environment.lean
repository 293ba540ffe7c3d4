/-
The variables of the environment that the tool asks for: those that stand in for switches, and those
that tell where the user's files are.
-/
import DoomLex.CommandLine.Switch
import DoomLex.Path

namespace DoomLex

/-- The variables of the environment, by their names. -/
abbrev Environment := List (Text × Text)

namespace Environment

/-- The value of a variable. -/
def value? (env : Environment) (name : String) : Option Text := env.lookup name.toList

/-- The value that a variable gives to a switch. -/
def ofSwitch? (env : Environment) (s : Switch) : Option Text := s.environmentName?.bind env.value?

/-- The home directory. -/
def home? (env : Environment) : Option Path := ((env.value? "HOME").filter (· ≠ [])).map Path.mk

/-- The directory for the settings of programs: the one that is set, if its path starts at the root,
and else one in the home directory. -/
def configHome? (env : Environment) : Option Path :=
  (((env.value? "XDG_CONFIG_HOME").map Path.mk).filter (·.isAbsolute)).or
    (env.home?.map fun p => p.join (Path.ofString ".config"))

end Environment

end DoomLex
