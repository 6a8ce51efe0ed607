import Reclaim.Path.Basic

/-!
Where the files of the settings are. The directory of settings lies in the one that the
environment names for settings, or else in `.config` under the home directory.
-/

namespace Reclaim

structure Environment where
  home : String
  configHome : Option String
deriving DecidableEq, Repr

namespace Environment

/-- The home directory without slashes at its end; there is none if it is written with a tilde. -/
def homeDirectory? (env : Environment) : Option Path :=
  let kept := (env.home.toList.reverse.dropWhile (· = '/')).reverse
  if kept.head? = some '~' then none
  else if kept.isEmpty then some (.ofText "/")
  else some (.ofText (String.ofList kept))

def applicationName : String := "filereaper"

def configDirectory? (env : Environment) : Option Path :=
  match env.configHome with
  | some base =>
      if base = "" then fromHome else some ((Path.ofText base).child applicationName)
  | none => fromHome
where
  fromHome : Option Path :=
    env.homeDirectory?.map fun home => (home.child ".config").child applicationName

def trackerConfigPath? (env : Environment) : Option Path :=
  env.configDirectory?.map (·.child "tracker.toml")

def themePath? (env : Environment) : Option Path :=
  env.configDirectory?.map (·.child "theme.toml")

end Environment
end Reclaim
