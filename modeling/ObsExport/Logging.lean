import ObsExport.Error
import ObsExport.Text.Lowercase

/-!
# Logging set-up

Events are filtered by a directive that names the program and the least level to show. A process
has one logger: once one is installed, installing another fails.
-/

namespace ObsExport.Logging

/-- The directive for a level, which may be spelled in any case. -/
def directive (level : String) : String := "bufr_ingester=" ++ Text.lowercase level

/-- Installs the logger of a process, unless it has one. -/
def install (installed : Bool) : Except Error Unit :=
  if installed then .error (.configuration .loggerInstalled) else .ok ()

end ObsExport.Logging
