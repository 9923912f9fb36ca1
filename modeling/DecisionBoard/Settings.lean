import DecisionBoard.Entries
import DecisionBoard.Number.Numeral
import DecisionBoard.Number.Quantity
import DecisionBoard.Text.Upper

/-!
# Settings

The settings of a host, read from environment variables. A variable that is empty counts as not
set, but for the log level, and a number that cannot be read gives the default.
-/

namespace DecisionBoard

/-- What a host is configured with. -/
structure Settings where
  storePath : Option String := none
  userId : Option String := none
  /-- How many seconds to wait for a connected server. -/
  connectedTimeout : Quantity := .real 30
  logLevel : String := "INFO"
  /-- How many sessions to list at most, unless a call says otherwise. -/
  sessionListLimit : Int := 20

namespace Settings

/-- The value of a variable that is not empty. -/
def nonempty? (env : Entries String String) (name : String) : Option String :=
  (Entries.get? env name).filter (· ≠ "")

/-- The settings that an environment gives. -/
def ofEnvironment (env : Entries String String) : Settings :=
  let defaults : Settings := {}
  { storePath := nonempty? env "FORGE_STORE_PATH"
    userId := nonempty? env "FORGE_USER_ID"
    connectedTimeout :=
      (((nonempty? env "FORGE_CONNECTED_TIMEOUT").bind Numeral.realNumber?).map .real).getD
        defaults.connectedTimeout
    logLevel := ((Entries.get? env "FORGE_LOG_LEVEL").map Text.upper).getD defaults.logLevel
    sessionListLimit :=
      ((nonempty? env "FORGE_SESSION_LIST_LIMIT").bind fun s =>
        (Numeral.wholeNumber? s).toOption).getD defaults.sessionListLimit }

end Settings

end DecisionBoard
