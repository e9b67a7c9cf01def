import RexxService.Completion

/-!
# Configuration and settings

The configuration of a store, and the settings by which a client adjusts it.
-/

/-!
## JSON values

Settings arrive as JSON values and messages leave as JSON values.  A number written with a fraction or
an exponent is kept apart from an integer, because a setting that is a count accepts integers only.
-/

namespace RexxService

inductive Json where
  | null
  | bool (value : Bool)
  /-- A number written without fraction and exponent. -/
  | integer (value : Int)
  /-- A number written in any other way. -/
  | decimal (literal : String)
  | string (text : String)
  | array (elements : List Json)
  | object (members : List (String × Json))
deriving Inhabited, Repr

namespace Json

def nat (n : Nat) : Json := .integer n

def member? (key : String) (members : List (String × Json)) : Option Json := members.lookup key

end Json

/-!
## Configuration

What a client can adjust: how completion matches names, how many analyses may run at once, and how
many milliseconds diagnostics wait after a document is opened or changed.
-/

structure Config where
  matching : Matching
  maxConcurrent : Nat
  openDelay : Nat
  changeDelay : Nat
deriving DecidableEq, Repr

namespace Config

/-- The configuration of a store that has been given none. -/
def standard : Config := ⟨.caseInsensitive, 2, 150, 250⟩

/-- The name under which a client keeps the settings. -/
def sectionName : String := "rexx.lsp"

end Config

/-!
## Settings

A client sends its settings as a JSON value.  The value is a record of the sections `completion`,
`performance` and `diagnostics`, and each section is a record too.  A record is written either as an
object, whose unknown members are ignored, or as an array of its fields in order, from which fields
at the end may be missing.  A field that is missing or `null` leaves the configuration as it is; a
section may be missing, but not `null`.

* **`Settings.decode`** reads a value, or refuses it as a whole;
* **`Config.merge`** applies a value to a configuration.
-/

inductive SettingsError where
  | malformed
deriving DecidableEq, Repr

namespace SettingsError

def message : SettingsError → String
  | malformed => "invalid `" ++ Config.sectionName ++ "` settings"

end SettingsError

/-- The adjustments that a settings value asks for. -/
structure Settings where
  matching : Option Matching
  maxConcurrent : Option Nat
  openDelay : Option Nat
  changeDelay : Option Nat
deriving DecidableEq, Repr

namespace Settings

/-- The first number that a count cannot hold. -/
def countLimit : Nat := 0x10000000000000000

/-- The values of the fields of a record. -/
def fields (names : List String) : Json → Except SettingsError (List (Option Json))
  | .object members => .ok (names.map fun name => Json.member? name members)
  | .array elements =>
      if elements.length ≤ names.length then
        .ok ((List.range names.length).map fun i => elements[i]?)
      else .error .malformed
  | _ => .error .malformed

/-- A way to match names, by its name alone or as an object with that one member. -/
def matchingOf : Json → Except SettingsError Matching
  | .string "caseSensitive" => .ok .caseSensitive
  | .string "caseInsensitive" => .ok .caseInsensitive
  | .object [("caseSensitive", .null)] => .ok .caseSensitive
  | .object [("caseInsensitive", .null)] => .ok .caseInsensitive
  | _ => .error .malformed

/-- A count, which is an integer in range. -/
def countOf : Json → Except SettingsError Nat
  | .integer i => if 0 ≤ i ∧ i < countLimit then .ok i.toNat else .error .malformed
  | _ => .error .malformed

/-- The value of a field that may be missing or `null`. -/
def optional {α : Type} (read : Json → Except SettingsError α) :
    Option Json → Except SettingsError (Option α)
  | none | some .null => .ok none
  | some v => return some (← read v)

/-- The fields of a section that may be missing. -/
def sectionFields (names : List String) : Option Json → Except SettingsError (List (Option Json))
  | none => .ok []
  | some v => fields names v

/-- A field of a record, by its number. -/
def fieldAt (values : List (Option Json)) (i : Nat) : Option Json := values[i]?.join

def decode (v : Json) : Except SettingsError Settings := do
  let sections ← fields ["completion", "performance", "diagnostics"] v
  let completion ← sectionFields ["matching"] (fieldAt sections 0)
  let matching ← optional matchingOf (fieldAt completion 0)
  let performance ← sectionFields ["maxConcurrent"] (fieldAt sections 1)
  let maxConcurrent ← optional countOf (fieldAt performance 0)
  let diagnostics ← sectionFields ["openDelayMs", "changeDelayMs"] (fieldAt sections 2)
  let openDelay ← optional countOf (fieldAt diagnostics 0)
  let changeDelay ← optional countOf (fieldAt diagnostics 1)
  return ⟨matching, maxConcurrent, openDelay, changeDelay⟩

end Settings

namespace Config

/-- The configuration with some adjustments.  A limit of zero analyses is no adjustment. -/
def adjust (config : Config) (s : Settings) : Config where
  matching := s.matching.getD config.matching
  maxConcurrent := (s.maxConcurrent.filter fun n => decide (0 < n)).getD config.maxConcurrent
  openDelay := s.openDelay.getD config.openDelay
  changeDelay := s.changeDelay.getD config.changeDelay

/-- Applies a settings value; the value `null` changes nothing. -/
def merge (config : Config) (v : Json) : Except SettingsError Config :=
  match v with
  | .null => .ok config
  | v => return config.adjust (← Settings.decode v)

/-- The standard configuration with a settings value applied. -/
def ofSettings (v : Json) : Except SettingsError Config := standard.merge v

end Config

end RexxService
