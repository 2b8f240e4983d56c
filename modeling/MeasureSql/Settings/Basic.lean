import MeasureSql.Render.Engine
import MeasureSql.Schema.Document
import MeasureSql.Settings.Reference
import MeasureSql.Settings.Surroundings
import MeasureSql.Toml.Reader
import MeasureSql.Validation.Report

/-!
# Settings

What an engine and a validator are set up with.  Settings are read from a TOML document with two
sections; what a section does not say has a default, and what is not known is passed over.  The file
of the schema may be named by means of environment variables.

## Main definitions

* `Settings` — the settings, and `Settings.ofText` reads them.
* `SettingsError` — why they cannot be had.
* `Settings.load` — the settings found in the surroundings.
* `Settings.engine`, `Settings.validator` — what is set up with them.
-/

namespace MeasureSql

/-- Why settings, or the schema they name, cannot be had. -/
inductive SettingsError where
  | fileNotFound (path : String)
  | unreadable
  | malformed
  | missingVariable (name : String)
  | badSchema (path : String)
  deriving DecidableEq, Repr

/-- What is said of a cause that is known in full. -/
def SettingsError.message? : SettingsError → Option String
  | .fileNotFound path => some ("Config file not found: " ++ path)
  | .missingVariable name => some ("Missing environment variable: " ++ name)
  | _ => none

/-- What an engine is set up with. -/
structure EngineSettings where
  dialect : Dialect := .snowflake
  enhanceBelow : Confidence := .medium
  schemaPath : Option String := none
  deriving DecidableEq, Repr

/-- The settings. -/
structure Settings where
  engineSettings : EngineSettings := {}
  validation : ValidationOptions := {}
  deriving DecidableEq, Repr

/-! ## Reading sections -/

namespace Toml

/-- The values of the fields of a section, in their order.  A section is a table, or an array with
the values of the first fields. -/
def fields? (names : List String) : Toml → Option (List (Option Toml))
  | .table entries => some (names.map fun name => entries.lookup name)
  | .array items => some ((List.range names.length).map fun i => items[i]?)
  | _ => none

/-- A field that may be left out. -/
def fieldOr? {α : Type} (default : α) (read : Toml → Option α) : Option Toml → Option α
  | some value => read value
  | none => some default

/-- Is this an array or a table without anything in it? -/
def isEmpty : Toml → Bool
  | .array [] | .table [] => true
  | _ => false

/-- One of a set of words, given as a text or as the key of the only entry of a table, which is
empty. -/
def word? {α : Type} (ofName? : String → Option α) : Toml → Option α
  | .text s => ofName? s
  | .table [(key, value)] => if value.isEmpty then ofName? key else none
  | _ => none

/-- A text. -/
def someText? : Toml → Option (Option String)
  | .text s => some (some s)
  | _ => none

/-- A truth value. -/
def boolean? : Toml → Option Bool
  | .boolean b => some b
  | _ => none

/-- A natural number of no more than 64 bits. -/
def count? : Toml → Option Nat
  | .integer n => if 0 ≤ n && n < 0x10000000000000000 then some n.toNat else none
  | _ => none

end Toml

/-- The engine's section. -/
def EngineSettings.ofToml? (t : Toml) : Option EngineSettings := do
  let [dialect, below, path] ← t.fields? ["dialect", "enhance_below", "schema_path"] | none
  let dialect ← Toml.fieldOr? .snowflake (Toml.word? Dialect.ofDocument?) dialect
  let enhanceBelow ← Toml.fieldOr? .medium (Toml.word? Confidence.ofDocument?) below
  let schemaPath ← Toml.fieldOr? none Toml.someText? path
  some { dialect, enhanceBelow, schemaPath }

/-- The validator's section. -/
def ValidationOptions.ofToml? (t : Toml) : Option ValidationOptions := do
  let [check, execute, limit] ← t.fields? ["syntax_check", "execute", "row_limit"] | none
  let syntaxCheck ← Toml.fieldOr? true Toml.boolean? check
  let execute ← Toml.fieldOr? false Toml.boolean? execute
  let rowLimit ← Toml.fieldOr? 1 Toml.count? limit
  some { syntaxCheck, execute, rowLimit }

namespace Settings

/-- The settings of a document. -/
def ofToml? (t : Toml) : Option Settings := do
  let engineSettings ← Toml.fieldOr? {} EngineSettings.ofToml? (t.get? "translator")
  let validation ← Toml.fieldOr? {} ValidationOptions.ofToml? (t.get? "validator")
  some { engineSettings, validation }

/-- The settings of a text. -/
def ofText (text : String) : Except SettingsError Settings :=
  match (Toml.read? text).bind ofToml? with
  | some settings => .ok settings
  | none => .error .malformed

/-! ## Files -/

/-- The text of a file. -/
def readFile (w : Surroundings) (path : String) : Except SettingsError String :=
  match w.entry? path with
  | some (.file content) => .ok content
  | some .directory => .error .unreadable
  | none => .error (.fileNotFound path)

/-- The settings of a file. -/
def ofFile (w : Surroundings) (path : String) : Except SettingsError Settings := do
  ofText (← readFile w path)

/-- The variable that names the file with the settings. -/
def fileVariable : String := "DAXSQL_CONFIG"

/-- The file with the settings when no variable names one. -/
def defaultFile : String := "daxsql.toml"

/-- The settings found in the surroundings: in the file that a variable names, or else in the
default file if it is there. -/
def load (w : Surroundings) : Except SettingsError Settings :=
  match w.valueOf? fileVariable with
  | some path => ofFile w path
  | none => if (w.entry? defaultFile).isSome then ofFile w defaultFile else .ok {}

/-- The schema that the settings name, if they do. -/
def loadSchema (s : Settings) (w : Surroundings) : Except SettingsError (Option Schema) :=
  match s.engineSettings.schemaPath with
  | none => .ok none
  | some raw => do
    let path ← (expand w.valueOf? raw).mapError .missingVariable
    match Schema.ofText? (← readFile w path) with
    | some schema => .ok (some schema)
    | none => .error (.badSchema path)

/-! ## What is set up -/

/-- The engine that the settings describe, with a helper if there is one. -/
def engine (s : Settings) (w : Surroundings) (enhancer : Option (EnhanceRequest → Enhancement)) :
    Except SettingsError Engine := do
  let schema ← s.loadSchema w
  .ok { schema, dialect := s.engineSettings.dialect, enhancer,
        enhanceBelow := s.engineSettings.enhanceBelow }

/-- The validator that the settings describe. -/
def validator (s : Settings) : Validator :=
  { dialect := s.engineSettings.dialect }

/-- The settings as a JSON value. -/
def toJson (s : Settings) : Json :=
  .obj
    [("translator", .obj
        [("dialect", .str s.engineSettings.dialect.name),
         ("enhance_below", .str s.engineSettings.enhanceBelow.name),
         ("schema_path", .optional s.engineSettings.schemaPath)]),
     ("validator", .obj
        [("syntax_check", .bool s.validation.syntaxCheck), ("execute", .bool s.validation.execute),
         ("row_limit", .nat s.validation.rowLimit)])]

end Settings

end MeasureSql
