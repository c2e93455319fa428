import Lineage.Law.Parameters
import Lineage.Toml.Reader

/-!
# Settings

The settings of a deployment are the parameters of the birth law and how to log. They are kept in
TOML files; the logging part may be left out.
-/

namespace Lineage

/-- How to log. -/
structure Logging where
  level : String
  json : Bool
  deriving DecidableEq

namespace Logging

instance : Inhabited Logging := ⟨"info", false⟩

def toJson (l : Logging) : Json := .object [("level", .string l.level), ("json", .bool l.json)]

def decode : Decoder Logging := fun j => do
  let form := Form.field "level" Decoder.string <| .field "json" Decoder.bool .empty
  match ← form.read j with
  | (some level, some json, ()) => return ⟨level, json⟩
  | _ => .error .malformed

end Logging

structure Settings where
  law : Law.Parameters
  logging : Logging
  deriving DecidableEq

namespace Settings

instance : Inhabited Settings := ⟨default, default⟩

def toJson (s : Settings) : Json :=
  .object [("natural_law", s.law.toJson), ("logging", s.logging.toJson)]

def decode : Decoder Settings := fun j => do
  let form := Form.field "natural_law" Law.Parameters.decode <|
    .field "logging" Logging.decode .empty
  match ← form.read j with
  | (some law, logging, ()) => return ⟨law, logging.getD default⟩
  | _ => .error .malformed

/-- Why a file gives no settings. -/
inductive Error where
  /-- There is no such file, or it is not UTF-8 text. -/
  | unreadable
  /-- The text is not TOML, or not of the right shape. -/
  | malformed
  | law (e : Law.ParameterError)
  deriving DecidableEq

end Settings

/-- The fields of a record that a TOML value gives: a table by their names, an array by their
order. Other entries are passed over. -/
def Toml.Value.field? (index : Nat) (name : String) : Toml.Value → Option Toml.Value
  | .table _ entries => entries.lookup name
  | .array items => items[index]?
  | .tables lastFirst => lastFirst.reverse[index]?.map (.table .opened)
  | _ => none

def Toml.Value.steps? : Toml.Value → Option Steps
  | .integer n => if 0 ≤ n then some (UInt64.ofNat n.toNat) else none
  | _ => none

/-- Applies a reader to a value that may be missing. -/
def Toml.Value.whenPresent (read : Toml.Value → Option α) :
    Option Toml.Value → Option (Option α)
  | none => some none
  | some v => (read v).map some

def Law.Parameters.ofToml? (v : Toml.Value) : Option Law.Parameters := do
  let minLifetime ← (← v.field? 0 "min_lifetime").steps?
  let genesisLifetime ← Toml.Value.whenPresent Toml.Value.steps? (v.field? 1 "genesis_lifetime")
  return ⟨minLifetime, genesisLifetime⟩

def Logging.ofToml? (v : Toml.Value) : Option Logging := do
  match ← v.field? 0 "level", ← v.field? 1 "json" with
  | .string level, .boolean json => return ⟨level, json⟩
  | _, _ => none

namespace Settings

def ofToml? (entries : Toml.Entries) : Option Settings := do
  let law ← Law.Parameters.ofToml? (← entries.lookup "natural_law")
  let logging ← Toml.Value.whenPresent Logging.ofToml? (entries.lookup "logging")
  return ⟨law, logging.getD default⟩

/-- The settings that a TOML text gives. A text of the wrong shape is refused before its
parameters are looked at. -/
def parse (text : String) : Except Error Settings :=
  match (Toml.parse? text).bind ofToml? with
  | none => .error .malformed
  | some s =>
    match s.law.validate with
    | .error e => .error (.law e)
    | .ok () => .ok s

/-- The settings in a file with these contents; `none` stands for a file that is not there. -/
def ofFile (contents : Option Octets) : Except Error Settings :=
  match contents.bind fun b => String.fromUTF8? ⟨b.toArray⟩ with
  | none => .error .unreadable
  | some text => parse text

end Settings

end Lineage
