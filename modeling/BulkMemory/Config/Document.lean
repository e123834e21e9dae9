import BulkMemory.Config
import BulkMemory.Toml.Document

/-!
# Settings in a document

A configuration is written as a TOML document. Each setting has a key of its own at the top level;
a key that is missing leaves the default, and all other keys are ignored.
-/

namespace BulkMemory.Config
set_option autoImplicit false

/-- A document reader: the table of a text, or `none` for a text that is no document. -/
abbrev DocumentReader := String → Option Toml.Entries

/-- The text that a key stands for, or the default where the key is missing. -/
def setting (entries : Toml.Entries) (key default : String) : Except ConfigError String :=
  match entries.lookup key with
  | none => .ok default
  | some (.string text) => .ok text
  | some _ => .error (.malformed ("expected a string for " ++ key))

/-- The configuration that a table holds, unchecked. -/
def ofEntries (entries : Toml.Entries) : Except ConfigError Config := do
  let defaults : Config := {}
  return {
    copyName := ← setting entries "copy_function" defaults.copyName
    fillName := ← setting entries "fill_function" defaults.fillName
    indent := ← setting entries "indent" defaults.indent }

/-- The configuration that a text holds, checked. -/
def ofText (read : DocumentReader) (text : String) : Except ConfigError Config := do
  match read text with
  | none => throw (.malformed "the text is not a TOML document")
  | some entries =>
    let config ← ofEntries entries
    config.check
    return config

end BulkMemory.Config
