import SharpFront.Json.Reader
import SharpFront.Settings

/-!
# Settings and policies in JSON

Settings are a record in which every field may be missing; of a policy every field has to be there.
Codes and lines are whole numbers below 2 ^ 32.
-/

namespace SharpFront

namespace Json

open Reader

def word32 : Reader Nat := natural UInt32.size

def codeSet : Reader CodeSet := do return .ofList (← sequence word32)

/-- An action by its name, or as an object that gives the name no value. -/
def warningAction : Reader WarningAction := do
  let ofName (name : String) : Reader WarningAction :=
    if name = "Disable" then return .disable
    else if name = "Restore" then return .restore
    else throw .mismatch
  match ← peek with
  | '"' => ofName (← string)
  | '{' =>
    skip
    let action ← ofName (← string)
    colon
    null
    match ← peek with
    | '}' => skip; return action
    | _ => throw .malformed
  | _ => throw .malformed

def settingsFields : List (Reader.Field Settings) := [
  ⟨"defines", false, fun s => do return { s with defines := .ofList (← sequence string) }⟩,
  ⟨"disabled_warnings", false, fun s => do return { s with disabledWarnings := ← codeSet }⟩,
  ⟨"warnings_as_errors", false, fun s => do return { s with warningsAsErrors := ← codeSet }⟩,
  ⟨"keep_whitespace", false, fun s => do return { s with keepWhitespace := ← boolean }⟩,
  ⟨"keep_comments", false, fun s => do return { s with keepComments := ← boolean }⟩]

def entryFields : List (Reader.Field PolicyEntry) := [
  ⟨"from_line", true, fun e => do return { e with fromLine := ← word32 }⟩,
  ⟨"code", false, fun e => do return { e with code? := ← optional word32 }⟩,
  ⟨"action", true, fun e => do return { e with action := ← warningAction }⟩]

def policyEntry : Reader PolicyEntry := record entryFields ⟨0, none, .disable⟩

def policyFields : List (Reader.Field WarningPolicy) := [
  ⟨"disabled", true, fun p => do return { p with disabled := ← codeSet }⟩,
  ⟨"as_errors", true, fun p => do return { p with asErrors := ← codeSet }⟩,
  ⟨"entries", true, fun p => do return { p with entries := ← sequence policyEntry }⟩]

end Json

def Settings.ofJson (text : String) : Except Json.Error Settings :=
  (Json.Reader.record Json.settingsFields {}).whole text

def WarningPolicy.ofJson (text : String) : Except Json.Error WarningPolicy :=
  (Json.Reader.record Json.policyFields {}).whole text

end SharpFront
