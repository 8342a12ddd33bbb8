import ScreenScript.CommandLine.Reply
import ScreenScript.Variables.File

namespace ScreenScript.CommandLine

open VariableFile (entriesToJson)

def listReply (json : Bool) (entries : NameMap VariableFile.Entry) : Reply :=
  if json then .ofJson 0 (entriesToJson entries)
  else
    { output := Reply.unlines (entries.toList.map fun (name, entry) =>
        s!"{name} = {entry.value.display}  (updated {entry.updated.display})") }

def valueReply (name : String) : Option Value → Reply
  | some value => { output := Reply.unlines [value.display] }
  | none =>
    { exitCode := Reply.failed, errors := Reply.unlines [s!"Error: variable '{name}' is not set"] }

variable {σ : Type}

def onVariables (d : Disk σ) (now : Timestamp) :
    VariablesRequest → Attempt (VariableFile × σ) Reply
  | .list json => do return listReply json (← get).1.entries
  | .get name => do return valueReply name ((← get).1.value? name)
  | .set name raw => do
    let value := Value.infer raw
    VariableFile.insert d now name value
    return { output := Reply.unlines [s!"{name} = {value.display}"] }
  | .unset name => do
    if ← VariableFile.remove d name then return {}
    return { errors := Reply.unlines [s!"variable '{name}' was not set"] }

def lasting (d : Disk σ) (c : Circumstances) (request : VariablesRequest) (disk : σ) : Reply × σ :=
  match VariableFile.load d disk c.environment.variablesPath with
  | .error f => (.fatally f.message, disk)
  | .ok file =>
    match (onVariables d c.now request).on (file, disk) with
    | (.ok reply, _, disk) => (reply, disk)
    | (.error f, _, disk) => (.fatally f.message, disk)

end ScreenScript.CommandLine
