import LoxLang.Command.Outcome
import LoxLang.Family.Module

/-! The command that writes the module of the language's own node types. -/

namespace LoxLang.Command

variable [Host]

/-- Writes the module into the directory that the only argument names. -/
def generate (disk : Disk) (arguments : List String) : Outcome :=
  match arguments with
  | [directory] =>
    let path := Path.ofString directory
    let target := path.child "ast.py"
    match disk.makeDirectories path with
    | .error error => { ending := .broken (.disk error), disk }
    | .ok made =>
      match Family.defineModule Family.standardFamilies with
      | .error error =>
        { ending := .status dataStatus, errors := error.message ++ "\n", disk := made }
      | .ok text =>
        match made.write target text.toUTF8 with
        | .ok written => { ending := .status 0, output := target.toString ++ "\n", disk := written }
        | .error error => { ending := .broken (.disk error), disk := made }
  | _ =>
    { ending := .status usageStatus, errors := "Usage: generate_ast <output directory>\n", disk }

end LoxLang.Command
