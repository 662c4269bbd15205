import LoxLang.Disk
import LoxLang.Session

/-! How a command ends, and what it leaves behind. -/

namespace LoxLang

/-- Why a command breaks off without a status of its own. -/
inductive Breakdown where
  | session (failure : Failure)
  | disk (error : DiskError)
  | undecodable
  /-- The debug file is asked for without a name. -/
  | unnamedDebugFile

/-- The wording of a breakdown. -/
def Breakdown.message : Breakdown → String
  | session failure => failure.message
  | disk error => error.message
  | undecodable => "not UTF-8 text"
  | unnamedDebugFile => "expected str, bytes or os.PathLike object, not list"

/-- How a command ends. -/
inductive Ending where
  | status (code : Nat)
  | broken (cause : Breakdown)

/-- What a command leaves behind. -/
structure Outcome where
  ending : Ending
  output : String := ""
  errors : String := ""
  disk : Disk
  /-- The variables of the outermost scope at the end. -/
  globals : Bindings := []

/-- The status of a command that was called in a wrong way. -/
def usageStatus : Nat := 64

/-- The status of a command whose input is not what it should be. -/
def dataStatus : Nat := 65

/-- The status of a command that misses a file. -/
def missingStatus : Nat := 1

end LoxLang
