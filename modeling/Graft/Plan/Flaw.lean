/-!
# Flaws of a plan line

Why a line of a plan, a literal or an instruction in it cannot be read.
-/

namespace Graft.Plan

/-- What is wrong with a text that should be an operation, a literal or an instruction. -/
inductive Flaw where
  /-- The line ends where a word should stand. -/
  | missing (what : String)
  | notNatural (what word : String)
  | badOperand (what word : String)
  /-- Text is left over behind the last operand. -/
  | trailing (rest : String)
  | unknownInstruction (word : String)
  | unknownOperation (word : String)
  /-- A literal without the colon that ends its kind. -/
  | noKind (literal : String)
  | unknownKind (kind : String)
  | badLiteral (kind payload : String)
  | blankInLiteral (literal : String)
  deriving DecidableEq, Repr

/-- The wording of a flaw. -/
def Flaw.message : Flaw → String
  | .missing what => "missing " ++ what
  | .notNatural what word => what ++ " must be a non-negative integer, got `" ++ word ++ "`"
  | .badOperand what word => "invalid " ++ what ++ " `" ++ word ++ "`"
  | .trailing rest => "unexpected trailing `" ++ rest ++ "`"
  | .unknownInstruction word => "unsupported instruction `" ++ word ++ "`"
  | .unknownOperation word => "unknown operation `" ++ word ++ "`"
  | .noKind literal => "literal `" ++ literal ++ "` has no `kind:` prefix"
  | .unknownKind kind => "unknown literal kind `" ++ kind ++ "`"
  | .badLiteral kind payload => "invalid " ++ kind ++ " literal `" ++ payload ++ "`"
  | .blankInLiteral literal => "unexpected whitespace in literal `" ++ literal ++ "`"

end Graft.Plan
