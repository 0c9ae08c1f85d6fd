/-!
# Problems

What an analysis reports against a slot. A problem is data in the report and ends no run.
-/

namespace FirmScan

inductive Problem where
  /-- The slot's word cannot be read. -/
  | unreadable
  /-- The word points outside the code. -/
  | outOfRange
  /-- The word is an instruction, not a pointer. -/
  | instruction
  /-- No function starts where the word points. -/
  | noFunction
  /-- Writing is not enabled. -/
  | writesDisabled
  /-- A write failed, or reading it back did not confirm it. -/
  | unconfirmed
  /-- A pattern has a field that cannot be filled in. -/
  | badField (field : String)
  deriving DecidableEq, Repr

/-- The code that reports print. -/
def Problem.code : Problem → String
  | .unreadable => "TOOL_BINDING_MISSING"
  | .outOfRange => "OUT_OF_RANGE"
  | .instruction => "ARM_INSTRUCTION"
  | .noFunction => "NO_FUNCTION_AT_TARGET"
  | .writesDisabled => "WRITE_DISABLED_DRY_RUN"
  | .unconfirmed => "WRITE_VERIFY_FAILED"
  | .badField field => "FORMAT_ERROR:" ++ field

end FirmScan
