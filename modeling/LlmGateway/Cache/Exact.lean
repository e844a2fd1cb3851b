/-
The key of the exact-match cache, `exact.rs`.
-/
import LlmGateway.State

namespace LlmGateway

/-- What is hashed: the model, a zero byte, and the payload. -/
def keyBytes (model promptPayload : String) : List UInt8 :=
  asBytes model ++ 0 :: asBytes promptPayload

/-- `ExactCache::compute_key`: no key for a positive temperature. -/
def computeKey (x : Crates) (model promptPayload : String) (temperature : F32) : Option String :=
  if temperature.gtZero then none
  else some ("exact:" ++ x.sha256Hex (keyBytes model promptPayload))

end LlmGateway
