/-
The synchronous side of the conversion boundary: what the payload converter
makes of a value, and of a payload, with no codec in between.
-/
import Dbosify.Values

namespace Dbosify

/-- The process's data converter, with its payload converter's own encoding. -/
structure SyncConverter extends Converter where
  encodeSync : List Value → Except String (List Payload)

/-- `conversion.encode_values_sync`. -/
def encodeValuesSync (c : SyncConverter) (values : List Value) : Except Exc (List Payload) :=
  converted (c.encodeSync values)

/-- `conversion.encode_value_sync`. -/
def encodeValueSync (c : SyncConverter) (value : Value) : Except Exc Payload := do
  match ← encodeValuesSync c [value] with
  | p :: _ => .ok p
  | [] => .error (.conversionError "list index out of range")

/-- Payloads that come back the same when each is decoded without a hint and
they are encoded again. -/
def Stable (c : SyncConverter) (ps : List Payload) : Prop :=
  (ps.mapM (decodeValueSync c.toConverter) >>= encodeValuesSync c) = .ok ps

instance (c : SyncConverter) (ps : List Payload) : Decidable (Stable c ps) := by
  unfold Stable; infer_instance

end Dbosify
