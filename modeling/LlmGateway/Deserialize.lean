/-
Reading the typed requests, as serde derives it for `types.rs`.

A record is read from an object member by member: members no field is named after are
ignored, or collected where a flattened map asks for them.  A record without such a map
is also read from an array of its fields in order, which `serde_json` allows.  A field
that is an `Option` takes an absent member and `null` for `None`; a field with a default
takes only an absent one for it.  `none` is a rejection, whose text nothing here needs.

The JSON is a `Value`, so an object is a map and none of its keys is repeated.
-/
import LlmGateway.Types

namespace LlmGateway

/-! ### Numbers -/

namespace Number

/-- `i64`, which no floating point number is read as. -/
def asI64 : Number → Option Int64
  | .posInt n => if n.toNat < 2 ^ 63 then some (Int64.ofNat n.toNat) else none
  | .negInt n _ => some n
  | .float _ => none

/-- `u32`. -/
def asU32 : Number → Option UInt32
  | .posInt n => if n.toNat < 2 ^ 32 then some (UInt32.ofNat n.toNat) else none
  | _ => none

/-- `f32`, the nearest one. -/
def toF32 : Number → F32
  | .posInt n => .round false n.toNat 0
  | .negInt n _ => .round true n.toInt.natAbs 0
  | .float bits => .ofF64 bits

end Number

namespace Value

/-- `bool`. -/
def asBool : Value → Option Bool
  | .bool b => some b
  | _ => none

/-- `i64`. -/
def asI64 : Value → Option Int64
  | .number n => n.asI64
  | _ => none

/-- `u32`. -/
def asU32 : Value → Option UInt32
  | .number n => n.asU32
  | _ => none

/-- `f32`; any number is rounded to one. -/
def asF32 : Value → Option F32
  | .number n => some n.toF32
  | _ => none

/-- `Vec<T>`. -/
def asVec {α : Type} (read : Value → Option α) : Value → Option (List α)
  | .array l => l.mapM read
  | _ => none

end Value

/-! ### Members -/

/-- A map of these entries, if no key comes twice. -/
def HashMap.ofEntries (entries : List (String × Value)) : Option HashMap :=
  if h : (entries.map (·.1)).Nodup then some ⟨entries, h⟩ else none

/-- The entries under other keys: what `flatten` collects. -/
def HashMap.without (m : HashMap) (names : List String) : HashMap where
  entries := m.entries.filter fun e => e.1 ∉ names
  nodup := m.nodup.sublist (List.filter_sublist.map _)

/-- The members of an object. -/
def Value.asObject : Value → Option HashMap
  | .object entries => HashMap.ofEntries entries
  | _ => none

/-- The members of a record without a flattened map: those of an object, or the elements
of an array in the order of the fields, of which only the last ones may have defaults. -/
def Value.asStruct (names : List String) (least : Nat) : Value → Option HashMap
  | .object entries => HashMap.ofEntries entries
  | .array l =>
      if least ≤ l.length && l.length ≤ names.length then HashMap.ofEntries (names.zip l)
      else none
  | _ => none

namespace HashMap

variable {α : Type} (m : HashMap) (key : String)

/-- A field that must be there. -/
def required (read : Value → Option α) : Option α := (m.entries.lookup key).bind read

/-- A field under `#[serde(default = ..)]`. -/
def defaulted (default : α) (read : Value → Option α) : Option α :=
  match m.entries.lookup key with
  | none => some default
  | some v => read v

/-- A field that is an `Option`. -/
def optional (read : Value → Option α) : Option (Option α) :=
  match m.entries.lookup key with
  | none => some none
  | some .null => some none
  | some v => (read v).map some

end HashMap

/-! ### Chat completions -/

/-- A function call, with both its fields. -/
def FunctionCall.deserialize (v : Value) : Option FunctionCall := do
  let m ← v.asStruct ["name", "arguments"] 2
  let name ← m.required "name" Value.asStr
  let arguments ← m.required "arguments" Value.asStr
  return { name, arguments }

/-- A tool call, with all its fields. -/
def ToolCall.deserialize (v : Value) : Option ToolCall := do
  let m ← v.asStruct ["id", "type", "function"] 3
  let id ← m.required "id" Value.asStr
  let type ← m.required "type" Value.asStr
  let function ← m.required "function" FunctionCall.deserialize
  return { id, type, function }

/-- The first variant that fits. -/
def MessageContent.deserialize (v : Value) : Option MessageContent :=
  ((v.asStr).map .text).or ((v.asArray).map .parts)

/-- A message; only its role is required. -/
def Message.deserialize (v : Value) : Option Message := do
  let m ← v.asStruct ["role", "content", "name", "tool_calls", "tool_call_id"] 5
  let role ← m.required "role" Value.asStr
  let content ← m.optional "content" MessageContent.deserialize
  let name ← m.optional "name" Value.asStr
  let toolCalls ← m.optional "tool_calls" (Value.asVec ToolCall.deserialize)
  let toolCallId ← m.optional "tool_call_id" Value.asStr
  return { role, content, name, toolCalls, toolCallId }

/-- The definition of a function; only its name is required. -/
def FunctionDef.deserialize (v : Value) : Option FunctionDef := do
  let m ← v.asStruct ["name", "description", "parameters"] 3
  let name ← m.required "name" Value.asStr
  let description ← m.optional "description" Value.asStr
  let parameters ← m.optional "parameters" some
  return { name, description, parameters }

/-- A tool, with both its fields. -/
def Tool.deserialize (v : Value) : Option Tool := do
  let m ← v.asStruct ["type", "function"] 2
  let type ← m.required "type" Value.asStr
  let function ← m.required "function" FunctionDef.deserialize
  return { type, function }

/-- A response format; its schema may be missing. -/
def ResponseFormat.deserialize (v : Value) : Option ResponseFormat := do
  let m ← v.asStruct ["type", "json_schema"] 2
  let type ← m.required "type" Value.asStr
  let jsonSchema ← m.optional "json_schema" some
  return { type, jsonSchema }

/-- The first variant that fits. -/
def StopTokens.deserialize (v : Value) : Option StopTokens :=
  ((v.asStr).map .single).or ((v.asVec Value.asStr).map .multiple)

/-- Stream options; usage is not included by default. -/
def StreamOptions.deserialize (v : Value) : Option StreamOptions := do
  let m ← v.asStruct ["include_usage"] 0
  let includeUsage ← m.defaulted "include_usage" false Value.asBool
  return { includeUsage }

/-- `default_temperature` and `default_top_p`: 1.0. -/
def F32.one : F32 := ⟨0x3f800000⟩

/-- The declared fields of a chat request. -/
def ChatCompletionRequest.names : List String :=
  ["model", "messages", "stream", "stream_options", "temperature", "top_p", "seed", "tools",
    "tool_choice", "response_format", "max_tokens", "stop"]

/-- A chat request; what is no declared field goes to the flattened map. -/
def ChatCompletionRequest.deserialize (v : Value) : Option ChatCompletionRequest := do
  let m ← v.asObject
  let model ← m.required "model" Value.asStr
  let messages ← m.defaulted "messages" [] (Value.asVec Message.deserialize)
  let stream ← m.defaulted "stream" false Value.asBool
  let streamOptions ← m.optional "stream_options" StreamOptions.deserialize
  let temperature ← m.defaulted "temperature" .one Value.asF32
  let topP ← m.defaulted "top_p" .one Value.asF32
  let seed ← m.optional "seed" Value.asI64
  let tools ← m.optional "tools" (Value.asVec Tool.deserialize)
  let toolChoice ← m.optional "tool_choice" some
  let responseFormat ← m.optional "response_format" ResponseFormat.deserialize
  let maxTokens ← m.optional "max_tokens" Value.asU32
  let stop ← m.optional "stop" StopTokens.deserialize
  return { model, messages, stream, streamOptions, temperature, topP, seed, tools, toolChoice,
           responseFormat, maxTokens, stop, extra := m.without names }

/-! ### Embeddings -/

/-- The first variant that fits. -/
def EmbeddingInput.deserialize (v : Value) : Option EmbeddingInput :=
  ((v.asStr).map .string).or <| ((v.asVec Value.asStr).map .stringArray).or <|
    ((v.asVec Value.asU32).map .tokenArray).or
      ((v.asVec (Value.asVec Value.asU32)).map .tokenMatrix)

/-- The declared fields of an embedding request. -/
def EmbeddingRequest.names : List String :=
  ["model", "input", "encoding_format", "dimensions", "user"]

/-- An embedding request; what is no declared field goes to the flattened map. -/
def EmbeddingRequest.deserialize (v : Value) : Option EmbeddingRequest := do
  let m ← v.asObject
  let model ← m.required "model" Value.asStr
  let input ← m.required "input" EmbeddingInput.deserialize
  let encodingFormat ← m.optional "encoding_format" Value.asStr
  let dimensions ← m.optional "dimensions" Value.asU32
  let user ← m.optional "user" Value.asStr
  return { model, input, encodingFormat, dimensions, user, extra := m.without names }

/-! ### What a handler receives -/

/-- The extractor reads `v` as `r`; the flattened map is iterated in an order of its own. -/
def ChatCompletionRequest.ReadFrom (r : ChatCompletionRequest) (v : Value) : Prop :=
  ∃ extra, ChatCompletionRequest.deserialize v = some { r with extra } ∧ r.extra.Same extra

/-- The extractor reads `v` as `r`; the flattened map is iterated in an order of its own. -/
def EmbeddingRequest.ReadFrom (r : EmbeddingRequest) (v : Value) : Prop :=
  ∃ extra, EmbeddingRequest.deserialize v = some { r with extra } ∧ r.extra.Same extra

end LlmGateway
