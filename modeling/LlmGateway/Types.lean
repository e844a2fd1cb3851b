/-
The typed requests, as `types.rs` declares them, and the JSON they are written as.

A `HashMap` is kept as its entries in the order this map instance iterates them; that
order is arbitrary, so it is data.  Two maps with the same entries in different orders
are equal as maps (`HashMap.Same`).  Serialization follows the derives: fields in the
order of their declaration, `skip_serializing_if` fields left out when `None`, and the
flattened `extra` map last, in its iteration order.
-/
import LlmGateway.Json

namespace LlmGateway

/-- A `HashMap<String, Value>`: its entries in iteration order, one for each key. -/
structure HashMap where
  entries : List (String × Value)
  nodup : (entries.map (·.1)).Nodup

/-- The same entries, in whatever order the maps iterate them. -/
def HashMap.Same (a b : HashMap) : Prop := a.entries.Perm b.entries

/-- The map without entries. -/
def HashMap.empty : HashMap := ⟨[], by simp⟩

/-! ### Chat completions -/

/-- The function a tool call names; its arguments are JSON in a string. -/
structure FunctionCall where
  name : String
  arguments : String
  deriving Repr

/-- A call of a tool that a message makes. -/
structure ToolCall where
  id : String
  type : String
  function : FunctionCall
  deriving Repr

/-- Plain text, or parts of any shape. -/
inductive MessageContent
  | text (s : String)
  | parts (l : List Value)
  deriving Repr

/-- A message of the conversation. -/
structure Message where
  role : String
  content : Option MessageContent
  name : Option String
  toolCalls : Option (List ToolCall)
  toolCallId : Option String
  deriving Repr

/-- A function the model may call; its parameters are a JSON schema. -/
structure FunctionDef where
  name : String
  description : Option String
  parameters : Option Value
  deriving Repr

/-- A tool the model may use. -/
structure Tool where
  type : String
  function : FunctionDef
  deriving Repr

/-- The format the answer must have. -/
structure ResponseFormat where
  type : String
  jsonSchema : Option Value
  deriving Repr

/-- Where generation stops: at a text, or at any of several. -/
inductive StopTokens
  | single (s : String)
  | multiple (l : List String)
  deriving Repr

/-- What a stream is to carry besides its content. -/
structure StreamOptions where
  includeUsage : Bool
  deriving Repr

/-- A request to `/v1/chat/completions`; `extra` is the flattened map. -/
structure ChatCompletionRequest where
  model : String
  messages : List Message
  stream : Bool
  streamOptions : Option StreamOptions
  temperature : F32
  topP : F32
  seed : Option Int64
  tools : Option (List Tool)
  toolChoice : Option Value
  responseFormat : Option ResponseFormat
  maxTokens : Option UInt32
  stop : Option StopTokens
  extra : HashMap

/-! ### Embeddings -/

/-- One text, or several, or tokens, or several lists of them. -/
inductive EmbeddingInput
  | string (s : String)
  | stringArray (l : List String)
  | tokenArray (l : List UInt32)
  | tokenMatrix (l : List (List UInt32))
  deriving Repr

/-- A request to `/v1/embeddings`; `extra` is the flattened map. -/
structure EmbeddingRequest where
  model : String
  input : EmbeddingInput
  encodingFormat : Option String
  dimensions : Option UInt32
  user : Option String
  extra : HashMap

/-! ### Serialization -/

section Text

variable (ryu : Ryu)

/-- A member that is always written. -/
def always (key : String) (value : List Char) : List (String × List Char) := [(key, value)]

/-- A member under `skip_serializing_if = "Option::is_none"`. -/
def ifSome {α : Type} (key : String) (value : Option α) (text : α → List Char) :
    List (String × List Char) :=
  match value with
  | some a => [(key, text a)]
  | none => []

/-- A number that is not finite is written as `null`. -/
def F32.json (x : F32) : List Char := if x.isFinite then ryu.f32 x else "null".toList

/-- An unsigned integer in decimal. -/
def natText (n : Nat) : List Char := Nat.toDigits 10 n

/-- An array of strings. -/
def stringsText (l : List String) : List Char := arrayText (l.map quote)

/-- The text of a function call. -/
def FunctionCall.json (f : FunctionCall) : List Char :=
  objectText (always "name" (quote f.name) ++ always "arguments" (quote f.arguments))

/-- The text of a tool call. -/
def ToolCall.json (t : ToolCall) : List Char :=
  objectText (always "id" (quote t.id) ++ always "type" (quote t.type)
    ++ always "function" t.function.json)

/-- The untagged enum: a string or an array. -/
def MessageContent.json : MessageContent → List Char
  | .text s => quote s
  | .parts l => arrayText (l.map (Value.json ryu))

/-- The text of a message. -/
def Message.json (m : Message) : List Char :=
  objectText (always "role" (quote m.role)
    ++ ifSome "content" m.content (MessageContent.json ryu)
    ++ ifSome "name" m.name quote
    ++ ifSome "tool_calls" m.toolCalls (fun l => arrayText (l.map ToolCall.json))
    ++ ifSome "tool_call_id" m.toolCallId quote)

/-- The text of a function definition. -/
def FunctionDef.json (f : FunctionDef) : List Char :=
  objectText (always "name" (quote f.name) ++ ifSome "description" f.description quote
    ++ ifSome "parameters" f.parameters (Value.json ryu))

/-- The text of a tool. -/
def Tool.json (t : Tool) : List Char :=
  objectText (always "type" (quote t.type) ++ always "function" (t.function.json ryu))

/-- The text of a response format. -/
def ResponseFormat.json (r : ResponseFormat) : List Char :=
  objectText (always "type" (quote r.type)
    ++ ifSome "json_schema" r.jsonSchema (Value.json ryu))

/-- The untagged enum: a string or an array of strings. -/
def StopTokens.json : StopTokens → List Char
  | .single s => quote s
  | .multiple l => stringsText l

/-- The text of stream options. -/
def StreamOptions.json (o : StreamOptions) : List Char :=
  objectText (always "include_usage" (boolText o.includeUsage))

/-- The flattened map, one member for each entry. -/
def HashMap.members (m : HashMap) : List (String × List Char) :=
  m.entries.map fun e => (e.1, e.2.json ryu)

/-- The declared fields of a chat request after `model`. -/
def ChatCompletionRequest.fields (r : ChatCompletionRequest) : List (String × List Char) :=
  always "messages" (arrayText (r.messages.map (Message.json ryu)))
    ++ always "stream" (boolText r.stream)
    ++ ifSome "stream_options" r.streamOptions StreamOptions.json
    ++ always "temperature" (r.temperature.json ryu)
    ++ always "top_p" (r.topP.json ryu)
    ++ ifSome "seed" r.seed (fun n => intText n.toInt)
    ++ ifSome "tools" r.tools (fun l => arrayText (l.map (Tool.json ryu)))
    ++ ifSome "tool_choice" r.toolChoice (Value.json ryu)
    ++ ifSome "response_format" r.responseFormat (ResponseFormat.json ryu)
    ++ ifSome "max_tokens" r.maxTokens (fun n => natText n.toNat)
    ++ ifSome "stop" r.stop StopTokens.json

/-- `serde_json::to_string` of a chat request. -/
def ChatCompletionRequest.json (r : ChatCompletionRequest) : List Char :=
  objectText (("model", quote r.model) :: r.fields ryu ++ r.extra.members ryu)

/-- The untagged enum: a string, an array, or an array of arrays. -/
def EmbeddingInput.json : EmbeddingInput → List Char
  | .string s => quote s
  | .stringArray l => stringsText l
  | .tokenArray l => arrayText (l.map fun n => natText n.toNat)
  | .tokenMatrix l => arrayText (l.map fun row => arrayText (row.map fun n => natText n.toNat))

/-- `serde_json::to_string` of an embedding request; `encoding_format` is written even when
it is `None`. -/
def EmbeddingRequest.json (r : EmbeddingRequest) : List Char :=
  objectText (("model", quote r.model)
    :: always "input" r.input.json
    ++ always "encoding_format" ((r.encodingFormat.map quote).getD "null".toList)
    ++ ifSome "dimensions" r.dimensions (fun n => natText n.toNat)
    ++ ifSome "user" r.user quote
    ++ r.extra.members ryu)

end Text

end LlmGateway
