/-
What is written, as a tree.

`Types.lean` writes a request as text.  What a text contains is said of the document it is
the text of: `Written`, which is `Value` with integers of any type and floats of both.
Each record has its document here, one slot for each field, and its text is the text of
its document.
-/
import LlmGateway.Types

namespace LlmGateway

/-- A document a serializer writes. -/
inductive Written
  | null
  | bool (b : Bool)
  | int (n : Int)
  | f32 (x : F32)
  | f64 (bits : UInt64)
  | string (s : String)
  | array (elems : List Written)
  | object (members : List (String × Written))

namespace Written

mutual
/-- The compact text of a document. -/
def text (ryu : Ryu) : Written → List Char
  | .null => "null".toList
  | .bool b => boolText b
  | .int n => intText n
  | .f32 x => ryu.f32 x
  | .f64 bits => ryu.f64 bits
  | .string s => quote s
  | .array elems => arrayText (texts ryu elems)
  | .object members => objectText (memberTexts ryu members)

/-- The texts of these documents. -/
def texts (ryu : Ryu) : List Written → List (List Char)
  | [] => []
  | w :: ws => text ryu w :: texts ryu ws

/-- The texts of these members. -/
def memberTexts (ryu : Ryu) : List (String × Written) → List (String × List Char)
  | [] => []
  | (k, w) :: ms => (k, text ryu w) :: memberTexts ryu ms
end

/-- The members of a record: the slots that are filled. -/
def filled (slots : List (String × Option Written)) : List (String × Written) :=
  slots.filterMap fun s => s.2.map (s.1, ·)

theorem mem_filled {slots : List (String × Option Written)} {k : String} {w : Written} :
    (k, w) ∈ filled slots ↔ (k, some w) ∈ slots := by
  unfold filled
  rw [List.mem_filterMap]
  constructor
  · rintro ⟨⟨k', o⟩, hmem, hslot⟩
    cases o with
    | none => cases hslot
    | some w' =>
        cases hslot
        exact hmem
  · intro hmem
    exact ⟨(k, some w), hmem, rfl⟩

end Written

/-! ### The document of a value -/

/-- A number as a document. -/
def Number.written : Number → Written
  | .posInt n => .int n.toNat
  | .negInt n _ => .int n.toInt
  | .float bits => .f64 bits

namespace Value

mutual
/-- A value as a document. -/
def written : Value → Written
  | .null => .null
  | .bool b => .bool b
  | .number n => n.written
  | .string s => .string s
  | .array elems => .array (writtens elems)
  | .object entries => .object (entriesWritten entries)

/-- The elements of an array as documents. -/
def writtens : List Value → List Written
  | [] => []
  | v :: vs => written v :: writtens vs

/-- The entries of an object as members. -/
def entriesWritten : List (String × Value) → List (String × Written)
  | [] => []
  | (k, v) :: es => (k, written v) :: entriesWritten es
end

theorem writtens_eq (l : List Value) : writtens l = l.map written := by
  induction l with
  | nil => rfl
  | cons v vs ih => rw [writtens, ih, List.map_cons]

theorem entriesWritten_eq (es : List (String × Value)) :
    entriesWritten es = es.map fun e => (e.1, e.2.written) := by
  induction es with
  | nil => rfl
  | cons e es ih => rw [entriesWritten, ih, List.map_cons]

end Value

/-! ### The documents of the records -/

/-- A number that is not finite is written as `null`. -/
def F32.written (x : F32) : Written := if x.isFinite then .f32 x else .null

/-- The document of a record. -/
def Written.record (slots : List (String × Option Written)) : Written := .object (filled slots)

/-- The document of a function call. -/
def FunctionCall.written (f : FunctionCall) : Written :=
  .record [("name", some (.string f.name)), ("arguments", some (.string f.arguments))]

/-- The document of a tool call. -/
def ToolCall.written (t : ToolCall) : Written :=
  .record [("id", some (.string t.id)), ("type", some (.string t.type)),
    ("function", some t.function.written)]

/-- Content is written as the text or the array it is, without a tag. -/
def MessageContent.written : MessageContent → Written
  | .text s => .string s
  | .parts l => .array (l.map Value.written)

/-- The document of a message. -/
def Message.written (m : Message) : Written :=
  .record [("role", some (.string m.role)), ("content", m.content.map MessageContent.written),
    ("name", m.name.map .string),
    ("tool_calls", m.toolCalls.map fun l => .array (l.map ToolCall.written)),
    ("tool_call_id", m.toolCallId.map .string)]

/-- The document of a function definition. -/
def FunctionDef.written (f : FunctionDef) : Written :=
  .record [("name", some (.string f.name)), ("description", f.description.map .string),
    ("parameters", f.parameters.map Value.written)]

/-- The document of a tool. -/
def Tool.written (t : Tool) : Written :=
  .record [("type", some (.string t.type)), ("function", some t.function.written)]

/-- The document of a response format. -/
def ResponseFormat.written (r : ResponseFormat) : Written :=
  .record [("type", some (.string r.type)), ("json_schema", r.jsonSchema.map Value.written)]

/-- Stop tokens are written as the string or the array they are, without a tag. -/
def StopTokens.written : StopTokens → Written
  | .single s => .string s
  | .multiple l => .array (l.map .string)

/-- The document of stream options. -/
def StreamOptions.written (o : StreamOptions) : Written :=
  .record [("include_usage", some (.bool o.includeUsage))]

/-- The flattened map, one member for each entry. -/
def HashMap.written (m : HashMap) : List (String × Written) :=
  m.entries.map fun e => (e.1, e.2.written)

/-- The declared fields of a chat request. -/
def ChatCompletionRequest.slots (r : ChatCompletionRequest) : List (String × Option Written) :=
  [("model", some (.string r.model)),
    ("messages", some (.array (r.messages.map Message.written))),
    ("stream", some (.bool r.stream)),
    ("stream_options", r.streamOptions.map StreamOptions.written),
    ("temperature", some r.temperature.written), ("top_p", some r.topP.written),
    ("seed", r.seed.map fun n => .int n.toInt),
    ("tools", r.tools.map fun l => .array (l.map Tool.written)),
    ("tool_choice", r.toolChoice.map Value.written),
    ("response_format", r.responseFormat.map ResponseFormat.written),
    ("max_tokens", r.maxTokens.map fun n => .int n.toNat),
    ("stop", r.stop.map StopTokens.written)]

/-- The document of a chat request: its fields, and then the flattened map. -/
def ChatCompletionRequest.written (r : ChatCompletionRequest) : Written :=
  .object (Written.filled r.slots ++ r.extra.written)

/-- Input is written as the text or the array it is, without a tag. -/
def EmbeddingInput.written : EmbeddingInput → Written
  | .string s => .string s
  | .stringArray l => .array (l.map .string)
  | .tokenArray l => .array (l.map fun n => .int n.toNat)
  | .tokenMatrix l => .array (l.map fun row => .array (row.map fun n => .int n.toNat))

/-- The declared fields of an embedding request; `encoding_format` is always filled. -/
def EmbeddingRequest.slots (r : EmbeddingRequest) : List (String × Option Written) :=
  [("model", some (.string r.model)), ("input", some r.input.written),
    ("encoding_format", some ((r.encodingFormat.map .string).getD .null)),
    ("dimensions", r.dimensions.map fun n => .int n.toNat), ("user", r.user.map .string)]

/-- The document of an embedding request: its fields, and then the flattened map. -/
def EmbeddingRequest.written (r : EmbeddingRequest) : Written :=
  .object (Written.filled r.slots ++ r.extra.written)

/-! ### The text of a document -/

section Text

variable (ryu : Ryu)

namespace Written

@[simp] theorem text_string (s : String) : (Written.string s).text ryu = quote s := by
  rw [text]

@[simp] theorem text_bool (b : Bool) : (Written.bool b).text ryu = boolText b := by
  rw [text]

@[simp] theorem text_int (n : Int) : (Written.int n).text ryu = intText n := by
  rw [text]

theorem texts_eq (ws : List Written) : texts ryu ws = ws.map (text ryu) := by
  induction ws with
  | nil => rfl
  | cons w ws ih => rw [texts, ih, List.map_cons]

theorem memberTexts_eq (ms : List (String × Written)) :
    memberTexts ryu ms = ms.map fun m => (m.1, m.2.text ryu) := by
  induction ms with
  | nil => rfl
  | cons m ms ih => rw [memberTexts, ih, List.map_cons]

@[simp] theorem text_array_map {α : Type} (l : List α) (f : α → Written) :
    (Written.array (l.map f)).text ryu = arrayText (l.map fun a => (f a).text ryu) := by
  rw [text, texts_eq, List.map_map]
  rfl

theorem text_object (ms : List (String × Written)) :
    (Written.object ms).text ryu = objectText (ms.map fun m => (m.1, m.2.text ryu)) := by
  rw [text, memberTexts_eq]

/-- The texts of the members of a record. -/
def slotTexts (slots : List (String × Option Written)) : List (String × List Char) :=
  (filled slots).map fun m => (m.1, m.2.text ryu)

@[simp] theorem text_record (slots : List (String × Option Written)) :
    (record slots).text ryu = objectText (slotTexts ryu slots) :=
  text_object ryu _

@[simp] theorem slotTexts_nil : slotTexts ryu [] = [] := rfl

@[simp] theorem slotTexts_always (k : String) (w : Written)
    (slots : List (String × Option Written)) :
    slotTexts ryu ((k, some w) :: slots) = always k (w.text ryu) ++ slotTexts ryu slots := rfl

@[simp] theorem slotTexts_ifSome {α : Type} (k : String) (o : Option α) (f : α → Written)
    (slots : List (String × Option Written)) :
    slotTexts ryu ((k, o.map f) :: slots)
      = ifSome k o (fun a => (f a).text ryu) ++ slotTexts ryu slots := by
  cases o <;> rfl

end Written

@[simp] theorem intText_natCast (n : Nat) : intText n = natText n := by
  unfold intText natText
  rw [if_neg (by omega), Int.natAbs_natCast]

theorem Number.text_written (n : Number) : n.written.text ryu = n.json ryu := by
  cases n with
  | posInt n => exact intText_natCast n.toNat
  | negInt n neg => rfl
  | float bits => rfl

mutual
/-- A value is written as its document. -/
@[simp] theorem Value.text_written : ∀ v : Value, v.written.text ryu = v.json ryu
  | .null => rfl
  | .bool _ => rfl
  | .number n => n.text_written ryu
  | .string _ => rfl
  | .array l => congrArg arrayText (Value.texts_writtens l)
  | .object es => congrArg objectText (Value.memberTexts_entries es)

theorem Value.texts_writtens : ∀ l : List Value,
    Written.texts ryu (Value.writtens l) = Value.jsons ryu l
  | [] => rfl
  | v :: vs => by
      rw [Value.writtens, Written.texts, Value.jsons, Value.text_written v,
        Value.texts_writtens vs]

theorem Value.memberTexts_entries : ∀ es : List (String × Value),
    Written.memberTexts ryu (Value.entriesWritten es) = Value.entryJsons ryu es
  | [] => rfl
  | (k, v) :: es => by
      rw [Value.entriesWritten, Written.memberTexts, Value.entryJsons, Value.text_written v,
        Value.memberTexts_entries es]
end

@[simp] theorem F32.text_written (x : F32) : x.written.text ryu = x.json ryu := by
  unfold F32.written F32.json
  split <;> rfl

@[simp] theorem FunctionCall.text_written (f : FunctionCall) : f.written.text ryu = f.json := by
  simp [FunctionCall.written, FunctionCall.json]

@[simp] theorem ToolCall.text_written (t : ToolCall) : t.written.text ryu = t.json := by
  simp [ToolCall.written, ToolCall.json]

@[simp] theorem MessageContent.text_written (c : MessageContent) :
    c.written.text ryu = c.json ryu := by
  cases c with
  | text s => exact Written.text_string ryu s
  | parts l => simp [MessageContent.written, MessageContent.json]

@[simp] theorem Message.text_written (m : Message) : m.written.text ryu = m.json ryu := by
  simp [Message.written, Message.json]

@[simp] theorem FunctionDef.text_written (f : FunctionDef) :
    f.written.text ryu = f.json ryu := by
  simp [FunctionDef.written, FunctionDef.json]

@[simp] theorem Tool.text_written (t : Tool) : t.written.text ryu = t.json ryu := by
  simp [Tool.written, Tool.json]

@[simp] theorem ResponseFormat.text_written (r : ResponseFormat) :
    r.written.text ryu = r.json ryu := by
  simp [ResponseFormat.written, ResponseFormat.json]

@[simp] theorem StopTokens.text_written (s : StopTokens) : s.written.text ryu = s.json := by
  cases s with
  | single s => exact Written.text_string ryu s
  | multiple l => simp [StopTokens.written, StopTokens.json, stringsText]

@[simp] theorem StreamOptions.text_written (o : StreamOptions) :
    o.written.text ryu = o.json := by
  simp [StreamOptions.written, StreamOptions.json]

theorem HashMap.texts_written (m : HashMap) :
    m.written.map (fun e => (e.1, e.2.text ryu)) = m.members ryu := by
  simp [HashMap.written, HashMap.members]

/-- **The text of a chat request is the text of its document.** -/
theorem ChatCompletionRequest.text_written (r : ChatCompletionRequest) :
    r.written.text ryu = r.json ryu := by
  have hslots : Written.slotTexts ryu r.slots = ("model", quote r.model) :: r.fields ryu := by
    simp [slots, fields, always]
  unfold written json
  rw [Written.text_object, List.map_append, HashMap.texts_written, ← hslots]
  rfl

@[simp] theorem EmbeddingInput.text_written (i : EmbeddingInput) :
    i.written.text ryu = i.json := by
  cases i with
  | string s => exact Written.text_string ryu s
  | stringArray l => simp [EmbeddingInput.written, EmbeddingInput.json, stringsText]
  | tokenArray l => simp [EmbeddingInput.written, EmbeddingInput.json]
  | tokenMatrix l => simp [EmbeddingInput.written, EmbeddingInput.json]

/-- **The text of an embedding request is the text of its document.** -/
theorem EmbeddingRequest.text_written (r : EmbeddingRequest) :
    r.written.text ryu = r.json ryu := by
  have hformat : ((r.encodingFormat.map Written.string).getD .null).text ryu
      = (r.encodingFormat.map quote).getD "null".toList := by
    cases r.encodingFormat <;> rfl
  unfold written json
  rw [Written.text_object, List.map_append, HashMap.texts_written]
  show objectText (Written.slotTexts ryu r.slots ++ r.extra.members ryu) = _
  simp [slots, always, hformat]

end Text

end LlmGateway
