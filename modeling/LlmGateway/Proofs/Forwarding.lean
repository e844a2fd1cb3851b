/-
What a provider is sent, compared with what the client sent.

`Proofs/Kept.lean` compares the records inside a chat request.  A request itself has a
flattened map besides its fields, so every member of it arrives somewhere, and what can be
lost or added is known: `contains_flattened_iff` for the members that were sent, and the
slots that are filled without one.  That a provider is sent the text of this document and
no other, in whatever run, is `Gateway.Reachable.forwards`.
-/
import LlmGateway.Proofs.Kept
import LlmGateway.Proofs.World

namespace LlmGateway

open Effects
open Written (filled mem_filled)

variable {x : Crates} {st : AppState} {ryu : Ryu}

/-! ### Records with a flattened map -/

/-- The document has what was sent, up to rounding some numbers, and nothing that was not,
up to some defaults. -/
def FaithfulUpTo (rounded : List String) (defaults : List (String × Written)) (v : Value)
    (w : Written) : Prop :=
  ∃ es ms, v = .object es ∧ w = .object ms ∧ Contains rounded es ms ∧
    ∀ d ∈ ms, d ∈ defaults ∨ d.1 ∈ es.map (·.1)

/-- What was sent under a key of the schema satisfies its condition there. -/
def Fits (schema : List (String × (Value → Prop))) (v : Value) : Prop :=
  ∃ es, v = .object es ∧ ∀ e ∈ es, e.2 ≠ .null → ∀ C, (e.1, C) ∈ schema → C e.2

section Flattened

variable {rounded : List String} {defaults : List (String × Written)} {m extra : HashMap}
  {slots : List (String × Option Written)} {schema : List (String × (Value → Prop))}
  {α : Type} {write : α → Written} {C : Value → Prop} {k : String}

theorem keys_of_fields (h : List.Forall₂ (Field rounded defaults m) slots schema) :
    slots.map (·.1) = schema.map (·.1) := by
  induction h with
  | nil => rfl
  | cons hsc _ ih => rw [List.map_cons, List.map_cons, hsc.key, ih]

/-- The flattened map is written member by member. -/
theorem mem_flattened {names : List String} (h : extra.Same (m.without names)) {k : String}
    {w : Written} :
    (k, w) ∈ extra.written ↔ ∃ v, (k, v) ∈ m.entries ∧ k ∉ names ∧ w = v.written := by
  unfold HashMap.written
  rw [List.mem_map]
  constructor
  · rintro ⟨⟨k', v⟩, he, heq⟩
    cases heq
    obtain ⟨hmem, hout⟩ := List.mem_filter.mp (h.mem_iff.mp he)
    exact ⟨v, hmem, of_decide_eq_true hout, rfl⟩
  · rintro ⟨v, hmem, hout, rfl⟩
    exact ⟨(k, v), h.mem_iff.mpr (List.mem_filter.mpr ⟨hmem, decide_eq_true hout⟩), rfl⟩

/-- **A record with a flattened map contains what was sent if and only if what its fields
were read from fits them.** -/
theorem contains_flattened_iff (h : List.Forall₂ (Field rounded defaults m) slots schema)
    (hnodup : (schema.map (·.1)).Nodup) (hrounded : ∀ k ∈ rounded, k ∈ schema.map (·.1))
    (hextra : extra.Same (m.without (schema.map (·.1)))) :
    Contains rounded m.entries (filled slots ++ extra.written) ↔
      Fits schema (.object m.entries) := by
  constructor
  · intro hcontains
    refine ⟨_, rfl, fun e he hne C hC => ?_⟩
    obtain ⟨⟨k, o⟩, hs, hfield⟩ := Field.of_entry h hC
    obtain rfl : k = e.1 := hfield.key
    obtain ⟨w, rfl, hiff⟩ := hfield.carried e.2 he hne
    obtain ⟨w', hw', hcompared⟩ := hcontains e he hne
    rcases List.mem_append.mp hw' with hslot | hflat
    · -- a key has one slot
      have hkeys : (slots.map (·.1)).Nodup := keys_of_fields h ▸ hnodup
      have hsame := List.inj_on_of_nodup_map hkeys (mem_filled.mp hslot) hs rfl
      obtain rfl := Option.some.inj (congrArg Prod.snd hsame)
      exact hiff.mp hcompared
    · obtain ⟨_, -, hout, -⟩ := (mem_flattened hextra).mp hflat
      exact absurd (List.mem_map_of_mem hC) hout
  · rintro ⟨_, heq, hfits⟩ e he hne
    cases heq
    by_cases hk : e.1 ∈ schema.map (·.1)
    · obtain ⟨⟨k, C⟩, hC, hkey⟩ := List.mem_map.mp hk
      obtain rfl : k = e.1 := hkey
      obtain ⟨⟨k, o⟩, hs, hfield⟩ := Field.of_entry h hC
      obtain rfl : k = e.1 := hfield.key
      obtain ⟨w, rfl, hiff⟩ := hfield.carried e.2 he hne
      exact ⟨w, List.mem_append_left _ (mem_filled.mpr hs), hiff.mpr (hfits e he hne C hC)⟩
    · refine ⟨e.2.written, List.mem_append_right _ ?_, ?_⟩
      · exact (mem_flattened hextra).mpr ⟨e.2, he, hk, rfl⟩
      · rw [compared_kept fun hmem => hk (hrounded _ hmem)]
        exact e.2.kept_written

/-- What a record is written with was sent, or is a default. -/
theorem given_flattened {names : List String}
    (h : List.Forall₂ (Field rounded defaults m) slots schema)
    (hextra : extra.Same (m.without names)) :
    ∀ d ∈ filled slots ++ extra.written, d ∈ defaults ∨ d.1 ∈ m.entries.map (·.1) := by
  rintro ⟨k, w⟩ hd
  rcases List.mem_append.mp hd with hslot | hflat
  · obtain ⟨c, -, hfield⟩ := Field.of_slot h (mem_filled.mp hslot)
    exact hfield.given w rfl
  · obtain ⟨v, hmem, -, -⟩ := (mem_flattened hextra).mp hflat
    exact .inr (List.mem_map_of_mem hmem)

theorem faithfulUpTo_object_iff {ms : List (String × Written)} :
    FaithfulUpTo rounded defaults (.object m.entries) (.object ms) ↔
      Contains rounded m.entries ms ∧ ∀ d ∈ ms, d ∈ defaults ∨ d.1 ∈ m.entries.map (·.1) := by
  constructor
  · rintro ⟨es, ms', hes, hms, h⟩
    cases hes
    cases hms
    exact h
  · intro h
    exact ⟨_, _, rfl, rfl, h⟩

/-- A slot that nothing was sent for may be filled with a default. -/
theorem Field.inject {w : Written} (h : Field rounded defaults m (k, none) (k, C))
    (hw : (k, w) ∈ defaults) : Field rounded defaults m (k, some w) (k, C) where
  key := rfl
  carried a ha hne := by
    obtain ⟨_, hnone, -⟩ := h.carried a ha hne
    cases hnone
  given w' hw' := .inl (Option.some.inj hw' ▸ hw)

/-- A slot that is always filled, if need be with `null`. -/
theorem Field.orNull {o : Option α} (h : Field rounded defaults m (k, o.map write) (k, C))
    (hnull : (k, .null) ∈ defaults) :
    Field rounded defaults m (k, some ((o.map write).getD .null)) (k, C) := by
  cases o with
  | none => exact h.inject hnull
  | some a => exact h

end Flattened

/-! ### Chat requests -/

/-- A number whose nearest `f32` is finite. -/
def FiniteF32 (v : Value) : Prop := ∃ n, v = .number n ∧ n.toF32.isFinite = true

theorem reads_f32 : Reads Value.Rounded Value.asF32 F32.written FiniteF32 := by
  intro v y h
  cases v with
  | number n =>
      cases h
      unfold F32.written
      constructor
      · rintro ⟨n', heq, hw⟩
        refine ⟨n, rfl, ?_⟩
        by_contra hinfinite
        rw [if_neg hinfinite] at hw
        cases hw
      · rintro ⟨n', heq, hfinite⟩
        cases heq
        exact ⟨n, rfl, if_pos hfinite⟩
  | _ => cases h

namespace ChatCompletionRequest

/-- What the fields can be read from without loss. -/
def schema : List (String × (Value → Prop)) :=
  [("model", Any), ("messages", ListOf Message.Declared), ("stream", Any),
    ("stream_options", StreamOptions.Declared), ("temperature", FiniteF32),
    ("top_p", FiniteF32), ("seed", Any), ("tools", ListOf Tool.Declared), ("tool_choice", Any),
    ("response_format", ResponseFormat.Declared), ("max_tokens", Any), ("stop", Any)]

/-- The members that are rounded. -/
def rounded : List String := ["temperature", "top_p"]

/-- The members a request is forwarded with that was sent without them. -/
def defaults : List (String × Written) :=
  [("messages", .array []), ("stream", .bool false), ("temperature", .f32 .one),
    ("top_p", .f32 .one), ("stream_options", .record [("include_usage", some (.bool true))])]

theorem written_one : F32.one.written = .f32 .one := if_pos (by decide)

/-- The slot of `stream_options`, as they were sent or injected. -/
theorem options_field {m : HashMap} {sent o : Option StreamOptions}
    (hread : m.optional "stream_options" StreamOptions.deserialize = some sent)
    (ho : o = sent ∨ sent = none ∧ o = some { includeUsage := true }) :
    Field rounded defaults m ("stream_options", o.map StreamOptions.written)
      ("stream_options", StreamOptions.Declared) := by
  have hsent : Field rounded defaults m ("stream_options", sent.map StreamOptions.written)
      ("stream_options", StreamOptions.Declared) :=
    .optional (StreamOptions.reads.under (by decide)) hread
  rcases ho with rfl | ⟨rfl, rfl⟩
  · exact hsent
  · exact hsent.inject (by simp [defaults, StreamOptions.written])

/-- The slots of a request against the schema, whether or not `stream_options` are injected. -/
theorem fields_of_deserialize {v : Value} {r : ChatCompletionRequest}
    (h : deserialize v = some r) {o : Option StreamOptions}
    (ho : o = r.streamOptions ∨ r.streamOptions = none ∧ o = some { includeUsage := true }) :
    ∃ m, v = .object m.entries ∧ r.extra = m.without names ∧
      List.Forall₂ (Field rounded defaults m) { r with streamOptions := o }.slots schema := by
  obtain ⟨m, hm, h⟩ := Option.bind_eq_some_iff.mp h
  obtain ⟨model, hmodel, h⟩ := Option.bind_eq_some_iff.mp h
  obtain ⟨messages, hmessages, h⟩ := Option.bind_eq_some_iff.mp h
  obtain ⟨stream, hstream, h⟩ := Option.bind_eq_some_iff.mp h
  obtain ⟨streamOptions, hstreamOptions, h⟩ := Option.bind_eq_some_iff.mp h
  obtain ⟨temperature, htemperature, h⟩ := Option.bind_eq_some_iff.mp h
  obtain ⟨topP, htopP, h⟩ := Option.bind_eq_some_iff.mp h
  obtain ⟨seed, hseed, h⟩ := Option.bind_eq_some_iff.mp h
  obtain ⟨tools, htools, h⟩ := Option.bind_eq_some_iff.mp h
  obtain ⟨toolChoice, htoolChoice, h⟩ := Option.bind_eq_some_iff.mp h
  obtain ⟨responseFormat, hresponseFormat, h⟩ := Option.bind_eq_some_iff.mp h
  obtain ⟨maxTokens, hmaxTokens, h⟩ := Option.bind_eq_some_iff.mp h
  obtain ⟨stop, hstop, h⟩ := Option.bind_eq_some_iff.mp h
  cases h
  have hlist : Reads (Compared rounded "messages") (Value.asVec Message.deserialize)
      (fun l => .array (l.map Message.written)) (ListOf Message.Declared) :=
    Message.reads.vec.under (by decide)
  have hempty : ("messages", Written.array []) ∈ defaults := List.mem_cons_self
  have hmessages' := Field.defaulted hlist hmessages hempty
  have hstream' : Field rounded defaults m ("stream", some (.bool stream)) ("stream", Any) :=
    .defaulted (exact_bool.reads.under (by decide)) hstream (by simp [defaults])
  have htemperature' : Field rounded defaults m ("temperature", some temperature.written)
      ("temperature", FiniteF32) :=
    .defaulted reads_f32 htemperature (by simp [defaults, written_one])
  have htopP' : Field rounded defaults m ("top_p", some topP.written) ("top_p", FiniteF32) :=
    .defaulted reads_f32 htopP (by simp [defaults, written_one])
  exact ⟨m, asObject_entries hm, rfl,
    .cons (.required (exact_str.reads.under (by decide)) hmodel) <|
    .cons hmessages' <| .cons hstream' <| .cons (options_field hstreamOptions ho) <|
    .cons htemperature' <| .cons htopP' <|
    .cons (.optional (exact_i64.reads.under (by decide)) hseed) <|
    .cons (.optional (Tool.reads.vec.under (by decide)) htools) <|
    .cons (.optional (exact_value.reads.under (by decide)) htoolChoice) <|
    .cons (.optional (ResponseFormat.reads.under (by decide)) hresponseFormat) <|
    .cons (.optional (exact_u32.reads.under (by decide)) hmaxTokens) <|
    .cons (.optional (StopTokens.exact.reads.under (by decide)) hstop) .nil⟩

theorem injected_cases (r : ChatCompletionRequest) :
    ∃ o, injectStreamOptions r = { r with streamOptions := o } ∧
      (o = r.streamOptions ∨ r.streamOptions = none ∧ o = some { includeUsage := true }) := by
  unfold injectStreamOptions
  by_cases h : (r.stream && r.streamOptions.isNone) = true
  · rw [if_pos h]
    have hnone := (Bool.and_eq_true_iff.mp h).2
    exact ⟨_, rfl, .inr ⟨Option.isNone_iff_eq_none.mp hnone, rfl⟩⟩
  · rw [if_neg h]
    exact ⟨_, rfl, .inl rfl⟩

/-- **A chat request is forwarded faithfully if and only if what its fields were read from
fits them**: of everything else nothing is lost. -/
theorem faithful_iff {v : Value} {r : ChatCompletionRequest} (h : r.ReadFrom v) :
    FaithfulUpTo rounded defaults v (injectStreamOptions r).written ↔ Fits schema v := by
  obtain ⟨extra, hread, hextra⟩ := h
  obtain ⟨o, hinject, ho⟩ := injected_cases r
  obtain ⟨m, rfl, rfl, hfields⟩ := fields_of_deserialize hread ho
  rw [hinject]
  unfold written
  rw [faithfulUpTo_object_iff, ← contains_flattened_iff hfields (by decide) (by decide) hextra]
  exact and_iff_left (given_flattened hfields hextra)

end ChatCompletionRequest

/-! ### Embedding requests -/

namespace EmbeddingRequest

/-- The fields lose nothing. -/
def schema : List (String × (Value → Prop)) :=
  [("model", Any), ("input", Any), ("encoding_format", Any), ("dimensions", Any), ("user", Any)]

theorem fields_of_deserialize {v : Value} {r : EmbeddingRequest} (h : deserialize v = some r) :
    ∃ m, v = .object m.entries ∧ r.extra = m.without names ∧
      List.Forall₂ (Field [] [("encoding_format", .null)] m) r.slots schema := by
  obtain ⟨m, hm, h⟩ := Option.bind_eq_some_iff.mp h
  obtain ⟨model, hmodel, h⟩ := Option.bind_eq_some_iff.mp h
  obtain ⟨input, hinput, h⟩ := Option.bind_eq_some_iff.mp h
  obtain ⟨encodingFormat, hencodingFormat, h⟩ := Option.bind_eq_some_iff.mp h
  obtain ⟨dimensions, hdimensions, h⟩ := Option.bind_eq_some_iff.mp h
  obtain ⟨user, huser, h⟩ := Option.bind_eq_some_iff.mp h
  cases h
  exact ⟨m, asObject_entries hm, rfl,
    .cons (.required exact_str.reads.nested hmodel) <|
    .cons (.required EmbeddingInput.exact.reads.nested hinput) <|
    .cons ((Field.optional exact_str.reads.nested hencodingFormat).orNull List.mem_cons_self) <|
    .cons (.optional exact_u32.reads.nested hdimensions) <|
    .cons (.optional exact_str.reads.nested huser) .nil⟩

theorem fits_schema (m : HashMap) : Fits schema (.object m.entries) := by
  refine ⟨_, rfl, fun e _ _ C hC => ?_⟩
  have hany : ∀ c ∈ schema, c.2 = Any := by simp [schema]
  have hC' : C = Any := hany _ hC
  rw [hC']
  trivial

/-- **An embedding request is forwarded faithfully if and only if it has a member
`encoding_format`**: without one it is forwarded with one. -/
theorem faithful_iff {v : Value} {r : EmbeddingRequest} (h : r.ReadFrom v) :
    FaithfulUpTo [] [] v r.written ↔ v.Has "encoding_format" := by
  obtain ⟨extra, hread, hextra⟩ := h
  obtain ⟨m, rfl, rfl, hfields⟩ := fields_of_deserialize hread
  have hcontains := (contains_flattened_iff hfields (by decide) (by decide) hextra).mpr
    (fits_schema m)
  unfold written
  rw [faithfulUpTo_object_iff, has_object_iff]
  constructor
  · rintro ⟨-, hgiven⟩
    have hslot : ("encoding_format", (r.encodingFormat.map Written.string).getD .null)
        ∈ filled r.slots := mem_filled.mpr (by simp [slots])
    exact (hgiven _ (List.mem_append_left _ hslot)).resolve_left List.not_mem_nil
  · intro hhas
    refine ⟨hcontains, fun d hd => .inr ?_⟩
    rcases given_flattened hfields hextra d hd with hnull | hsent
    · rw [List.mem_singleton.mp hnull]
      exact hhas
    · exact hsent

end EmbeddingRequest

/-! ### Calls -/

namespace ApiCall

/-- The call is made of this JSON. -/
def ReadFrom : ApiCall → Value → Prop
  | .chat (.ok r), v => r.ReadFrom v
  | .embeddings (.ok r), v => r.ReadFrom v
  | _, _ => False

/-- The document a call is forwarded as. -/
def document : ApiCall → Option Written
  | .chat (.ok r) => some (injectStreamOptions r).written
  | .embeddings (.ok r) => some r.written
  | _ => none

/-- What is forwarded says what the client sent: every member, on every level, that is not
`null`, and none besides, up to what is promised of chat requests. -/
def Faithful : ApiCall → Value → Written → Prop
  | .chat _ => FaithfulUpTo ChatCompletionRequest.rounded ChatCompletionRequest.defaults
  | .embeddings _ => FaithfulUpTo [] []

/-- In a chat request, the members of the records are declared; a request for embeddings
says which encoding it wants. -/
def Conforms : ApiCall → Value → Prop
  | .chat _, v => Fits ChatCompletionRequest.schema v
  | .embeddings _, v => v.Has "encoding_format"

/-- Whatever is sent to a provider for the call, in whatever run, is `body`. -/
def IsSentAs (x : Crates) (st : AppState) (call : ApiCall) (body : List UInt8) : Prop :=
  ∀ {start : Instant} {q : Gateway.State}, Gateway.Reachable x st start q →
    ∀ {i : Nat} {req : HttpRequest} {t : Task gatewaySig Idle}, q.tasks[i]? = some (req, t) →
      req.call = call → ∀ {provider : String} {out : OutboundRequest}
        {owned : Option ReservationHandle} {answer : Except String StatusCode},
        .act (.await (.send provider out) owned) answer ∈ q.movesOf i → out.body = body

theorem forwarded_document (hx : x.Writes ryu) {call : ApiCall} {w : Written}
    (h : call.document = some w) :
    call.forwarded x = some (asBytes (String.ofList (w.text ryu))) := by
  cases call with
  | chat payload =>
      cases payload with
      | error e => cases h
      | ok r =>
          obtain rfl := Option.some.inj h
          show (Crates.toVec x.chatToString (injectStreamOptions r)).toOption = _
          unfold Crates.toVec
          rw [hx.chat, ChatCompletionRequest.text_written]
          rfl
  | embeddings payload =>
      cases payload with
      | error e => cases h
      | ok r =>
          obtain rfl := Option.some.inj h
          show (Crates.toVec x.embeddingToString r).toOption = _
          unfold Crates.toVec
          rw [hx.embedding, EmbeddingRequest.text_written]
          rfl

theorem sent_document (hx : x.Writes ryu) {call : ApiCall} {w : Written}
    (h : call.document = some w) :
    call.IsSentAs x st (asBytes (String.ofList (w.text ryu))) := by
  intro start q hq i req t ht hcall provider out owned answer hsend
  have hforwarded := hq.forwards ht hsend
  rw [hcall, forwarded_document hx h] at hforwarded
  exact (Option.some.inj hforwarded).symm

end ApiCall

/--
**Requests are forwarded faithfully if and only if they conform.** Whatever JSON a call was
read from, every run sends providers the text of one document for it.  That document has every
member the client sent that is not `null`, with its value, and no other, exactly when no record
inside a chat request has members of its own and its two numbers are finite as `f32`, and
when a request for embeddings has an `encoding_format`.  The value of a number is what
serde_json's reader makes of its text.
-/
theorem forwarded_faithfully_iff (st : AppState) (hx : x.Writes ryu) {call : ApiCall} {v : Value}
    (hread : call.ReadFrom v) :
    ∃ w, call.document = some w ∧ call.IsSentAs x st (asBytes (String.ofList (w.text ryu))) ∧
      (call.Faithful v w ↔ call.Conforms v) := by
  cases call with
  | chat payload =>
      cases payload with
      | error e => exact hread.elim
      | ok r =>
          exact ⟨_, rfl, ApiCall.sent_document hx rfl, ChatCompletionRequest.faithful_iff hread⟩
  | embeddings payload =>
      cases payload with
      | error e => exact hread.elim
      | ok r => exact ⟨_, rfl, ApiCall.sent_document hx rfl, EmbeddingRequest.faithful_iff hread⟩

/-! A tool whose function is `strict`, and what its provider is sent. -/

/-- A streaming request with one tool. -/
def toolJson (function : Value) : Value :=
  .object [("model", .string "m"), ("stream", .bool true), ("temperature", .number (.posInt 0)),
    ("tools", .array [.object [("function", function), ("type", .string "function")]])]

/-- A function definition with declared members only. -/
def plainFunction : Value := .object [("name", .string "f")]

/-- A function definition with a member of its own. -/
def strictFunction : Value := .object [("name", .string "f"), ("strict", .bool true)]

/-- What both are read as. -/
def toolRequest : ChatCompletionRequest :=
  { requestWithExtra [] List.nodup_nil with
    stream := true
    tools := some [⟨"function", ⟨"f", none, none⟩⟩] }

/-- A request for embeddings that leaves their encoding to the provider. -/
def inputJson : Value := .object [("input", .string "i"), ("model", .string "m")]

/-- A request for embeddings without an `encoding_format`. -/
def inputRequest : EmbeddingRequest where
  model := "m"
  input := .string "i"
  encodingFormat := none
  dimensions := none
  user := none
  extra := .empty

/-- The digest of the one key. -/
def toolCrates : Crates := .table [smallKey] []

/-- A gateway with one provider and one client. -/
def toolGateway : AppState := smallGateway toolCrates ⟨1, 10, 1⟩ 1000

/-- The request with the tool is sent to the provider. -/
def toolRun : Gateway.State :=
  (Gateway.replay toolCrates toolGateway (fun _ _ => true) (fun _ _ _ _ => ())
    [.spawn ⟨some (asBytes "Bearer k"), .chat (.ok toolRequest)⟩, goes 0, goes 0, goes 0,
      goes 0, answers 0]).1

/-- The body of a request to a provider. -/
def sentBody : GatewayMove → Option (List UInt8)
  | .act (.await (.send _ out) _) _ => some out.body
  | _ => none

theorem not_declared_strict : ¬ FunctionDef.Declared strictFunction := by
  rintro ⟨_, heq, hall⟩
  cases heq
  obtain ⟨C, hC, -⟩ := hall ("strict", .bool true) (by simp) nofun
  simp at hC

theorem not_fits_strict : ¬ Fits ChatCompletionRequest.schema (toolJson strictFunction) := by
  rintro ⟨_, heq, hfits⟩
  cases heq
  obtain ⟨_, heq, htools⟩ := hfits _ (List.mem_of_getElem? (i := 3) rfl) nofun
    (ListOf Tool.Declared) (by simp [ChatCompletionRequest.schema])
  cases heq
  obtain ⟨_, heq, hall⟩ := htools _ List.mem_cons_self
  cases heq
  obtain ⟨C, hC, hfunction⟩ := hall ("function", strictFunction) List.mem_cons_self nofun
  have hdeclared : C = FunctionDef.Declared := by simpa using hC
  rw [hdeclared] at hfunction
  exact not_declared_strict hfunction

/-- `strict` is not forwarded, and a provider is told that the encoding is `null`. -/
theorem strict_dropped :
    toolRequest.ReadFrom (toolJson strictFunction) ∧
      Gateway.Reachable toolCrates toolGateway 0 toolRun ∧
      (toolRun.movesOf 0).filterMap sentBody
        = [asBytes ("\x7b\"model\":\"m\",\"messages\":[],\"stream\":true,"
            ++ "\"stream_options\":\x7b\"include_usage\":true\x7d,\"temperature\":0.0,"
            ++ "\"top_p\":1.0,\"tools\":[\x7b\"type\":\"function\","
            ++ "\"function\":\x7b\"name\":\"f\"\x7d\x7d]\x7d")] ∧
      ¬ (ApiCall.chat (.ok toolRequest)).Faithful (toolJson strictFunction)
        (injectStreamOptions toolRequest).written ∧
      inputRequest.ReadFrom inputJson ∧
      ¬ (ApiCall.embeddings (.ok inputRequest)).Faithful inputJson inputRequest.written := by
  have hread : toolRequest.ReadFrom (toolJson strictFunction) := ⟨.empty, rfl, .refl _⟩
  have hinput : inputRequest.ReadFrom inputJson := ⟨.empty, rfl, .refl _⟩
  refine ⟨hread, Gateway.replay_reachable _ _ _, by decide +kernel, ?_, hinput, ?_⟩
  · exact fun h => not_fits_strict ((ChatCompletionRequest.faithful_iff hread).mp h)
  · intro h
    obtain ⟨_, heq, hmem⟩ := (EmbeddingRequest.faithful_iff hinput).mp h
    cases heq
    revert hmem
    decide

theorem declared_plain : FunctionDef.Declared plainFunction := by
  refine ⟨_, rfl, fun e he _ => ⟨Any, ?_, trivial⟩⟩
  rw [List.mem_singleton.mp he]
  simp

theorem fits_plain : Fits ChatCompletionRequest.schema (toolJson plainFunction) := by
  refine ⟨_, rfl, fun e he _ C hC => ?_⟩
  simp only [List.mem_cons, List.not_mem_nil, or_false] at he
  rcases he with rfl | rfl | rfl | rfl
  · have hany : C = Any := by simpa [ChatCompletionRequest.schema] using hC
    rw [hany]
    trivial
  · have hany : C = Any := by simpa [ChatCompletionRequest.schema] using hC
    rw [hany]
    trivial
  · have hfinite : C = FiniteF32 := by simpa [ChatCompletionRequest.schema] using hC
    rw [hfinite]
    exact ⟨_, rfl, by decide⟩
  · have htools : C = ListOf Tool.Declared := by simpa [ChatCompletionRequest.schema] using hC
    rw [htools]
    refine ⟨_, rfl, fun tool htool => ⟨_, List.mem_singleton.mp htool, fun e he _ => ?_⟩⟩
    simp only [List.mem_cons, List.not_mem_nil, or_false] at he
    rcases he with rfl | rfl
    · exact ⟨FunctionDef.Declared, by simp, declared_plain⟩
    · exact ⟨Any, by simp, trivial⟩

/-- A function without it arrives as it was. -/
theorem forwarded_faithfully_iff_plain :
    ∃ w, (ApiCall.chat (.ok toolRequest)).document = some w ∧
      (ApiCall.chat (.ok toolRequest)).IsSentAs toolCrates toolGateway
        (asBytes (String.ofList (w.text .table))) ∧
      (ApiCall.chat (.ok toolRequest)).Faithful (toolJson plainFunction) w := by
  have hread : (ApiCall.chat (.ok toolRequest)).ReadFrom (toolJson plainFunction) :=
    ⟨.empty, rfl, .refl _⟩
  obtain ⟨w, hdocument, hsent, hiff⟩ :=
    forwarded_faithfully_iff toolGateway (Crates.table_writes [smallKey] []) hread
  exact ⟨w, hdocument, hsent, hiff.mpr fits_plain⟩

end LlmGateway
