/-
The keys of the exact cache.

`requestKey` is the key `chat_completions` computes for a request.  What is hashed is the
model, a zero byte and the text of the request, with nothing that frames them; but the text
has no zero byte, so the last one in the input is the separator and the two parts can be
told apart whatever the model contains.

The text is not canonical, though: `extra` is written in the order in which the map happens
to be iterated, and a zero with its sign.
-/
import LlmGateway.Proofs.Crates
import LlmGateway.Proofs.Types
import LlmGateway.Handlers.Chat

namespace LlmGateway

variable {x : Crates} {ryu : Ryu} {r r' : ChatCompletionRequest}

/-- The model and the text are determined by the bytes that are hashed. -/
theorem keyBytes_cancel {model model' : String} {l l' : List Char} (hl : NulFree l)
    (hl' : NulFree l')
    (h : keyBytes model (String.ofList l) = keyBytes model' (String.ofList l')) :
    model = model' ∧ l = l' := by
  obtain ⟨hmodel, hpayload⟩ := append_cons_cancel (fun hz => hl (ascii_mem_asBytes (by decide) hz))
    (fun hz => hl' (ascii_mem_asBytes (by decide) hz)) h
  refine ⟨asBytes_injective hmodel, ?_⟩
  have htext := congrArg String.toList (asBytes_injective hpayload)
  rwa [String.toList_ofList, String.toList_ofList] at htext

/-- The key `chat_completions` computes for a request, if it is one that is cached. -/
def requestKey (x : Crates) (r : ChatCompletionRequest) : Option String :=
  match x.chatToString (injectStreamOptions r) with
  | .ok promptPayload => chatCacheKey x (injectStreamOptions r) promptPayload
  | .error _ => none

/-- What is hashed for a request. -/
def hashedBytes (ryu : Ryu) (r : ChatCompletionRequest) : List UInt8 :=
  keyBytes r.model (String.ofList (r.json ryu))

theorem injectStreamOptions_of_not_stream (h : r.stream = false) : injectStreamOptions r = r := by
  unfold injectStreamOptions
  rw [if_neg (by simp [h])]

theorem F32.gtZero_of_isZero {t : F32} (h : t.isZero = true) : t.gtZero = false := by
  rcases F32.eq_of_isZero h with rfl | rfl
  · decide
  · decide

/-- A request that does not stream, at temperature zero, has the key of its text. -/
theorem requestKey_eq (hx : x.Writes ryu) (hstream : r.stream = false)
    (hzero : r.temperature.isZero = true) :
    requestKey x r = some ("exact:" ++ x.sha256Hex (hashedBytes ryu r)) := by
  unfold requestKey
  rw [injectStreamOptions_of_not_stream hstream, hx.chat]
  simp only [chatCacheKey, computeKey, hstream, F32.gtZero_of_isZero hzero, Bool.false_eq_true,
    if_false]
  rfl

/--
**The keys of equal requests are equal where the maps iterate alike.**  For two requests
with the same content the key is the same exactly when `extra` comes in the same order and
corresponding zeros have the same sign: `temperature`, `top_p`, and those among the numbers of
`extra`, message parts, tool parameters, `tool_choice` and the JSON schema.  SHA-256 is assumed
not to collide on the two inputs.
-/
theorem requestKey_eq_iff (hx : x.Writes ryu)
    (hsha : x.sha256Hex (hashedBytes ryu r) = x.sha256Hex (hashedBytes ryu r') →
      hashedBytes ryu r = hashedBytes ryu r')
    (hstream : r.stream = false) (hzero : r.temperature.isZero = true) (heq : r.Equal r') :
    requestKey x r = requestKey x r' ↔ r.Alike r' := by
  have hzero' : r'.temperature.isZero = true := by
    have hbeq := heq.temperature
    unfold F32.beq at hbeq
    rcases Bool.or_eq_true_iff.mp hbeq with hz | hbits
    · exact (Bool.and_eq_true_iff.mp hz).2
    · have hsame := (Bool.and_eq_true_iff.mp hbits).1
      unfold F32.isZero at hzero ⊢
      rwa [← eq_of_beq hsame]
  rw [requestKey_eq hx hstream hzero, requestKey_eq hx (heq.stream ▸ hstream) hzero',
    Option.some.injEq, String.append_right_inj]
  constructor
  · intro hdigest
    obtain ⟨-, htext⟩ := keyBytes_cancel r.nulFree_json r'.nulFree_json (hsha hdigest)
    exact heq.json_eq_iff.mp htext
  · intro hsame
    unfold hashedBytes
    rw [heq.json_eq_iff.mpr hsame, heq.model]

/-- A deterministic request with two members the gateway does not know. -/
def requestWithExtra (entries : List (String × Value)) (h : (entries.map (·.1)).Nodup) :
    ChatCompletionRequest where
  model := "m"
  messages := []
  stream := false
  streamOptions := none
  temperature := ⟨0⟩
  topP := ⟨0x3f800000⟩
  seed := none
  tools := none
  toolChoice := none
  responseFormat := none
  maxTokens := none
  stop := none
  extra := ⟨entries, h⟩

/-- A request with two members that no field declares. -/
def countThenUser : ChatCompletionRequest :=
  requestWithExtra [("n", .number (.posInt 1)), ("user", .string "u")] (by decide)

/-- The same request in the other iteration order. -/
def userThenCount : ChatCompletionRequest :=
  requestWithExtra [("user", .string "u"), ("n", .number (.posInt 1))] (by decide)

/-- The digests of the two inputs. -/
def orderCrates : Crates :=
  .table
    [(hashedBytes .table countThenUser,
        "864e6067103db98a79ef1a64d36571f79a2fa55c5df7af463362712d3153612c"),
      (hashedBytes .table userThenCount,
        "d5668338ab42517a05878566aefd035e146f4ac451a86b1097fee5898da6afb2")] []

theorem countThenUser_equal : countThenUser.Equal userThenCount where
  model := rfl
  messages := .nil
  stream := rfl
  streamOptions := rfl
  temperature := by decide
  topP := by decide
  seed := rfl
  tools := .none
  toolChoice := .none
  responseFormat := .none
  maxTokens := rfl
  stop := rfl
  extra := ⟨rfl, by decide⟩

/-- Two equal requests, two keys. -/
theorem keys_differ : countThenUser.Equal userThenCount ∧
    requestKey orderCrates countThenUser ≠ requestKey orderCrates userThenCount := by
  refine ⟨countThenUser_equal, ?_⟩
  decide

/-- The same order, the same key. -/
theorem requestKey_eq_iff_order :
    ¬ requestKey orderCrates countThenUser = requestKey orderCrates userThenCount := by
  have hx : orderCrates.Writes .table := Crates.table_writes _ _
  rw [requestKey_eq_iff hx (by decide) rfl rfl countThenUser_equal]
  intro halike
  exact absurd (congrArg (List.map Prod.fst) halike.extra) (by decide)

end LlmGateway
