/-
The text of a request: no NUL in it, and what it tells of the request.

Two requests that are equal can differ in the signs of their zeros, wherever there are numbers
in them, and in the order `extra` is iterated in.  Their texts show both: each part of a text
tells whether the parts it is written for are the same (`Tells`), and so does the whole.
-/
import LlmGateway.Types
import LlmGateway.Proofs.Json
import LlmGateway.Lib.Tells

namespace LlmGateway

variable {ryu : Ryu}

/-! ### No NUL -/

theorem NulFreeMembers.append {ms ms' : List (String × List Char)} (h : NulFreeMembers ms)
    (h' : NulFreeMembers ms') : NulFreeMembers (ms ++ ms') := by
  intro m hm
  rcases List.mem_append.mp hm with hl | hr
  · exact h m hl
  · exact h' m hr

theorem nulFree_always (key : String) {t : List Char} (h : NulFree t) :
    NulFreeMembers (always key t) := by
  intro m hm
  rw [List.mem_singleton.mp hm]
  exact h

theorem nulFree_ifSome {α : Type} (key : String) (a : Option α) {text : α → List Char}
    (h : ∀ x, NulFree (text x)) : NulFreeMembers (ifSome key a text) := by
  intro m hm
  cases a with
  | none => exact absurd hm (by simp [ifSome])
  | some x =>
      rw [List.mem_singleton.mp hm]
      exact h x

theorem nulFree_mapped {α : Type} {f : α → List Char} (h : ∀ a, NulFree (f a)) (l : List α) :
    NulFree (arrayText (l.map f)) := by
  refine nulFree_arrayText fun t ht => ?_
  obtain ⟨a, -, rfl⟩ := List.mem_map.mp ht
  exact h a

theorem F32.nulFree_json (x : F32) : NulFree (x.json ryu) := by
  unfold F32.json
  by_cases h : x.isFinite = true
  · rw [if_pos h]
    exact .of_alphabet (ryu.f32_chars x) (by decide)
  · rw [if_neg h]
    decide

theorem FunctionCall.nulFree_json (f : FunctionCall) : NulFree f.json :=
  nulFree_objectText ((nulFree_always _ (nulFree_quote _)).append
    (nulFree_always _ (nulFree_quote _)))

theorem ToolCall.nulFree_json (t : ToolCall) : NulFree t.json :=
  nulFree_objectText (((nulFree_always _ (nulFree_quote _)).append
    (nulFree_always _ (nulFree_quote _))).append (nulFree_always _ t.function.nulFree_json))

theorem MessageContent.nulFree_json (c : MessageContent) : NulFree (c.json ryu) := by
  cases c with
  | text s => exact nulFree_quote s
  | parts l => exact nulFree_mapped (Value.nulFree_json ryu) l

theorem Message.nulFree_json (m : Message) : NulFree (m.json ryu) := by
  refine nulFree_objectText (.append (.append (.append (.append ?_ ?_) ?_) ?_) ?_)
  · exact nulFree_always _ (nulFree_quote _)
  · exact nulFree_ifSome _ _ MessageContent.nulFree_json
  · exact nulFree_ifSome _ _ nulFree_quote
  · exact nulFree_ifSome _ _ (nulFree_mapped ToolCall.nulFree_json)
  · exact nulFree_ifSome _ _ nulFree_quote

theorem FunctionDef.nulFree_json (f : FunctionDef) : NulFree (f.json ryu) := by
  refine nulFree_objectText (.append (.append ?_ ?_) ?_)
  · exact nulFree_always _ (nulFree_quote _)
  · exact nulFree_ifSome _ _ nulFree_quote
  · exact nulFree_ifSome _ _ (Value.nulFree_json ryu)

theorem Tool.nulFree_json (t : Tool) : NulFree (t.json ryu) :=
  nulFree_objectText ((nulFree_always _ (nulFree_quote _)).append
    (nulFree_always _ t.function.nulFree_json))

theorem ResponseFormat.nulFree_json (r : ResponseFormat) : NulFree (r.json ryu) :=
  nulFree_objectText ((nulFree_always _ (nulFree_quote _)).append
    (nulFree_ifSome _ _ (Value.nulFree_json ryu)))

theorem StopTokens.nulFree_json (s : StopTokens) : NulFree s.json := by
  cases s with
  | single s => exact nulFree_quote s
  | multiple l => exact nulFree_mapped nulFree_quote l

theorem StreamOptions.nulFree_json (o : StreamOptions) : NulFree o.json :=
  nulFree_objectText (nulFree_always _ (nulFree_boolText _))

namespace ChatCompletionRequest

theorem nulFree_fields (r : ChatCompletionRequest) : NulFreeMembers (r.fields ryu) := by
  unfold fields
  refine .append (.append (.append (.append (.append (.append (.append (.append (.append
    (.append ?_ ?_) ?_) ?_) ?_) ?_) ?_) ?_) ?_) ?_) ?_
  · exact nulFree_always _ (nulFree_mapped Message.nulFree_json _)
  · exact nulFree_always _ (nulFree_boolText _)
  · exact nulFree_ifSome _ _ StreamOptions.nulFree_json
  · exact nulFree_always _ (F32.nulFree_json _)
  · exact nulFree_always _ (F32.nulFree_json _)
  · exact nulFree_ifSome _ _ fun n => nulFree_intText _
  · exact nulFree_ifSome _ _ (nulFree_mapped Tool.nulFree_json)
  · exact nulFree_ifSome _ _ (Value.nulFree_json ryu)
  · exact nulFree_ifSome _ _ ResponseFormat.nulFree_json
  · exact nulFree_ifSome _ _ fun n => nulFree_digits _
  · exact nulFree_ifSome _ _ StopTokens.nulFree_json

/-- **The text of a request contains no NUL**, whatever its model and its prompt contain. -/
theorem nulFree_json (r : ChatCompletionRequest) : NulFree (r.json ryu) := by
  refine nulFree_objectText (.append ?_ ?_)
  · exact (nulFree_always _ (nulFree_quote r.model)).append r.nulFree_fields
  · intro m hm
    obtain ⟨e, -, rfl⟩ := List.mem_map.mp hm
    exact Value.nulFree_json ryu e.2

end ChatCompletionRequest

/-! ### What a text tells -/

/-- The members of an object after its first. -/
def membersText (ms : List (String × List Char)) : List Char :=
  ms.flatMap fun m => ',' :: memberText m.1 m.2

theorem objectText_cons (m : String × List Char) (ms : List (String × List Char)) :
    objectText (m :: ms) = '{' :: (memberText m.1 m.2 ++ (membersText ms ++ ['}'])) := by
  unfold objectText membersText commaSep
  simp [List.flatMap_map]

@[simp] theorem membersText_append (ms ms' : List (String × List Char)) :
    membersText (ms ++ ms') = membersText ms ++ membersText ms' :=
  List.flatMap_append

theorem membersText_cons (m : String × List Char) (ms : List (String × List Char)) :
    membersText (m :: ms) = (',' :: memberText m.1 m.2) ++ membersText ms := rfl

section Tells

variable {α : Type} {P Q : Prop} {t t' : List Char} {ms ms' ns ns' : List (String × List Char)}

theorem tells_member (key : String) (h : Tells t t' P) :
    Tells (',' :: memberText key t) (',' :: memberText key t') P :=
  .cons _ (((Tells.refl (quote key) trivial).append (h.cons ':')).mono And.right)

theorem tells_always (key : String) (h : Tells t t' P) :
    Tells (membersText (always key t)) (membersText (always key t')) P :=
  (tells_member key h).snoc []

theorem tells_members (h : Tells (membersText ms) (membersText ms') P)
    (h' : Tells (membersText ns) (membersText ns') Q) :
    Tells (membersText (ms ++ ns)) (membersText (ms' ++ ns')) (P ∧ Q) := by
  rw [membersText_append, membersText_append]
  exact h.append h'

/-- An object tells what its members tell. -/
theorem tells_objectText (hms : ms ≠ []) (hms' : ms' ≠ [])
    (h : Tells (membersText ms) (membersText ms') P) :
    Tells (objectText ms) (objectText ms') P := by
  obtain ⟨m, ms, rfl⟩ := List.exists_cons_of_ne_nil hms
  obtain ⟨m', ms', rfl⟩ := List.exists_cons_of_ne_nil hms'
  intro rest rest' heq
  have hopen : membersText (m :: ms) ++ '}' :: rest = membersText (m' :: ms') ++ '}' :: rest' := by
    rw [objectText_cons, objectText_cons] at heq
    simpa [membersText_cons] using heq
  obtain ⟨hP, hrest⟩ := h _ _ hopen
  exact ⟨hP, (List.cons.inj hrest).2⟩

/-- An array tells its elements where each element does. -/
theorem tells_arrayText {f : α → List Char} {l l' : List α}
    (h : List.Forall₂ (fun a a' => Tells (f a) (f a') (a = a')) l l') :
    Tells (arrayText (l.map f)) (arrayText (l'.map f)) (l = l') := by
  refine .cons '[' (Tells.snoc ?_ [']'])
  cases h with
  | nil => exact .refl [] rfl
  | cons hhead htail =>
      have hrest := Tells.flatMap (f := fun a => ',' :: f a) (htail.imp fun _ _ h => h.cons ',')
      show Tells (_ ++ ((List.map f _).flatMap _)) (_ ++ ((List.map f _).flatMap _)) _
      rw [List.flatMap_map, List.flatMap_map]
      refine (hhead.append hrest).mono ?_
      rintro ⟨rfl, rfl⟩
      rfl

end Tells

/-! ### Numbers -/

theorem F32.json_zero : F32.json ryu ⟨0⟩ = "0.0".toList := by
  unfold F32.json
  rw [if_pos (by decide), ryu.f32_zero]

theorem F32.json_negZero : F32.json ryu ⟨0x80000000⟩ = "-0.0".toList := by
  unfold F32.json
  rw [if_pos (by decide), ryu.f32_negZero]

theorem F32.eq_of_isZero {x : F32} (h : x.isZero = true) : x = ⟨0⟩ ∨ x = ⟨0x80000000⟩ := by
  obtain ⟨bits⟩ := x
  simpa [isZero] using h

/-- The texts of the two zeros differ at once. -/
theorem tells_zeros {β : Type} {text : β → List Char} {zero negZero : β}
    (hzero : text zero = "0.0".toList) (hneg : text negZero = "-0.0".toList) {x y : β}
    (hx : x = zero ∨ x = negZero) (hy : y = zero ∨ y = negZero) :
    Tells (text x) (text y) (x = y) := by
  rcases hx with rfl | rfl
  · rcases hy with rfl | rfl
    · exact .refl _ rfl
    · rw [hzero, hneg]
      exact .of_ne (by decide)
  · rcases hy with rfl | rfl
    · rw [hzero, hneg]
      exact .of_ne (by decide)
    · exact .refl _ rfl

/-- The texts of two equal numbers differ only if they are the two zeros. -/
theorem F32.tells (ryu : Ryu) {x y : F32} (h : x.beq y = true) :
    Tells (x.json ryu) (y.json ryu) (x = y) := by
  unfold beq at h
  rcases Bool.or_eq_true_iff.mp h with hzero | hbits
  · obtain ⟨hx, hy⟩ := Bool.and_eq_true_iff.mp hzero
    exact tells_zeros json_zero json_negZero (eq_of_isZero hx) (eq_of_isZero hy)
  · obtain ⟨bits⟩ := x
    obtain ⟨bits'⟩ := y
    obtain rfl : bits = bits' := eq_of_beq (Bool.and_eq_true_iff.mp hbits).1
    exact .refl _ rfl

theorem f64_tells (ryu : Ryu) {x y : UInt64} (h : f64Beq x y = true) :
    Tells (ryu.f64 x) (ryu.f64 y) (x = y) := by
  unfold f64Beq at h
  rcases Bool.or_eq_true_iff.mp h with hzero | hbits
  · obtain ⟨hx, hy⟩ := Bool.and_eq_true_iff.mp hzero
    unfold f64IsZero at hx hy
    exact tells_zeros ryu.f64_zero ryu.f64_negZero (by simpa using hx) (by simpa using hy)
  · obtain rfl : x = y := eq_of_beq (Bool.and_eq_true_iff.mp hbits).1
    exact .refl _ rfl

theorem Number.tells (ryu : Ryu) {n n' : Number} (h : n.beq n' = true) :
    Tells (n.json ryu) (n'.json ryu) (n = n') := by
  cases n with
  | posInt n =>
      cases n' with
      | posInt n' =>
          obtain rfl : n = n' := eq_of_beq h
          exact .refl _ rfl
      | _ => cases h
  | negInt n neg =>
      cases n' with
      | negInt n' neg' =>
          obtain rfl : n = n' := eq_of_beq h
          exact .refl _ rfl
      | _ => cases h
  | float bits =>
      cases n' with
      | float bits' => exact (f64_tells ryu h).mono (congrArg float)
      | _ => cases h

/-! ### Values -/

theorem Value.jsons_eq (vs : List Value) : Value.jsons ryu vs = vs.map (Value.json ryu) := by
  induction vs with
  | nil => rfl
  | cons v vs ih =>
      rw [Value.jsons, ih]
      rfl

theorem Value.entryJsons_eq (es : List (String × Value)) :
    Value.entryJsons ryu es = es.map fun e => (e.1, e.2.json ryu) := by
  induction es with
  | nil => rfl
  | cons e es ih =>
      obtain ⟨k, v⟩ := e
      rw [Value.entryJsons, ih]
      rfl

mutual
/-- **The texts of two equal values tell whether they are the same**: what is equal and not the
same has a zero with another sign somewhere, and its text shows it. -/
theorem Value.tells (ryu : Ryu) : {v v' : Value} → v.beq v' = true →
    Tells (v.json ryu) (v'.json ryu) (v = v')
  | .null, .null, _ => .refl _ rfl
  | .bool b, .bool b', h => by
      rw [Value.beq, beq_iff_eq] at h
      subst h
      exact .refl _ rfl
  | .number n, .number n', h => by
      rw [Value.beq] at h
      rw [Value.json, Value.json]
      exact (Number.tells ryu h).mono (congrArg Value.number)
  | .string s, .string s', h => by
      rw [Value.beq, beq_iff_eq] at h
      subst h
      exact .refl _ rfl
  | .array elems, .array elems', h => by
      rw [Value.beq] at h
      rw [Value.json, Value.json, Value.jsons_eq, Value.jsons_eq]
      exact (tells_arrayText (Value.tells_all ryu h)).mono (congrArg Value.array)
  | .object [], .object [], _ => .refl _ rfl
  | .object (e :: es), .object (e' :: es'), h => by
      rw [Value.beq] at h
      rw [Value.json, Value.json, Value.entryJsons_eq, Value.entryJsons_eq]
      exact (tells_objectText (by simp) (by simp) (Value.tells_entries ryu h)).mono
        (congrArg Value.object)
  | .object [], .object (e' :: es'), h => by simp [Value.beq, Value.entryBeqs] at h
  | .object (e :: es), .object [], h => by simp [Value.beq, Value.entryBeqs] at h

theorem Value.tells_all (ryu : Ryu) : {vs vs' : List Value} → Value.beqs vs vs' = true →
    List.Forall₂ (fun v v' => Tells (v.json ryu) (v'.json ryu) (v = v')) vs vs'
  | [], [], _ => .nil
  | v :: vs, v' :: vs', h => by
      rw [Value.beqs, Bool.and_eq_true] at h
      exact .cons (Value.tells ryu h.1) (Value.tells_all ryu h.2)

theorem Value.tells_entries (ryu : Ryu) : {es es' : List (String × Value)} →
    Value.entryBeqs es es' = true →
    Tells (membersText (es.map fun e => (e.1, e.2.json ryu)))
      (membersText (es'.map fun e => (e.1, e.2.json ryu))) (es = es')
  | [], [], _ => .refl _ rfl
  | (k, v) :: es, (k', v') :: es', h => by
      rw [Value.entryBeqs, Bool.and_eq_true, Bool.and_eq_true, beq_iff_eq] at h
      obtain ⟨⟨rfl, hv⟩, hes⟩ := h
      refine ((tells_member k (Value.tells ryu hv)).append (Value.tells_entries ryu hes)).mono ?_
      rintro ⟨rfl, rfl⟩
      rfl
end

/-! ### Equal requests -/

/-- Equality of what a message contains. -/
def MessageContent.Equal : MessageContent → MessageContent → Prop
  | .text s, .text s' => s = s'
  | .parts l, .parts l' => Value.beqs l l' = true
  | _, _ => False

/-- Equality of messages, JSON values as `serde_json` compares them. -/
structure Message.Equal (m m' : Message) : Prop where
  role : m.role = m'.role
  content : Option.Rel MessageContent.Equal m.content m'.content
  name : m.name = m'.name
  toolCalls : m.toolCalls = m'.toolCalls
  toolCallId : m.toolCallId = m'.toolCallId

/-- Equality of tools. -/
structure Tool.Equal (t t' : Tool) : Prop where
  type : t.type = t'.type
  name : t.function.name = t'.function.name
  description : t.function.description = t'.function.description
  parameters : Option.Rel (fun v v' => v.beq v' = true) t.function.parameters t'.function.parameters

/-- Equality of response formats. -/
structure ResponseFormat.Equal (r r' : ResponseFormat) : Prop where
  type : r.type = r'.type
  jsonSchema : Option.Rel (fun v v' => v.beq v' = true) r.jsonSchema r'.jsonSchema

/-- `==` of maps: as many entries, and for each one of the other with this key and an equal
value. -/
structure HashMap.Equal (a b : HashMap) : Prop where
  length : a.entries.length = b.entries.length
  entries : ∀ e ∈ a.entries, ∃ e' ∈ b.entries, e'.1 = e.1 ∧ e.2.beq e'.2 = true

namespace ChatCompletionRequest

/-- Equality of requests: equal fields, numbers as `f32` and `f64` compare them, and `extra` as
a map. -/
structure Equal (r r' : ChatCompletionRequest) : Prop where
  model : r.model = r'.model
  messages : List.Forall₂ Message.Equal r.messages r'.messages
  stream : r.stream = r'.stream
  streamOptions : r.streamOptions = r'.streamOptions
  temperature : r.temperature.beq r'.temperature = true
  topP : r.topP.beq r'.topP = true
  seed : r.seed = r'.seed
  tools : Option.Rel (List.Forall₂ Tool.Equal) r.tools r'.tools
  toolChoice : Option.Rel (fun v v' => v.beq v' = true) r.toolChoice r'.toolChoice
  responseFormat : Option.Rel ResponseFormat.Equal r.responseFormat r'.responseFormat
  maxTokens : r.maxTokens = r'.maxTokens
  stop : r.stop = r'.stop
  extra : r.extra.Equal r'.extra

/-- What equal requests can differ in: the signs of zeros, in any of these, and the order of
`extra`. -/
structure Alike (r r' : ChatCompletionRequest) : Prop where
  messages : r.messages = r'.messages
  temperature : r.temperature = r'.temperature
  topP : r.topP = r'.topP
  tools : r.tools = r'.tools
  toolChoice : r.toolChoice = r'.toolChoice
  responseFormat : r.responseFormat = r'.responseFormat
  extra : r.extra.entries = r'.extra.entries

end ChatCompletionRequest

section Tells

variable {α : Type} (text : α → List Char)

/-- An optional member tells whether it is the same, where its text does. -/
theorem tells_optional (key : String) {R : α → α → Prop} {a a' : Option α}
    (h : Option.Rel R a a') (htells : ∀ {b b'}, R b b' → Tells (text b) (text b') (b = b')) :
    Tells (membersText (ifSome key a text)) (membersText (ifSome key a' text)) (a = a') := by
  cases h with
  | none => exact .refl [] rfl
  | some h => exact (tells_always key (htells h)).mono (congrArg some)

/-- A list of texts tells its elements, where each text does. -/
theorem tells_list {R : α → α → Prop} {l l' : List α} (h : List.Forall₂ R l l')
    (htells : ∀ {a a'}, R a a' → Tells (text a) (text a') (a = a')) :
    Tells (arrayText (l.map text)) (arrayText (l'.map text)) (l = l') :=
  tells_arrayText (h.imp fun _ _ => htells)

/-- Members that are the same on both sides tell nothing more. -/
theorem tells_after (os : List (String × List Char)) {ms ms' : List (String × List Char)}
    {P : Prop} (h : Tells (membersText ms) (membersText ms') P) :
    Tells (membersText (os ++ ms)) (membersText (os ++ ms')) P :=
  (tells_members (.refl (membersText os) trivial) h).mono And.right

theorem tells_before {ms ms' : List (String × List Char)} {P : Prop}
    (h : Tells (membersText ms) (membersText ms') P) (os : List (String × List Char)) :
    Tells (membersText (ms ++ os)) (membersText (ms' ++ os)) P :=
  (tells_members h (.refl (membersText os) trivial)).mono And.left

end Tells

theorem MessageContent.tells (ryu : Ryu) {c c' : MessageContent} (h : c.Equal c') :
    Tells (c.json ryu) (c'.json ryu) (c = c') := by
  cases c with
  | text s =>
      cases c' with
      | text s' =>
          obtain rfl : s = s' := h
          exact .refl _ rfl
      | parts l' => exact h.elim
  | parts l =>
      cases c' with
      | text s' => exact h.elim
      | parts l' => exact (tells_arrayText (Value.tells_all ryu h)).mono (congrArg parts)

theorem Message.tells (ryu : Ryu) {m m' : Message} (h : m.Equal m') :
    Tells (m.json ryu) (m'.json ryu) (m = m') := by
  obtain ⟨role, content, name, toolCalls, toolCallId⟩ := m
  obtain ⟨role', content', name', toolCalls', toolCallId'⟩ := m'
  obtain ⟨rfl, hcontent, rfl, rfl, rfl⟩ := h
  have hmembers := tells_after (always "role" (quote role))
    (tells_optional (MessageContent.json ryu) "content" hcontent (MessageContent.tells ryu))
  have hall := tells_before (tells_before (tells_before hmembers (ifSome "name" name quote))
    (ifSome "tool_calls" toolCalls fun l => arrayText (l.map ToolCall.json)))
    (ifSome "tool_call_id" toolCallId quote)
  refine (tells_objectText (by simp [always]) (by simp [always]) hall).mono ?_
  rintro rfl
  rfl

theorem Tool.tells (ryu : Ryu) {t t' : Tool} (h : t.Equal t') :
    Tells (t.json ryu) (t'.json ryu) (t = t') := by
  obtain ⟨type, name, description, parameters⟩ := t
  obtain ⟨type', name', description', parameters'⟩ := t'
  obtain ⟨rfl, rfl, rfl, hparameters⟩ := h
  have hfunction := tells_after
    (always "name" (quote name) ++ ifSome "description" description quote)
    (tells_optional (Value.json ryu) "parameters" hparameters (Value.tells ryu))
  have hall := tells_after (always "type" (quote type))
    (tells_always "function" (tells_objectText (by simp [always]) (by simp [always]) hfunction))
  refine (tells_objectText (by simp [always]) (by simp [always]) hall).mono ?_
  rintro rfl
  rfl

theorem ResponseFormat.tells (ryu : Ryu) {r r' : ResponseFormat} (h : r.Equal r') :
    Tells (r.json ryu) (r'.json ryu) (r = r') := by
  obtain ⟨type, schema⟩ := r
  obtain ⟨type', schema'⟩ := r'
  obtain ⟨rfl, hschema⟩ := h
  have hall := tells_after (always "type" (quote type))
    (tells_optional (Value.json ryu) "json_schema" hschema (Value.tells ryu))
  refine (tells_objectText (by simp [always]) (by simp [always]) hall).mono ?_
  rintro rfl
  rfl

/-- **The entries of a map tell their order**, and with it whether they are the same. -/
theorem tells_entries (ryu : Ryu) : ∀ {es es' : List (String × Value)}, es.length = es'.length →
    (es.map (·.1)).Nodup → (es'.map (·.1)).Nodup →
    (∀ e ∈ es, ∃ e' ∈ es', e'.1 = e.1 ∧ e.2.beq e'.2 = true) →
    Tells (membersText (es.map fun e => (e.1, e.2.json ryu)))
      (membersText (es'.map fun e => (e.1, e.2.json ryu))) (es = es')
  | [], [], _, _, _, _ => .refl _ rfl
  | [], _ :: _, hlength, _, _, _ => nomatch hlength
  | _ :: _, [], hlength, _, _, _ => nomatch hlength
  | (k, v) :: es, (k', v') :: es', hlength, hnodup, hnodup', hsame => by
      rw [List.map_cons, List.nodup_cons] at hnodup hnodup'
      -- the text shows the key, and keys are unique in the map
      suffices htells : k = k' →
          Tells (membersText (((k, v) :: es).map fun e => (e.1, e.2.json ryu)))
            (membersText (((k', v') :: es').map fun e => (e.1, e.2.json ryu)))
            ((k, v) :: es = (k', v') :: es') by
        intro rest rest' heq
        refine htells ?_ rest rest' heq
        rw [List.map_cons, List.map_cons, membersText_cons, membersText_cons] at heq
        simp only [memberText, List.cons_append, List.append_assoc, List.cons.injEq,
          true_and] at heq
        exact (quote_cancel heq).1
      rintro rfl
      have hrest : ∀ e ∈ es, ∃ e' ∈ es', e'.1 = e.1 ∧ e.2.beq e'.2 = true := by
        intro e he
        obtain ⟨e', he', hkey, hbeq⟩ := hsame e (List.mem_cons_of_mem _ he)
        rcases List.mem_cons.mp he' with rfl | he'
        · exact absurd (List.mem_map.mpr ⟨e, he, hkey.symm⟩) hnodup.1
        · exact ⟨e', he', hkey, hbeq⟩
      have hvalue : v.beq v' = true := by
        obtain ⟨e', he', hkey, hbeq⟩ := hsame (k, v) List.mem_cons_self
        rcases List.mem_cons.mp he' with rfl | he'
        · exact hbeq
        · exact absurd (List.mem_map.mpr ⟨e', he', hkey⟩) hnodup'.1
      refine ((tells_member k (Value.tells ryu hvalue)).append
        (tells_entries ryu (Nat.succ.inj hlength) hnodup.2 hnodup'.2 hrest)).mono ?_
      rintro ⟨rfl, rfl⟩
      rfl

theorem HashMap.Equal.tells (ryu : Ryu) {a b : HashMap} (h : a.Equal b) :
    Tells (membersText (a.members ryu)) (membersText (b.members ryu)) (a.entries = b.entries) :=
  tells_entries ryu h.length a.nodup b.nodup h.entries

namespace ChatCompletionRequest

/-- The declared fields tell whether the zeros in them have the same signs. -/
theorem Equal.tells_fields (ryu : Ryu) {r r' : ChatCompletionRequest} (h : r.Equal r') :
    Tells (membersText (r.fields ryu)) (membersText (r'.fields ryu))
      (r.messages = r'.messages ∧ r.temperature = r'.temperature ∧ r.topP = r'.topP ∧
        r.tools = r'.tools ∧ r.toolChoice = r'.toolChoice ∧
        r.responseFormat = r'.responseFormat) := by
  have hmessages := tells_always "messages"
    (tells_list (Message.json ryu) h.messages (Message.tells ryu))
  have htemperature := tells_always "temperature" (F32.tells ryu h.temperature)
  have htopP := tells_always "top_p" (F32.tells ryu h.topP)
  have htools := tells_optional (fun l => arrayText (l.map (Tool.json ryu))) "tools" h.tools
    fun hl => tells_list (Tool.json ryu) hl (Tool.tells ryu)
  have hchoice := tells_optional (Value.json ryu) "tool_choice" h.toolChoice (Value.tells ryu)
  have hformat := tells_optional (ResponseFormat.json ryu) "response_format" h.responseFormat
    (ResponseFormat.tells ryu)
  unfold fields
  rw [h.stream, h.streamOptions, h.seed, h.maxTokens, h.stop]
  refine (tells_before (tells_before (tells_members (tells_members (tells_members
    (tells_before (tells_members (tells_members (tells_before (tells_before hmessages _) _)
      htemperature) htopP) _) htools) hchoice) hformat) _) _).mono ?_
  rintro ⟨⟨⟨⟨⟨hm, ht⟩, hp⟩, htools⟩, hchoice⟩, hformat⟩
  exact ⟨hm, ht, hp, htools, hchoice, hformat⟩

/-- **The texts of equal requests are equal where the signs of all zeros are and `extra` is
iterated in the same order.** -/
theorem Equal.json_eq_iff {r r' : ChatCompletionRequest} (h : r.Equal r') :
    r.json ryu = r'.json ryu ↔ r.Alike r' := by
  constructor
  · intro heq
    have hmembers := tells_members (tells_after [("model", quote r.model)] (h.tells_fields ryu))
      (h.extra.tells ryu)
    unfold json at heq
    rw [← h.model] at heq
    obtain ⟨⟨hmessages, htemperature, htopP, htools, hchoice, hformat⟩, hextra⟩ :=
      (tells_objectText (by simp) (by simp) hmembers).of_eq heq
    exact ⟨hmessages, htemperature, htopP, htools, hchoice, hformat, hextra⟩
  · rintro ⟨hmessages, htemperature, htopP, htools, hchoice, hformat, hextra⟩
    unfold json fields HashMap.members
    rw [hmessages, htemperature, htopP, htools, hchoice, hformat, hextra, h.model, h.stream,
      h.streamOptions, h.seed, h.maxTokens, h.stop]

end ChatCompletionRequest

end LlmGateway
