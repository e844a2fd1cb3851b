/-
What is kept of a client's JSON in the document forwarded for it.

`Value.Kept` compares the two on every level: scalars are the same, arrays have the same
elements, and an object has every member that was sent and is not `null`, and no other.
Reading a record and writing it again keeps it if and only if its members are declared
fields whose values are kept in turn (`record_kept_iff`); everything a field is read with
is compared once, as `Reads`, and the records are put together from that.
-/
import LlmGateway.Deserialize
import LlmGateway.Proofs.Written

namespace LlmGateway

open Written (filled mem_filled)

/-! ### The comparison -/

namespace Value

mutual
/-- The document says what the value says. -/
def Kept : Value → Written → Prop
  | .null, w => w = .null
  | .bool b, w => w = .bool b
  | .number n, w => w = n.written
  | .string s, w => w = .string s
  | .array l, w => ∃ ws, w = .array ws ∧ KeptAll l ws
  | .object es, w =>
      ∃ ms, w = .object ms ∧ KeptEntries es ms ∧ ∀ d ∈ ms, d.1 ∈ es.map (·.1)

/-- The elements of an array, one by one. -/
def KeptAll : List Value → List Written → Prop
  | [], ws => ws = []
  | v :: vs, ws => ∃ w rest, ws = w :: rest ∧ Kept v w ∧ KeptAll vs rest

/-- The members of an object, one by one. -/
def KeptEntries : List (String × Value) → List (String × Written) → Prop
  | [], _ => True
  | (k, v) :: es, ms => (v ≠ .null → ∃ w, (k, w) ∈ ms ∧ Kept v w) ∧ KeptEntries es ms
end

/-- A number is rounded to an `f32`. -/
def Rounded (v : Value) (w : Written) : Prop := ∃ n, v = .number n ∧ w = .f32 n.toF32

end Value

/-- How the member under a key is compared: up to rounding, or not. -/
def Compared (rounded : List String) (key : String) : Value → Written → Prop :=
  if key ∈ rounded then Value.Rounded else Value.Kept

/-- Every member that is not `null` is there. -/
def Contains (rounded : List String) (es : List (String × Value))
    (ms : List (String × Written)) : Prop :=
  ∀ e ∈ es, e.2 ≠ .null → ∃ w, (e.1, w) ∈ ms ∧ Compared rounded e.1 e.2 w

theorem compared_kept {rounded : List String} {key : String} (h : key ∉ rounded) :
    Compared rounded key = Value.Kept := if_neg h

theorem keptEntries_iff (es : List (String × Value)) (ms : List (String × Written)) :
    Value.KeptEntries es ms ↔ Contains [] es ms := by
  unfold Contains
  induction es with
  | nil => simp [Value.KeptEntries]
  | cons e es ih =>
      rw [Value.KeptEntries, ih, List.forall_mem_cons, compared_kept List.not_mem_nil]

theorem kept_object_iff (es : List (String × Value)) (ms : List (String × Written)) :
    (Value.object es).Kept (.object ms) ↔
      Contains [] es ms ∧ ∀ d ∈ ms, d.1 ∈ es.map (·.1) := by
  rw [Value.Kept, ← keptEntries_iff]
  constructor
  · rintro ⟨ms', heq, h⟩
    cases heq
    exact h
  · intro h
    exact ⟨ms, rfl, h⟩

/-- An array is kept element by element. -/
theorem kept_array_iff {α : Type} {write : α → Written} {C : Value → Prop} {l : List Value}
    {as : List α} (h : List.Forall₂ (fun v a => v.Kept (write a) ↔ C v) l as) :
    (Value.array l).Kept (.array (as.map write)) ↔ ∀ v ∈ l, C v := by
  have hall : Value.KeptAll l (as.map write) ↔ ∀ v ∈ l, C v := by
    induction h with
    | nil => simp [Value.KeptAll]
    | cons hva _ ih =>
        rw [List.map_cons, Value.KeptAll, List.forall_mem_cons, ← hva, ← ih]
        constructor
        · rintro ⟨w, rest, heq, hkept⟩
          cases heq
          exact hkept
        · intro hkept
          exact ⟨_, _, rfl, hkept⟩
  rw [Value.Kept, ← hall]
  constructor
  · rintro ⟨ws, heq, hkept⟩
    cases heq
    exact hkept
  · intro hkept
    exact ⟨_, rfl, hkept⟩

namespace Value

mutual
/-- A value is kept in its own document. -/
theorem kept_written : ∀ v : Value, v.Kept v.written
  | .null => rfl
  | .bool _ => rfl
  | .number _ => rfl
  | .string _ => rfl
  | .array l => ⟨_, rfl, keptAll_writtens l⟩
  | .object es => by
      refine ⟨_, rfl, ?_, ?_⟩
      · rw [keptEntries_iff, entriesWritten_eq]
        intro e he _
        rw [compared_kept List.not_mem_nil]
        exact ⟨e.2.written, List.mem_map.mpr ⟨e, he, rfl⟩, kept_entries es e he⟩
      · intro d hd
        rw [entriesWritten_eq] at hd
        obtain ⟨e, he, rfl⟩ := List.mem_map.mp hd
        exact List.mem_map.mpr ⟨e, he, rfl⟩

theorem keptAll_writtens : ∀ l : List Value, KeptAll l (writtens l)
  | [] => rfl
  | v :: vs => ⟨_, _, rfl, kept_written v, keptAll_writtens vs⟩

theorem kept_entries : ∀ (es : List (String × Value)) (e), e ∈ es → e.2.Kept e.2.written
  | (k, v) :: es, e, he => by
      rcases List.mem_cons.mp he with rfl | he
      · exact kept_written v
      · exact kept_entries es e he
end

end Value

/-! ### Readers -/

/-- What is read from a value that satisfies the condition, and only that, is written as the
relation asks. -/
def Reads {α : Type} (R : Value → Written → Prop) (read : Value → Option α)
    (write : α → Written) (C : Value → Prop) : Prop :=
  ∀ v a, read v = some a → (R v (write a) ↔ C v)

/-- What is read is written as it was. -/
def Exact {α : Type} (read : Value → Option α) (write : α → Written) : Prop :=
  ∀ v a, read v = some a → write a = v.written

/-- No condition. -/
def Any : Value → Prop := fun _ => True

/-- An array of such values. -/
def ListOf (C : Value → Prop) (v : Value) : Prop := ∃ l, v = .array l ∧ ∀ a ∈ l, C a

section Readers

variable {α : Type} {read : Value → Option α} {write : α → Written} {C : Value → Prop}

theorem Exact.reads (h : Exact read write) : Reads Value.Kept read write Any := by
  intro v a hread
  rw [h v a hread]
  exact iff_of_true v.kept_written trivial

theorem asVec_cases {v : Value} {as : List α} (h : v.asVec read = some as) :
    ∃ l, v = .array l ∧ List.Forall₂ (fun u a => read u = some a) l as := by
  cases v with
  | array l =>
      refine ⟨l, rfl, ?_⟩
      change l.mapM read = some as at h
      induction l generalizing as with
      | nil =>
          cases h
          exact .nil
      | cons u l ih =>
          rw [List.mapM_cons] at h
          obtain ⟨a, hu, h⟩ := Option.bind_eq_some_iff.mp h
          obtain ⟨rest, hrest, h⟩ := Option.bind_eq_some_iff.mp h
          cases h
          exact .cons hu (ih hrest)
  | null => cases h
  | bool b => cases h
  | number n => cases h
  | string s => cases h
  | object es => cases h

theorem Reads.vec (h : Reads Value.Kept read write C) :
    Reads Value.Kept (Value.asVec read) (fun l => .array (l.map write)) (ListOf C) := by
  intro v as hread
  obtain ⟨l, rfl, hall⟩ := asVec_cases hread
  rw [kept_array_iff (hall.imp fun v a hva => h v a hva)]
  constructor
  · intro hC
    exact ⟨l, rfl, hC⟩
  · rintro ⟨l', heq, hC⟩
    cases heq
    exact hC

theorem Exact.vec (h : Exact read write) :
    Exact (Value.asVec read) fun l => .array (l.map write) := by
  intro v as hread
  obtain ⟨l, rfl, hall⟩ := asVec_cases hread
  have hmap : as.map write = l.map Value.written := by
    clear hread
    induction hall with
    | nil => rfl
    | cons hva _ ih => rw [List.map_cons, List.map_cons, h _ _ hva, ih]
  show Written.array (as.map write) = _
  rw [hmap, Value.written, Value.writtens_eq]

/-- One of two readers. -/
theorem Exact.or {read' : Value → Option α} (h : Exact read write) (h' : Exact read' write) :
    Exact (fun v => (read v).or (read' v)) write := by
  intro v a hread
  rcases Option.or_eq_some_iff.mp hread with hleft | ⟨-, hright⟩
  · exact h v a hleft
  · exact h' v a hright

/-- A variant of an untagged enumeration. -/
theorem Exact.variant {β : Type} (inject : α → β) {write : β → Written}
    (h : Exact read fun a => write (inject a)) : Exact (fun v => (read v).map inject) write := by
  intro v b hread
  obtain ⟨a, ha, rfl⟩ := Option.map_eq_some_iff.mp hread
  exact h v a ha

end Readers

/-! ### The readers of scalars and of untagged enumerations -/

theorem exact_value : Exact some Value.written := by
  intro v a h
  rw [Option.some.inj h]

theorem exact_str : Exact Value.asStr .string := by
  intro v s h
  cases v with
  | string s' =>
      cases h
      rfl
  | _ => cases h

theorem exact_bool : Exact Value.asBool .bool := by
  intro v b h
  cases v with
  | bool b' =>
      cases h
      rfl
  | _ => cases h

theorem exact_array : Exact Value.asArray fun l => .array (l.map Value.written) := by
  intro v l h
  cases v with
  | array l' =>
      cases h
      rw [Value.written, Value.writtens_eq]
  | _ => cases h

theorem Number.written_asI64 {n : Number} {i : Int64} (h : n.asI64 = some i) :
    Written.int i.toInt = n.written := by
  cases n with
  | posInt n =>
      obtain ⟨hlt, heq⟩ := Option.ite_none_right_eq_some.mp h
      obtain rfl := Option.some.inj heq
      have hsize : (n.toNat : Int).bmod Int64.size = n.toNat :=
        Int.bmod_eq_of_le (by simp [Int64.size]) (by simp [Int64.size]; omega)
      rw [Int64.toInt_ofNat', hsize]
      rfl
  | negInt n neg =>
      cases h
      rfl
  | float bits => cases h

theorem Number.written_asU32 {n : Number} {u : UInt32} (h : n.asU32 = some u) :
    Written.int u.toNat = n.written := by
  cases n with
  | posInt n =>
      obtain ⟨hlt, heq⟩ := Option.ite_none_right_eq_some.mp h
      obtain rfl := Option.some.inj heq
      rw [UInt32.toNat_ofNat_of_lt' hlt]
      rfl
  | negInt n neg => cases h
  | float bits => cases h

theorem exact_i64 : Exact Value.asI64 fun i => .int i.toInt := by
  intro v i h
  cases v with
  | number n => exact Number.written_asI64 h
  | _ => cases h

theorem exact_u32 : Exact Value.asU32 fun u => .int u.toNat := by
  intro v u h
  cases v with
  | number n => exact Number.written_asU32 h
  | _ => cases h

theorem MessageContent.exact : Exact MessageContent.deserialize MessageContent.written :=
  .or (.variant text exact_str) (.variant parts exact_array)

theorem StopTokens.exact : Exact StopTokens.deserialize StopTokens.written :=
  .or (.variant single exact_str) (.variant multiple exact_str.vec)

theorem EmbeddingInput.exact : Exact EmbeddingInput.deserialize EmbeddingInput.written :=
  .or (.variant string exact_str) <| .or (.variant stringArray exact_str.vec) <|
    .or (.variant tokenArray exact_u32.vec) (.variant tokenMatrix exact_u32.vec.vec)

/-! ### The fields of a record -/

/-- The value is an object with a member under the key. -/
def Value.Has (v : Value) (key : String) : Prop := ∃ es, v = .object es ∧ key ∈ es.map (·.1)

/-- An object whose members, if they are not `null`, are in the schema. -/
def ObjectOf (schema : List (String × (Value → Prop))) (v : Value) : Prop :=
  ∃ es, v = .object es ∧ ∀ e ∈ es, e.2 ≠ .null → ∃ C, (e.1, C) ∈ schema ∧ C e.2

theorem HashMap.lookup_of_mem (m : HashMap) {k : String} {v : Value} (h : (k, v) ∈ m.entries) :
    m.entries.lookup k = some v := by
  obtain ⟨entries, hnodup⟩ := m
  induction entries with
  | nil => exact absurd h List.not_mem_nil
  | cons e es ih =>
      rw [List.map_cons, List.nodup_cons] at hnodup
      rcases List.mem_cons.mp h with rfl | hmem
      · exact List.lookup_cons_self
      · have hne : k ≠ e.1 := by
          intro heq
          exact hnodup.1 (heq ▸ List.mem_map_of_mem hmem)
        rw [List.lookup_cons, beq_false_of_ne hne]
        exact ih hnodup.2 hmem

theorem HashMap.key_of_lookup (m : HashMap) {k : String} {v : Value}
    (h : m.entries.lookup k = some v) : k ∈ m.entries.map (·.1) := by
  obtain ⟨before, after, heq, -⟩ := List.lookup_eq_some_iff.mp h
  rw [heq]
  simp

/-- A slot against its entry in the schema: what was sent and is not `null` fills the slot,
as it was if it satisfies the condition, and what fills the slot was sent or is a default. -/
structure Field (rounded : List String) (defaults : List (String × Written)) (m : HashMap)
    (s : String × Option Written) (c : String × (Value → Prop)) : Prop where
  key : s.1 = c.1
  carried : ∀ a, (s.1, a) ∈ m.entries → a ≠ .null →
    ∃ w, s.2 = some w ∧ (Compared rounded s.1 a w ↔ c.2 a)
  given : ∀ w, s.2 = some w → (s.1, w) ∈ defaults ∨ s.1 ∈ m.entries.map (·.1)

section Fields

variable {rounded : List String} {defaults : List (String × Written)} {m : HashMap}
  {slots : List (String × Option Written)} {schema : List (String × (Value → Prop))}
  {α : Type} {read : Value → Option α} {write : α → Written} {C : Value → Prop} {k : String}

/-- Under a key that is not rounded. -/
theorem Reads.under (h : Reads Value.Kept read write C) (hk : k ∉ rounded) :
    Reads (Compared rounded k) read write C := by
  rw [compared_kept hk]
  exact h

/-- A field read from a member. -/
theorem Field.sent {v : Value} {a : α} (h : Reads (Compared rounded k) read write C)
    (hv : m.entries.lookup k = some v) (hva : read v = some a) :
    Field rounded defaults m (k, some (write a)) (k, C) where
  key := rfl
  carried u hu _ := by
    obtain rfl := Option.some.inj ((m.lookup_of_mem hu).symm.trans hv)
    exact ⟨write a, rfl, h u a hva⟩
  given _ _ := .inr (m.key_of_lookup hv)

theorem Field.required {a : α} (h : Reads (Compared rounded k) read write C)
    (hread : m.required k read = some a) :
    Field rounded defaults m (k, some (write a)) (k, C) := by
  obtain ⟨v, hv, hva⟩ := Option.bind_eq_some_iff.mp hread
  exact .sent h hv hva

theorem Field.defaulted {a d : α} (h : Reads (Compared rounded k) read write C)
    (hread : m.defaulted k d read = some a) (hd : (k, write d) ∈ defaults) :
    Field rounded defaults m (k, some (write a)) (k, C) := by
  unfold HashMap.defaulted at hread
  cases hlookup : m.entries.lookup k with
  | none =>
      rw [hlookup] at hread
      cases hread
      refine ⟨rfl, fun u hu _ => ?_, fun w hw => .inl (Option.some.inj hw ▸ hd)⟩
      rw [m.lookup_of_mem hu] at hlookup
      cases hlookup
  | some v =>
      rw [hlookup] at hread
      exact .sent h hlookup hread

theorem optional_cases {o : Option α} (hread : m.optional k read = some o) :
    (o = none ∧ ∀ v, m.entries.lookup k = some v → v = .null) ∨
      ∃ v a, m.entries.lookup k = some v ∧ read v = some a ∧ o = some a := by
  unfold HashMap.optional at hread
  split at hread
  · rename_i hnone
    refine .inl ⟨(Option.some.inj hread).symm, fun v hv => ?_⟩
    rw [hnone] at hv
    cases hv
  · rename_i hnull
    refine .inl ⟨(Option.some.inj hread).symm, fun v hv => ?_⟩
    exact (Option.some.inj (hnull.symm.trans hv)).symm
  · rename_i v _ hv
    obtain ⟨a, ha, rfl⟩ := Option.map_eq_some_iff.mp hread
    exact .inr ⟨v, a, hv, ha, rfl⟩

theorem Field.optional {o : Option α} (h : Reads (Compared rounded k) read write C)
    (hread : m.optional k read = some o) : Field rounded defaults m (k, o.map write) (k, C) := by
  rcases optional_cases hread with ⟨rfl, hnull⟩ | ⟨v, a, hv, hva, rfl⟩
  · exact ⟨rfl, fun u hu hne => absurd (hnull u (m.lookup_of_mem hu)) hne, fun _ hw => by cases hw⟩
  · exact .sent h hv hva

theorem Field.of_slot (h : List.Forall₂ (Field rounded defaults m) slots schema)
    {s : String × Option Written} (hs : s ∈ slots) :
    ∃ c ∈ schema, Field rounded defaults m s c := by
  induction h with
  | nil => exact absurd hs List.not_mem_nil
  | cons hsc _ ih =>
      rcases List.mem_cons.mp hs with rfl | hs
      · exact ⟨_, List.mem_cons_self, hsc⟩
      · obtain ⟨c, hc, hfield⟩ := ih hs
        exact ⟨c, List.mem_cons_of_mem _ hc, hfield⟩

theorem Field.of_entry (h : List.Forall₂ (Field rounded defaults m) slots schema)
    {c : String × (Value → Prop)} (hc : c ∈ schema) :
    ∃ s ∈ slots, Field rounded defaults m s c := by
  induction h with
  | nil => exact absurd hc List.not_mem_nil
  | cons hsc _ ih =>
      rcases List.mem_cons.mp hc with rfl | hc
      · exact ⟨_, List.mem_cons_self, hsc⟩
      · obtain ⟨s, hs, hfield⟩ := ih hc
        exact ⟨s, List.mem_cons_of_mem _ hs, hfield⟩

/-- A record without a flattened map contains what was sent if and only if the schema covers
it. -/
theorem contains_filled_iff (h : List.Forall₂ (Field rounded defaults m) slots schema) :
    Contains rounded m.entries (filled slots) ↔
      ∀ e ∈ m.entries, e.2 ≠ .null → ∃ C, (e.1, C) ∈ schema ∧ C e.2 := by
  constructor
  · intro hcontains e he hne
    obtain ⟨w, hw, hcompared⟩ := hcontains e he hne
    obtain ⟨c, hc, hfield⟩ := Field.of_slot h (mem_filled.mp hw)
    obtain ⟨w', hw', hiff⟩ := hfield.carried e.2 he hne
    obtain rfl := Option.some.inj hw'
    have hkey : e.1 = c.1 := hfield.key
    exact ⟨c.2, hkey ▸ hc, hiff.mp hcompared⟩
  · intro hdeclared e he hne
    obtain ⟨C, hC, hsatisfied⟩ := hdeclared e he hne
    obtain ⟨⟨k, o⟩, hs, hfield⟩ := Field.of_entry h hC
    obtain rfl : k = e.1 := hfield.key
    obtain ⟨w, rfl, hiff⟩ := hfield.carried e.2 he hne
    exact ⟨w, mem_filled.mpr hs, hiff.mpr hsatisfied⟩

theorem asObject_entries {v : Value} (h : v.asObject = some m) : v = .object m.entries := by
  cases v with
  | object es =>
      obtain ⟨hnodup, heq⟩ := Option.dite_none_right_eq_some.mp h
      cases heq
      rfl
  | _ => cases h

theorem asStruct_cases {names : List String} {least : Nat} {v : Value}
    (h : v.asStruct names least = some m) : v = .object m.entries ∨ ∃ l, v = .array l := by
  cases v with
  | object es => exact .inl (asObject_entries h)
  | array l => exact .inr ⟨l, rfl⟩
  | _ => cases h

theorem has_object_iff {es : List (String × Value)} {key : String} :
    (Value.object es).Has key ↔ key ∈ es.map (·.1) := by
  constructor
  · rintro ⟨es', heq, hmem⟩
    cases heq
    exact hmem
  · intro hmem
    exact ⟨es, rfl, hmem⟩

/-- **A record is kept if and only if it is an object whose members the schema covers, and
every member it is written with was sent.** -/
theorem record_kept_iff {names : List String} {least : Nat} {v : Value}
    (hm : v.asStruct names least = some m)
    (h : List.Forall₂ (Field [] defaults m) slots schema) :
    v.Kept (.record slots) ↔ ObjectOf schema v ∧ ∀ d ∈ filled slots, v.Has d.1 := by
  rcases asStruct_cases hm with rfl | ⟨l, rfl⟩
  · have hobject : ObjectOf schema (.object m.entries) ↔
        ∀ e ∈ m.entries, e.2 ≠ .null → ∃ C, (e.1, C) ∈ schema ∧ C e.2 := by
      constructor
      · rintro ⟨es, heq, hall⟩
        cases heq
        exact hall
      · intro hall
        exact ⟨_, rfl, hall⟩
    unfold Written.record
    rw [kept_object_iff, contains_filled_iff h, hobject]
    simp only [has_object_iff]
  · -- the fields were read from an array, and an object is written
    constructor
    · rintro ⟨ws, heq, -⟩
      cases heq
    · rintro ⟨⟨es, heq, -⟩, -⟩
      cases heq

/-- A record without defaults is kept if and only if the schema covers its members. -/
theorem declared_kept_iff {names : List String} {least : Nat} {v : Value}
    (hm : v.asStruct names least = some m) (h : List.Forall₂ (Field [] [] m) slots schema) :
    v.Kept (.record slots) ↔ ObjectOf schema v := by
  rw [record_kept_iff hm h]
  refine and_iff_left_of_imp ?_
  rintro ⟨es, rfl, -⟩ ⟨k, w⟩ hd
  obtain ⟨c, -, hfield⟩ := Field.of_slot h (mem_filled.mp hd)
  rcases asStruct_cases hm with heq | ⟨l, heq⟩
  · cases heq
    exact has_object_iff.mpr ((hfield.given w rfl).resolve_left List.not_mem_nil)
  · cases heq

end Fields

/-! ### The records of a chat request -/

/-- A function call with members of its type only. -/
def FunctionCall.Declared : Value → Prop := ObjectOf [("name", Any), ("arguments", Any)]

/-- A tool call with members of its type only, and the function in it too. -/
def ToolCall.Declared : Value → Prop :=
  ObjectOf [("id", Any), ("type", Any), ("function", FunctionCall.Declared)]

/-- A message with members of its type only, and its tool calls too. -/
def Message.Declared : Value → Prop :=
  ObjectOf [("role", Any), ("content", Any), ("name", Any),
    ("tool_calls", ListOf ToolCall.Declared), ("tool_call_id", Any)]

/-- A function definition with members of its type only. -/
def FunctionDef.Declared : Value → Prop :=
  ObjectOf [("name", Any), ("description", Any), ("parameters", Any)]

/-- A tool with members of its type only, and the definition in it too. -/
def Tool.Declared : Value → Prop :=
  ObjectOf [("type", Any), ("function", FunctionDef.Declared)]

/-- A response format with members of its type only. -/
def ResponseFormat.Declared : Value → Prop := ObjectOf [("type", Any), ("json_schema", Any)]

/-- Stream options, whose one field is also there, because it is written in any case. -/
def StreamOptions.Declared (v : Value) : Prop :=
  ObjectOf [("include_usage", Any)] v ∧ v.Has "include_usage"

section Records

variable {α : Type} {read : Value → Option α} {write : α → Written} {C : Value → Prop}

/-- In a record of `types.rs` no field is rounded. -/
theorem Reads.nested {k : String} (h : Reads Value.Kept read write C) :
    Reads (Compared [] k) read write C := h.under List.not_mem_nil

theorem FunctionCall.reads :
    Reads Value.Kept FunctionCall.deserialize FunctionCall.written FunctionCall.Declared := by
  intro v f h
  obtain ⟨m, hm, h⟩ := Option.bind_eq_some_iff.mp h
  obtain ⟨name, hname, h⟩ := Option.bind_eq_some_iff.mp h
  obtain ⟨arguments, harguments, h⟩ := Option.bind_eq_some_iff.mp h
  cases h
  exact declared_kept_iff hm <| .cons (.required exact_str.reads.nested hname) <|
    .cons (.required exact_str.reads.nested harguments) .nil

theorem ToolCall.reads :
    Reads Value.Kept ToolCall.deserialize ToolCall.written ToolCall.Declared := by
  intro v t h
  obtain ⟨m, hm, h⟩ := Option.bind_eq_some_iff.mp h
  obtain ⟨id, hid, h⟩ := Option.bind_eq_some_iff.mp h
  obtain ⟨type, htype, h⟩ := Option.bind_eq_some_iff.mp h
  obtain ⟨function, hfunction, h⟩ := Option.bind_eq_some_iff.mp h
  cases h
  exact declared_kept_iff hm <| .cons (.required exact_str.reads.nested hid) <|
    .cons (.required exact_str.reads.nested htype) <|
    .cons (.required FunctionCall.reads.nested hfunction) .nil

theorem Message.reads :
    Reads Value.Kept Message.deserialize Message.written Message.Declared := by
  intro v t h
  obtain ⟨m, hm, h⟩ := Option.bind_eq_some_iff.mp h
  obtain ⟨role, hrole, h⟩ := Option.bind_eq_some_iff.mp h
  obtain ⟨content, hcontent, h⟩ := Option.bind_eq_some_iff.mp h
  obtain ⟨name, hname, h⟩ := Option.bind_eq_some_iff.mp h
  obtain ⟨toolCalls, htoolCalls, h⟩ := Option.bind_eq_some_iff.mp h
  obtain ⟨toolCallId, htoolCallId, h⟩ := Option.bind_eq_some_iff.mp h
  cases h
  exact declared_kept_iff hm <| .cons (.required exact_str.reads.nested hrole) <|
    .cons (.optional MessageContent.exact.reads.nested hcontent) <|
    .cons (.optional exact_str.reads.nested hname) <|
    .cons (.optional ToolCall.reads.vec.nested htoolCalls) <|
    .cons (.optional exact_str.reads.nested htoolCallId) .nil

theorem FunctionDef.reads :
    Reads Value.Kept FunctionDef.deserialize FunctionDef.written FunctionDef.Declared := by
  intro v f h
  obtain ⟨m, hm, h⟩ := Option.bind_eq_some_iff.mp h
  obtain ⟨name, hname, h⟩ := Option.bind_eq_some_iff.mp h
  obtain ⟨description, hdescription, h⟩ := Option.bind_eq_some_iff.mp h
  obtain ⟨parameters, hparameters, h⟩ := Option.bind_eq_some_iff.mp h
  cases h
  exact declared_kept_iff hm <| .cons (.required exact_str.reads.nested hname) <|
    .cons (.optional exact_str.reads.nested hdescription) <|
    .cons (.optional exact_value.reads.nested hparameters) .nil

theorem Tool.reads : Reads Value.Kept Tool.deserialize Tool.written Tool.Declared := by
  intro v t h
  obtain ⟨m, hm, h⟩ := Option.bind_eq_some_iff.mp h
  obtain ⟨type, htype, h⟩ := Option.bind_eq_some_iff.mp h
  obtain ⟨function, hfunction, h⟩ := Option.bind_eq_some_iff.mp h
  cases h
  exact declared_kept_iff hm <| .cons (.required exact_str.reads.nested htype) <|
    .cons (.required FunctionDef.reads.nested hfunction) .nil

theorem ResponseFormat.reads :
    Reads Value.Kept ResponseFormat.deserialize ResponseFormat.written
      ResponseFormat.Declared := by
  intro v r h
  obtain ⟨m, hm, h⟩ := Option.bind_eq_some_iff.mp h
  obtain ⟨type, htype, h⟩ := Option.bind_eq_some_iff.mp h
  obtain ⟨jsonSchema, hjsonSchema, h⟩ := Option.bind_eq_some_iff.mp h
  cases h
  exact declared_kept_iff hm <| .cons (.required exact_str.reads.nested htype) <|
    .cons (.optional exact_value.reads.nested hjsonSchema) .nil

theorem StreamOptions.reads :
    Reads Value.Kept StreamOptions.deserialize StreamOptions.written StreamOptions.Declared := by
  intro v o h
  obtain ⟨m, hm, h⟩ := Option.bind_eq_some_iff.mp h
  obtain ⟨includeUsage, hincludeUsage, h⟩ := Option.bind_eq_some_iff.mp h
  cases h
  have hfield : Field [] [("include_usage", .bool false)] m
      ("include_usage", some (.bool includeUsage)) ("include_usage", Any) :=
    .defaulted exact_bool.reads.nested hincludeUsage List.mem_cons_self
  refine (record_kept_iff hm (.cons hfield .nil)).trans ?_
  unfold StreamOptions.Declared
  simp [filled]

end Records

end LlmGateway
