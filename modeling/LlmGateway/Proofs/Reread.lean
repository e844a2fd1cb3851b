/-
What is forwarded, read again.

A document that was written is read as a value, `Written.ReadAs`: numbers exactly, as numbers
that stand for them, objects as maps with the same keys.  `Restores` says of a reader and a
writer that what was written and read again is what it was, `Yields` what every value that was
read satisfies.  The two meet at the request: what a client sent is read as something that can
be restored, so a gateway behind a gateway gets the same request — unless a number had
overflowed, which is written as `null`.
-/
import LlmGateway.Proofs.Forwarding
import Mathlib.Data.String.Basic
import Mathlib.Data.List.Nodup

namespace LlmGateway

open Written (filled mem_filled)

variable {x : Crates} {ryu : Ryu}

/-! ### Maps in order -/

namespace Value

mutual
/-- The members of an object come in the order of their keys, as in a `BTreeMap`. -/
def Ordered : Value → Prop
  | .array l => AllOrdered l
  | .object es => (es.map (·.1)).Pairwise (· < ·) ∧ EntriesOrdered es
  | _ => True

/-- Every one of the values is ordered. -/
def AllOrdered : List Value → Prop
  | [] => True
  | v :: vs => Ordered v ∧ AllOrdered vs

/-- The value of every entry is ordered. -/
def EntriesOrdered : List (String × Value) → Prop
  | [] => True
  | (_, v) :: es => Ordered v ∧ EntriesOrdered es
end

theorem allOrdered_iff {l : List Value} : AllOrdered l ↔ ∀ v ∈ l, v.Ordered := by
  induction l with
  | nil => simp [AllOrdered]
  | cons v vs ih => rw [AllOrdered, ih, List.forall_mem_cons]

theorem entriesOrdered_iff {es : List (String × Value)} :
    EntriesOrdered es ↔ ∀ e ∈ es, e.2.Ordered := by
  induction es with
  | nil => simp [EntriesOrdered]
  | cons e es ih => rw [EntriesOrdered, ih, List.forall_mem_cons]

theorem ordered_array {l : List Value} : (array l).Ordered ↔ ∀ v ∈ l, v.Ordered := by
  rw [Ordered, allOrdered_iff]

theorem ordered_object {es : List (String × Value)} :
    (object es).Ordered ↔ (es.map (·.1)).Pairwise (· < ·) ∧ ∀ e ∈ es, e.2.Ordered := by
  rw [Ordered, entriesOrdered_iff]

end Value

theorem nodup_of_ascending {ks : List String} (h : ks.Pairwise (· < ·)) : ks.Nodup :=
  h.imp fun hlt => ne_of_lt hlt

/-! ### Reading a document -/

namespace Written

mutual
/-- The document is read as this value. -/
def ReadAs : Written → Value → Prop
  | .null, v => v = .null
  | .bool b, v => v = .bool b
  | .int i, v => ∃ n, v = .number n ∧ n.written = .int i
  | .f32 x, v => ∃ n, v = .number n ∧ n.toF32 = x
  | .f64 bits, v => v = .number (.float bits)
  | .string s, v => v = .string s
  | .array ws, v => ∃ vs, v = .array vs ∧ AllReadAs ws vs
  | .object ms, v =>
      ∃ es, v = .object es ∧ (es.map (·.1)).Perm (ms.map (·.1)) ∧ MembersReadAs ms es

/-- The elements of an array, one by one. -/
def AllReadAs : List Written → List Value → Prop
  | [], vs => vs = []
  | w :: ws, vs => ∃ v rest, vs = v :: rest ∧ ReadAs w v ∧ AllReadAs ws rest

/-- The members of an object, each under its key. -/
def MembersReadAs : List (String × Written) → List (String × Value) → Prop
  | [], _ => True
  | (k, w) :: ms, es => (∃ v, (k, v) ∈ es ∧ ReadAs w v) ∧ MembersReadAs ms es
end

theorem membersReadAs_iff {ms : List (String × Written)} {es : List (String × Value)} :
    MembersReadAs ms es ↔ ∀ m ∈ ms, ∃ v, (m.1, v) ∈ es ∧ m.2.ReadAs v := by
  induction ms with
  | nil => simp [MembersReadAs]
  | cons m ms ih => rw [MembersReadAs, ih, List.forall_mem_cons]

theorem readAs_object {ms : List (String × Written)} {v : Value} :
    (object ms).ReadAs v ↔ ∃ es, v = .object es ∧ (es.map (·.1)).Perm (ms.map (·.1)) ∧
      ∀ m ∈ ms, ∃ u, (m.1, u) ∈ es ∧ m.2.ReadAs u := by
  simp only [ReadAs, membersReadAs_iff]

theorem readAs_array_map {α : Type} {write : α → Written} {l : List α} {v : Value} :
    (array (l.map write)).ReadAs v ↔
      ∃ vs, v = .array vs ∧ List.Forall₂ (fun a u => (write a).ReadAs u) l vs := by
  have hall : ∀ vs, AllReadAs (l.map write) vs ↔
      List.Forall₂ (fun a u => (write a).ReadAs u) l vs := by
    induction l with
    | nil => simp [AllReadAs]
    | cons a l ih =>
        intro vs
        rw [List.map_cons, AllReadAs]
        constructor
        · rintro ⟨v, rest, rfl, hv, hrest⟩
          exact .cons hv ((ih rest).mp hrest)
        · intro h
          cases h with
          | cons hv hrest => exact ⟨_, _, rfl, hv, (ih _).mpr hrest⟩
  rw [ReadAs]
  simp only [hall]

end Written

/-! ### Values are restored -/

theorem Number.eq_of_written {n k : Number} (h : n.written = k.written) : n = k := by
  cases n with
  | posInt i =>
      cases k with
      | posInt j =>
          have hij : i.toNat = j.toNat := Int.natCast_inj.mp (Written.int.inj h)
          rw [UInt64.toNat_inj.mp hij]
      | negInt j neg =>
          have hij : (i.toNat : Int) = j.toInt := Written.int.inj h
          have hneg : j.toInt < 0 := by simpa [Int64.lt_iff_toInt_lt] using neg
          omega
      | float bits => cases h
  | negInt i neg =>
      cases k with
      | posInt j =>
          have hij : i.toInt = (j.toNat : Int) := Written.int.inj h
          have hneg : i.toInt < 0 := by simpa [Int64.lt_iff_toInt_lt] using neg
          omega
      | negInt j neg' =>
          have hij : i.toInt = j.toInt := Written.int.inj h
          obtain rfl := Int64.toInt_inj.mp hij
          rfl
      | float bits => cases h
  | float bits =>
      cases k with
      | posInt j => cases h
      | negInt j neg => cases h
      | float bits' =>
          cases h
          rfl

namespace Value

/-- Two maps with the same keys in order, of which one has what the other has, are one. -/
theorem entries_unique {es fs : List (String × Value)}
    (hes : (es.map (·.1)).Pairwise (· < ·)) (hfs : (fs.map (·.1)).Pairwise (· < ·))
    (hkeys : (fs.map (·.1)).Perm (es.map (·.1))) (hsub : ∀ e ∈ es, e ∈ fs) : fs = es := by
  have hnodup : es.Nodup := List.Nodup.of_map _ (nodup_of_ascending hes)
  have hlength : fs.length ≤ es.length := by
    have := hkeys.length_eq
    simp only [List.length_map] at this
    omega
  have hperm : es.Perm fs := (List.subperm_of_subset hnodup hsub).perm_of_length_le hlength
  have hordered : es.Pairwise fun e f => e.1 < f.1 := List.pairwise_map.mp hes
  refine (hperm.eq_of_pairwise ?_ hordered (List.pairwise_map.mp hfs)).symm
  intro e f _ _ hef hfe
  exact absurd hef (lt_asymm hfe)

mutual
/-- **A value that is written and read again is itself.** -/
theorem eq_of_readAs : ∀ (u v : Value), u.Ordered → v.Ordered → u.written.ReadAs v → v = u
  | .null, _, _, _, h => h
  | .bool _, _, _, _, h => h
  | .number n, v, _, _, h => by
      cases n with
      | posInt i =>
          obtain ⟨k, rfl, hk⟩ := h
          rw [Number.eq_of_written (k := .posInt i) hk]
      | negInt i neg =>
          obtain ⟨k, rfl, hk⟩ := h
          rw [Number.eq_of_written (k := .negInt i neg) hk]
      | float bits => exact h
  | .string _, _, _, _, h => h
  | .array l, v, hu, hv, h => by
      rw [written, Written.ReadAs] at h
      obtain ⟨vs, rfl, hall⟩ := h
      rw [eq_of_allReadAs l vs hu hv hall]
  | .object es, v, hu, hv, h => by
      rw [written, entriesWritten_eq, Written.readAs_object] at h
      obtain ⟨fs, rfl, hkeys, hmembers⟩ := h
      rw [List.map_map] at hkeys
      obtain ⟨hes, horderedu⟩ := ordered_object.mp hu
      obtain ⟨hfs, horderedv⟩ := ordered_object.mp hv
      rw [entries_unique hes hfs hkeys fun e he => ?_]
      obtain ⟨u, hmem, hread⟩ := hmembers _ (List.mem_map.mpr ⟨e, he, rfl⟩)
      have hsame : u = e.2 :=
        eq_of_entryReadAs es e he (horderedu e he) u (horderedv _ hmem) hread
      rw [hsame] at hmem
      exact hmem

theorem eq_of_allReadAs : ∀ (l vs : List Value), AllOrdered l → AllOrdered vs →
    Written.AllReadAs (writtens l) vs → vs = l
  | [], _, _, _, h => h
  | u :: l, _, hu, hv, h => by
      obtain ⟨v, rest, rfl, hread, hrest⟩ := h
      rw [eq_of_readAs u v hu.1 hv.1 hread, eq_of_allReadAs l rest hu.2 hv.2 hrest]

theorem eq_of_entryReadAs : ∀ (es : List (String × Value)) (e), e ∈ es → e.2.Ordered →
    ∀ v : Value, v.Ordered → e.2.written.ReadAs v → v = e.2
  | (_, u) :: es, e, he, hu, v, hv, h => by
      rcases List.mem_cons.mp he with rfl | he
      · exact eq_of_readAs u v hu hv h
      · exact eq_of_entryReadAs es e he hu v hv h
end

end Value

/-! ### Readers -/

/-- What satisfies `G` is read back, and is never written as `null`. -/
structure Restores {α : Type} (read : Value → Option α) (write : α → Written) (G : α → Prop) :
    Prop where
  back : ∀ a v, G a → v.Ordered → (write a).ReadAs v → read v = some a
  notNull : ∀ a, G a → ¬ (write a).ReadAs .null

/-- What is read satisfies `G`. -/
def Yields {α : Type} (read : Value → Option α) (G : α → Prop) : Prop :=
  ∀ v a, v.Ordered → read v = some a → G a

/-- No condition. -/
def Free {α : Type} (_ : α) : Prop := True

section Readers

variable {α : Type} {read : Value → Option α} {write : α → Written} {G : α → Prop}

theorem restores_str : Restores Value.asStr .string Free where
  back s v _ _ h := by
    rw [show v = .string s from h]
    rfl
  notNull s _ h := by cases h

theorem restores_bool : Restores Value.asBool .bool Free where
  back b v _ _ h := by
    rw [show v = .bool b from h]
    rfl
  notNull b _ h := by cases h

theorem restores_i64 : Restores Value.asI64 (fun i => .int i.toInt) Free where
  back i v _ _ h := by
    obtain ⟨n, rfl, hn⟩ := h
    cases n with
    | posInt k =>
        have hk : (k.toNat : Int) = i.toInt := Written.int.inj hn
        have hlt := i.toInt_lt
        have hsmall : k.toNat < 2 ^ 63 := by omega
        show (if k.toNat < 2 ^ 63 then some (Int64.ofNat k.toNat) else none) = some i
        rw [if_pos hsmall]
        congr 1
        apply Int64.toInt_inj.mp
        rw [← hk, Int64.toInt_ofNat_of_lt hsmall]
    | negInt k neg =>
        have hk : k.toInt = i.toInt := Written.int.inj hn
        rw [← Int64.toInt_inj.mp hk]
        rfl
    | float bits => cases hn
  notNull i _ h := by
    obtain ⟨n, hnull, -⟩ := h
    cases hnull

theorem restores_u32 : Restores Value.asU32 (fun u => .int u.toNat) Free where
  back u v _ _ h := by
    obtain ⟨n, rfl, hn⟩ := h
    cases n with
    | posInt k =>
        have hk : k.toNat = u.toNat := Int.natCast_inj.mp (Written.int.inj hn)
        have hsmall : k.toNat < 2 ^ 32 := hk ▸ u.toNat_lt
        show (if k.toNat < 2 ^ 32 then some (UInt32.ofNat k.toNat) else none) = some u
        rw [if_pos hsmall, hk, UInt32.ofNat_toNat]
    | negInt k neg =>
        have hk : k.toInt = (u.toNat : Int) := Written.int.inj hn
        have hneg : k.toInt < 0 := by simpa [Int64.lt_iff_toInt_lt] using neg
        omega
    | float bits => cases hn
  notNull u _ h := by
    obtain ⟨n, hnull, -⟩ := h
    cases hnull

/-- A number that is finite reads back; any other one is written as `null`. -/
theorem restores_f32 : Restores Value.asF32 F32.written fun x => x.isFinite = true where
  back x v hx _ h := by
    rw [F32.written, if_pos hx] at h
    obtain ⟨n, rfl, hn⟩ := h
    rw [← hn]
    rfl
  notNull x hx h := by
    rw [F32.written, if_pos hx] at h
    obtain ⟨n, hnull, -⟩ := h
    cases hnull

/-- A JSON value that is not `null`. -/
def Value.Present (v : Value) : Prop := v.Ordered ∧ v ≠ .null

theorem restores_value : Restores some Value.written Value.Present where
  back u v hu hv h := congrArg some (Value.eq_of_readAs u v hu.1 hv h)
  notNull u hu h := hu.2 (Value.eq_of_readAs u .null hu.1 trivial h).symm

theorem Restores.vec (h : Restores read write G) :
    Restores (Value.asVec read) (fun l => .array (l.map write)) fun l => ∀ a ∈ l, G a where
  back l v hl hv hread := by
    obtain ⟨vs, rfl, hall⟩ := Written.readAs_array_map.mp hread
    show vs.mapM read = some l
    rw [Value.ordered_array] at hv
    clear hread
    induction hall with
    | nil => rfl
    | @cons a v l vs hva _ ih =>
        rw [List.forall_mem_cons] at hl hv
        rw [List.mapM_cons, h.back a v hl.1 hv.1 hva, ih hl.2 hv.2]
        rfl
  notNull l _ hread := by
    obtain ⟨vs, hnull, -⟩ := hread
    cases hnull

theorem Yields.vec (h : Yields read G) : Yields (Value.asVec read) fun l => ∀ a ∈ l, G a := by
  intro v l hv hread
  obtain ⟨vs, rfl, hall⟩ := asVec_cases hread
  rw [Value.ordered_array] at hv
  clear hread
  induction hall with
  | nil => simp
  | @cons v a vs l hva _ ih =>
      rw [List.forall_mem_cons] at hv ⊢
      exact ⟨h v a hv.1 hva, ih hv.2⟩

end Readers

/-! ### Records -/

/-- A map has the members the slots were filled with, and none for an empty one. -/
structure Carries (m : HashMap) (slots : List (String × Option Written)) : Prop where
  full : ∀ k w, (k, some w) ∈ slots →
    ∃ u, m.entries.lookup k = some u ∧ u.Ordered ∧ w.ReadAs u
  empty : ∀ k, (k, none) ∈ slots → m.entries.lookup k = none

section Fields

variable {m : HashMap} {slots : List (String × Option Written)} {α : Type}
  {read : Value → Option α} {write : α → Written} {G : α → Prop} {k : String} {a : α}
  {o : Option α}

theorem Carries.required (h : Carries m slots) (hr : Restores read write G)
    (hmem : (k, some (write a)) ∈ slots) (ha : G a) : m.required k read = some a := by
  obtain ⟨u, hlookup, hu, hread⟩ := h.full k _ hmem
  unfold HashMap.required
  rw [hlookup]
  exact hr.back a u ha hu hread

theorem Carries.defaulted (h : Carries m slots) (hr : Restores read write G)
    (hmem : (k, some (write a)) ∈ slots) (ha : G a) (d : α) : m.defaulted k d read = some a := by
  obtain ⟨u, hlookup, hu, hread⟩ := h.full k _ hmem
  unfold HashMap.defaulted
  rw [hlookup]
  exact hr.back a u ha hu hread

theorem Carries.present (h : Carries m slots) (hr : Restores read write G)
    (hmem : (k, some (write a)) ∈ slots) (ha : G a) : m.optional k read = some (some a) := by
  obtain ⟨u, hlookup, hu, hread⟩ := h.full k _ hmem
  have hback := hr.back a u ha hu hread
  unfold HashMap.optional
  rw [hlookup]
  cases u with
  | null => exact absurd hread (hr.notNull a ha)
  | _ => simp only [hback, Option.map_some]

theorem Carries.optional (h : Carries m slots) (hr : Restores read write G)
    (hmem : (k, o.map write) ∈ slots) (ho : ∀ a ∈ o, G a) : m.optional k read = some o := by
  cases o with
  | none =>
      unfold HashMap.optional
      rw [h.empty k hmem]
  | some a => exact h.present hr hmem (ho a rfl)

/-- A field that is written as `null` when it is empty. -/
theorem Carries.nullable (h : Carries m slots) (hr : Restores read write G)
    (hmem : (k, some ((o.map write).getD .null)) ∈ slots) (ho : ∀ a ∈ o, G a) :
    m.optional k read = some o := by
  cases o with
  | none =>
      obtain ⟨u, hlookup, -, hnull⟩ := h.full k _ hmem
      unfold HashMap.optional
      rw [hlookup, show u = .null from hnull]
  | some a => exact h.present hr hmem (ho a rfl)

/-- A number that is read again was finite. -/
theorem Carries.finite (h : Carries m slots) {y z d : F32} (hmem : (k, some y.written) ∈ slots)
    (hread : m.defaulted k d Value.asF32 = some z) : y.isFinite = true := by
  obtain ⟨u, hlookup, -, hu⟩ := h.full k _ hmem
  unfold HashMap.defaulted at hread
  rw [hlookup] at hread
  by_contra hinfinite
  rw [F32.written, if_neg hinfinite] at hu
  rw [show u = .null from hu] at hread
  cases hread

/-- The members of an object that was written with these slots, and with others. -/
theorem carries_of_readAs {others : List (String × Written)} {v : Value}
    (h : (Written.object (filled slots ++ others)).ReadAs v) (hv : v.Ordered)
    (hslots : (slots.map (·.1)).Nodup) (hothers : ∀ e ∈ others, e.1 ∉ slots.map (·.1)) :
    ∃ m : HashMap, v = .object m.entries ∧ HashMap.ofEntries m.entries = some m ∧
      Carries m slots ∧
      (m.entries.map (·.1)).Perm ((filled slots ++ others).map (·.1)) ∧
      ∀ e ∈ others, ∃ u, (e.1, u) ∈ m.entries ∧ e.2.ReadAs u := by
  obtain ⟨es, rfl, hkeys, hmembers⟩ := Written.readAs_object.mp h
  obtain ⟨hascending, hordered⟩ := Value.ordered_object.mp hv
  have hnodup := nodup_of_ascending hascending
  refine ⟨⟨es, hnodup⟩, rfl, dif_pos hnodup, ⟨?_, ?_⟩, hkeys, ?_⟩
  · intro k w hmem
    obtain ⟨u, hu, hread⟩ := hmembers _ (List.mem_append_left _ (mem_filled.mpr hmem))
    exact ⟨u, HashMap.lookup_of_mem ⟨es, hnodup⟩ hu, hordered _ hu, hread⟩
  · intro k hmem
    rw [List.lookup_eq_none_iff]
    intro e he
    have hkey : e.1 ∈ (filled slots ++ others).map (·.1) :=
      hkeys.mem_iff.mp (List.mem_map_of_mem he)
    simp only [bne_iff_ne, ne_eq]
    rintro rfl
    obtain ⟨⟨k, w⟩, hd, heq⟩ := List.mem_map.mp hkey
    obtain rfl : k = e.1 := heq
    rcases List.mem_append.mp hd with hslot | hother
    · -- the slot would be filled and empty
      have hsame := List.inj_on_of_nodup_map hslots (mem_filled.mp hslot) hmem rfl
      cases hsame
    · exact hothers _ hother (List.mem_map_of_mem hmem)
  · intro e he
    exact hmembers e (List.mem_append_right _ he)

/-- The members of a record. -/
theorem record_carries {v : Value} (h : (Written.record slots).ReadAs v) (hv : v.Ordered)
    (hslots : (slots.map (·.1)).Nodup) :
    ∃ m, (∀ names least, v.asStruct names least = some m) ∧ Carries m slots := by
  unfold Written.record at h
  rw [← List.append_nil (filled slots)] at h
  obtain ⟨m, rfl, hm, hcarries, -, -⟩ := carries_of_readAs h hv hslots (by simp)
  exact ⟨m, fun _ _ => hm, hcarries⟩

theorem record_notNull : ¬ (Written.record slots).ReadAs .null := by
  rintro ⟨es, hnull, -⟩
  cases hnull

theorem HashMap.written_apart {extra : HashMap} {names : List String}
    (h : ∀ e ∈ extra.entries, e.1 ∉ names) : ∀ e ∈ extra.written, e.1 ∉ names := by
  intro e he
  obtain ⟨e', he', rfl⟩ := List.mem_map.mp he
  exact h e' he'

/-- Every value of a map is in order. -/
def HashMap.Ordered (m : HashMap) : Prop := ∀ e ∈ m.entries, e.2.Ordered

/-- The flattened map of a record that is read again is what it was. -/
theorem same_of_readAs {extra : HashMap} {names : List String} (hslots : slots.map (·.1) = names)
    (hextra : extra.Ordered) (hm : m.Ordered) (hapart : ∀ e ∈ extra.entries, e.1 ∉ names)
    (hkeys : (m.entries.map (·.1)).Perm ((filled slots ++ extra.written).map (·.1)))
    (hothers : ∀ e ∈ extra.written, ∃ u, (e.1, u) ∈ m.entries ∧ e.2.ReadAs u) :
    extra.Same (m.without names) := by
  have hkept : ∀ e ∈ extra.entries, e ∈ m.entries := by
    intro e he
    obtain ⟨u, hu, hread⟩ := hothers _ (List.mem_map_of_mem he)
    have hsame : u = e.2 := Value.eq_of_readAs e.2 u (hextra e he) (hm _ hu) hread
    rw [hsame] at hu
    exact hu
  apply (List.perm_ext_iff_of_nodup extra.nodup.of_map (m.without names).nodup.of_map).mpr
  intro e
  constructor
  · intro he
    exact List.mem_filter.mpr ⟨hkept e he, decide_eq_true (hapart e he)⟩
  · intro he
    obtain ⟨hmem, hout⟩ := List.mem_filter.mp he
    obtain ⟨d, hd, hkey⟩ := List.mem_map.mp (hkeys.mem_iff.mp (List.mem_map_of_mem hmem))
    rcases List.mem_append.mp hd with hslot | hother
    · -- the key would be one of the fields'
      have hname : d.1 ∈ slots.map (·.1) := List.mem_map_of_mem (mem_filled.mp hslot)
      rw [hkey, hslots] at hname
      exact absurd hname (of_decide_eq_true hout)
    · obtain ⟨e', he', rfl⟩ := List.mem_map.mp hother
      rw [← List.inj_on_of_nodup_map m.nodup (hkept e' he') hmem hkey]
      exact he'

end Fields

/-! ### The records of a request -/

/-- Its parts have their keys in order. -/
def MessageContent.Whole : MessageContent → Prop
  | .text _ => True
  | .parts l => ∀ v ∈ l, v.Ordered

/-- Its content, if it has any, is whole. -/
def Message.Whole (m : Message) : Prop := ∀ c ∈ m.content, c.Whole

/-- Its parameters, if it has any, are present. -/
def FunctionDef.Whole (f : FunctionDef) : Prop := ∀ v ∈ f.parameters, v.Present

/-- Its function is whole. -/
def Tool.Whole (t : Tool) : Prop := t.function.Whole

/-- Its schema, if it has one, is present. -/
def ResponseFormat.Whole (r : ResponseFormat) : Prop := ∀ v ∈ r.jsonSchema, v.Present

theorem FunctionCall.restores : Restores FunctionCall.deserialize FunctionCall.written Free where
  back f v _ hv h := by
    obtain ⟨m, hm, hcarries⟩ := record_carries h hv (by simp)
    have hname := hcarries.required restores_str (List.mem_of_getElem? (i := 0) rfl) trivial
    have harguments := hcarries.required restores_str (List.mem_of_getElem? (i := 1) rfl) trivial
    simp [deserialize, hm, hname, harguments]
  notNull f _ := record_notNull

theorem ToolCall.restores : Restores ToolCall.deserialize ToolCall.written Free where
  back t v _ hv h := by
    obtain ⟨m, hm, hcarries⟩ := record_carries h hv (by simp)
    have hid := hcarries.required restores_str (List.mem_of_getElem? (i := 0) rfl) trivial
    have htype := hcarries.required restores_str (List.mem_of_getElem? (i := 1) rfl) trivial
    have hfunction := hcarries.required FunctionCall.restores
      (List.mem_of_getElem? (i := 2) rfl) trivial
    simp [deserialize, hm, hid, htype, hfunction]
  notNull t _ := record_notNull

theorem MessageContent.restores :
    Restores MessageContent.deserialize MessageContent.written MessageContent.Whole where
  back c v hc hv h := by
    cases c with
    | text s => rw [show v = .string s from h]; rfl
    | parts l =>
        obtain ⟨vs, rfl, hall⟩ := Written.readAs_array_map.mp h
        rw [Value.ordered_array] at hv
        have hsame : vs = l := by
          clear h
          induction hall with
          | nil => rfl
          | @cons u v l vs huv _ ih =>
              have hparts : ∀ part ∈ u :: l, part.Ordered := hc
              rw [List.forall_mem_cons] at hparts hv
              rw [Value.eq_of_readAs u v hparts.1 hv.1 huv, ih hparts.2 hv.2]
        rw [hsame]
        rfl
  notNull c _ h := by
    cases c with
    | text s => cases h
    | parts l =>
        obtain ⟨vs, hnull, -⟩ := h
        cases hnull

theorem Message.restores : Restores Message.deserialize Message.written Message.Whole where
  back a v ha hv h := by
    obtain ⟨m, hm, hcarries⟩ := record_carries h hv (by simp)
    have hrole := hcarries.required restores_str (List.mem_of_getElem? (i := 0) rfl) trivial
    have hcontent := hcarries.optional MessageContent.restores
      (List.mem_of_getElem? (i := 1) rfl) ha
    have hname := hcarries.optional restores_str (List.mem_of_getElem? (i := 2) rfl)
      fun _ _ => trivial
    have htoolCalls := hcarries.optional ToolCall.restores.vec
      (List.mem_of_getElem? (i := 3) rfl) fun _ _ _ _ => trivial
    have htoolCallId := hcarries.optional restores_str (List.mem_of_getElem? (i := 4) rfl)
      fun _ _ => trivial
    simp [deserialize, hm, hrole, hcontent, hname, htoolCalls, htoolCallId]
  notNull a _ := record_notNull

theorem FunctionDef.restores :
    Restores FunctionDef.deserialize FunctionDef.written FunctionDef.Whole where
  back f v hf hv h := by
    obtain ⟨m, hm, hcarries⟩ := record_carries h hv (by simp)
    have hname := hcarries.required restores_str (List.mem_of_getElem? (i := 0) rfl) trivial
    have hdescription := hcarries.optional restores_str (List.mem_of_getElem? (i := 1) rfl)
      fun _ _ => trivial
    have hparameters := hcarries.optional restores_value (List.mem_of_getElem? (i := 2) rfl) hf
    simp [deserialize, hm, hname, hdescription, hparameters]
  notNull f _ := record_notNull

theorem Tool.restores : Restores Tool.deserialize Tool.written Tool.Whole where
  back t v ht hv h := by
    obtain ⟨m, hm, hcarries⟩ := record_carries h hv (by simp)
    have htype := hcarries.required restores_str (List.mem_of_getElem? (i := 0) rfl) trivial
    have hfunction := hcarries.required FunctionDef.restores
      (List.mem_of_getElem? (i := 1) rfl) ht
    simp [deserialize, hm, htype, hfunction]
  notNull t _ := record_notNull

theorem ResponseFormat.restores :
    Restores ResponseFormat.deserialize ResponseFormat.written ResponseFormat.Whole where
  back r v hr hv h := by
    obtain ⟨m, hm, hcarries⟩ := record_carries h hv (by simp)
    have htype := hcarries.required restores_str (List.mem_of_getElem? (i := 0) rfl) trivial
    have hjsonSchema := hcarries.optional restores_value (List.mem_of_getElem? (i := 1) rfl) hr
    simp [deserialize, hm, htype, hjsonSchema]
  notNull r _ := record_notNull

theorem StreamOptions.restores :
    Restores StreamOptions.deserialize StreamOptions.written Free where
  back o v _ hv h := by
    obtain ⟨m, hm, hcarries⟩ := record_carries h hv (by simp)
    have hincludeUsage := hcarries.defaulted restores_bool
      (List.mem_of_getElem? (i := 0) rfl) trivial false
    simp [deserialize, hm, hincludeUsage]
  notNull o _ := record_notNull

theorem StopTokens.restores : Restores StopTokens.deserialize StopTokens.written Free where
  back s v _ hv h := by
    cases s with
    | single s => rw [show v = .string s from h]; rfl
    | multiple l =>
        have hback := restores_str.vec.back l v (fun _ _ => trivial) hv h
        obtain ⟨vs, rfl, -⟩ := Written.readAs_array_map.mp h
        simp [deserialize, hback, Value.asStr]
  notNull s _ h := by
    cases s with
    | single s => cases h
    | multiple l =>
        obtain ⟨vs, hnull, -⟩ := h
        cases hnull

/-! ### What is read can be restored -/

section Yields

variable {m : HashMap} {α : Type} {read : Value → Option α} {G : α → Prop} {k : String} {a : α}
  {o : Option α}

theorem ofEntries_entries {es : List (String × Value)} (h : HashMap.ofEntries es = some m) :
    m.entries = es := by
  obtain ⟨hnodup, heq⟩ := Option.dite_none_right_eq_some.mp h
  rw [← Option.some.inj heq]

theorem asStruct_ordered {names : List String} {least : Nat} {v : Value}
    (h : v.asStruct names least = some m) (hv : v.Ordered) : m.Ordered := by
  cases v with
  | object es =>
      unfold HashMap.Ordered
      rw [ofEntries_entries h]
      exact (Value.ordered_object.mp hv).2
  | array l =>
      obtain ⟨-, hentries⟩ := Option.ite_none_right_eq_some.mp h
      unfold HashMap.Ordered
      rw [ofEntries_entries hentries]
      intro e he
      exact Value.ordered_array.mp hv e.2 (List.of_mem_zip he).2
  | _ => cases h

theorem asObject_ordered {v : Value} (h : v.asObject = some m) (hv : v.Ordered) : m.Ordered := by
  rw [asObject_entries h] at hv
  exact (Value.ordered_object.mp hv).2

theorem HashMap.Ordered.lookup (h : m.Ordered) {v : Value} (hv : m.entries.lookup k = some v) :
    v.Ordered := by
  obtain ⟨before, after, heq, -⟩ := List.lookup_eq_some_iff.mp hv
  exact h (k, v) (by rw [heq]; simp)

theorem Yields.required (h : Yields read G) (hm : m.Ordered)
    (hread : m.required k read = some a) : G a := by
  obtain ⟨v, hv, hva⟩ := Option.bind_eq_some_iff.mp hread
  exact h v a (hm.lookup hv) hva

theorem Yields.defaulted (h : Yields read G) (hm : m.Ordered) {d : α} (hd : G d)
    (hread : m.defaulted k d read = some a) : G a := by
  unfold HashMap.defaulted at hread
  cases hlookup : m.entries.lookup k with
  | none =>
      rw [hlookup] at hread
      exact Option.some.inj hread ▸ hd
  | some v =>
      rw [hlookup] at hread
      exact h v a (hm.lookup hlookup) hread

theorem Yields.optional (h : Yields read G) (hm : m.Ordered)
    (hread : m.optional k read = some o) : ∀ a ∈ o, G a := by
  rcases optional_cases hread with ⟨rfl, -⟩ | ⟨v, a, hv, hva, rfl⟩
  · intro a ha
    cases ha
  · intro a' ha'
    obtain rfl := Option.some.inj ha'
    exact h v a (hm.lookup hv) hva

/-- An optional value that is there is not `null`. -/
theorem present_of_optional {o : Option Value} (hm : m.Ordered)
    (hread : m.optional k some = some o) : ∀ v ∈ o, v.Present := by
  unfold HashMap.optional at hread
  intro v hv
  obtain rfl := hv
  split at hread
  · cases hread
  · cases hread
  · rename_i u hnull hu
    cases hread
    refine ⟨hm.lookup hu, ?_⟩
    rintro rfl
    exact hnull rfl

theorem MessageContent.yields : Yields MessageContent.deserialize MessageContent.Whole := by
  intro v c hv h
  rcases Option.or_eq_some_iff.mp h with hleft | ⟨-, hright⟩
  · obtain ⟨s, -, rfl⟩ := Option.map_eq_some_iff.mp hleft
    exact trivial
  · obtain ⟨l, hl, rfl⟩ := Option.map_eq_some_iff.mp hright
    cases v with
    | array l' =>
        cases hl
        exact Value.ordered_array.mp hv
    | _ => cases hl

theorem Message.yields : Yields Message.deserialize Message.Whole := by
  intro v a hv h
  obtain ⟨m, hm, h⟩ := Option.bind_eq_some_iff.mp h
  obtain ⟨role, -, h⟩ := Option.bind_eq_some_iff.mp h
  obtain ⟨content, hcontent, h⟩ := Option.bind_eq_some_iff.mp h
  obtain ⟨name, -, h⟩ := Option.bind_eq_some_iff.mp h
  obtain ⟨toolCalls, -, h⟩ := Option.bind_eq_some_iff.mp h
  obtain ⟨toolCallId, -, h⟩ := Option.bind_eq_some_iff.mp h
  cases h
  exact MessageContent.yields.optional (asStruct_ordered hm hv) hcontent

theorem FunctionDef.yields : Yields FunctionDef.deserialize FunctionDef.Whole := by
  intro v f hv h
  obtain ⟨m, hm, h⟩ := Option.bind_eq_some_iff.mp h
  obtain ⟨name, -, h⟩ := Option.bind_eq_some_iff.mp h
  obtain ⟨description, -, h⟩ := Option.bind_eq_some_iff.mp h
  obtain ⟨parameters, hparameters, h⟩ := Option.bind_eq_some_iff.mp h
  cases h
  exact present_of_optional (asStruct_ordered hm hv) hparameters

theorem Tool.yields : Yields Tool.deserialize Tool.Whole := by
  intro v t hv h
  obtain ⟨m, hm, h⟩ := Option.bind_eq_some_iff.mp h
  obtain ⟨type, -, h⟩ := Option.bind_eq_some_iff.mp h
  obtain ⟨function, hfunction, h⟩ := Option.bind_eq_some_iff.mp h
  cases h
  exact FunctionDef.yields.required (asStruct_ordered hm hv) hfunction

theorem ResponseFormat.yields : Yields ResponseFormat.deserialize ResponseFormat.Whole := by
  intro v r hv h
  obtain ⟨m, hm, h⟩ := Option.bind_eq_some_iff.mp h
  obtain ⟨type, -, h⟩ := Option.bind_eq_some_iff.mp h
  obtain ⟨jsonSchema, hjsonSchema, h⟩ := Option.bind_eq_some_iff.mp h
  cases h
  exact present_of_optional (asStruct_ordered hm hv) hjsonSchema

end Yields

/-! ### Chat requests -/

/-- What a chat request that was read holds. -/
structure ChatCompletionRequest.Whole (r : ChatCompletionRequest) : Prop where
  messages : ∀ a ∈ r.messages, a.Whole
  tools : ∀ l ∈ r.tools, ∀ t ∈ l, t.Whole
  toolChoice : ∀ v ∈ r.toolChoice, v.Present
  responseFormat : ∀ f ∈ r.responseFormat, f.Whole
  extra : r.extra.Ordered
  apart : ∀ e ∈ r.extra.entries, e.1 ∉ names

namespace ChatCompletionRequest

theorem whole_of_deserialize {r : ChatCompletionRequest} {v : Value}
    (h : deserialize v = some r) (hv : v.Ordered) : r.Whole := by
  obtain ⟨m, hm, h⟩ := Option.bind_eq_some_iff.mp h
  obtain ⟨model, -, h⟩ := Option.bind_eq_some_iff.mp h
  obtain ⟨messages, hmessages, h⟩ := Option.bind_eq_some_iff.mp h
  obtain ⟨stream, -, h⟩ := Option.bind_eq_some_iff.mp h
  obtain ⟨streamOptions, -, h⟩ := Option.bind_eq_some_iff.mp h
  obtain ⟨temperature, -, h⟩ := Option.bind_eq_some_iff.mp h
  obtain ⟨topP, -, h⟩ := Option.bind_eq_some_iff.mp h
  obtain ⟨seed, -, h⟩ := Option.bind_eq_some_iff.mp h
  obtain ⟨tools, htools, h⟩ := Option.bind_eq_some_iff.mp h
  obtain ⟨toolChoice, htoolChoice, h⟩ := Option.bind_eq_some_iff.mp h
  obtain ⟨responseFormat, hresponseFormat, h⟩ := Option.bind_eq_some_iff.mp h
  obtain ⟨maxTokens, -, h⟩ := Option.bind_eq_some_iff.mp h
  obtain ⟨stop, -, h⟩ := Option.bind_eq_some_iff.mp h
  cases h
  have hordered := asObject_ordered hm hv
  refine ⟨?_, ?_, ?_, ?_, ?_, ?_⟩
  · exact Message.yields.vec.defaulted hordered (by simp) hmessages
  · exact Tool.yields.vec.optional hordered htools
  · exact present_of_optional hordered htoolChoice
  · exact ResponseFormat.yields.optional hordered hresponseFormat
  · intro e he
    exact hordered e (List.mem_of_mem_filter he)
  · intro e he
    exact of_decide_eq_true (List.mem_filter.mp he).2

theorem ReadFrom.whole {r : ChatCompletionRequest} {v : Value} (h : r.ReadFrom v)
    (hv : v.Ordered) : r.Whole := by
  obtain ⟨extra, hread, hsame⟩ := h
  obtain ⟨hmessages, htools, htoolChoice, hresponseFormat, hextra, hapart⟩ :=
    whole_of_deserialize hread hv
  exact ⟨hmessages, htools, htoolChoice, hresponseFormat,
    fun e he => hextra e (hsame.mem_iff.mp he), fun e he => hapart e (hsame.mem_iff.mp he)⟩

theorem Whole.inject {r : ChatCompletionRequest} (h : r.Whole) : (injectStreamOptions r).Whole := by
  unfold injectStreamOptions
  by_cases hinject : (r.stream && r.streamOptions.isNone) = true
  · rw [if_pos hinject]
    exact ⟨h.messages, h.tools, h.toolChoice, h.responseFormat, h.extra, h.apart⟩
  · rw [if_neg hinject]
    exact h

/-- The two numbers that are rounded have not overflowed. -/
def Bounded (r : ChatCompletionRequest) : Prop :=
  r.temperature.isFinite = true ∧ r.topP.isFinite = true

/-- A whole request that is written and read again is itself. -/
theorem Whole.back {r : ChatCompletionRequest} (h : r.Whole) (hr : r.Bounded) {v : Value}
    (hv : v.Ordered) (hread : r.written.ReadAs v) : r.ReadFrom v := by
  obtain ⟨m, rfl, hm, hcarries, hkeys, hothers⟩ :=
    carries_of_readAs hread hv (by simp [slots]) (HashMap.written_apart h.apart)
  have hmodel := hcarries.required restores_str (List.mem_of_getElem? (i := 0) rfl) trivial
  have hmessages := hcarries.defaulted Message.restores.vec
    (List.mem_of_getElem? (i := 1) rfl) h.messages []
  have hstream := hcarries.defaulted restores_bool (List.mem_of_getElem? (i := 2) rfl)
    trivial false
  have hstreamOptions := hcarries.optional StreamOptions.restores
    (List.mem_of_getElem? (i := 3) rfl) fun _ _ => trivial
  have htemperature := hcarries.defaulted restores_f32 (List.mem_of_getElem? (i := 4) rfl)
    hr.1 .one
  have htopP := hcarries.defaulted restores_f32 (List.mem_of_getElem? (i := 5) rfl) hr.2 .one
  have hseed := hcarries.optional restores_i64 (List.mem_of_getElem? (i := 6) rfl)
    fun _ _ => trivial
  have htools := hcarries.optional Tool.restores.vec (List.mem_of_getElem? (i := 7) rfl) h.tools
  have htoolChoice := hcarries.optional restores_value (List.mem_of_getElem? (i := 8) rfl)
    h.toolChoice
  have hresponseFormat := hcarries.optional ResponseFormat.restores
    (List.mem_of_getElem? (i := 9) rfl) h.responseFormat
  have hmaxTokens := hcarries.optional restores_u32 (List.mem_of_getElem? (i := 10) rfl)
    fun _ _ => trivial
  have hstop := hcarries.optional StopTokens.restores (List.mem_of_getElem? (i := 11) rfl)
    fun _ _ => trivial
  have hobject : (Value.object m.entries).asObject = some m := hm
  refine ⟨m.without names, ?_, ?_⟩
  · simp [deserialize, hobject, hmodel, hmessages, hstream, hstreamOptions, htemperature, htopP,
      hseed, htools, htoolChoice, hresponseFormat, hmaxTokens, hstop]
  · exact same_of_readAs rfl h.extra (Value.ordered_object.mp hv).2 h.apart hkeys hothers

/-- A number that has overflowed is `null`, which is not read as one. -/
theorem unread_of_overflow {r : ChatCompletionRequest} (h : r.Whole) (hr : ¬ r.Bounded) {v : Value}
    (hv : v.Ordered) (hread : r.written.ReadAs v) : deserialize v = none := by
  obtain ⟨m, rfl, hm, hcarries, -, -⟩ :=
    carries_of_readAs hread hv (by simp [slots]) (HashMap.written_apart h.apart)
  by_contra hsome
  obtain ⟨r', hr'⟩ := Option.ne_none_iff_exists'.mp hsome
  obtain ⟨m', hm', hr'⟩ := Option.bind_eq_some_iff.mp hr'
  obtain rfl : m = m' := Option.some.inj (hm.symm.trans hm')
  obtain ⟨model, -, hr'⟩ := Option.bind_eq_some_iff.mp hr'
  obtain ⟨messages, -, hr'⟩ := Option.bind_eq_some_iff.mp hr'
  obtain ⟨stream, -, hr'⟩ := Option.bind_eq_some_iff.mp hr'
  obtain ⟨streamOptions, -, hr'⟩ := Option.bind_eq_some_iff.mp hr'
  obtain ⟨temperature, htemperature, hr'⟩ := Option.bind_eq_some_iff.mp hr'
  obtain ⟨topP, htopP, -⟩ := Option.bind_eq_some_iff.mp hr'
  apply hr
  exact ⟨hcarries.finite (List.mem_of_getElem? (i := 4) rfl) htemperature,
    hcarries.finite (List.mem_of_getElem? (i := 5) rfl) htopP⟩

end ChatCompletionRequest

/-! ### Embedding requests -/

/-- The variant that is read for an empty list is the first one. -/
def EmbeddingInput.Whole : EmbeddingInput → Prop
  | .tokenArray l => l ≠ []
  | .tokenMatrix l => l ≠ []
  | _ => True

/-- A list is not read whose first element is not. -/
theorem asVec_none {α : Type} {read : Value → Option α} {v : Value} (vs : List Value)
    (h : read v = none) : (Value.array (v :: vs)).asVec read = none := by
  show (v :: vs).mapM read = none
  rw [List.mapM_cons, h]
  rfl

namespace EmbeddingInput

theorem restores : Restores deserialize written Whole where
  back input v hinput hv h := by
    cases input with
    | string s => rw [show v = .string s from h]; rfl
    | stringArray l =>
        have hback := restores_str.vec.back l v (fun _ _ => trivial) hv h
        obtain ⟨vs, rfl, -⟩ := Written.readAs_array_map.mp h
        simp [deserialize, hback, Value.asStr]
    | tokenArray l =>
        have hback := restores_u32.vec.back l v (fun _ _ => trivial) hv h
        obtain ⟨vs, rfl, hall⟩ := Written.readAs_array_map.mp h
        cases hall with
        | nil => exact absurd rfl hinput
        | @cons _ _ _ vs hnumber _ =>
            obtain ⟨n, rfl, -⟩ := hnumber
            have hstrings : (Value.array (.number n :: vs)).asVec Value.asStr = none :=
              asVec_none vs rfl
            simp [deserialize, hback, hstrings, Value.asStr]
    | tokenMatrix l =>
        have hback := restores_u32.vec.vec.back l v (fun _ _ _ _ => trivial) hv h
        obtain ⟨vs, rfl, hall⟩ := Written.readAs_array_map.mp h
        cases hall with
        | nil => exact absurd rfl hinput
        | @cons _ _ _ vs hrow _ =>
            obtain ⟨row, rfl, -⟩ := Written.readAs_array_map.mp hrow
            have hstrings : (Value.array (.array row :: vs)).asVec Value.asStr = none :=
              asVec_none vs rfl
            have htokens : (Value.array (.array row :: vs)).asVec Value.asU32 = none :=
              asVec_none vs rfl
            simp [deserialize, hback, hstrings, htokens, Value.asStr]
  notNull input _ h := by
    cases input with
    | string s => cases h
    | _ =>
        obtain ⟨vs, hnull, -⟩ := h
        cases hnull

theorem yields : Yields deserialize Whole := by
  intro v input hv h
  rcases Option.or_eq_some_iff.mp h with hstring | ⟨-, h⟩
  · obtain ⟨s, -, rfl⟩ := Option.map_eq_some_iff.mp hstring
    exact trivial
  rcases Option.or_eq_some_iff.mp h with hstrings | ⟨hnone, h⟩
  · obtain ⟨l, -, rfl⟩ := Option.map_eq_some_iff.mp hstrings
    exact trivial
  -- an empty list would have been read as one of strings
  have hne : v ≠ .array [] := by
    rintro rfl
    cases hnone
  rcases Option.or_eq_some_iff.mp h with htokens | ⟨-, hmatrix⟩
  · obtain ⟨l, hl, rfl⟩ := Option.map_eq_some_iff.mp htokens
    rintro rfl
    obtain ⟨vs, rfl, hall⟩ := asVec_cases hl
    cases hall
    exact hne rfl
  · obtain ⟨l, hl, rfl⟩ := Option.map_eq_some_iff.mp hmatrix
    rintro rfl
    obtain ⟨vs, rfl, hall⟩ := asVec_cases hl
    cases hall
    exact hne rfl

end EmbeddingInput

/-- What an embedding request that was read holds. -/
structure EmbeddingRequest.Whole (r : EmbeddingRequest) : Prop where
  input : r.input.Whole
  extra : r.extra.Ordered
  apart : ∀ e ∈ r.extra.entries, e.1 ∉ names

namespace EmbeddingRequest

theorem ReadFrom.whole {r : EmbeddingRequest} {v : Value} (h : r.ReadFrom v) (hv : v.Ordered) :
    r.Whole := by
  obtain ⟨extra, h, hsame⟩ := h
  obtain ⟨m, hm, h⟩ := Option.bind_eq_some_iff.mp h
  obtain ⟨model, -, h⟩ := Option.bind_eq_some_iff.mp h
  obtain ⟨input, hinput, h⟩ := Option.bind_eq_some_iff.mp h
  obtain ⟨encodingFormat, -, h⟩ := Option.bind_eq_some_iff.mp h
  obtain ⟨dimensions, -, h⟩ := Option.bind_eq_some_iff.mp h
  obtain ⟨user, -, h⟩ := Option.bind_eq_some_iff.mp h
  cases h
  have hordered := asObject_ordered hm hv
  refine ⟨EmbeddingInput.yields.required hordered hinput, ?_, ?_⟩
  · intro e he
    exact hordered e (List.mem_of_mem_filter (hsame.mem_iff.mp he))
  · intro e he
    exact of_decide_eq_true (List.mem_filter.mp (hsame.mem_iff.mp he)).2

/-- A whole request that is written and read again is itself. -/
theorem Whole.back {r : EmbeddingRequest} (h : r.Whole) {v : Value} (hv : v.Ordered)
    (hread : r.written.ReadAs v) : r.ReadFrom v := by
  obtain ⟨m, rfl, hm, hcarries, hkeys, hothers⟩ :=
    carries_of_readAs hread hv (by simp [slots]) (HashMap.written_apart h.apart)
  have hmodel := hcarries.required restores_str (List.mem_of_getElem? (i := 0) rfl) trivial
  have hinput := hcarries.required EmbeddingInput.restores (List.mem_of_getElem? (i := 1) rfl)
    h.input
  have hencodingFormat := hcarries.nullable restores_str (List.mem_of_getElem? (i := 2) rfl)
    fun _ _ => trivial
  have hdimensions := hcarries.optional restores_u32 (List.mem_of_getElem? (i := 3) rfl)
    fun _ _ => trivial
  have huser := hcarries.optional restores_str (List.mem_of_getElem? (i := 4) rfl)
    fun _ _ => trivial
  have hobject : (Value.object m.entries).asObject = some m := hm
  refine ⟨m.without names, ?_, ?_⟩
  · simp [deserialize, hobject, hmodel, hinput, hencodingFormat, hdimensions, huser]
  · exact same_of_readAs rfl h.extra (Value.ordered_object.mp hv).2 h.apart hkeys hothers

end EmbeddingRequest

/-! ### Calls -/

namespace ApiCall

/-- The call a provider is sent. -/
def asForwarded : ApiCall → ApiCall
  | .chat (.ok r) => .chat (.ok (injectStreamOptions r))
  | call => call

/-- No number of the call has overflowed. -/
def Bounded : ApiCall → Prop
  | .chat (.ok r) => r.Bounded
  | _ => True

/-- No request for the endpoint is read from this JSON. -/
def Unread : ApiCall → Value → Prop
  | .chat _, v => ChatCompletionRequest.deserialize v = none
  | .embeddings _, v => EmbeddingRequest.deserialize v = none

end ApiCall

theorem injectStreamOptions_idem (r : ChatCompletionRequest) :
    injectStreamOptions (injectStreamOptions r) = injectStreamOptions r := by
  unfold injectStreamOptions
  by_cases h : (r.stream && r.streamOptions.isNone) = true
  · rw [if_pos h]
    simp
  · rw [if_neg h, if_neg h]

/--
**What is forwarded is read as what was read.** Whatever JSON a call was read from, every run
sends providers the text of one document for it.  Whatever that document is read as is a
request for the same, with the injected stream options and nothing else changed, and would be
forwarded as the same document again.  Only when a number of the request had overflowed, no
request is read from it at all.
-/
theorem forwarded_read_back (st : AppState) (hx : x.Writes ryu) {call : ApiCall} {sent : Value}
    (hsent : sent.Ordered) (hread : call.ReadFrom sent) :
    ∃ w, call.document = some w ∧ call.asForwarded.document = some w ∧
      call.IsSentAs x st (asBytes (String.ofList (w.text ryu))) ∧
      ∀ v : Value, v.Ordered → w.ReadAs v →
        (call.Bounded → call.asForwarded.ReadFrom v) ∧ (¬ call.Bounded → call.Unread v) := by
  cases call with
  | chat payload =>
      cases payload with
      | error e => exact hread.elim
      | ok r =>
          have hwhole := (ChatCompletionRequest.ReadFrom.whole hread hsent).inject
          have hbounded : (injectStreamOptions r).Bounded ↔ r.Bounded := by
            obtain ⟨o, ho, -⟩ := ChatCompletionRequest.injected_cases r
            rw [ho]
            rfl
          refine ⟨_, rfl, ?_, ApiCall.sent_document hx rfl, fun v hv hw => ⟨?_, ?_⟩⟩
          · show some (injectStreamOptions (injectStreamOptions r)).written = _
            rw [injectStreamOptions_idem]
          · intro h
            exact hwhole.back (hbounded.mpr h) hv hw
          · intro h
            exact ChatCompletionRequest.unread_of_overflow hwhole (mt hbounded.mp h) hv hw
  | embeddings payload =>
      cases payload with
      | error e => exact hread.elim
      | ok r =>
          have hwhole := EmbeddingRequest.ReadFrom.whole hread hsent
          refine ⟨_, rfl, rfl, ApiCall.sent_document hx rfl, fun v hv hw => ⟨?_, ?_⟩⟩
          · intro _
            exact hwhole.back hv hw
          · intro h
            exact absurd trivial h

/-! A tool that was forwarded. -/

/-- What the request with a tool is read as by its provider. -/
def forwardedJson : Value :=
  .object [("messages", .array []), ("model", .string "m"), ("stream", .bool true),
    ("stream_options", .object [("include_usage", .bool true)]),
    ("temperature", .number (.posInt 0)),
    ("tools", .array [.object [("function", plainFunction), ("type", .string "function")]]),
    ("top_p", .number (.posInt 1))]

theorem ordered_plain : (toolJson plainFunction).Ordered := by
  refine ⟨?_, trivial, trivial, trivial, ⟨⟨?_, ⟨?_, trivial, trivial⟩, trivial, trivial⟩, trivial⟩,
    trivial⟩
  all_goals decide +kernel

theorem ordered_forwarded : forwardedJson.Ordered := by
  refine ⟨?_, trivial, trivial, trivial, ⟨?_, trivial, trivial⟩, trivial,
    ⟨⟨?_, ⟨?_, trivial, trivial⟩, trivial, trivial⟩, trivial⟩, trivial, trivial⟩
  all_goals decide +kernel

theorem readAs_forwarded : (injectStreamOptions toolRequest).written.ReadAs forwardedJson := by
  have hfunction : (FunctionDef.written ⟨"f", none, none⟩).ReadAs plainFunction :=
    ⟨_, rfl, by decide, ⟨_, by simp, rfl⟩, trivial⟩
  have htool : (Tool.written ⟨"function", ⟨"f", none, none⟩⟩).ReadAs
      (.object [("function", plainFunction), ("type", .string "function")]) :=
    ⟨_, rfl, by decide, ⟨_, List.mem_of_getElem? (i := 1) rfl, rfl⟩,
      ⟨_, List.mem_of_getElem? (i := 0) rfl, hfunction⟩, trivial⟩
  have hoptions : (StreamOptions.written ⟨true⟩).ReadAs
      (.object [("include_usage", .bool true)]) :=
    ⟨_, rfl, by decide, ⟨_, by simp, rfl⟩, trivial⟩
  have hzero : (F32.mk 0).written.ReadAs (.number (.posInt 0)) := ⟨_, rfl, by decide⟩
  have hone : F32.one.written.ReadAs (.number (.posInt 1)) := ⟨_, rfl, by decide⟩
  exact ⟨_, rfl, by decide,
    ⟨_, List.mem_of_getElem? (i := 1) rfl, rfl⟩,
    ⟨_, List.mem_of_getElem? (i := 0) rfl, ⟨[], rfl, rfl⟩⟩,
    ⟨_, List.mem_of_getElem? (i := 2) rfl, rfl⟩,
    ⟨_, List.mem_of_getElem? (i := 3) rfl, hoptions⟩,
    ⟨_, List.mem_of_getElem? (i := 4) rfl, hzero⟩,
    ⟨_, List.mem_of_getElem? (i := 6) rfl, hone⟩,
    ⟨_, List.mem_of_getElem? (i := 5) rfl, ⟨_, rfl, ⟨_, [], rfl, htool, rfl⟩⟩⟩, trivial⟩

theorem forwarded_read_back_tool :
    (ApiCall.chat (.ok toolRequest)).asForwarded.ReadFrom forwardedJson := by
  have hread : (ApiCall.chat (.ok toolRequest)).ReadFrom (toolJson plainFunction) :=
    ⟨.empty, rfl, .refl _⟩
  obtain ⟨w, hw, -, -, hback⟩ := forwarded_read_back toolGateway
    (Crates.table_writes [smallKey] []) ordered_plain hread
  obtain rfl := Option.some.inj hw
  exact (hback forwardedJson ordered_forwarded readAs_forwarded).1 ⟨by decide, by decide⟩

end LlmGateway
