/-
What is assumed of the third-party crates, and crates that satisfy it.

`Crates.Writes` is serde_json's documented behaviour: serializing a request cannot fail,
and writes the compact text of the derives.  `Crates.table` builds crates that can be run: on
the digests and JSON documents it is given they behave as the real ones do.
-/
import LlmGateway.State

namespace LlmGateway

/-- Requests are serialized as the derives say, with `ryu` for the floats. -/
structure Crates.Writes (x : Crates) (ryu : Ryu) : Prop where
  chat : ∀ r, x.chatToString r = .ok (String.ofList (r.json ryu))
  embedding : ∀ r, x.embeddingToString r = .ok (String.ofList (r.json ryu))

/-- The characters of a number, checked one by one. -/
theorem chars_of_all {l : List Char}
    (h : (l.all fun c => "0123456789.-+e".toList.contains c) = true) :
    ∀ c ∈ l, c ∈ "0123456789.-+e".toList := by
  intro c hc
  exact List.contains_iff_mem.mp (List.all_eq_true.mp h c hc)

/-- The printer on the numbers 0, -0 and 1. -/
def Ryu.table : Ryu where
  f32 x := if x = ⟨0⟩ then "0.0".toList else if x = ⟨0x80000000⟩ then "-0.0".toList
    else "1.0".toList
  f64 bits := if bits = 0 then "0.0".toList else if bits = 0x8000000000000000 then "-0.0".toList
    else "1.0".toList
  f32_chars := by
    intro x
    split
    · exact chars_of_all (by decide)
    · split
      · exact chars_of_all (by decide)
      · exact chars_of_all (by decide)
  f64_chars := by
    intro bits
    split
    · exact chars_of_all (by decide)
    · split
      · exact chars_of_all (by decide)
      · exact chars_of_all (by decide)
  f32_zero := rfl
  f32_negZero := rfl
  f64_zero := rfl
  f64_negZero := rfl

/-- The listed digests; of any other input the bytes themselves, after a mark no digest
begins with. -/
def digestTable (digests : List (List UInt8 × String)) (bs : List UInt8) : String :=
  match digests.lookup bs with
  | some digest => digest
  | none => String.ofList ('*' :: bs.map Char.ofUInt8)

/-- Crates that know the listed digests and JSON documents. -/
def Crates.table (digests : List (List UInt8 × String)) (documents : List (String × Value)) :
    Crates where
  sha256Hex := digestTable digests
  fromStr s := documents.lookup s
  fromSlice bs := (fromUtf8 bs).bind fun s => documents.lookup s
  chatToString r := .ok (String.ofList (r.json .table))
  embeddingToString r := .ok (String.ofList (r.json .table))
  canonicalReason s :=
    if s.code = 503 then some "Service Unavailable"
    else if s.code = 401 then some "Unauthorized"
    else none

theorem Crates.table_writes (digests : List (List UInt8 × String))
    (documents : List (String × Value)) : (Crates.table digests documents).Writes .table :=
  ⟨fun _ => rfl, fun _ => rfl⟩

theorem byteChar_injective : Function.Injective Char.ofUInt8 := by
  intro a b h
  exact UInt8.toUInt32_inj.mp (congrArg Char.val h)

theorem mem_of_lookup {digests : List (List UInt8 × String)} {bs : List UInt8} {d : String}
    (h : digests.lookup bs = some d) : (bs, d) ∈ digests := by
  obtain ⟨before, after, rfl, -⟩ := List.lookup_eq_some_iff.mp h
  simp

/-- Different digests make the table collision-free. -/
theorem digestTable_injective {digests : List (List UInt8 × String)}
    (hnodup : (digests.map (·.2)).Nodup)
    (hmark : ∀ d ∈ digests, d.2.toList.head? ≠ some '*') :
    Function.Injective (digestTable digests) := by
  have hclash : ∀ (bs : List UInt8) (p : List UInt8 × String), p ∈ digests →
      p.2 ≠ String.ofList ('*' :: bs.map Char.ofUInt8) := by
    intro bs p hp heq
    refine hmark p hp ?_
    rw [heq, String.toList_ofList]
    rfl
  intro a b h
  unfold digestTable at h
  cases ha : digests.lookup a with
  | some d =>
      cases hb : digests.lookup b with
      | some e =>
          rw [ha, hb] at h
          have hd := mem_of_lookup ha
          have he := mem_of_lookup hb
          obtain rfl : d = e := h
          exact congrArg Prod.fst (List.inj_on_of_nodup_map hnodup hd he rfl)
      | none =>
          rw [ha, hb] at h
          exact absurd h (hclash b _ (mem_of_lookup ha))
  | none =>
      cases hb : digests.lookup b with
      | some e =>
          rw [ha, hb] at h
          exact absurd h.symm (hclash a _ (mem_of_lookup hb))
      | none =>
          rw [ha, hb] at h
          have hlist := congrArg String.toList h
          rw [String.toList_ofList, String.toList_ofList] at hlist
          exact List.map_injective_iff.mpr byteChar_injective (List.cons.inj hlist).2

end LlmGateway
