/-
What the semantic cache keeps.

With room for at least one entry every call leaves the last so many of the entries inserted
since the last clear: `rtake` of what was inserted, so that the calls are followed by
appending to a list that is never cut.  With no room the first insertion that gets an
embedding removes from an empty vector.
-/
import LlmGateway.Cache.Semantic
import LlmGateway.Proofs.World
import Mathlib.Data.List.DropRight

namespace LlmGateway

namespace SemanticCache

/-- A call that changes the cache; an insertion comes with what the backend answers. -/
inductive Call
  | insert (prompt : String) (signature : CompatibilitySignature) (response : String)
      (embedding : Embedding)
  | clear

/-- The content after a call at its time; `none` if the call panics. -/
def call (c : SemanticCacheConfig) (entries : List SemanticEntry) :
    Instant × Call → Option (List SemanticEntry)
  | (now, .insert prompt signature response embedding) =>
      insert c entries embedding now prompt signature response
  | (_, .clear) => some (clear entries)

/-- The content of a new cache after some calls; `none` if one of them panics. -/
def calls (c : SemanticCacheConfig) (cs : List (Instant × Call)) : Option (List SemanticEntry) :=
  cs.foldlM (call c) []

/-- The entry a call inserts, if it succeeds. -/
def entryOf : Instant × Call → Option SemanticEntry
  | (now, .insert prompt signature response (.ok embedding)) =>
      some ⟨prompt, signature, embedding, response, now⟩
  | _ => none

/-- The entries inserted since the last clear, with one more call. -/
def record (xs : List SemanticEntry) (n : Instant × Call) : List SemanticEntry :=
  match n.2 with
  | .clear => []
  | _ => xs ++ (entryOf n).toList

/-- The entries inserted since the last clear. -/
def inserted (cs : List (Instant × Call)) : List SemanticEntry := cs.foldl record []

/-- The content is a bounded queue of what was inserted. -/
structure Fifo (c : SemanticCacheConfig) (cs : List (Instant × Call))
    (entries : List SemanticEntry) : Prop where
  /-- It is the last `maxEntries` of the entries inserted since the last clear, in order. -/
  content : entries = (inserted cs).rtake c.maxEntries
  bounded : entries.length ≤ c.maxEntries
  /-- The first entry, which is evicted next, is the oldest. -/
  sorted : entries.Pairwise fun a b => a.createdAt ≤ b.createdAt

variable {c : SemanticCacheConfig} {cs : List (Instant × Call)} {n : Instant × Call}
  {entries xs : List SemanticEntry}

/-! ### With room -/

theorem removeFirst_of_pos (h : 0 < entries.length) : removeFirst entries = some entries.tail := by
  cases entries with
  | nil => simp at h
  | cons e entries => rfl

/-- A queue with room for `k + 1` makes room by dropping its first element. -/
theorem rtake_tail (xs : List SemanticEntry) (k : Nat)
    (h : k + 1 ≤ (xs.rtake (k + 1)).length) : (xs.rtake (k + 1)).tail = xs.rtake k := by
  unfold List.rtake at *
  rw [List.length_drop] at h
  rw [List.tail_drop]
  congr 1
  omega

theorem rtake_of_room (xs : List SemanticEntry) (k : Nat)
    (h : ¬ k + 1 ≤ (xs.rtake (k + 1)).length) : xs.rtake (k + 1) = xs.rtake k := by
  unfold List.rtake at *
  rw [List.length_drop] at h
  congr 1
  omega

/-- One call on a queue of what was inserted. -/
theorem call_rtake (henabled : c.enabled = true) (hmax : 1 ≤ c.maxEntries) :
    call c (xs.rtake c.maxEntries) n = some ((record xs n).rtake c.maxEntries) := by
  obtain ⟨now, op⟩ := n
  cases op with
  | clear => simp [call, clear, record]
  | insert prompt signature response embedding =>
      cases embedding with
      | error e => simp [call, insert, henabled, record, entryOf]
      | ok embedding =>
          obtain ⟨k, hk⟩ : ∃ k, c.maxEntries = k + 1 := ⟨c.maxEntries - 1, by omega⟩
          simp only [call, insert, henabled, hk, record, entryOf, Option.toList_some,
            List.rtake_concat_succ]
          by_cases hfull : k + 1 ≤ (xs.rtake (k + 1)).length
          · have hremoved : removeFirst (xs.rtake (k + 1)) = some (xs.rtake k) := by
              rw [removeFirst_of_pos (by omega), rtake_tail xs k hfull]
            simp [hfull, hremoved]
          · rw [if_neg hfull, rtake_of_room xs k hfull]
            rfl

/-- The induction is on the calls; what was inserted before them is any list. -/
theorem calls_rtake (henabled : c.enabled = true) (hmax : 1 ≤ c.maxEntries) :
    cs.foldlM (call c) (xs.rtake c.maxEntries)
      = some ((cs.foldl record xs).rtake c.maxEntries) := by
  induction cs generalizing xs with
  | nil => rfl
  | cons n cs ih =>
      rw [List.foldlM_cons, call_rtake henabled hmax]
      exact ih

/-! ### Without room -/

/-- A call on an empty cache without room panics if it would insert. -/
theorem call_without_room (henabled : c.enabled = true) (hmax : c.maxEntries = 0) :
    call c [] n = if (entryOf n).isSome then none else some [] := by
  obtain ⟨now, op⟩ := n
  cases op with
  | clear => rfl
  | insert prompt signature response embedding =>
      cases embedding with
      | error e => simp [call, insert, henabled, entryOf]
      | ok embedding => simp [call, insert, henabled, hmax, removeFirst, entryOf]

theorem calls_without_room (henabled : c.enabled = true) (hmax : c.maxEntries = 0)
    (hcalls : (cs.foldlM (call c) []).isSome) : ∀ n ∈ cs, entryOf n = none := by
  induction cs with
  | nil => simp
  | cons n cs ih =>
      rw [List.foldlM_cons, call_without_room henabled hmax] at hcalls
      cases hentry : entryOf n with
      | some e => simp [hentry] at hcalls
      | none =>
          simp only [hentry] at hcalls
          intro m hm
          rcases List.mem_cons.mp hm with rfl | hm
          · exact hentry
          · exact ih hcalls m hm

/-- Calls that insert nothing leave an empty cache empty. -/
theorem calls_without_entries (henabled : c.enabled = true) (h : ∀ n ∈ cs, entryOf n = none) :
    cs.foldlM (call c) [] = some [] ∧ cs.foldl record [] = [] := by
  induction cs with
  | nil => exact ⟨rfl, rfl⟩
  | cons n cs ih =>
      have hentry := h n List.mem_cons_self
      have hcall : call c [] n = some [] ∧ record [] n = [] := by
        obtain ⟨now, op⟩ := n
        cases op with
        | clear => exact ⟨rfl, rfl⟩
        | insert prompt signature response embedding =>
            cases embedding with
            | error e => simp [call, insert, henabled, record, entryOf]
            | ok embedding => cases hentry
      rw [List.foldlM_cons, List.foldl_cons, hcall.1, hcall.2]
      exact ih fun m hm => h m (List.mem_cons_of_mem _ hm)

/-! ### The order -/

/-- What was inserted was inserted at the times of its calls. -/
theorem times_sublist (cs : List (Instant × Call)) (xs : List SemanticEntry) :
    ((cs.foldl record xs).map SemanticEntry.createdAt).Sublist
      (xs.map SemanticEntry.createdAt ++ cs.map Prod.fst) := by
  induction cs generalizing xs with
  | nil => simp
  | cons n cs ih =>
      have hrecord : ((record xs n).map SemanticEntry.createdAt).Sublist
          (xs.map SemanticEntry.createdAt ++ [n.1]) := by
        obtain ⟨now, op⟩ := n
        cases op with
        | clear => simp [record]
        | insert prompt signature response embedding =>
            cases embedding with
            | error e => simp [record, entryOf]
            | ok embedding => simp [record, entryOf]
      rw [List.foldl_cons, List.map_cons, List.append_cons]
      exact (ih (record xs n)).trans (hrecord.append_right _)

theorem inserted_sorted (htimed : (cs.map Prod.fst).Pairwise (· ≤ ·)) :
    (inserted cs).Pairwise fun a b => a.createdAt ≤ b.createdAt := by
  have hsublist := times_sublist cs []
  rw [List.map_nil, List.nil_append] at hsublist
  exact List.pairwise_map.mp (htimed.sublist hsublist)

theorem fifo_rtake (htimed : (cs.map Prod.fst).Pairwise (· ≤ ·)) :
    Fifo c cs ((inserted cs).rtake c.maxEntries) where
  content := rfl
  bounded := by
    unfold List.rtake
    rw [List.length_drop]
    omega
  sorted := (inserted_sorted htimed).sublist (List.drop_sublist _ _)

/--
**The cache is a bounded queue exactly if it has room or nothing is inserted.**  For any
calls in the order of their times and whatever the backend answers, no call panics and the
content is the last `maxEntries` of the entries inserted since the last clear.
-/
theorem fifo_iff (henabled : c.enabled = true) (htimed : (cs.map Prod.fst).Pairwise (· ≤ ·)) :
    (∃ entries, calls c cs = some entries ∧ Fifo c cs entries) ↔
      1 ≤ c.maxEntries ∨ ∀ n ∈ cs, entryOf n = none := by
  constructor
  · rintro ⟨entries, hcalls, -⟩
    by_cases hmax : 1 ≤ c.maxEntries
    · exact Or.inl hmax
    · refine Or.inr (calls_without_room henabled (by omega) ?_)
      exact Option.isSome_iff_exists.mpr ⟨entries, hcalls⟩
  · rintro (hmax | hnone)
    · refine ⟨_, ?_, fifo_rtake htimed⟩
      have hrun : cs.foldlM (call c) (List.rtake [] c.maxEntries)
          = some ((inserted cs).rtake c.maxEntries) := calls_rtake henabled hmax
      rwa [List.rtake_nil] at hrun
    · obtain ⟨hcalls, hinserted⟩ := calls_without_entries henabled hnone
      have hfifo := fifo_rtake (c := c) htimed
      rw [inserted, hinserted, List.rtake_nil] at hfifo
      exact ⟨[], hcalls, hfifo⟩

/-! ### Three insertions -/

/-- The partition of one model. -/
def onePartition : CompatibilitySignature where
  model := "m"
  systemFingerprint := none
  toolsHash := none
  responseFormat := none

/-- A cache with room for so many entries, which is on. -/
def roomFor (entries : UInt64) : SemanticCacheConfig :=
  .ofCache { exactMaxEntries := entries, exactTtlSeconds := 60, semanticEnabled := true,
             semanticThreshold := 0.95 }

/-- Three prompts are inserted, one after the other. -/
def threeInsertions : List (Instant × Call) :=
  [(1, .insert "a" onePartition "1" (.ok [1.0])),
    (2, .insert "b" onePartition "2" (.ok [0.5])),
    (3, .insert "c" onePartition "3" (.ok [0.25]))]

/-- Two entries have room, and the last two are kept. -/
theorem fifo_iff_two : ∃ entries, calls (roomFor 2) threeInsertions = some entries ∧
    Fifo (roomFor 2) threeInsertions entries :=
  (fifo_iff rfl (by decide)).mpr (Or.inl (by decide))

/-- No check rejects a cache without room, and its first insertion panics. -/
theorem without_room_panics :
    (smallGateway (.table [] []) ⟨1, 10, 1⟩ 100).config.validate = .ok () ∧
      (roomFor 0).enabled = true ∧
      ((threeInsertions.take 1).map Prod.fst).Pairwise (· ≤ ·) ∧
      calls (roomFor 0) (threeInsertions.take 1) = none :=
  ⟨by decide, rfl, by decide, rfl⟩

end SemanticCache

end LlmGateway
