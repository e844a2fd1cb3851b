/-
Where a semantic hit comes from.

Whatever calls made the content, every entry of it was inserted by one of them, after the last
clear.  A similarity is a NaN, zero or clamped, so one that reaches the threshold is at most
one; vectors that cannot be compared have similarity zero.
-/
import LlmGateway.Proofs.BestMatch

namespace LlmGateway

/-! ### Similarities -/

theorem lt_or_le_of_number {a b : Float32} (ha : a.isNaN = false) (hb : b.isNaN = false) :
    a < b ∨ b ≤ a := by
  rw [Ieee.lt_iff_rank ha hb, Ieee.le_iff_rank hb ha]
  exact lt_or_ge _ _

theorem not_le_of_lt_float {a b : Float32} (h : a < b) (hab : b ≤ a) : False := by
  obtain ⟨hb, ha⟩ := Ieee.isNaN_of_le hab
  rw [Ieee.lt_iff_rank ha hb] at h
  rw [Ieee.le_iff_rank hb ha] at hab
  exact absurd h (not_lt.mpr hab)

/-- A number that was clamped is at most the upper bound. -/
theorem clamp_le {x low high : Float32} (hhigh : high.isNaN = false)
    (h : (clamp x low high).isNaN = false) : clamp x low high ≤ high := by
  unfold clamp at h ⊢
  generalize (if x < low then low else x) = y at h ⊢
  dsimp only at h ⊢
  by_cases hy : high < y
  · rw [if_pos hy]
    rcases lt_or_le_of_number hhigh hhigh with hlt | hle
    · exact absurd ((Ieee.lt_iff_rank hhigh hhigh).mp hlt) (lt_irrefl _)
    · exact hle
  · rw [if_neg hy] at h ⊢
    exact (lt_or_le_of_number hhigh h).resolve_left hy

theorem similarity_le_one {a b : List Float32} (h : (cosineSimilarity a b).isNaN = false) :
    cosineSimilarity a b ≤ 1.0 := by
  unfold cosineSimilarity at h ⊢
  by_cases hapart : (a.length != b.length || a.isEmpty) = true
  · rw [if_pos hapart]
    decide +kernel
  · rw [if_neg hapart] at h ⊢
    generalize (a.zip b).foldl CosineSums.add ⟨0.0, 0.0, 0.0⟩ = sums at h ⊢
    dsimp only at h ⊢
    by_cases hdenom : 0.0 < sums.normA.sqrt * sums.normB.sqrt
    · rw [if_pos hdenom] at h ⊢
      exact clamp_le (by decide +kernel) h
    · rw [if_neg hdenom]
      decide +kernel

/-- Vectors of different lengths and empty ones are not similar at all. -/
theorem similarity_apart {a b : List Float32} (h : ¬ (a.length = b.length ∧ a ≠ [])) :
    cosineSimilarity a b = 0.0 := by
  unfold cosineSimilarity
  apply if_pos
  by_cases hlength : a.length = b.length
  · have hempty : a = [] := by
      by_contra hne
      exact h ⟨hlength, hne⟩
    simp [hempty]
  · simp [hlength]

namespace SemanticCache

variable {c : SemanticCacheConfig} {cs : List (Instant × Call)} {n : Instant × Call}
  {entries entries' xs : List SemanticEntry} {r : SemanticEntry}

/-! ### Insertions -/

/-- A call leaves nothing but what was there and what it inserts. -/
theorem call_sub (h : ∀ r ∈ entries, r ∈ xs) (hcall : call c entries n = some entries') :
    ∀ r ∈ entries', r ∈ record xs n := by
  obtain ⟨now, op⟩ := n
  cases op with
  | clear =>
      cases hcall
      simp [clear]
  | insert prompt signature response embedding =>
      have hold : ∀ r ∈ entries, r ∈ record xs (now, .insert prompt signature response embedding) :=
        fun r hr => List.mem_append_left _ (h r hr)
      change insert c entries embedding now prompt signature response = some entries' at hcall
      unfold insert at hcall
      by_cases hdisabled : (!c.enabled) = true
      · rw [if_pos hdisabled] at hcall
        exact Option.some.inj hcall ▸ hold
      · rw [if_neg hdisabled] at hcall
        cases embedding with
        | error e => exact Option.some.inj hcall ▸ hold
        | ok embedding =>
            dsimp only at hcall
            obtain ⟨rest, hsub, heq⟩ : ∃ rest : List SemanticEntry, (∀ r ∈ rest, r ∈ entries) ∧
                entries' = rest ++ [⟨prompt, signature, embedding, response, now⟩] := by
              by_cases hfull : c.maxEntries ≤ entries.length
              · rw [if_pos hfull] at hcall
                cases entries with
                | nil => cases hcall
                | cons e es =>
                    exact ⟨es, fun r hr => List.mem_cons_of_mem _ hr, (Option.some.inj hcall).symm⟩
              · rw [if_neg hfull] at hcall
                exact ⟨entries, fun _ hr => hr, (Option.some.inj hcall).symm⟩
            intro r hr
            rw [heq] at hr
            rcases List.mem_append.mp hr with hrest | hnew
            · exact hold r (hsub r hrest)
            · exact List.mem_append_right _ hnew

/-- What a cache holds was inserted since the last clear. -/
theorem calls_sub (h : calls c cs = some entries) : ∀ r ∈ entries, r ∈ inserted cs := by
  unfold inserted
  induction cs using List.reverseRecOn generalizing entries with
  | nil =>
      cases h
      simp
  | append_singleton cs n ih =>
      unfold calls at h
      rw [List.foldlM_append] at h
      obtain ⟨before, hbefore, hcall⟩ := Option.bind_eq_some_iff.mp h
      rw [List.foldl_append]
      rw [List.foldlM_cons] at hcall
      obtain ⟨after, hafter, heq⟩ := Option.bind_eq_some_iff.mp hcall
      obtain rfl := Option.some.inj heq
      exact call_sub (ih hbefore) hafter

/-- What was inserted since the last clear was inserted by a call after it. -/
theorem inserted_origin (h : r ∈ inserted cs) :
    ∃ before n after, cs = before ++ n :: after ∧ entryOf n = some r ∧
      ∀ m ∈ after, m.2 ≠ .clear := by
  unfold inserted at h
  induction cs using List.reverseRecOn with
  | nil => cases h
  | append_singleton cs n ih =>
      rw [List.foldl_append] at h
      have hrecord : r ∈ record (cs.foldl record []) n := h
      obtain ⟨now, op⟩ := n
      cases op with
      | clear => cases hrecord
      | insert prompt signature response embedding =>
          rcases List.mem_append.mp hrecord with hold | hnew
          · obtain ⟨before, m, after, rfl, hentry, hafter⟩ := ih hold
            refine ⟨before, m, after ++ [(now, .insert prompt signature response embedding)],
              by simp, hentry, ?_⟩
            intro k hk
            rcases List.mem_append.mp hk with hk | hk
            · exact hafter k hk
            · rw [List.mem_singleton.mp hk]
              simp
          · exact ⟨cs, _, [], rfl, Option.mem_toList.mp hnew, by simp⟩

/-! ### Hits -/

/--
**Every hit is accounted for.** Whatever calls have been made, the answer of a hit was
inserted by one of them for the same partition, not longer ago than entries live, and nothing
was cleared since.  The similarity is that of the two embeddings and lies between the
threshold and one, so that a cache with a threshold above one answers nothing; under a positive
threshold the embeddings are of one length and not empty.
-/
theorem hit_accounted {embedding : Embedding} {now : Instant}
    {signature : CompatibilitySignature} {response : String} {similarity : Float32}
    (hcalls : calls c cs = some entries)
    (hhit : lookup c entries embedding now signature = .hit response similarity) :
    ∃ query before time prompt stored after, embedding = .ok query ∧
      cs = before ++ (time, .insert prompt signature response (.ok stored)) :: after ∧
      (∀ m ∈ after, m.2 ≠ .clear) ∧ now.durationSince time ≤ c.ttl ∧
      similarity = cosineSimilarity query stored ∧ threshold c ≤ similarity ∧
      similarity ≤ 1.0 ∧ (0.0 < threshold c → query.length = stored.length ∧ query ≠ []) := by
  have henabled : c.enabled = true := by
    by_contra hdisabled
    unfold lookup at hhit
    rw [if_pos (by simpa using hdisabled)] at hhit
    cases hhit
  cases embedding with
  | error e =>
      unfold lookup at hhit
      simp [henabled] at hhit
  | ok query =>
      rw [lookup_eq henabled] at hhit
      cases hbest : (entries.filter (candidate c query now signature)).argmax (score query) with
      | none =>
          rw [hbest] at hhit
          cases hhit
      | some r =>
          rw [hbest] at hhit
          obtain ⟨hr, hcandidate⟩ := List.mem_filter.mp (List.argmax_mem hbest)
          have hnumber := isNaN_candidate hcandidate
          obtain ⟨rfl, hage, hthreshold⟩ := candidate_iff.mp hcandidate
          obtain ⟨before, ⟨time, op⟩, after, rfl, hentry, hafter⟩ :=
            inserted_origin (calls_sub hcalls r hr)
          cases op with
          | clear => cases hentry
          | insert prompt signature answer embedded =>
              cases embedded with
              | error e => cases hentry
              | ok stored =>
                  cases hentry
                  cases hhit
                  refine ⟨query, before, time, prompt, stored, after, rfl, rfl, hafter, hage, rfl,
                    hthreshold, similarity_le_one hnumber, fun hpositive => ?_⟩
                  by_contra happart
                  rw [similarity_apart happart] at hthreshold
                  exact not_le_of_lt_float hpositive hthreshold

/-- An answer is inserted twice, and the first insertion is served. -/
theorem hit_accounted_first :
    ∃ query before time prompt stored after, (.ok [1.0] : Embedding) = .ok query ∧
      [((1 : Instant), Call.insert "a" onePartition "1" (.ok [1.0])),
          (2, .insert "b" onePartition "2" (.ok [0.5]))]
        = before ++ (time, .insert prompt onePartition "1" (.ok stored)) :: after ∧
      (∀ m ∈ after, m.2 ≠ .clear) ∧ Instant.durationSince 3 time ≤ (roomFor 2).ttl ∧
      (1.0 : Float32) = cosineSimilarity query stored ∧ threshold (roomFor 2) ≤ 1.0 ∧
      (1.0 : Float32) ≤ 1.0 ∧
      (0.0 < threshold (roomFor 2) → query.length = stored.length ∧ query ≠ []) :=
  hit_accounted
    (show calls (roomFor 2) _
        = some [⟨"a", onePartition, [1.0], "1", 1⟩, ⟨"b", onePartition, [0.5], "2", 2⟩] by
      decide +kernel)
    (by decide +kernel)

end SemanticCache

end LlmGateway
