/-
What the semantic cache finds.

The loop of `lookup` is one pass over the candidates: the unexpired entries of the partition
whose similarity reaches the threshold.  None of these similarities is a NaN, so they are
ordered by their ranks, and the pass ends with the earliest of the most similar.  An entry
that was just inserted comes last, which is why an earlier one that is as similar is served
instead.
-/
import LlmGateway.Proofs.Retention
import LlmGateway.Lib.Scan
import LlmGateway.Lib.Float32

namespace LlmGateway

namespace SemanticCache

variable {c : SemanticCacheConfig} {query : List Float32} {now : Instant}
  {signature : CompatibilitySignature} {entries : List SemanticEntry}

/-! ### The pass -/

/-- An unexpired entry of the partition. -/
def live (c : SemanticCacheConfig) (now : Instant) (signature : CompatibilitySignature)
    (r : SemanticEntry) : Bool :=
  r.signature == signature && decide (now.durationSince r.createdAt ≤ c.ttl)

/-- A live entry whose similarity reaches the threshold. -/
def candidate (c : SemanticCacheConfig) (query : List Float32) (now : Instant)
    (signature : CompatibilitySignature) (r : SemanticEntry) : Bool :=
  live c now signature r && decide (threshold c ≤ cosineSimilarity query r.embedding)

/-- How similar an entry is, as an element of a linear order. -/
def score (query : List Float32) (r : SemanticEntry) : ℤ ×ₗ ℤ ×ₗ ℤ :=
  Ieee.rank (cosineSimilarity query r.embedding)

theorem candidate_iff {r : SemanticEntry} : candidate c query now signature r = true ↔
    r.signature = signature ∧ now.durationSince r.createdAt ≤ c.ttl ∧
      threshold c ≤ cosineSimilarity query r.embedding := by
  simp [candidate, live, and_assoc]

/-- The similarity of a candidate is no NaN. -/
theorem isNaN_candidate {r : SemanticEntry} (h : candidate c query now signature r = true) :
    (cosineSimilarity query r.embedding).isNaN = false :=
  (Ieee.isNaN_of_le (candidate_iff.mp h).2.2).2

/-- Of two candidates the scores compare as the similarities do. -/
theorem lt_iff_score {a b : SemanticEntry} (ha : candidate c query now signature a = true)
    (hb : candidate c query now signature b = true) :
    cosineSimilarity query a.embedding < cosineSimilarity query b.embedding ↔
      score query a < score query b :=
  Ieee.lt_iff_rank (isNaN_candidate ha) (isNaN_candidate hb)

theorem le_iff_score {a b : SemanticEntry} (ha : candidate c query now signature a = true)
    (hb : candidate c query now signature b = true) :
    cosineSimilarity query a.embedding ≤ cosineSimilarity query b.embedding ↔
      score query a ≤ score query b :=
  Ieee.le_iff_rank (isNaN_candidate ha) (isNaN_candidate hb)

/-- A round of the loop keeps the better of two candidates. -/
theorem scanEntry_eq {best : Option SemanticEntry} (r : SemanticEntry)
    (hbest : ∀ b ∈ best, candidate c query now signature b = true) :
    scanEntry c query now signature
        (best.map fun b => (b, cosineSimilarity query b.embedding)) r
      = (Scan.keepBest (score query) (candidate c query now signature) best r).map
          fun b => (b, cosineSimilarity query b.embedding) := by
  unfold scanEntry Scan.keepBest
  by_cases hsignature : r.signature = signature
  · by_cases hage : c.ttl < now.durationSince r.createdAt
    · have hnot : candidate c query now signature r = false := by
        simp [candidate, live, not_le.mpr hage]
      simp [hsignature, hage, hnot]
    · by_cases hsim : threshold c ≤ cosineSimilarity query r.embedding
      · have hr : candidate c query now signature r = true := by
          simp [candidate, live, hsignature, not_lt.mp hage, hsim]
        cases best with
        | none => simp [hsignature, hage, hsim, hr]
        | some b =>
            have hlt := lt_iff_score (hbest b rfl) hr
            by_cases hbetter : score query b < score query r
            · simp [hsignature, hage, hsim, hr, hlt, hbetter]
            · simp [hsignature, hage, hsim, hr, hlt, hbetter]
      · have hnot : candidate c query now signature r = false := by
          simp [candidate, hsim]
        simp [hsignature, hage, hsim, hnot]
  · have hnot : candidate c query now signature r = false := by
      simp [candidate, live, hsignature]
    simp [hsignature, hnot]

/-- The loop finds the earliest of the most similar candidates. -/
theorem scan_eq_argmax (entries : List SemanticEntry) :
    entries.foldl (scanEntry c query now signature) none
      = ((entries.filter (candidate c query now signature)).argmax (score query)).map
          fun b => (b, cosineSimilarity query b.embedding) := by
  induction entries using List.reverseRecOn with
  | nil => rfl
  | append_singleton entries r ih =>
      rw [← Scan.foldl_keepBest] at ih ⊢
      rw [List.foldl_append, List.foldl_append, ih]
      refine scanEntry_eq r fun b hb => ?_
      rw [Scan.foldl_keepBest] at hb
      exact List.of_mem_filter (List.argmax_mem hb)

theorem lookup_eq (henabled : c.enabled = true) (entries : List SemanticEntry) :
    lookup c entries (.ok query) now signature
      = match (entries.filter (candidate c query now signature)).argmax (score query) with
        | some r => .hit r.response (cosineSimilarity query r.embedding)
        | none => .miss := by
  unfold lookup
  simp only [henabled, Bool.not_true, Bool.false_eq_true, if_false]
  rw [scan_eq_argmax]
  cases (entries.filter (candidate c query now signature)).argmax (score query) <;> rfl

/-! ### The best match -/

/-- The earliest of the most similar candidates. -/
structure BestMatch (c : SemanticCacheConfig) (query : List Float32) (now : Instant)
    (signature : CompatibilitySignature) (entries : List SemanticEntry) (r : SemanticEntry) :
    Prop where
  passes : candidate c query now signature r = true
  /-- The candidates before it are less similar, and those after it not more. -/
  best : ∃ before after, entries = before ++ r :: after ∧
    (∀ b ∈ before, candidate c query now signature b = true →
      cosineSimilarity query b.embedding < cosineSimilarity query r.embedding) ∧
    ∀ b ∈ after, candidate c query now signature b = true →
      cosineSimilarity query b.embedding ≤ cosineSimilarity query r.embedding

theorem argmax_iff_bestMatch {r : SemanticEntry} :
    (entries.filter (candidate c query now signature)).argmax (score query) = some r ↔
      BestMatch c query now signature entries r := by
  rw [Scan.argmax_eq_some_split]
  constructor
  · rintro ⟨before, after, hfilter, hbefore, hafter⟩
    have hr : candidate c query now signature r = true :=
      List.of_mem_filter (hfilter ▸ List.mem_append_right _ List.mem_cons_self)
    -- what was skipped right before `r` is no candidate
    obtain ⟨l, rest, rfl, rfl, hrest⟩ := List.filter_eq_append_iff.mp hfilter
    obtain ⟨gap, l', rfl, hgap, -, rfl⟩ := List.filter_eq_cons_iff.mp hrest
    refine ⟨hr, l ++ gap, l', by simp, ?_, ?_⟩
    · intro b hb hcand
      rcases List.mem_append.mp hb with hb | hb
      · exact (lt_iff_score hcand hr).mpr (hbefore b (List.mem_filter.mpr ⟨hb, hcand⟩))
      · exact absurd hcand (hgap b hb)
    · intro b hb hcand
      exact (le_iff_score hcand hr).mpr (hafter b (List.mem_filter.mpr ⟨hb, hcand⟩))
  · rintro ⟨hr, before, after, rfl, hbefore, hafter⟩
    refine ⟨before.filter (candidate c query now signature),
      after.filter (candidate c query now signature), ?_, ?_, ?_⟩
    · rw [List.filter_append, List.filter_cons_of_pos hr]
    · intro b hb
      obtain ⟨hb, hcand⟩ := List.mem_filter.mp hb
      exact (lt_iff_score hcand hr).mp (hbefore b hb hcand)
    · intro b hb
      obtain ⟨hb, hcand⟩ := List.mem_filter.mp hb
      exact (le_iff_score hcand hr).mp (hafter b hb hcand)

/-- The candidates are among the live entries. -/
theorem filter_candidate (entries : List SemanticEntry) :
    entries.filter (candidate c query now signature)
      = (entries.filter (live c now signature)).filter
          fun r => decide (threshold c ≤ cosineSimilarity query r.embedding) := by
  rw [List.filter_filter]
  exact List.filter_congr fun r _ => Bool.and_comm _ _

/--
**A lookup finds the best match of its partition.**  Whatever the cache holds: there is a hit
exactly if an entry of the same signature, no older than the time to live, reaches the
threshold; it is the earliest of the most similar of these, with its similarity; and entries
that are expired or of another signature can be put in and taken out anywhere without any
difference.
-/
theorem lookup_best_match (henabled : c.enabled = true) (entries : List SemanticEntry)
    (query : List Float32) (now : Instant) (signature : CompatibilitySignature) :
    ((∃ response similarity,
        lookup c entries (.ok query) now signature = .hit response similarity) ↔
      ∃ r ∈ entries, r.signature = signature ∧ now.durationSince r.createdAt ≤ c.ttl ∧
        threshold c ≤ cosineSimilarity query r.embedding) ∧
    (∀ response similarity,
      lookup c entries (.ok query) now signature = .hit response similarity ↔
        ∃ r, BestMatch c query now signature entries r ∧ response = r.response ∧
          similarity = cosineSimilarity query r.embedding) ∧
    ∀ entries', entries'.filter (live c now signature) = entries.filter (live c now signature) →
      lookup c entries' (.ok query) now signature
        = lookup c entries (.ok query) now signature := by
  refine ⟨?_, ?_, ?_⟩
  · rw [lookup_eq henabled]
    cases hbest : (entries.filter (candidate c query now signature)).argmax (score query) with
    | none =>
        have hnone := List.filter_eq_nil_iff.mp (List.argmax_eq_none.mp hbest)
        constructor
        · rintro ⟨response, similarity, hhit⟩
          cases hhit
        · rintro ⟨r, hr, hcand⟩
          exact absurd (candidate_iff.mpr hcand) (hnone r hr)
    | some r =>
        obtain ⟨hr, hcand⟩ := List.mem_filter.mp (List.argmax_mem hbest)
        exact ⟨fun _ => ⟨r, hr, candidate_iff.mp hcand⟩, fun _ => ⟨_, _, rfl⟩⟩
  · intro response similarity
    rw [lookup_eq henabled]
    cases hbest : (entries.filter (candidate c query now signature)).argmax (score query) with
    | none => simp [← argmax_iff_bestMatch, hbest]
    | some r => simp [← argmax_iff_bestMatch, hbest, eq_comm]
  · intro entries' hsame
    rw [lookup_eq henabled, lookup_eq henabled, filter_candidate, hsame, ← filter_candidate]

/-- A closer answer of another partition, and an answer that has expired, are not served. -/
theorem lookup_best_match_foreign :
    lookup (roomFor 10)
        [⟨"q", { onePartition with model := "other" }, [1.0], "theirs", 5⟩,
          ⟨"q", onePartition, [1.0], "expired", 0⟩, ⟨"q", onePartition, [2.0], "ours", 5⟩]
        (.ok [1.0]) (Duration.fromSecs 60 + 5) onePartition
      = lookup (roomFor 10) [⟨"q", onePartition, [2.0], "ours", 5⟩] (.ok [1.0])
          (Duration.fromSecs 60 + 5) onePartition :=
  (lookup_best_match rfl _ [1.0] _ onePartition).2.2 _ (by decide +kernel)

/-! ### After an insertion -/

/-- The entries an insertion leaves. -/
def kept (c : SemanticCacheConfig) (entries : List SemanticEntry) : List SemanticEntry :=
  if c.maxEntries ≤ entries.length then entries.tail else entries

/-- A live entry that is at least as similar to the prompt as the prompt is to itself. -/
def rival (c : SemanticCacheConfig) (query : List Float32) (now : Instant)
    (signature : CompatibilitySignature) (r : SemanticEntry) : Bool :=
  live c now signature r &&
    decide (cosineSimilarity query query ≤ cosineSimilarity query r.embedding)

theorem insert_eq (henabled : c.enabled = true) (hmax : 1 ≤ c.maxEntries)
    (entries : List SemanticEntry) (prompt response : String) :
    insert c entries (.ok query) now prompt signature response
      = some (kept c entries ++ [⟨prompt, signature, query, response, now⟩]) := by
  unfold insert kept
  by_cases hfull : c.maxEntries ≤ entries.length
  · have hremoved := removeFirst_of_pos (show 0 < entries.length by omega)
    simp [henabled, hfull, hremoved]
  · simp [henabled, hfull]

/-- Of the candidates, the rivals are those that score at least what the prompt itself does. -/
theorem candidate_rival {now : Instant} (hself : threshold c ≤ cosineSimilarity query query)
    (e : SemanticEntry) (he : e.embedding = query) (r : SemanticEntry) :
    (candidate c query now signature r && decide (score query e ≤ score query r))
      = rival c query now signature r := by
  obtain ⟨hthreshold, hquery⟩ := Ieee.isNaN_of_le hself
  unfold candidate rival score
  rw [he, Bool.and_assoc]
  congr 1
  by_cases hr : (cosineSimilarity query r.embedding).isNaN = false
  · have hle := (Ieee.le_iff_rank hthreshold hquery).mp hself
    rw [← Bool.decide_and, decide_eq_decide, Ieee.le_iff_rank hthreshold hr,
      Ieee.le_iff_rank hquery hr]
    exact ⟨fun h => h.2, fun h => ⟨hle.trans h, h⟩⟩
  · -- a NaN reaches no threshold
    have hnot : ∀ a, ¬ a ≤ cosineSimilarity query r.embedding :=
      fun a ha => hr (Ieee.isNaN_of_le ha).2
    simp [hnot]

/--
**The latest answer is served exactly if no earlier one rivals it.**  An answer is inserted
and looked up again within the time to live.  The lookup finds it if and only if the most
similar of its rivals, the earliest of several, carries the same answer, if there are any.
-/
theorem latest_served_iff {c : SemanticCacheConfig} (henabled : c.enabled = true)
    (hmax : 1 ≤ c.maxEntries) (backend : String → Embedding) (entries : List SemanticEntry)
    {prompt : String} {query : List Float32} (hquery : backend prompt = .ok query)
    (hself : threshold c ≤ cosineSimilarity query query) (signature : CompatibilitySignature)
    (response : String) {inserted looked : Instant}
    (hlive : looked.durationSince inserted ≤ c.ttl) :
    (∃ entries' similarity,
      insert c entries (backend prompt) inserted prompt signature response = some entries' ∧
        lookup c entries' (backend prompt) looked signature = .hit response similarity) ↔
      ∀ r ∈ ((kept c entries).filter (rival c query looked signature)).argmax (score query),
        r.response = response := by
  let e : SemanticEntry := ⟨prompt, signature, query, response, inserted⟩
  have hcandidate : candidate c query looked signature e = true := by
    simp [candidate, live, e, hlive, hself]
  have hfiltered : (kept c entries ++ [e]).filter (candidate c query looked signature)
      = (kept c entries).filter (candidate c query looked signature) ++ [e] := by
    rw [List.filter_append, List.filter_cons_of_pos hcandidate, List.filter_nil]
  have hrivals : ((kept c entries).filter (candidate c query looked signature)).filter
      (fun r => decide (score query e ≤ score query r))
        = (kept c entries).filter (rival c query looked signature) := by
    rw [List.filter_filter]
    refine List.filter_congr fun r _ => ?_
    rw [Bool.and_comm, candidate_rival hself e rfl r]
  rw [hquery, insert_eq henabled hmax]
  simp only [Option.some.injEq, exists_and_left, exists_eq_left']
  rw [lookup_eq henabled, hfiltered, Scan.argmax_concat_eq, hrivals]
  cases ((kept c entries).filter (rival c query looked signature)).argmax (score query) with
  | none => simp [e]
  | some r => simp

/-! ### One prompt twice -/

/-- A backend that gives every text the same embedding. -/
def constantBackend (_ : String) : Embedding := .ok [1.0]

/-- The first answer to a prompt is still served after a second one was inserted. -/
theorem stale_answer_served :
    ∃ entries entries',
      calls (roomFor 10) [(1, .insert "q" onePartition "old" (constantBackend "q"))]
        = some entries ∧
      threshold (roomFor 10) ≤ cosineSimilarity [1.0] [1.0] ∧
      insert (roomFor 10) entries (constantBackend "q") 2 "q" onePartition "new" = some entries' ∧
      Instant.durationSince 3 2 ≤ (roomFor 10).ttl ∧
      lookup (roomFor 10) entries' (constantBackend "q") 3 onePartition = .hit "old" 1.0 :=
  ⟨_, _, rfl, by decide +kernel, rfl, by decide, by decide +kernel⟩

/-- Once the first answer has been evicted, the second one is served. -/
theorem latest_served_iff_alone :
    ∃ entries' similarity,
      insert (roomFor 1) [⟨"q", onePartition, [1.0], "old", 1⟩] (constantBackend "q") 2 "q"
        onePartition "new" = some entries' ∧
      lookup (roomFor 1) entries' (constantBackend "q") 3 onePartition = .hit "new" similarity :=
  (latest_served_iff rfl (by decide) constantBackend _ rfl (by decide +kernel) onePartition "new"
    (by decide)).mpr (by decide +kernel)

end SemanticCache

end LlmGateway
