/-
The semantic cache, `semantic.rs`.

`f32` is `Float32`, whose arithmetic is the kernel's.  Each call is given what the embedding
backend answered for its prompt and the time it reads from the clock; a call that panics
returns `none`.  The similarity of a hit is left at `f32`, since `as f64` changes no value.
-/
import LlmGateway.Config

namespace LlmGateway

/-- The `[cache]` section of the configuration, which no check looks at. -/
structure CacheConfig where
  exactMaxEntries : UInt64
  exactTtlSeconds : UInt64
  semanticEnabled : Bool
  semanticThreshold : Float

/-- How alike prompts must be, how many entries are kept, and for how long. -/
structure SemanticCacheConfig where
  enabled : Bool
  threshold : Float
  maxEntries : Nat
  ttl : Duration

/-- The configuration `AppState::new` gives the semantic cache. -/
def SemanticCacheConfig.ofCache (c : CacheConfig) : SemanticCacheConfig where
  enabled := c.semanticEnabled
  threshold := c.semanticThreshold
  maxEntries := c.exactMaxEntries.toNat
  ttl := .fromSecs c.exactTtlSeconds.toNat

/-- What two requests must share for the answer to one to serve the other. -/
structure CompatibilitySignature where
  model : String
  systemFingerprint : Option String
  toolsHash : Option String
  responseFormat : Option String
  deriving DecidableEq, Repr

/-- A prompt that was answered: its embedding, the answer, and when it was inserted. -/
structure SemanticEntry where
  prompt : String
  signature : CompatibilitySignature
  embedding : List Float32
  response : String
  createdAt : Instant
  deriving DecidableEq

/-- What a lookup finds; a hit says how alike the two prompts are. -/
inductive SemanticLookupOutcome
  | hit (response : String) (similarity : Float32)
  | miss
  | disabled
  deriving DecidableEq

/-- What an `EmbeddingBackend` answers for a text. -/
abbrev Embedding := Except String (List Float32)

/-! ### Similarity -/

/-- `f32::clamp`, which leaves a NaN alone. -/
def clamp (x low high : Float32) : Float32 :=
  let x := if x < low then low else x
  if high < x then high else x

/-- The sums of `cosine_similarity`: the product and the two squared norms. -/
structure CosineSums where
  dot : Float32
  normA : Float32
  normB : Float32

/-- One step of the three sums, which run over the components pairwise. -/
def CosineSums.add (s : CosineSums) (p : Float32 × Float32) : CosineSums where
  dot := s.dot + p.1 * p.2
  normA := s.normA + p.1 * p.1
  normB := s.normB + p.2 * p.2

/-- `cosine_similarity`. -/
def cosineSimilarity (a b : List Float32) : Float32 :=
  if a.length != b.length || a.isEmpty then 0.0
  else
    let sums := (a.zip b).foldl CosineSums.add ⟨0.0, 0.0, 0.0⟩
    let denom := sums.normA.sqrt * sums.normB.sqrt
    if 0.0 < denom then clamp (sums.dot / denom) (-1.0) 1.0 else 0.0

/-! ### The cache -/

namespace SemanticCache

/-- `config.threshold as f32`. -/
def threshold (c : SemanticCacheConfig) : Float32 := .ofBits (F32.ofF64 c.threshold.toBits).bits

/-- One round of the loop of `lookup`. -/
def scanEntry (c : SemanticCacheConfig) (query : List Float32) (now : Instant)
    (signature : CompatibilitySignature) (bestMatch : Option (SemanticEntry × Float32))
    (entry : SemanticEntry) : Option (SemanticEntry × Float32) :=
  if entry.signature != signature then bestMatch
  else if c.ttl < now.durationSince entry.createdAt then bestMatch
  else
    let sim := cosineSimilarity query entry.embedding
    if threshold c ≤ sim then
      match bestMatch with
      | some (_, bestSim) => if bestSim < sim then some (entry, sim) else bestMatch
      | none => some (entry, sim)
    else bestMatch

/-- `lookup`. -/
def lookup (c : SemanticCacheConfig) (entries : List SemanticEntry) (embedding : Embedding)
    (now : Instant) (signature : CompatibilitySignature) : SemanticLookupOutcome :=
  if !c.enabled then .disabled
  else match embedding with
    | .error _ => .miss
    | .ok query =>
        match entries.foldl (scanEntry c query now signature) none with
        | some (entry, sim) => .hit entry.response sim
        | none => .miss

/-- `Vec::remove(0)`, which panics if there is nothing to remove. -/
def removeFirst : List SemanticEntry → Option (List SemanticEntry)
  | [] => none
  | _ :: entries => some entries

/-- `insert`. -/
def insert (c : SemanticCacheConfig) (entries : List SemanticEntry) (embedding : Embedding)
    (now : Instant) (prompt : String) (signature : CompatibilitySignature) (response : String) :
    Option (List SemanticEntry) :=
  if !c.enabled then some entries
  else match embedding with
    | .error _ => some entries
    | .ok embedding => do
        let entries ← if c.maxEntries ≤ entries.length then removeFirst entries else some entries
        return entries ++ [⟨prompt, signature, embedding, response, now⟩]

/-- `clear`. -/
def clear (_ : List SemanticEntry) : List SemanticEntry := []

end SemanticCache

-- a vector and itself, two orthogonal ones, and two that cannot be compared
example : cosineSimilarity [1.0, 0.0] [1.0, 0.0] = 1.0 ∧
    cosineSimilarity [1.0, 0.0] [0.0, 1.0] = 0.0 ∧ cosineSimilarity [1.0] [] = 0.0 := by
  decide +kernel

end LlmGateway
