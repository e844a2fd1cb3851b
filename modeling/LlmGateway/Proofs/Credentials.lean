/-
Which key a request bears, and whose it is.

`Bears` says in terms of the header's bytes what `extract_api_key` accepts, and
`credentialTable_lookup` what the table answers: the last credential configured with that
key, if digests do not collide.  A configured credential works if the two meet, that is, if
trimming leaves its key alone, the key is visible ASCII, and no later credential with the
same key says otherwise; the configuration is checked for none of this.
-/
import LlmGateway.Proofs.Rust
import LlmGateway.Proofs.Crates
import LlmGateway.Middleware.Auth
import Mathlib.Data.List.Induction

namespace LlmGateway

open Effects

variable {x : Crates} {authorization : Option (List UInt8)} {key : String}

/-! ### The header -/

/-- What `HeaderValue::to_str` lets through: visible ASCII and the tab. -/
def visible (value : List UInt8) : Bool := value.all fun b => (32 ≤ b && b < 127) || b == 9

/-- The header is visible text after `Bearer `, which trimmed is `key`, and that is not empty. -/
def Bears (authorization : Option (List UInt8)) (key : String) : Prop :=
  ∃ rest, authorization = some (asBytes ("Bearer " ++ rest)) ∧
    visible (asBytes ("Bearer " ++ rest)) = true ∧ trim rest = key ∧ key ≠ ""

theorem utf8EncodeChar_ofNat {b : UInt8} (h : b.toNat < 128) :
    String.utf8EncodeChar (Char.ofNat b.toNat) = [b] := by
  have hvalid : Nat.isValidChar b.toNat := Or.inl (by omega)
  have hval : (Char.ofNat b.toNat).val.toNat = b.toNat := by
    rw [Char.ofNat, dif_pos hvalid]
    rfl
  unfold String.utf8EncodeChar
  rw [hval, if_pos (by omega)]
  simp

/-- The text of a visible value has the bytes of the value. -/
theorem headerToStr_eq_some {value : List UInt8} {s : String} :
    headerToStr value = some s ↔ visible value = true ∧ value = asBytes s := by
  have htext : visible value = true →
      asBytes (String.ofList (value.map fun b => Char.ofNat b.toNat)) = value := by
    intro hvisible
    rw [asBytes_ofList, List.flatMap_map]
    have hsingle : ∀ b ∈ value, String.utf8EncodeChar (Char.ofNat b.toNat) = [b] := by
      intro b hb
      have hrange := List.all_eq_true.mp hvisible b hb
      refine utf8EncodeChar_ofNat ?_
      simp only [Bool.or_eq_true, Bool.and_eq_true, decide_eq_true_eq, beq_iff_eq] at hrange
      rcases hrange with ⟨-, hlt⟩ | rfl
      · have := UInt8.lt_iff_toNat_lt.mp hlt
        simp at this
        omega
      · decide
    rw [List.flatMap_congr hsingle]
    simp
  show (if visible value = true then some _ else none) = some s ↔ _
  by_cases hvisible : visible value = true
  · rw [if_pos hvisible]
    constructor
    · intro h
      rw [← Option.some.inj h, htext hvisible]
      exact ⟨hvisible, rfl⟩
    · rintro ⟨-, hvalue⟩
      exact congrArg some (asBytes_injective ((htext hvisible).trans hvalue))
  · rw [if_neg hvisible]
    simp [hvisible]

theorem stripPrefix_eq_some {pre s rest : String} :
    stripPrefix pre s = some rest ↔ s = pre ++ rest := by
  unfold stripPrefix
  by_cases h : pre.toList.isPrefixOf s.toList = true
  · rw [if_pos h]
    obtain ⟨t, ht⟩ := List.isPrefixOf_iff_prefix.mp h
    have hs : s = pre ++ String.ofList t := by
      rw [← String.toList_inj, String.toList_append, String.toList_ofList, ht]
    have hdrop : String.ofList (s.toList.drop pre.length) = String.ofList t := by
      rw [← ht, ← String.length_toList, List.drop_left]
    rw [hdrop, hs]
    simp [String.append_right_inj]
  · rw [if_neg h]
    constructor
    · intro hn
      cases hn
    · rintro rfl
      exact absurd (by simp) h

/-- `extract_api_key` finds the key a request bears. -/
theorem extractApiKey_ok : extractApiKey authorization = .ok key ↔ Bears authorization key := by
  unfold extractApiKey
  constructor
  · intro h
    cases hheader : authorization.bind headerToStr with
    | none =>
        rw [hheader] at h
        cases h
    | some header =>
        rw [hheader] at h
        cases hrest : stripPrefix "Bearer " header with
        | none =>
            simp only [hrest] at h
            cases h
        | some rest =>
            simp only [hrest] at h
            by_cases hempty : trim rest = ""
            · rw [if_pos hempty] at h
              cases h
            · rw [if_neg hempty] at h
              obtain rfl := Except.ok.inj h
              obtain ⟨value, rfl, hvalue⟩ := Option.bind_eq_some_iff.mp hheader
              obtain ⟨hvisible, rfl⟩ := headerToStr_eq_some.mp hvalue
              obtain rfl := stripPrefix_eq_some.mp hrest
              exact ⟨rest, rfl, hvisible, rfl, hempty⟩
  · rintro ⟨rest, rfl, hvisible, rfl, hempty⟩
    have hheader : headerToStr (asBytes ("Bearer " ++ rest)) = some ("Bearer " ++ rest) :=
      headerToStr_eq_some.mpr ⟨hvisible, rfl⟩
    have hrest : stripPrefix "Bearer " ("Bearer " ++ rest) = some rest :=
      stripPrefix_eq_some.mpr rfl
    simp only [Option.bind_some, hheader, hrest, if_neg hempty]

/-- Every refusal is `Unauthorized`. -/
theorem extractApiKey_error {e : AppError} (h : extractApiKey authorization = .error e) :
    e = .unauthorized := by
  unfold extractApiKey at h
  split at h
  · exact (Except.error.inj h).symm
  · split at h
    · exact (Except.error.inj h).symm
    · split at h
      · exact (Except.error.inj h).symm
      · cases h

/-! ### The table -/

/-- The last credential configured with a key. -/
def lastWith (creds : List ClientCredential) (key : String) : Option ClientCredential :=
  (creds.filter fun c => c.key = key).getLast?

theorem exists_lastWith {creds : List ClientCredential} {key : String} :
    (∃ c, lastWith creds key = some c) ↔ ∃ c ∈ creds, c.key = key := by
  unfold lastWith
  constructor
  · rintro ⟨c, hc⟩
    have hmem := List.mem_of_getLast? hc
    simp only [List.mem_filter, decide_eq_true_eq] at hmem
    exact ⟨c, hmem⟩
  · rintro ⟨c, hc, hkey⟩
    have hmem : c ∈ creds.filter fun c => c.key = key := by simp [hc, hkey]
    exact ⟨_, List.getLast?_eq_some_getLast (List.ne_nil_of_mem hmem)⟩

/-- The identity a credential stands for. -/
def ClientCredential.identity (c : ClientCredential) : ClientIdentity := ⟨c.clientId, c.tier⟩

/-- **The table knows the last credential of every key.** -/
theorem credentialTable_lookup (hsha : Function.Injective x.sha256Hex)
    (creds : List ClientCredential) (key : String) :
    credentialTable x creds (x.sha256Hex (asBytes key))
      = (lastWith creds key).map ClientCredential.identity := by
  induction creds using List.reverseRecOn with
  | nil => rfl
  | append_singleton creds c ih =>
      have hsnoc : credentialTable x (creds ++ [c])
          = (credentialTable x creds).insert (x.sha256Hex (asBytes c.key)) c.identity := by
        simp [credentialTable, ClientCredential.identity]
      rw [hsnoc]
      by_cases h : c.key = key
      · subst h
        simp [lastWith]
      · have hne : x.sha256Hex (asBytes key) ≠ x.sha256Hex (asBytes c.key) := fun hc =>
          h (asBytes_injective (hsha hc)).symm
        rw [Table.insert_ne _ hne, ih]
        simp [lastWith, h]

/-! ### Configured credentials -/

/-- A request with this header passes `auth_middleware` with this identity, whatever comes
next. -/
def Authenticates (x : Crates) (st : AppState) (authorization : Option (List UInt8))
    (identity : ClientIdentity) : Prop :=
  ∀ next : ClientIdentity → Gateway (Response BodyStream),
    authMiddleware x st authorization next = (next identity).bind fun r => .ret (.ok r)

/-- Whose key a request bears, if it is known. -/
def identified (x : Crates) (st : AppState) (authorization : Option (List UInt8)) :
    Option ClientIdentity :=
  (extractApiKey authorization).toOption.bind fun key => st.credentials (x.sha256Hex (asBytes key))

section Identified

variable {st : AppState} {identity : ClientIdentity}

theorem authMiddleware_identified (h : identified x st authorization = some identity) :
    Authenticates x st authorization identity := by
  intro next
  unfold identified at h
  unfold authMiddleware
  cases hkey : extractApiKey authorization with
  | error e =>
      rw [hkey] at h
      cases h
  | ok key =>
      rw [hkey] at h
      have hlookup : st.credentials (x.sha256Hex (asBytes key)) = some identity := h
      simp only [hlookup]
      rfl

/-- Without a known key nothing comes next. -/
theorem authMiddleware_unidentified (h : identified x st authorization = none)
    (next : ClientIdentity → Gateway (Response BodyStream)) :
    authMiddleware x st authorization next = .ret (.error .unauthorized) := by
  unfold identified at h
  unfold authMiddleware
  cases hkey : extractApiKey authorization with
  | error e =>
      obtain rfl := extractApiKey_error hkey
      rfl
  | ok key =>
      rw [hkey] at h
      have hlookup : st.credentials (x.sha256Hex (asBytes key)) = none := h
      simp only [hlookup]
      rfl

/-- What comes next can tell one identity from all others. -/
theorem authenticates_iff :
    Authenticates x st authorization identity ↔ identified x st authorization = some identity := by
  constructor
  · intro h
    let stop : Response BodyStream := AppError.unauthorized.intoResponse
    have hmark := h fun i =>
      if i = identity then .op (.metric .recordRequestLatency) fun _ => .ret stop else .ret stop
    rw [if_pos rfl] at hmark
    cases hidentity : identified x st authorization with
    | none =>
        rw [authMiddleware_unidentified hidentity] at hmark
        cases hmark
    | some i =>
        rw [authMiddleware_identified hidentity] at hmark
        by_cases hi : i = identity
        · rw [hi]
        · rw [if_neg hi] at hmark
          cases hmark
  · exact authMiddleware_identified

end Identified

/-- The identity is that of the last credential with the key the request bears. -/
theorem identified_new (hsha : Function.Injective x.sha256Hex) (config : AppConfig)
    {identity : ClientIdentity} :
    identified x (.new x config) authorization = some identity ↔
      ∃ key c, Bears authorization key ∧ lastWith config.credentials key = some c ∧
        identity = c.identity := by
  have hlookup : ∀ key, (AppState.new x config).credentials (x.sha256Hex (asBytes key))
      = (lastWith config.credentials key).map ClientCredential.identity :=
    credentialTable_lookup hsha config.credentials
  unfold identified
  constructor
  · intro h
    obtain ⟨key, hkey, hc⟩ := Option.bind_eq_some_iff.mp h
    rw [hlookup, Option.map_eq_some_iff] at hc
    obtain ⟨c, hc, rfl⟩ := hc
    cases hextract : extractApiKey authorization with
    | error e =>
        rw [hextract] at hkey
        cases hkey
    | ok key' =>
        rw [hextract] at hkey
        obtain rfl := Option.some.inj hkey
        exact ⟨key', c, extractApiKey_ok.mp hextract, hc, rfl⟩
  · rintro ⟨key, c, hkey, hc, rfl⟩
    rw [extractApiKey_ok.mpr hkey]
    show (AppState.new x config).credentials _ = _
    rw [hlookup, hc]
    rfl

theorem visible_bearer (s : String) :
    visible (asBytes ("Bearer " ++ s)) = visible (asBytes s) := by
  have hbytes : asBytes ("Bearer " ++ s) = asBytes "Bearer " ++ asBytes s := by
    simp [asBytes]
  have hprefix : visible (asBytes "Bearer ") = true := by decide
  rw [hbytes]
  unfold visible at hprefix ⊢
  rw [List.all_append, hprefix, Bool.true_and]

/--
**A configured credential works exactly if its key survives the header.**  The key must be
visible ASCII, and what is left of it after trimming must be a key whose last credential has
the same client and tier.
-/
theorem credential_works_iff (hsha : Function.Injective x.sha256Hex) (config : AppConfig)
    (c : ClientCredential) :
    Authenticates x (.new x config) (some (asBytes ("Bearer " ++ c.key))) c.identity ↔
      visible (asBytes c.key) = true ∧ trim c.key ≠ "" ∧
        (lastWith config.credentials (trim c.key)).map ClientCredential.identity
          = some c.identity := by
  rw [authenticates_iff, identified_new hsha]
  constructor
  · rintro ⟨key, d, ⟨rest, hvalue, hvisible, rfl, hempty⟩, hlast, hidentity⟩
    have hrest : "Bearer " ++ c.key = "Bearer " ++ rest :=
      asBytes_injective (Option.some.inj hvalue)
    obtain rfl := (String.append_right_inj _).mp hrest
    rw [visible_bearer] at hvisible
    exact ⟨hvisible, hempty, by rw [hlast, hidentity]; rfl⟩
  · rintro ⟨hvisible, hempty, hlast⟩
    obtain ⟨d, hd, hidentity⟩ := Option.map_eq_some_iff.mp hlast
    exact ⟨trim c.key, d, ⟨c.key, rfl, by rw [visible_bearer]; exact hvisible, rfl, hempty⟩, hd,
      hidentity.symm⟩

/-! A key with a space after it, and one key for two clients. -/

/-- The digests of the key, without and with a space after it. -/
def keyCrates : Crates :=
  .table
    [(asBytes "a", "ca978112ca1bbdcafac231b39a23dc4da786eff8147c4e72b9807785afee48bb"),
      (asBytes "a ", "6583dcd6056fd32aadd0d2d0be920de99f6ff08b80065e4b9142aaa4169391cb")] []

/-- A configuration with two credentials. -/
def keyConfig (first second : ClientCredential) : AppConfig where
  credentials := [first, second]
  rateLimit := { defaultRpm := 60, defaultTpm := 1000 }
  circuitBreaker := { failureThreshold := 5, cooldownSeconds := 30, halfOpenMaxCalls := 1 }
  providers := [{ name := "p", endpoint := "http://p", apiKey := none, priority := 1,
                  requestTimeoutSeconds := 30, streamIdleTimeoutSeconds := 120 }]

/-- A key that ends in a space. -/
def spaced : ClientCredential := ⟨"a ", "one", "free"⟩

/-- The key without the space. -/
def shared : ClientCredential := ⟨"a", "two", "free"⟩

/-- The same key for another client. -/
def sharedAgain : ClientCredential := ⟨"a", "three", "pro"⟩

theorem keyCrates_injective : Function.Injective keyCrates.sha256Hex :=
  digestTable_injective (by decide) (by decide)

/-- The holder of `spaced` is taken for `shared`, whose own key is taken for `sharedAgain`'s. -/
theorem credential_mistaken :
    ((keyConfig spaced shared).validate = .ok () ∧
      ¬ Authenticates keyCrates (.new keyCrates (keyConfig spaced shared))
        (some (asBytes ("Bearer " ++ spaced.key))) spaced.identity) ∧
    (keyConfig shared sharedAgain).validate = .ok () ∧
      ¬ Authenticates keyCrates (.new keyCrates (keyConfig shared sharedAgain))
        (some (asBytes ("Bearer " ++ shared.key))) shared.identity := by
  refine ⟨⟨by decide, ?_⟩, by decide, ?_⟩
  · rw [authenticates_iff]
    decide
  · rw [authenticates_iff]
    decide

/-- The last holder of a key is known as itself. -/
theorem credential_works_iff_last :
    Authenticates keyCrates (.new keyCrates (keyConfig shared sharedAgain))
      (some (asBytes ("Bearer " ++ sharedAgain.key))) sharedAgain.identity :=
  (credential_works_iff keyCrates_injective _ _).mpr ⟨by decide, by decide, by decide⟩

end LlmGateway
