/-
What a configuration is checked for when the gateway starts.

`validate` stops at the first check that fails.  `faults` is everything that is wrong with a
configuration, in the order of the checks, and `Detects` says of a check that it reports the
first of some faults; it composes as the checks do.  What an accepted configuration then means
for the requests that are sent is said of whole runs.
-/
import LlmGateway.Proofs.Mediation
import Mathlib.Data.List.TakeWhile

namespace LlmGateway

open Effects

/-! ### The first fault -/

/-- The fault of a check that fails. -/
def faultUnless (ok : Bool) (message : String) : List String := if ok then [] else [message]

/-- The check reports the first of the faults, if there is any. -/
def Detects (check : Except String Unit) (faults : List String) : Prop :=
  check = match faults with
    | [] => .ok ()
    | message :: _ => .error message

theorem detects_ensure (ok : Bool) (message : String) :
    Detects (ensure ok message) (faultUnless ok message) := by
  cases ok <;> rfl

/-- One check after the other. -/
theorem Detects.seq {check check' : Except String Unit} {faults faults' : List String}
    (h : Detects check faults) (h' : Detects check' faults') :
    Detects (check >>= fun _ => check') (faults ++ faults') := by
  unfold Detects at h
  rw [h]
  cases faults with
  | nil => exact h'
  | cons message rest => rfl

/-- The loop over the entries of a list. -/
theorem Detects.each {α : Type} {check : Nat → α → Except String Unit}
    {faults : Nat → α → List String} (h : ∀ i a, Detects (check i a) (faults i a)) (i : Nat)
    (as : List α) :
    Detects (checkEach check i as) ((as.mapIdx fun j => faults (i + j)).flatten) := by
  induction as generalizing i with
  | nil => rfl
  | cons a as ih =>
      have hnext := (h i a).seq (ih (i + 1))
      rw [List.mapIdx_cons, List.flatten_cons]
      have hshift : (fun j => faults (i + (j + 1))) = fun j => faults (i + 1 + j) := by
        funext j
        congr 1
        omega
      rw [hshift]
      exact hnext

/-- What is wrong with provider `i`. -/
def ProviderConfig.faults (i : Nat) (p : ProviderConfig) : List String :=
  faultUnless (p.name != "") (entryField "providers" i "name" ++ " must not be empty")
    ++ (faultUnless (p.endpoint != "") (entryField "providers" i "endpoint" ++ " must not be empty")
    ++ (faultUnless (startsWith "http://" p.endpoint || startsWith "https://" p.endpoint)
      (entryField "providers" i "endpoint" ++ " must start with http:// or https://, got: "
        ++ p.endpoint)
    ++ faultUnless (p.requestTimeoutSeconds != 0)
      (entryField "providers" i "request_timeout_seconds" ++ " must be > 0")))

/-- What is wrong with credential `i`. -/
def ClientCredential.faults (i : Nat) (c : ClientCredential) : List String :=
  faultUnless (c.key != "") (entryField "auth.credentials" i "key" ++ " must not be empty")
    ++ faultUnless (c.clientId != "")
      (entryField "auth.credentials" i "client_id" ++ " must not be empty")

/-- Everything that is wrong with a configuration. -/
def AppConfig.faults (c : AppConfig) : List String :=
  faultUnless (!c.providers.isEmpty) "at least one provider must be configured"
    ++ ((c.providers.mapIdx ProviderConfig.faults).flatten
    ++ ((c.credentials.mapIdx ClientCredential.faults).flatten
    ++ (faultUnless (c.rateLimit.defaultRpm != 0) "rate_limit.default_rpm must be > 0"
    ++ faultUnless (c.rateLimit.defaultTpm != 0) "rate_limit.default_tpm must be > 0")))

theorem ProviderConfig.validate_detects (i : Nat) (p : ProviderConfig) :
    Detects (p.validate i) (p.faults i) :=
  (detects_ensure _ _).seq <| (detects_ensure _ _).seq <| (detects_ensure _ _).seq <|
    detects_ensure _ _

theorem ClientCredential.validate_detects (i : Nat) (c : ClientCredential) :
    Detects (c.validate i) (c.faults i) :=
  (detects_ensure _ _).seq (detects_ensure _ _)

theorem AppConfig.validate_detects (c : AppConfig) : Detects c.validate c.faults := by
  have hproviders := Detects.each ProviderConfig.validate_detects 0 c.providers
  have hcredentials := Detects.each ClientCredential.validate_detects 0 c.credentials
  simp only [Nat.zero_add] at hproviders hcredentials
  exact (detects_ensure _ _).seq <| hproviders.seq <| hcredentials.seq <|
    (detects_ensure _ _).seq <| detects_ensure _ _

/-! ### Accepted configurations -/

/-- A configuration that nothing is wrong with. -/
structure AppConfig.Sound (c : AppConfig) : Prop where
  some : c.providers ≠ []
  names : ∀ p ∈ c.providers, p.name ≠ ""
  schemes : ∀ p ∈ c.providers, startsWith "http://" p.endpoint = true ∨
    startsWith "https://" p.endpoint = true
  timeouts : ∀ p ∈ c.providers, p.requestTimeoutSeconds ≠ 0
  keys : ∀ k ∈ c.credentials, k.key ≠ "" ∧ k.clientId ≠ ""
  rpm : c.rateLimit.defaultRpm ≠ 0
  tpm : c.rateLimit.defaultTpm ≠ 0

theorem faultUnless_nil {ok : Bool} {message : String} :
    faultUnless ok message = [] ↔ ok = true := by
  cases ok <;> simp [faultUnless]

/-- No entry of a list has a fault. -/
theorem flatten_mapIdx_nil {α : Type} {faults : Nat → α → List String} {ok : α → Prop}
    (h : ∀ i a, faults i a = [] ↔ ok a) (as : List α) :
    (as.mapIdx faults).flatten = [] ↔ ∀ a ∈ as, ok a := by
  rw [List.flatten_eq_nil_iff]
  constructor
  · intro hall a ha
    obtain ⟨i, hi, rfl⟩ := List.mem_iff_getElem.mp ha
    exact (h i _).mp (hall _ (List.mem_mapIdx.mpr ⟨i, hi, rfl⟩))
  · intro hall l hl
    obtain ⟨i, hi, rfl⟩ := List.mem_mapIdx.mp hl
    exact (h i _).mpr (hall _ (List.getElem_mem hi))

/-- An endpoint with a scheme is not empty. -/
theorem endpoint_of_scheme {s : String}
    (h : (startsWith "http://" s || startsWith "https://" s) = true) : s ≠ "" := by
  rintro rfl
  revert h
  decide

theorem ProviderConfig.faults_nil (i : Nat) (p : ProviderConfig) : p.faults i = [] ↔
    p.name ≠ "" ∧ (startsWith "http://" p.endpoint || startsWith "https://" p.endpoint) = true ∧
      p.requestTimeoutSeconds ≠ 0 := by
  simp only [faults, List.append_eq_nil_iff, faultUnless_nil, bne_iff_ne, ne_eq]
  constructor
  · rintro ⟨hname, -, hscheme, htimeout⟩
    exact ⟨hname, hscheme, htimeout⟩
  · rintro ⟨hname, hscheme, htimeout⟩
    exact ⟨hname, endpoint_of_scheme hscheme, hscheme, htimeout⟩

theorem ClientCredential.faults_nil (i : Nat) (c : ClientCredential) : c.faults i = [] ↔
    c.key ≠ "" ∧ c.clientId ≠ "" := by
  simp [faults, faultUnless_nil]

theorem AppConfig.faults_nil (c : AppConfig) : c.faults = [] ↔ c.Sound := by
  unfold faults
  simp only [List.append_eq_nil_iff, faultUnless_nil,
    flatten_mapIdx_nil ProviderConfig.faults_nil, flatten_mapIdx_nil ClientCredential.faults_nil,
    Bool.not_eq_true', List.isEmpty_eq_false_iff, bne_iff_ne, ne_eq, Bool.or_eq_true]
  constructor
  · rintro ⟨hsome, hproviders, hkeys, hrpm, htpm⟩
    exact ⟨hsome, fun p hp => (hproviders p hp).1, fun p hp => (hproviders p hp).2.1,
      fun p hp => (hproviders p hp).2.2, hkeys, hrpm, htpm⟩
  · intro h
    exact ⟨h.some, fun p hp => ⟨h.names p hp, h.schemes p hp, h.timeouts p hp⟩, h.keys, h.rpm,
      h.tpm⟩

theorem AppConfig.sound_of_valid {c : AppConfig} (h : c.validate = .ok ()) : c.Sound := by
  apply c.faults_nil.mp
  have hdetects := c.validate_detects
  unfold Detects at hdetects
  rw [h] at hdetects
  cases hfaults : c.faults with
  | nil => rfl
  | cons message rest =>
      rw [hfaults] at hdetects
      cases hdetects

/--
**Validation reports the first thing that is wrong.**  A configuration is accepted exactly if
it is sound, whatever providers and credentials it lists; otherwise the error is the first of
all its faults, in the order of the checks.
-/
theorem validate_first (c : AppConfig) :
    (c.validate = .ok () ↔ c.Sound) ∧
      ∀ message, c.validate = .error message ↔ ∃ rest, c.faults = message :: rest := by
  have hdetects := c.validate_detects
  unfold Detects at hdetects
  rw [← c.faults_nil, hdetects]
  cases c.faults with
  | nil => simp
  | cons first rest => simp

/-! ### What is sent under an accepted configuration -/

/-- An endpoint has more than slashes behind its scheme. -/
def ProviderConfig.BeyondScheme (p : ProviderConfig) : Prop :=
  ∃ scheme ∈ ["http://", "https://"], ∃ rest, p.endpoint.toList = scheme.toList ++ rest ∧
    ∃ c ∈ rest, c ≠ '/'

theorem startsWith_iff {pre s : String} :
    startsWith pre s = true ↔ ∃ rest, s.toList = pre.toList ++ rest := by
  unfold startsWith
  rw [List.isPrefixOf_iff_prefix]
  exact ⟨fun ⟨rest, h⟩ => ⟨rest, h.symm⟩, fun ⟨rest, h⟩ => ⟨rest, h.symm⟩⟩

/-- Slashes are trimmed up to the last character that is none. -/
theorem trimEndSlashes_append {s : String} {front rest : List Char}
    (hs : s.toList = front ++ rest) (h : ∃ c ∈ rest, c ≠ '/') :
    ∃ kept, (trimEndSlashes s).toList = front ++ kept := by
  have hkept : rest.reverse.dropWhile (· = '/') ≠ [] := by
    intro hnil
    obtain ⟨c, hc, hslash⟩ := h
    rw [List.dropWhile_eq_nil_iff] at hnil
    exact hslash (of_decide_eq_true (hnil c (List.mem_reverse.mpr hc)))
  refine ⟨(rest.reverse.dropWhile (· = '/')).reverse, ?_⟩
  unfold trimEndSlashes
  rw [String.toList_ofList, hs, List.reverse_append, List.dropWhile_append,
    if_neg (by simpa using hkept), List.reverse_append, List.reverse_reverse]

theorem trimEndSlashes_slashes {s : String} {front rest : List Char}
    (hs : s.toList = front ++ rest) (h : ∀ c ∈ rest, c = '/') :
    (trimEndSlashes s).toList = (front.reverse.dropWhile (· = '/')).reverse := by
  have hnone : rest.reverse.dropWhile (· = '/') = [] := by
    rw [List.dropWhile_eq_nil_iff]
    intro c hc
    exact decide_eq_true (h c (List.mem_reverse.mp hc))
  unfold trimEndSlashes
  rw [String.toList_ofList, hs, List.reverse_append, List.dropWhile_append, hnone]
  rfl

/-- An endpoint that is only a scheme is trimmed to what comes before its slashes. -/
theorem trim_scheme {scheme : String} (hscheme : scheme ∈ ["http://", "https://"])
    {endpoint : String} {rest : List Char} (hs : endpoint.toList = scheme.toList ++ rest)
    (h : ∀ c ∈ rest, c = '/') :
    trimEndSlashes endpoint = "http:" ∨ trimEndSlashes endpoint = "https:" := by
  have htrim := trimEndSlashes_slashes hs h
  simp only [List.mem_cons, List.not_mem_nil, or_false] at hscheme
  rcases hscheme with rfl | rfl
  · exact Or.inl (String.toList_injective (htrim.trans (by decide)))
  · exact Or.inr (String.toList_injective (htrim.trans (by decide)))

/-- The path of a call then has only one slash before it. -/
theorem url_slashes {front : String} (h : front = "http:" ∨ front = "https:") (call : ApiCall) :
    startsWith "http://" (front ++ call.path) = false ∧
      startsWith "https://" (front ++ call.path) = false := by
  have hpath : call.path = "/v1/chat/completions" ∨ call.path = "/v1/embeddings" := by
    cases call <;> simp [ApiCall.path]
  rcases h with rfl | rfl <;> rcases hpath with hpath | hpath <;> rw [hpath] <;> decide

theorem beyondScheme_iff {p : ProviderConfig} {scheme : String}
    (hscheme : scheme ∈ ["http://", "https://"]) {rest : List Char}
    (hs : p.endpoint.toList = scheme.toList ++ rest) :
    p.BeyondScheme ↔ ∃ c ∈ rest, c ≠ '/' := by
  constructor
  · rintro ⟨scheme', hscheme', rest', hs', c, hc, hslash⟩
    rw [hs] at hs'
    have hsame : rest = rest' := by
      simp only [List.mem_cons, List.not_mem_nil, or_false] at hscheme hscheme'
      rcases hscheme with rfl | rfl <;> rcases hscheme' with rfl | rfl
      · simpa using hs'
      · simp at hs'
      · simp at hs'
      · simpa using hs'
    exact ⟨c, hsame ▸ hc, hslash⟩
  · intro h
    exact ⟨scheme, hscheme, rest, hs, h⟩

/-- The URL of a call starts with the scheme and both its slashes exactly if more than slashes
comes behind it in the endpoint; otherwise only the path of the call does. -/
theorem scheme_iff {p : ProviderConfig}
    (h : startsWith "http://" p.endpoint = true ∨ startsWith "https://" p.endpoint = true)
    (call : ApiCall) :
    ((startsWith "http://" (trimEndSlashes p.endpoint ++ call.path) = true ∨
        startsWith "https://" (trimEndSlashes p.endpoint ++ call.path) = true) ↔
      p.BeyondScheme) ∧
    (¬ p.BeyondScheme →
      trimEndSlashes p.endpoint = "http:" ∨ trimEndSlashes p.endpoint = "https:") := by
  obtain ⟨scheme, hscheme, rest, hs⟩ : ∃ scheme ∈ ["http://", "https://"], ∃ rest,
      p.endpoint.toList = scheme.toList ++ rest := by
    rcases h with h | h
    · exact ⟨_, by simp, startsWith_iff.mp h⟩
    · exact ⟨_, by simp, startsWith_iff.mp h⟩
  rw [beyondScheme_iff hscheme hs]
  by_cases hbeyond : ∃ c ∈ rest, c ≠ '/'
  · refine ⟨iff_of_true ?_ hbeyond, fun hnot => absurd hbeyond hnot⟩
    obtain ⟨kept, hkept⟩ := trimEndSlashes_append hs hbeyond
    have hprefix : startsWith scheme (trimEndSlashes p.endpoint ++ call.path) = true := by
      rw [startsWith_iff, String.toList_append, hkept, List.append_assoc]
      exact ⟨_, rfl⟩
    simp only [List.mem_cons, List.not_mem_nil, or_false] at hscheme
    rcases hscheme with rfl | rfl
    · exact Or.inl hprefix
    · exact Or.inr hprefix
  · have hslashes : ∀ c ∈ rest, c = '/' := by
      intro c hc
      by_contra hslash
      exact hbeyond ⟨c, hc, hslash⟩
    have hfront := trim_scheme hscheme hs hslashes
    obtain ⟨hhttp, hhttps⟩ := url_slashes hfront call
    exact ⟨by simp [hhttp, hhttps, hbeyond], fun _ => hfront⟩

/--
**What validation promises of what is handed to the HTTP client.**  In every run of a gateway
that started from an accepted configuration, whatever a request hands to the client's `send` is
for a provider with a name, under a timeout, and the text of its URL starts with `http://` or
`https://` exactly if the endpoint has more than slashes behind its scheme, which no check looks
for.  Otherwise the text is `http:` or `https:` and the path of the call; what host the client's
URL parser finds in it, `v1` say, is the client's affair.
-/
theorem sent_under_scheme {x : Crates} {config : AppConfig} {start : Instant}
    {p : Gateway.State} {i : Nat} {r : HttpRequest} {t : Task gatewaySig Idle}
    (hvalid : config.validate = .ok ()) (h : Gateway.Reachable x (.new x config) start p)
    (ht : p.tasks[i]? = some (r, t)) {provider : String} {out : OutboundRequest}
    {owned : Option ReservationHandle} {answer : Except String StatusCode}
    (hsend : .act (.await (.send provider out) owned) answer ∈ p.movesOf i) :
    provider ≠ "" ∧ out.timeoutSeconds ≠ 0 ∧ ∃ q ∈ config.providers, q.name = provider ∧
      ((startsWith "http://" out.url = true ∨ startsWith "https://" out.url = true) ↔
        q.BeyondScheme) ∧
      (¬ q.BeyondScheme →
        out.url = "http:" ++ r.call.path ∨ out.url = "https:" ++ r.call.path) := by
  have hsound := config.sound_of_valid hvalid
  obtain ⟨q, hq, rfl, body, rfl⟩ := h.built ht hsend
  obtain ⟨hiff, hfront⟩ := scheme_iff (hsound.schemes q hq) r.call
  refine ⟨hsound.names q hq, hsound.timeouts q hq, q, hq, rfl, hiff, fun hnot => ?_⟩
  show trimEndSlashes q.endpoint ++ r.call.path = _ ∨ trimEndSlashes q.endpoint ++ r.call.path = _
  rcases hfront hnot with heq | heq
  · exact Or.inl (by rw [heq])
  · exact Or.inr (by rw [heq])

/-- There is a `p` behind the scheme of the one endpoint. -/
theorem sent_under_scheme_repeat :
    ∃ out owned answer, .act (.await (.send "p" out) owned) answer ∈ repeatRun.movesOf 0 ∧
      out.timeoutSeconds ≠ 0 ∧
      (startsWith "http://" out.url = true ∨ startsWith "https://" out.url = true) := by
  obtain ⟨r, t, out, answer, ht, -, hmem⟩ := repeatRun_sends
  obtain ⟨-, htimeout, q, hq, -, hiff, -⟩ :=
    sent_under_scheme (by decide) (Gateway.replay_reachable _ _ _) ht hmem
  obtain rfl := List.mem_singleton.mp hq
  exact ⟨out, _, answer, hmem, htimeout,
    hiff.mpr ⟨"http://", by simp, ['p'], by decide, 'p', by simp, by decide⟩⟩

end LlmGateway
