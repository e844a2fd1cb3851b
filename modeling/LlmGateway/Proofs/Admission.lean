/-
The layers in front of the handlers.

A statement about `pipeline` under every handler tells what the layers do before one runs.
A request without a known key is answered at once, any other asks for one RPM token of its
client and then either runs the handler or is answered.
-/
import LlmGateway.Proofs.World
import LlmGateway.Proofs.TokenBucket
import LlmGateway.Lib.Runs

namespace LlmGateway

open Effects

variable {x : Crates} {st : AppState} {w w' : World} {authorization : Option (List UInt8)}
  {identity : ClientIdentity} {client : String}

/-! ### The RPM bucket -/

/-- A client's RPM bucket. -/
def World.rpm (st : AppState) (w : World) (client : String) : TokenBucket :=
  (w.bucketsFor st client).rpm

/-- Its level now. -/
def World.rpmLevel (st : AppState) (w : World) (client : String) : ℚ :=
  (w.rpm st client).level w.now

/-- The world after a client's RPM bucket was asked for a token. -/
def World.askRpm (st : AppState) (w : World) (client : String) : World :=
  w.setBuckets client
    { w.bucketsFor st client with rpm := ((w.rpm st client).tryConsume w.now 1).2 }

theorem respond_rpm (client : String) (c : Choice) :
    respond st w (.rpmTryConsume client 1) c
      = some (((w.rpm st client).tryConsume w.now 1).1, w.askRpm st client) := by
  simp only [respond]
  rfl

/-- Nothing but what follows from the RPM bucket of one client has changed. -/
structure OnlyRpm (st : AppState) (client : String) (w w' : World) : Prop where
  now : w'.now = w.now
  tpm : ∀ c, w'.tpm st c = w.tpm st c
  others : ∀ c, c ≠ client → w'.rpm st c = w.rpm st c
  breakers : w'.circuitBreakers = w.circuitBreakers
  cache : w'.exactCache = w.exactCache

theorem onlyRpm_askRpm (w : World) (client : String) :
    OnlyRpm st client w (w.askRpm st client) := by
  have hbuckets : ∀ c, c ≠ client →
      (w.askRpm st client).bucketsFor st c = w.bucketsFor st c := by
    intro c hc
    simp [World.askRpm, World.setBuckets, World.bucketsFor, Table.insert_ne _ hc]
  refine ⟨rfl, ?_, ?_, rfl, rfl⟩
  · intro c
    by_cases hc : c = client
    · subst hc
      simp [World.tpm, World.askRpm, World.setBuckets, World.bucketsFor]
    · simp [World.tpm, hbuckets c hc]
  · intro c hc
    simp [World.rpm, hbuckets c hc]

theorem rpmLevel_askRpm (w : World) (client : String) :
    (w.askRpm st client).rpmLevel st client
      = if 1 ≤ w.rpmLevel st client then w.rpmLevel st client - 1 else w.rpmLevel st client := by
  have hrpm : (w.askRpm st client).rpm st client = ((w.rpm st client).tryConsume w.now 1).2 := by
    simp [World.rpm, World.askRpm, World.setBuckets, World.bucketsFor]
  unfold World.rpmLevel
  rw [hrpm]
  exact TokenBucket.level_tryConsume (w.rpm st client) w.now 1

/-! ### Admission -/

/-- A request has taken one token from the RPM bucket of `client`, and nothing else. -/
structure TookOne (st : AppState) (client : String) (w w' : World) : Prop
    extends OnlyRpm st client w w' where
  rpm : w'.rpmLevel st client = w.rpmLevel st client - 1

/-- A request has taken nothing, though it may have looked at the RPM bucket of `client`. -/
structure TookNothing (st : AppState) (client : String) (w w' : World) : Prop
    extends OnlyRpm st client w w' where
  rpm : w'.rpmLevel st client = w.rpmLevel st client

/-- The handler, whichever it is, starts with this identity in the world `w'`. -/
def HandlerStarts (x : Crates) (st : AppState) (w : World) (authorization : Option (List UInt8))
    (identity : ClientIdentity) (w' : World) : Prop :=
  ∀ h, Prog.Comes (respond st) w (pipeline x st authorization h) w' (responding (h identity))

/-- The request is answered before any handler runs. -/
def AnsweredBefore (x : Crates) (st : AppState) (w : World)
    (authorization : Option (List UInt8)) (response : Response BodyStream) (w' : World) : Prop :=
  ∀ h, Prog.Comes (respond st) w (pipeline x st authorization h) w' (.ret response)

theorem handlerStarts_of_level (hid : identified x st authorization = some identity)
    (hlevel : 1 ≤ w.rpmLevel st identity.clientId) :
    HandlerStarts x st w authorization identity (w.askRpm st identity.clientId) := by
  intro h
  rw [pipeline_identified hid]
  have hgranted : ((w.rpm st identity.clientId).tryConsume w.now 1).1 = .ok () :=
    TokenBucket.tryConsume_granted.mpr hlevel
  refine .step (c := .none) (respond_rpm identity.clientId .none) ?_
  rw [hgranted]
  exact .here _ _

theorem answeredBefore_of_level (hid : identified x st authorization = some identity)
    (hlevel : w.rpmLevel st identity.clientId < 1) :
    ∃ r, 1 ≤ r ∧ AnsweredBefore x st w authorization (AppError.rateLimited r).intoResponse
      (w.askRpm st identity.clientId) := by
  refine ⟨_, TokenBucket.one_le_retryAfter
    ((w.rpm st identity.clientId).refillLocked w.now) (1 - w.rpmLevel st identity.clientId), ?_⟩
  intro h
  rw [pipeline_identified hid]
  have hrefused := TokenBucket.tryConsume_refused hlevel
  refine .step (c := .none) (respond_rpm identity.clientId .none) ?_
  rw [hrefused]
  exact .step (c := .none) rfl (.here _ _)

/-- A handler that shows itself. -/
def loud (identity i : ClientIdentity) : Gateway HandlerResult :=
  if i = identity then .op (.yield (.ok [])) fun _ => .ret (.error .unauthorized)
  else .ret (.error .unauthorized)

/-- **A handler that starts does so for the identified client, whose bucket had a token.** -/
theorem HandlerStarts.inv (h : HandlerStarts x st w authorization identity w') :
    identified x st authorization = some identity ∧ 1 ≤ w.rpmLevel st identity.clientId ∧
      w' = w.askRpm st identity.clientId := by
  have hloud := h (loud identity)
  have hgoal : responding (loud identity identity)
      = .op (.yield (.ok [])) fun _ => .ret AppError.unauthorized.intoResponse := by
    unfold loud
    rw [if_pos rfl]
    rfl
  rw [hgoal] at hloud
  cases hid : identified x st authorization with
  | none =>
      rw [pipeline_unidentified hid] at hloud
      obtain ⟨-, hret⟩ := hloud.of_ret
      cases hret
  | some i =>
      rw [pipeline_identified hid] at hloud
      rcases hloud.of_op with ⟨-, hstay⟩ | ⟨c, y, w₁, hr, hrest⟩
      · cases hstay
      · rw [respond_rpm, Option.some.injEq, Prod.mk.injEq] at hr
        obtain ⟨rfl, rfl⟩ := hr
        by_cases hlevel : 1 ≤ w.rpmLevel st i.clientId
        · rw [TokenBucket.tryConsume_granted.mpr hlevel] at hrest
          by_cases hi : i = identity
          · subst hi
            refine ⟨rfl, hlevel, ?_⟩
            have hgo : afterRpm (loud i i) (.ok ()) = responding (loud i i) := rfl
            rw [hgo, hgoal] at hrest
            rcases hrest.of_op with ⟨hw, -⟩ | ⟨c, y, w₁, -, hrest⟩
            · exact hw
            · obtain ⟨-, hret⟩ := hrest.of_ret
              cases hret
          · have hret : afterRpm (loud identity i) (.ok ())
                = .ret AppError.unauthorized.intoResponse := by
              unfold loud
              rw [if_neg hi]
              rfl
            rw [hret] at hrest
            obtain ⟨-, hret⟩ := hrest.of_ret
            cases hret
        · rw [TokenBucket.tryConsume_refused (not_le.mp hlevel)] at hrest
          rcases hrest.of_op with ⟨-, hstay⟩ | ⟨c, y, w₁, hr, hrest⟩
          · cases hstay
          · obtain ⟨-, hret⟩ := hrest.of_ret
            cases hret

theorem tookOne_askRpm (hlevel : 1 ≤ w.rpmLevel st client) :
    TookOne st client w (w.askRpm st client) where
  toOnlyRpm := onlyRpm_askRpm w client
  rpm := by rw [rpmLevel_askRpm, if_pos hlevel]

theorem tookNothing_askRpm (hlevel : w.rpmLevel st client < 1) :
    TookNothing st client w (w.askRpm st client) where
  toOnlyRpm := onlyRpm_askRpm w client
  rpm := by rw [rpmLevel_askRpm, if_neg (not_le.mpr hlevel)]

/-- The request bears a key, and `c` is the last credential configured with it. -/
def AdmittedAs (config : AppConfig) (authorization : Option (List UInt8))
    (c : ClientCredential) : Prop :=
  ∃ key, Bears authorization key ∧ lastWith config.credentials key = some c

theorem identified_iff (hsha : Function.Injective x.sha256Hex) (config : AppConfig) :
    identified x (.new x config) authorization = some identity ↔
      ∃ c, AdmittedAs config authorization c ∧ identity = c.identity := by
  rw [identified_new hsha]
  constructor
  · rintro ⟨key, c, hkey, hc, hidentity⟩
    exact ⟨c, ⟨key, hkey, hc⟩, hidentity⟩
  · rintro ⟨c, ⟨key, hkey, hc⟩, hidentity⟩
    exact ⟨key, c, hkey, hc, hidentity⟩

/-- A request that bears no configured key is not identified. -/
theorem identified_none (hsha : Function.Injective x.sha256Hex) (config : AppConfig)
    (h : ¬ ∃ key, Bears authorization key ∧ ∃ c ∈ config.credentials, c.key = key) :
    identified x (.new x config) authorization = none := by
  cases hid : identified x (.new x config) authorization with
  | none => rfl
  | some identity =>
      obtain ⟨c, ⟨key, hkey, hc⟩, -⟩ := (identified_iff hsha config).mp hid
      exact absurd ⟨key, hkey, exists_lastWith.mp ⟨c, hc⟩⟩ h

/--
**What the layers let through.**  In any world a handler starts if and only if the request
bears a configured key and the RPM bucket of the last credential's client holds a token.  It
starts as that client, which is one token short and has lost nothing else.  Any other request
is answered with 401 or 429, and no bucket has lost a token.
-/
theorem admission_exact (hsha : Function.Injective x.sha256Hex) (config : AppConfig) (w : World)
    (authorization : Option (List UInt8)) :
    (∀ req, serve x (.new x config) req = pipeline x (.new x config) req.authorization
      fun identity => handler x (.new x config) identity req.call) ∧
    ((∃ identity w', HandlerStarts x (.new x config) w authorization identity w') ↔
      ∃ c, AdmittedAs config authorization c ∧ 1 ≤ w.rpmLevel (.new x config) c.clientId) ∧
    (∀ identity w', HandlerStarts x (.new x config) w authorization identity w' →
      ∃ c, AdmittedAs config authorization c ∧ identity = c.identity ∧
        TookOne (.new x config) c.clientId w w') ∧
    ((¬ ∃ key, Bears authorization key ∧ ∃ c ∈ config.credentials, c.key = key) →
      AnsweredBefore x (.new x config) w authorization AppError.unauthorized.intoResponse w) ∧
    ∀ c, AdmittedAs config authorization c → w.rpmLevel (.new x config) c.clientId < 1 →
      ∃ r w', 1 ≤ r ∧ TookNothing (.new x config) c.clientId w w' ∧
        AnsweredBefore x (.new x config) w authorization
          (AppError.rateLimited r).intoResponse w' := by
  refine ⟨fun req => serve_eq x _ req, ⟨?_, ?_⟩, ?_, ?_, ?_⟩
  · rintro ⟨identity, w', h⟩
    obtain ⟨hid, hlevel, -⟩ := h.inv
    obtain ⟨c, hc, rfl⟩ := (identified_iff hsha config).mp hid
    exact ⟨c, hc, hlevel⟩
  · rintro ⟨c, hc, hlevel⟩
    have hid := (identified_iff hsha config).mpr ⟨c, hc, rfl⟩
    exact ⟨c.identity, _, handlerStarts_of_level hid hlevel⟩
  · intro identity w' h
    obtain ⟨hid, hlevel, rfl⟩ := h.inv
    obtain ⟨c, hc, rfl⟩ := (identified_iff hsha config).mp hid
    exact ⟨c, hc, rfl, tookOne_askRpm hlevel⟩
  · intro hnone h
    rw [pipeline_unidentified (identified_none hsha config hnone)]
    exact .here _ _
  · intro c hc hlevel
    have hid := (identified_iff hsha config).mpr ⟨c, hc, rfl⟩
    obtain ⟨r, hr, hanswered⟩ := answeredBefore_of_level hid hlevel
    exact ⟨r, _, hr, tookNothing_askRpm hlevel, hanswered⟩

/-- The last holder of a key is let through. -/
theorem admission_exact_last :
    ∃ identity w', HandlerStarts keyCrates (.new keyCrates (keyConfig shared sharedAgain))
      (.initial 0) (some (asBytes ("Bearer " ++ "a"))) identity w' := by
  have hadmitted : AdmittedAs (keyConfig shared sharedAgain) (some (asBytes ("Bearer " ++ "a")))
      sharedAgain := ⟨"a", ⟨"a", rfl, by decide, by decide, by decide⟩, by decide⟩
  exact (admission_exact keyCrates_injective _ _ _).2.1.mpr
    ⟨sharedAgain, hadmitted, by decide +kernel⟩

end LlmGateway
