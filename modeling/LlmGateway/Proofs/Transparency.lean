/-
The middleware around all routes changes nothing.

Runs of the gateway are runs of its routes.  Each request also goes through
`trace_middleware`, which adds two headers to the response and observes the latency; the
traced gateway is the gateway under a layer, so whatever either comes to, the other does.
-/
import LlmGateway.Lib.Layer
import LlmGateway.Middleware.Trace
import LlmGateway.Proofs.Cardinality

namespace LlmGateway

open Effects

variable {x : Crates} {st : AppState} {start : Instant}

/-- A request for which the middleware draws an empty id. -/
def TracedRequest.of (req : HttpRequest) : TracedRequest := ⟨req, "", ""⟩

theorem TracedRequest.request_of (req : HttpRequest) : (TracedRequest.of req).request = req := rfl

/-- The response as `trace_middleware` returns it. -/
def TracedRequest.dressed (req : TracedRequest) (r : Response BodyStream) : Response BodyStream :=
  (r.insertHeader "x-request-id" req.requestId).insertHeader "x-response-time-ms" req.elapsedMs

/-- A request between two polls, its response dressed. -/
def TracedRequest.dress (req : TracedRequest) : Idle → Idle
  | .responded r => .responded (req.dressed r)
  | .closed => .closed

/-- What the middleware does besides. -/
def latency : Effect := .metric .recordRequestLatency

@[simp] theorem insertHeader_body (r : Response BodyStream) (name value : String) :
    (r.insertHeader name value).body = r.body := by
  unfold Response.insertHeader
  split <;> rfl

theorem insertHeader_withStream (r : Response BodyStream) (name value : String) (s : BodyStream) :
    (r.withStream s).insertHeader name value = (r.insertHeader name value).withStream s := by
  unfold Response.insertHeader Response.withStream
  split <;> rfl

theorem dressed_withStream (req : TracedRequest) (r : Response BodyStream) (s : BodyStream) :
    req.dressed (r.withStream s) = (req.dressed r).withStream s := by
  unfold TracedRequest.dressed
  rw [insertHeader_withStream, insertHeader_withStream]

theorem dressed_body (req : TracedRequest) (r : Response BodyStream) :
    (req.dressed r).body = r.body := by
  simp [TracedRequest.dressed]

/-- The body of a dressed response is polled like the body of the response. -/
theorem pollBody_dress (req : TracedRequest) (i : Idle) (item : StreamItem) :
    pollBody x (req.dress i) item = (pollBody x i item).map (.dressed req.dress) := by
  cases i with
  | closed => rfl
  | responded r =>
      unfold TracedRequest.dress pollBody
      simp only [dressed_body]
      cases r.body with
      | full bytes => rfl
      | stream s =>
          simp only [Option.map_some, Option.some.injEq, Prog.bind_eq, Prog.dressed,
            Prog.bind_assoc]
          congr 1
          funext s'
          cases s' with
          | none => rfl
          | some s' =>
              simp only [Prog.pure_eq, Prog.ret_bind, dressed_withStream]

theorem dropBody_dress (req : TracedRequest) (i : Idle) :
    dropBody (req.dress i) = (dropBody i).map (.dressed req.dress) := by
  cases i with
  | closed => rfl
  | responded r =>
      unfold TracedRequest.dress dropBody
      simp only [dressed_body]
      cases r.body with
      | full bytes => rfl
      | stream s =>
          simp only [Option.map_some, Option.some.injEq, Prog.bind_eq, Prog.dressed,
            Prog.bind_assoc]
          rfl

theorem abortHandler_dress (req : TracedRequest) (e : Effect) :
    abortHandler e = (abortHandler e).map (.dressed req.dress) := by
  cases e with
  | await a owned =>
      unfold abortHandler
      simp only [Option.map_some, Option.some.injEq, Prog.bind_eq, Prog.dressed, Prog.bind_assoc]
      rfl
  | _ => rfl

/-- **The traced gateway is the gateway under the middleware.** -/
theorem traced_layer (x : Crates) (st : AppState) :
    Layer (gateway x st) (tracedGateway x st) TracedRequest.request latency
      TracedRequest.dress where
  start req := by
    show ((serve x st req.request).bind _).bind _ = ((serve x st req.request).bind _).bind _
    rw [Prog.bind_assoc, Prog.bind_assoc]
    rfl
  poll := pollBody_dress
  drop := dropBody_dress
  abort := abortHandler_dress
  respond := rfl
  env := rfl
  clock := rfl
  own := rfl
  unnoticed w c y w' h := by
    cases h
    rfl

/-! ### Runs with the middleware and without -/

/-- The states a traced gateway started at `start` can come to. -/
def TracedState.Reachable (x : Crates) (st : AppState) (start : Instant) (q : TracedState) :
    Prop :=
  (tracedGateway x st).Reaches (fun _ _ => True) (TracedState.initial start) q

/-- The traced gateway is in state `q'` where the gateway is in state `q`. -/
structure Traces (q : Gateway.State) (q' : TracedState) : Prop where
  world : q'.world = q.world
  requests : q'.tasks.map (·.1.request) = q.tasks.map (·.1)
  log : q.log.Sublist q'.log
  /-- A request has done the same, but for one observation of the latency. -/
  moves : ∀ i, q'.movesOf i = q.movesOf i ∨
    ∃ before after, q'.movesOf i = before ++ .act latency () :: after ∧
      q.movesOf i = before ++ after
  /-- That is made before the response is polled or dropped. -/
  observed : ∀ (i : Nat) (req : TracedRequest) (s : Idle) (a' : Option (Gateway Idle)),
    q'.tasks[i]? = some (req, ⟨.ret s, a'⟩) → .drop ∉ q'.movesOf i →
      ∃ before after, q'.movesOf i = before ++ .act latency () :: after ∧
        q.movesOf i = before ++ after ∧ ∀ m ∈ before, m.IsAct
  /-- The response is the same, but for two headers. -/
  responses : ∀ (i : Nat) (req : TracedRequest) (r' : Response BodyStream)
    (a' : Option (Gateway Idle)), q'.tasks[i]? = some (req, ⟨.ret (.responded r'), a'⟩) →
      ∃ r a, q.tasks[i]? = some (req.request, ⟨.ret (.responded r), a⟩) ∧ r' = req.dressed r

theorem traces_of_beneath {q : Gateway.State} {q' : TracedState}
    (h : Pool.Beneath TracedRequest.request latency TracedRequest.dress q q') : Traces q q' where
  world := h.world
  log := h.log
  requests := by
    apply List.ext_getElem?
    intro i
    rw [List.getElem?_map, List.getElem?_map]
    cases hi : q'.tasks[i]? with
    | none =>
        rw [List.getElem?_eq_none_iff, h.length] at hi
        rw [List.getElem?_eq_none hi]
        rfl
    | some n =>
        obtain ⟨t, ht, -⟩ := h.tasks i n.1 n.2 hi
        rw [ht]
        rfl
  moves i := by
    cases hi : q'.tasks[i]? with
    | none =>
        have hle := List.getElem?_eq_none_iff.mp hi
        left
        rw [Pool.movesOf_fresh h.scope' hle, Pool.movesOf_fresh h.scope (h.length ▸ hle)]
    | some n =>
        obtain ⟨t, -, hb⟩ := h.tasks i n.1 n.2 hi
        rcases hb.prog.moves with hsame | ⟨before, after, y, hms', hms⟩
        · exact Or.inl hsame
        · exact Or.inr ⟨before, after, hms', hms⟩
  observed i req s a' hi hdrop := by
    obtain ⟨t, -, hb⟩ := h.tasks i req _ hi
    rcases hb.prog.idle.2 with hdropped | ⟨before, after, y, hms', hms, hacts⟩
    · exact absurd hdropped hdrop
    · exact ⟨before, after, hms', hms, hacts⟩
  responses i req r' a' hi := by
    obtain ⟨⟨p, a⟩, ht, hb⟩ := h.tasks i req _ hi
    obtain ⟨⟨s, hs, hdressed⟩, -⟩ := hb.prog.idle
    obtain rfl : p = .ret s := hs
    cases s with
    | responded r => exact ⟨r, a, ht, Idle.responded.inj hdressed⟩
    | closed => cases hdressed

/--
**The middleware changes nothing.** Whatever the gateway comes to behind its middleware, its
routes come to without it, and the other way round: in the same world, with the same requests,
each of which has done the same and is answered the same, but for one observation of the
latency and two headers.
-/
theorem traced_transparent (x : Crates) (st : AppState) (start : Instant) :
    (∀ q', TracedState.Reachable x st start q' →
      ∃ q, Gateway.Reachable x st start q ∧ Traces q q') ∧
    ∀ q, Gateway.Reachable x st start q →
      ∃ q', TracedState.Reachable x st start q' ∧ Traces q q' := by
  have hinitial : Pool.Beneath TracedRequest.request latency TracedRequest.dress
      (Gateway.State.initial start) (TracedState.initial start) :=
    { world := rfl
      length := rfl
      tasks := by simp [TracedState.initial]
      log := .slnil
      scope := by simp [Pool.Scoped, Gateway.State.initial]
      scope' := by simp [Pool.Scoped, TracedState.initial] }
  constructor
  · intro q' hq'
    obtain ⟨q, hq, hb⟩ := (traced_layer x st).lowers hinitial hq'
    exact ⟨q, hq, traces_of_beneath hb⟩
  · intro q hq
    have hlevel : Pool.Level TracedRequest.request TracedRequest.dress
        (Gateway.State.initial start) (TracedState.initial start) := by
      intro i r t t' hi
      cases hi
    obtain ⟨q', hq', hb⟩ := (traced_layer x st).raises TracedRequest.request_of
      (fun w => ⟨.none, (), w, rfl⟩) hinitial hlevel hq
    exact ⟨q', hq', traces_of_beneath hb⟩

/-- A request that is served once from its provider and once from the cache. -/
theorem traced_transparent_repeat :
    ∃ q, Gateway.Reachable repeatCrates repeatGateway 0 q ∧
      Traces q (tracedRun repeatGateway fun _ _ => true) :=
  (traced_transparent repeatCrates repeatGateway 0).1 _
    ((tracedRun_reaches repeatGateway fun _ _ => true).mono fun _ _ _ => trivial)

end LlmGateway
