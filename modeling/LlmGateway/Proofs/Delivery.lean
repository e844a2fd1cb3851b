/-
What a client is handed.

A response is served from the cache, with the body of the provider the request was sent to
last, or with the items that provider's stream delivers.  Whatever else goes on in the
gateway, the client gets just that, in the order it came, and nothing of another request.
-/
import LlmGateway.Proofs.Passthrough
import LlmGateway.Proofs.Travel

namespace LlmGateway

open Effects

variable {providers : List ProviderConfig} {call : ApiCall} {key : Option String}
  {leg leg' : Leg} {m : GatewayMove} {ms : List GatewayMove} {name : String}

/-! ### Items -/

/-- The item a streaming body is polled with. -/
def itemOf : GatewayMove → Option StreamItem
  | .poll item => some item
  | _ => none

/-- The item a client is handed. -/
def handedOf : GatewayMove → Option (Except String (List UInt8))
  | .act (.yield i) _ => some i
  | _ => none

/-- The items that a stream of the request was polled for. -/
def itemsOf (ms : List GatewayMove) : List StreamItem := ms.filterMap itemOf

/-- What the client of the request was handed. -/
def handed (ms : List GatewayMove) : List (Except String (List UInt8)) := ms.filterMap handedOf

/-- What items come to: the chunks, and the error they break off with. -/
def onward (items : List StreamItem) : List (Except String (List UInt8)) :=
  (delivered items).map .ok ++ ((breakage items).map .error).toList

theorem itemsOf_snoc (ms : List GatewayMove) (m : GatewayMove) :
    itemsOf (ms ++ [m]) = itemsOf ms ++ (itemOf m).toList :=
  List.filterMap_append

theorem handed_snoc (ms : List GatewayMove) (m : GatewayMove) :
    handed (ms ++ [m]) = handed ms ++ (handedOf m).toList :=
  List.filterMap_append

/-- Chunks are passed on as they are. -/
theorem onward_chunks (chunks : List (List UInt8)) (items : List StreamItem) :
    onward (chunks.map .chunk ++ items) = chunks.map .ok ++ onward items := by
  induction chunks with
  | nil => rfl
  | cons bs chunks ih =>
      show Except.ok bs :: onward (chunks.map .chunk ++ items) = _
      rw [ih]
      rfl

theorem itemOf_aside {e : Effect} (h : Aside e) (y : e.Answer) :
    itemOf (.act e y) = none ∧ handedOf (.act e y) = none := by
  obtain ⟨k, v, owned, rfl⟩ | ⟨m, rfl⟩ | ⟨hd, cost, rfl⟩ | ⟨hd, rfl⟩ := h.cases <;>
    exact ⟨rfl, rfl⟩

/-! ### What a stream has come to -/

/-- What has been polled and handed on where a request is. -/
def Leg.Relay : Leg → List StreamItem → List (Except String (List UInt8)) → Prop
  | .streaming _, items, out => ∃ chunks : List (List UInt8),
      items = chunks.map .chunk ∧ out = chunks.map .ok
  | .breaking _ message, items, out => onward items = out ++ [.error message]
  | .relaying _ item, items, out => onward items = out ++ [item] ∧
      ∀ bs, item = .ok bs → ∃ chunks : List (List UInt8), items = chunks.map .chunk
  | .closed, items, out => out <+: onward items
  | _, items, out => items = [] ∧ out = []

theorem onward_all (chunks : List (List UInt8)) :
    onward (chunks.map .chunk) = chunks.map .ok := by
  have h := onward_chunks chunks []
  rw [List.append_nil] at h
  rw [h]
  exact List.append_nil _

/-- **What is handed on is a beginning of what was polled.** -/
theorem Leg.Relay.prefix {items : List StreamItem} {out : List (Except String (List UInt8))}
    (h : leg.Relay items out) : out <+: onward items := by
  cases leg with
  | streaming p =>
      obtain ⟨chunks, rfl, rfl⟩ := h
      rw [onward_all]
  | breaking p message =>
      rw [show onward items = out ++ [.error message] from h]
      exact List.prefix_append _ _
  | relaying p item =>
      rw [h.1]
      exact List.prefix_append _ _
  | closed => exact h
  | _ =>
      rw [h.2]
      exact List.nil_prefix

theorem Leg.Step.relay {items : List StreamItem} {out : List (Except String (List UInt8))}
    (h : Step providers call key leg m leg') (hleg : leg.Relay items out) :
    leg'.Relay (items ++ (itemOf m).toList) (out ++ (handedOf m).toList) := by
  cases h with
  | aside he y =>
      obtain ⟨hitem, hout⟩ := itemOf_aside he y
      simpa [hitem, hout] using hleg
  | reserve client cost hd =>
      obtain ⟨rfl, rfl⟩ := hleg
      cases key <;> exact ⟨rfl, rfl⟩
  | begin p rest =>
      obtain ⟨rfl, rfl⟩ := hleg
      cases call.streams with
      | true => exact ⟨[], rfl, rfl⟩
      | false => exact ⟨rfl, rfl⟩
  | giveUp p rest =>
      obtain ⟨rfl, rfl⟩ := hleg
      cases call <;> exact ⟨rfl, rfl⟩
  | poll p item =>
      obtain ⟨chunks, rfl, rfl⟩ := hleg
      rw [show handedOf (.poll item) = none from rfl, Option.toList_none, List.append_nil]
      have honward : onward (chunks.map .chunk ++ [item]) = chunks.map .ok ++ onward [item] :=
        onward_chunks chunks [item]
      cases item with
      | chunk bs => exact ⟨honward, fun _ _ => ⟨chunks ++ [bs], by simp [itemOf]⟩⟩
      | error e => exact honward
      | idleTimeout => exact honward
      | ended =>
          show _ <+: onward (chunks.map .chunk ++ [.ended])
          rw [honward]
          exact List.prefix_append _ _
  | record p message =>
      refine ⟨?_, ?_⟩
      · show onward (items ++ []) = out ++ [] ++ [.error message]
        rw [List.append_nil, List.append_nil]
        exact hleg
      · intro bs hbs
        cases hbs
  | yield p item =>
      obtain ⟨honward, hchunks⟩ := hleg
      rw [show itemOf (.act (.yield item) ()) = none from rfl, Option.toList_none, List.append_nil]
      cases item with
      | ok bs =>
          obtain ⟨chunks, rfl⟩ := hchunks bs rfl
          exact ⟨chunks, rfl, honward.symm.trans (onward_all chunks)⟩
      | error e =>
          show out ++ [.error e] <+: onward items
          rw [honward]
  | drop leg =>
      show out ++ [] <+: onward (items ++ [])
      rw [List.append_nil, List.append_nil]
      exact hleg.prefix
  | _ =>
      obtain ⟨rfl, rfl⟩ := hleg
      exact ⟨rfl, rfl⟩

theorem Leg.Path.relay (h : Path providers call key ms leg) :
    leg.Relay (itemsOf ms) (handed ms) := by
  induction h with
  | arrived => exact ⟨rfl, rfl⟩
  | @snoc ms m leg leg' _ hstep ih =>
      rw [itemsOf_snoc, handed_snoc]
      exact hstep.relay ih

/-! ### Who has served a request -/

/-- The last provider a request was sent to, what it answered, and the moves since; nothing was
polled before. -/
def LastSent (name : String) (answer : Except String StatusCode) (since ms : List GatewayMove) :
    Prop :=
  ∃ before out owned, ms = before ++ .act (.await (.send name out) owned) answer :: since ∧
    contacts since = [] ∧ itemsOf before = []

theorem LastSent.snoc {answer : Except String StatusCode} {since : List GatewayMove}
    (h : LastSent name answer since ms) (hm : contactOf m = none) :
    LastSent name answer (since ++ [m]) (ms ++ [m]) := by
  obtain ⟨before, out, owned, rfl, hsince, hbefore⟩ := h
  refine ⟨before, out, owned, by simp, ?_, hbefore⟩
  rw [contacts_snoc, hsince, hm]
  rfl

/-- What the moves show of where a request is. -/
def Leg.Shown (call : ApiCall) (ms : List GatewayMove) : Leg → Prop
  | .arrived => contacts ms = []
  | .admitted => contacts ms = []
  | .looking _ => contacts ms = []
  | .hit cached => contacts ms = [] ∧
      ∃ k owned, .act (.await (.cacheGet k) owned) (some cached) ∈ ms
  | .answered p _ reception => ∃ answer since, reception = call.receive answer ∧
      LastSent p.name answer since ms
  | .rejected s => isNonRetryableClientError s = true ∧
      ∃ name since, LastSent name (.ok s) since ms
  | .reading p _ => ∃ s since, LastSent p.name (.ok s) since ms
  | .broken p _ => ∃ s since owned e, LastSent p.name (.ok s) since ms ∧
      .act (.await (.bytes p.name) owned) (.error e) ∈ since
  | .failed p => ∃ s since owned e, LastSent p.name (.ok s) since ms ∧
      .act (.await (.bytes p.name) owned) (.error e) ∈ since
  | .served p body => ∃ s since owned, LastSent p.name (.ok s) since ms ∧
      .act (.await (.bytes p.name) owned) (.ok body) ∈ since
  | .streaming p => ∃ s since, LastSent p.name (.ok s) since ms
  | .breaking p _ => ∃ s since, LastSent p.name (.ok s) since ms
  | .relaying p _ => ∃ s since, LastSent p.name (.ok s) since ms
  | _ => True

/-- What contacts nobody leaves this as it is. -/
theorem Leg.Shown.snoc (h : leg.Shown call ms) (hm : contactOf m = none) :
    leg.Shown call (ms ++ [m]) := by
  have hnone : contacts ms = [] → contacts (ms ++ [m]) = [] := by
    intro hms
    rw [contacts_snoc, hms, hm]
    rfl
  cases leg with
  | arrived => exact hnone h
  | admitted => exact hnone h
  | looking k => exact hnone h
  | hit cached =>
      obtain ⟨hms, k, owned, hmem⟩ := h
      exact ⟨hnone hms, k, owned, List.mem_append_left _ hmem⟩
  | answered p rest reception =>
      obtain ⟨answer, since, hreception, hlast⟩ := h
      exact ⟨answer, _, hreception, hlast.snoc hm⟩
  | rejected s =>
      obtain ⟨hs, name, since, hlast⟩ := h
      exact ⟨hs, name, _, hlast.snoc hm⟩
  | reading p rest =>
      obtain ⟨s, since, hlast⟩ := h
      exact ⟨s, _, hlast.snoc hm⟩
  | broken p rest =>
      obtain ⟨s, since, owned, e, hlast, hmem⟩ := h
      exact ⟨s, _, owned, e, hlast.snoc hm, List.mem_append_left _ hmem⟩
  | failed p =>
      obtain ⟨s, since, owned, e, hlast, hmem⟩ := h
      exact ⟨s, _, owned, e, hlast.snoc hm, List.mem_append_left _ hmem⟩
  | served p body =>
      obtain ⟨s, since, owned, hlast, hmem⟩ := h
      exact ⟨s, _, owned, hlast.snoc hm, List.mem_append_left _ hmem⟩
  | streaming p =>
      obtain ⟨s, since, hlast⟩ := h
      exact ⟨s, _, hlast.snoc hm⟩
  | breaking p message =>
      obtain ⟨s, since, hlast⟩ := h
      exact ⟨s, _, hlast.snoc hm⟩
  | relaying p item =>
      obtain ⟨s, since, hlast⟩ := h
      exact ⟨s, _, hlast.snoc hm⟩
  | _ => exact trivial

/-- Only a status is taken for usable. -/
theorem usable_ok {answer : Except String StatusCode} (h : Reception.usable = call.receive answer) :
    ∃ s, answer = .ok s := by
  cases answer with
  | error e => cases h
  | ok s => exact ⟨s, rfl⟩

theorem Leg.Step.shown (h : Step providers call key leg m leg') (hshown : leg.Shown call ms)
    (hrelay : leg.Relay (itemsOf ms) (handed ms)) : leg'.Shown call (ms ++ [m]) := by
  cases h with
  | aside he y => exact hshown.snoc (contactOf_aside he y)
  | enter client cost => exact hshown.snoc rfl
  | reserve client cost hd =>
      have hnone := hshown.snoc (m := .act (.tryReserveTpm client cost) (.ok hd)) rfl
      cases key with
      | none => exact trivial
      | some k => exact hnone
  | hit k cached owned =>
      have hnone := hshown.snoc (m := .act (.await (.cacheGet k) owned) (some cached)) rfl
      exact ⟨hnone, k, owned, by simp⟩
  | send p rest out owned answer =>
      exact ⟨answer, [], rfl, ms, out, owned, rfl, rfl, hrelay.1⟩
  | reject p rest s =>
      obtain ⟨answer, since, hreception, hlast⟩ := hshown
      obtain ⟨rfl, -, hs⟩ := receive_rejected hreception.symm
      exact ⟨hs, p.name, _, hlast.snoc rfl⟩
  | begin p rest =>
      obtain ⟨answer, since, hreception, hlast⟩ := hshown
      obtain ⟨s, rfl⟩ := usable_ok hreception
      have hnext := hlast.snoc (m := .act (.recordSuccess p.name) ()) rfl
      cases call.streams with
      | true => exact ⟨s, _, hnext⟩
      | false => exact ⟨s, _, hnext⟩
  | read p rest owned body =>
      obtain ⟨s, since, hlast⟩ := hshown
      exact ⟨s, _, owned, hlast.snoc rfl, by simp⟩
  | breakOff p rest owned e =>
      obtain ⟨s, since, hlast⟩ := hshown
      exact ⟨s, _, owned, e, hlast.snoc rfl, by simp⟩
  | giveUp p rest =>
      obtain ⟨s, since, owned, e, hlast, hmem⟩ := hshown
      cases call with
      | chat payload => exact trivial
      | embeddings payload =>
          exact ⟨s, _, owned, e, hlast.snoc rfl, List.mem_append_left _ hmem⟩
  | poll p item =>
      obtain ⟨s, since, hlast⟩ := hshown
      have hnext := hlast.snoc (m := .poll item) rfl
      cases item with
      | chunk bs => exact ⟨s, _, hnext⟩
      | error e => exact ⟨s, _, hnext⟩
      | idleTimeout => exact ⟨s, _, hnext⟩
      | ended => exact trivial
  | record p message =>
      obtain ⟨s, since, hlast⟩ := hshown
      exact ⟨s, _, hlast.snoc rfl⟩
  | yield p item =>
      obtain ⟨s, since, hlast⟩ := hshown
      have hnext := hlast.snoc (m := .act (.yield item) ()) rfl
      cases item with
      | ok bs => exact ⟨s, _, hnext⟩
      | error e => exact trivial
  | _ => exact trivial

theorem Leg.Path.shown (h : Path providers call key ms leg) : leg.Shown call ms := by
  induction h with
  | arrived => exact rfl
  | snoc h hstep ih => exact hstep.shown ih h.relay

theorem LastSent.mem_contacts {answer : Except String StatusCode} {since : List GatewayMove}
    (h : LastSent name answer since ms) : name ∈ contacts ms := by
  obtain ⟨before, out, owned, rfl, -, -⟩ := h
  unfold contacts
  rw [List.mem_filterMap]
  exact ⟨_, List.mem_append_right _ List.mem_cons_self, rfl⟩

/-- No error is a success. -/
theorem AppError.status_ne (e : AppError) : e.status ≠ 200 := by
  cases e <;> simp [AppError.status]

section Runs

variable {x : Crates} {st : AppState} {start : Instant} {p : Gateway.State} {i : Nat}
  {r : HttpRequest} {t : Task gatewaySig Idle}

/-- Where what a request is served with comes from: the moves of the request show it. -/
inductive Delivered (st : AppState) (call : ApiCall) (ms : List GatewayMove)
    (resp : Response BodyStream) : Prop
  /-- From the cache; no provider was asked. -/
  | cached (k cached : String) (owned : Option ReservationHandle) (hnone : contacts ms = [])
      (hfound : .act (.await (.cacheGet k) owned) (some cached) ∈ ms)
      (hheader : ("x-cache", "HIT") ∈ resp.headers) (hbody : resp.body = .full (asBytes cached))
  /-- The body that was read from the provider the request was sent to last: its bytes, or for a
  chat request its lossy text. -/
  | read (name : String) (s : StatusCode) (since : List GatewayMove) (body : List UInt8)
      (owned : Option ReservationHandle) (hname : Configured st name)
      (hlast : LastSent name (.ok s) since ms)
      (hread : .act (.await (.bytes name) owned) (.ok body) ∈ since)
      (hheader : ("x-provider", name) ∈ resp.headers) (hbody : resp.body = .full (call.reply body))
  /-- The stream of the provider the request was sent to last; all it has delivered so far is
  handed on. -/
  | streamed (name : String) (s : StatusCode) (since : List GatewayMove) (body : BodyStream)
      (hname : Configured st name) (hlast : LastSent name (.ok s) since ms)
      (hbody : resp.body = .stream body) (hhanded : handed ms = onward (itemsOf ms))

theorem Leg.Path.configured (h : Path st.sortedProviders call key ms leg)
    (hname : name ∈ contacts ms) : Configured st name := by
  have hmem := h.order.subset (List.mem_append_left _ hname)
  obtain ⟨q, hq, rfl⟩ := List.mem_map.mp hmem
  exact ⟨q, hq, rfl⟩

/-- A request is served what was delivered for it. -/
theorem Gateway.Reachable.delivered (h : Gateway.Reachable x st start p)
    (ht : p.tasks[i]? = some (r, t)) {resp : Response BodyStream}
    (hresp : t.prog = .ret (.responded resp)) (hstatus : resp.status = 200) :
    Delivered st r.call (p.movesOf i) resp := by
  obtain ⟨leg, hpath, hanswers⟩ := h.answers ht hresp
  obtain ⟨e, rfl, -⟩ | ⟨cached, hleg, rfl⟩ | ⟨q, body, hleg, rfl⟩ | ⟨q, body, hleg, -, rfl⟩ :=
    hanswers.cases
  · exact absurd hstatus e.status_ne
  · obtain rfl : leg = _ := hleg
    obtain ⟨hnone, k, owned, hfound⟩ := hpath.shown
    exact .cached k cached owned hnone hfound (by simp [cachedResponse]) rfl
  · obtain rfl : leg = _ := hleg
    obtain ⟨s, since, owned, hlast, hread⟩ := hpath.shown
    exact .read q.name s since body owned (hpath.configured hlast.mem_contacts) hlast hread
      (List.mem_append_right _ (List.mem_singleton_self _)) rfl
  · obtain rfl : leg = _ := hleg
    obtain ⟨s, since, hlast⟩ := hpath.shown
    obtain ⟨chunks, hitems, hout⟩ := hpath.relay
    refine .streamed q.name s since body (hpath.configured hlast.mem_contacts) hlast rfl ?_
    rw [hitems, hout, onward_all]

/--
**What a client is handed is what its own request was answered.**  At any time the items of a
stream are a beginning of what the stream of its provider came to; and a response with status
200 is a cached text, the body of the provider the request was sent to last — for a chat request
its text, with what is no UTF-8 replaced — or that provider's stream, of which everything that
has come has been handed on.
-/
theorem delivered_unchanged (h : Gateway.Reachable x st start p)
    (ht : p.tasks[i]? = some (r, t)) :
    handed (p.movesOf i) <+: onward (itemsOf (p.movesOf i)) ∧
      ∀ resp, t.prog = .ret (.responded resp) → resp.status = 200 →
        Delivered st r.call (p.movesOf i) resp := by
  constructor
  · obtain ⟨leg, hpath, -⟩ := h.travels ht
    exact hpath.relay.prefix
  · exact fun resp hresp hstatus => h.delivered ht hresp hstatus

/-- The first of two requests is served by a provider, and the second from the cache. -/
theorem delivered_unchanged_repeat : ∃ r t resp, repeatRun.tasks[1]? = some (r, t) ∧
    t.prog = .ret (.responded resp) ∧ contacts (repeatRun.movesOf 0) = ["p"] ∧
      Delivered repeatGateway r.call (repeatRun.movesOf 1) resp := by
  have hstatus : (repeatRun.tasks[1]?.bind fun t => (responseOf t.2).map (·.status))
      = some 200 := by decide +kernel
  obtain ⟨⟨r, t⟩, ht, hrest⟩ := Option.bind_eq_some_iff.mp hstatus
  obtain ⟨resp, hresp, hstatus⟩ := Option.map_eq_some_iff.mp hrest
  exact ⟨r, t, resp, ht, responseOf_some hresp, by decide +kernel,
    (delivered_unchanged (Gateway.replay_reachable _ _ _) ht).2 resp (responseOf_some hresp)
      hstatus⟩

end Runs

end LlmGateway
