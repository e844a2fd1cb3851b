/-
The streaming body, `stream.rs`.

`proxy_stream_passthrough` returns a response whose body is a generator.  Between two
polls the generator is a value, `BodyStream`; `BodyStream.resume` is what one item of the
upstream makes it do.  The two callbacks are `FnOnce` closures kept in an `Option`: the
model keeps the code of a closure together with the drop glue of what it captured, which
runs instead if the closure is never called.
-/
import LlmGateway.State
import LlmGateway.Proxy.SseParser

namespace LlmGateway

open Effects

/-- A closure that may be called once: its code, and the drop glue of its captures. -/
structure FnOnce (α : Type) where
  call : α → Gateway Unit
  drop : Gateway Unit

/-- What the upstream, or the idle timer, delivers to the generator. -/
inductive StreamItem
  | chunk (bs : List UInt8)
  | error (e : String)
  | idleTimeout
  | ended
  deriving DecidableEq, Repr

/-- The generator between two polls. -/
structure BodyStream where
  providerName : String
  idleTimeout : Duration
  parser : SseParser
  ttftRecorded : Bool
  usageCharged : Bool
  onUsage : Option (FnOnce (Nat × Nat))
  onError : Option (FnOnce Unit)

namespace BodyStream

/-- Drop glue of an `Option` of a closure. -/
def dropClosure {α : Type} : Option (FnOnce α) → Gateway Unit
  | some f => f.drop
  | none => pure ()

/-- Drop glue of the generator. -/
def drop (s : BodyStream) : Gateway Unit := do
  dropClosure s.onUsage
  dropClosure s.onError

/-- Time to first token: recorded at the first content event. -/
def inspectTtft (fromStr : String → Option Value) (s : BodyStream) (event : String) :
    Gateway BodyStream := do
  if !s.ttftRecorded && SseParser.isContentEvent fromStr event then
    metric (.recordTtft s.providerName)
    return { s with ttftRecorded := true }
  else return s

/-- Usage: charged at the first event `extract_usage` gets a value from. -/
def inspectUsage (fromStr : String → Option Value) (s : BodyStream) (event : String) :
    Gateway BodyStream :=
  if s.usageCharged then pure s
  else match SseParser.extractUsage fromStr event with
    | none => pure s
    | some tokens =>
        match s.onUsage with
        | some cb => do
            cb.call tokens
            return { s with usageCharged := true, onUsage := none }
        | none => pure { s with usageCharged := true }

/-- The loop over the events of one chunk. -/
def inspect (fromStr : String → Option Value) (s : BodyStream) : List String → Gateway BodyStream
  | [] => pure s
  | event :: events => do
      let s ← s.inspectTtft fromStr event
      let s ← s.inspectUsage fromStr event
      s.inspect fromStr events

/-- `guard.take()` on the error callback, and the call. -/
def reportError (s : BodyStream) : Gateway BodyStream :=
  match s.onError with
  | some cb => do
      cb.call ()
      return { s with onError := none }
  | none => pure s

/-- The generator takes one item; `none` when it has run to its end and is dropped. -/
def resume (fromStr : String → Option Value) (s : BodyStream) :
    StreamItem → Gateway (Option BodyStream)
  | .chunk bs => do
      let (events, parser) := s.parser.push bs
      let s ← inspect fromStr { s with parser := parser } events
      yield (.ok bs)
      return some s
  | .error e => do
      let s ← s.reportError
      yield (.error e)
      s.drop
      return none
  | .idleTimeout => do
      let s ← s.reportError
      yield (.error "stream idle timeout exceeded")
      s.drop
      return none
  | .ended => do
      s.drop
      return none

end BodyStream

/-- `proxy_stream_passthrough`. -/
def proxyStreamPassthrough (providerName : String) (streamIdleTimeoutSeconds : Nat)
    (onUsage : FnOnce (Nat × Nat)) (onStreamError : FnOnce Unit) : Response BodyStream where
  status := 200
  headers := [("content-type", "text/event-stream"), ("cache-control", "no-cache"),
    ("x-accel-buffering", "no")]
  body := .stream
    { providerName := providerName
      idleTimeout := Duration.fromSecs (max streamIdleTimeoutSeconds 1)
      parser := .new
      ttftRecorded := false
      usageCharged := false
      onUsage := some onUsage
      onError := some onStreamError }

end LlmGateway
