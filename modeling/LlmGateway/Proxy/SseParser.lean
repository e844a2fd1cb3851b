/-
The incremental SSE parser of `sse_parser.rs`.

`push` appends a chunk to the buffer and cuts complete events off its front, an event
being everything up to and including the first two consecutive line feeds.  An event that
is not UTF-8 is cut off and dropped.  The two inspections of an event look at it line by
line; `fromStr` stands for `serde_json::from_str::<Value>`.
-/
import LlmGateway.Json

namespace LlmGateway

/-- A line feed. -/
def lf : UInt8 := 10

/-- The bytes that came after the last event that is complete. -/
structure SseParser where
  buffer : List UInt8
  deriving DecidableEq, Repr

namespace SseParser

/-- Nothing has come yet. -/
def new : SseParser := ⟨[]⟩

/-- Where the first event of the buffer ends: the position of the first `\n\n`. -/
def findEventEnd : List UInt8 → Option Nat
  | [] => none
  | b :: rest =>
      if b = lf ∧ rest.head? = some lf then some 0
      else (findEventEnd rest).map (· + 1)

/-- The loop of `push`: cut events off while there is one.  Every round shortens the
buffer, so its length bounds the rounds. -/
def extract : Nat → List UInt8 → List String × List UInt8
  | 0, buffer => ([], buffer)
  | n + 1, buffer =>
      match findEventEnd buffer with
      | none => ([], buffer)
      | some idx =>
          let (events, rest) := extract n (buffer.drop (idx + 2))
          match fromUtf8 (buffer.take (idx + 2)) with
          | some event => (event :: events, rest)
          | none => (events, rest)

/-- Push a chunk; returns the events it completes. -/
def push (p : SseParser) (chunk : List UInt8) : List String × SseParser :=
  let buffer := p.buffer ++ chunk
  let (events, rest) := extract buffer.length buffer
  (events, ⟨rest⟩)

/-- Push chunks in order; returns the concatenation of what they complete. -/
def pushAll (p : SseParser) : List (List UInt8) → List String × SseParser
  | [] => ([], p)
  | c :: cs =>
      let (events, p) := p.push c
      let (more, p) := p.pushAll cs
      (events ++ more, p)

section Inspect

variable (fromStr : String → Option Value)

/-- The JSON documents on the `data: ` lines of an event; `[DONE]` and what does not parse
are passed over. -/
def dataValues (event : String) : List Value :=
  (lines event).filterMap fun line =>
    match stripPrefix "data: " line with
    | some data => if data = "[DONE]" then none else fromStr data
    | none => none

/-- A choice with a non-empty string at `delta.content`. -/
def hasContent (choice : Value) : Bool :=
  match ((choice.get "delta").bind fun delta => delta.get "content").bind Value.asStr with
  | some content => content != ""
  | none => false

/-- Some data line carries a content delta. -/
def isContentEvent (event : String) : Bool :=
  (dataValues fromStr event).any fun val =>
    match (val.get "choices").bind Value.asArray with
    | some choices => choices.any hasContent
    | none => false

/-- The token counts of a usage member; what is missing or not a `u64` counts as zero. -/
def usageTokens (usage : Value) : Nat × Nat :=
  (((usage.get "prompt_tokens").bind Value.asU64).getD 0,
    ((usage.get "completion_tokens").bind Value.asU64).getD 0)

/-- The token counts of the first data line that has a usage member. -/
def extractUsage (event : String) : Option (Nat × Nat) :=
  (dataValues fromStr event).findSome? fun val => (val.get "usage").map usageTokens

end Inspect

end SseParser

end LlmGateway
