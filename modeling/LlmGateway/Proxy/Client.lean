/-
The outbound requests, `client.rs`.

A request is what the gateway hands to reqwest: the text of the URL and the headers it sets
itself.  How reqwest reads a URL, what it does with a user name in it and whether it follows a
redirect is not modelled.
-/
import LlmGateway.State

namespace LlmGateway

/-- `trim_end_matches('/')`. -/
def trimEndSlashes (s : String) : String :=
  String.ofList (s.toList.reverse.dropWhile (· = '/')).reverse

/-- The bearer token is sent only if a key is configured and not empty. -/
def bearerHeaders (provider : ProviderConfig) : List (String × String) :=
  match provider.apiKey with
  | some key => if key = "" then [] else [("authorization", "Bearer " ++ key)]
  | none => []

/-- What both builders share; `send` takes it as it is. -/
def buildRequest (provider : ProviderConfig) (url : String) (body : List UInt8) :
    OutboundRequest where
  url := url
  timeoutSeconds := provider.requestTimeoutSeconds
  headers := [("content-type", "application/json"),
    ("accept", "application/json, text/event-stream")] ++ bearerHeaders provider
  body := body

/-- The request for chat completions. -/
def buildChatRequest (provider : ProviderConfig) (body : List UInt8) : OutboundRequest :=
  buildRequest provider (trimEndSlashes provider.endpoint ++ "/v1/chat/completions") body

/-- The request for embeddings. -/
def buildEmbeddingsRequest (provider : ProviderConfig) (body : List UInt8) : OutboundRequest :=
  buildRequest provider (trimEndSlashes provider.endpoint ++ "/v1/embeddings") body

end LlmGateway
