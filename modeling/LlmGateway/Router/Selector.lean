/-
Provider selection, `selector.rs`: the candidates of a request in failover order.

A provider's breaker is found by the provider's name, so the model names a breaker by it.
-/
import LlmGateway.State

namespace LlmGateway

open Effects

/-- The providers of a list whose breaker is eligible, asking one after the other. -/
def selectFrom : List ProviderConfig → Gateway (List ProviderConfig)
  | [] => pure []
  | p :: ps => do
      let eligible ← isEligible p.name
      let rest ← selectFrom ps
      pure (if eligible then p :: rest else rest)

/-- `ProviderSelector::select_ordered`. -/
def selectOrdered (st : AppState) : Gateway (List ProviderConfig) :=
  selectFrom st.sortedProviders

end LlmGateway
