import SecretSync.Content.Resolution

/-!
Putting together the content that a declaration asks for. All sources are resolved before anything is
merged. With several workers every source is resolved, on connections of its own, even if one fails;
otherwise they are resolved one after the other up to the first that fails.
-/

namespace SecretSync.Content

variable {τ : Type} [Timeline τ] (settings : Settings τ) (ttl : Span τ)

def resolveInTurn : List Source → Op τ (Session τ) (List Content)
  | [] => pure []
  | source :: rest => do
    let first ← source.resolve settings ttl
    pure (first :: (← resolveInTurn rest))

def resolveApart (source : Source) : Op τ (Session τ) Content := do
  let connections := (← get).rest
  modify ({ · with rest := Connections.none })
  let result ← Op.attempt (source.resolve settings ttl)
  modify ({ · with rest := connections })
  Op.ofResult result

def resolveAll : List Source → Op τ (Session τ) (List (Result Content))
  | [] => pure []
  | source :: rest => do
    let first ← Op.attempt (resolveApart settings ttl source)
    pure (first :: (← resolveAll rest))

-- The contents of the sources, or the fault of the first one that failed.
def resolveSources (sources : List Source) : Op τ (Session τ) (List Content) := do
  if sources.length ≤ 1 || settings.maxWorkers ≤ 1 then resolveInTurn settings ttl sources
  else
    let results ← resolveAll settings ttl sources
    Op.ofResult (results.mapM fun result => result)

def assemble (sources : List Source) : Op τ (Session τ) Content := do
  let contents ← resolveSources settings ttl sources
  Op.ofResult (sorted (contents.foldl merge []))

end SecretSync.Content
