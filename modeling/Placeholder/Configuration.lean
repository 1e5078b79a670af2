import Placeholder.Json.Record
import Placeholder.Translator

/-!
# Configurations

The settings of a translator, read from a JSON document and overridden by variables of the
environment. Resolvers and functions of the host are attached in code.
-/

namespace Placeholder

structure CacheSettings where
  enabled : Bool := false
  ttl : Nat := 3600
  label : String := "mustache_resolver_"
  deriving DecidableEq, Repr

def CacheSettings.seconds? (s : CacheSettings) : Option Nat :=
  if s.ttl = 0 then none else some s.ttl

structure Configuration where
  strict : Bool := true
  keepUnresolved : Bool := false
  cache : CacheSettings := {}
  excluded : List String := []
  policy : Policy := .recommended
  resolvers : List Resolver := []
  functions : HostFunctions := []

def CacheSettings.ofJson? (j : Json) : Option CacheSettings := do
  match ← j.record? [["enabled"], ["ttl"], ["prefix"]] with
  | [enabled, ttl, label] =>
    let default : CacheSettings := {}
    some
      { enabled := ← Json.field? Json.bool? default.enabled enabled
        ttl := ← Json.field? Json.nat64? default.ttl ttl
        label := ← Json.field? Json.string? default.label label }
  | _ => none

def Policy.ofJson? (j : Json) : Option Policy := do
  match ← j.record? [["allowed_sources", "allowed_models"], ["blacklisted_attributes"],
      ["max_depth"]] with
  | [allowed, denied, depth] =>
    let default : Policy := {}
    some
      { allowed := ← Json.field? Json.strings? default.allowed allowed
        denied := ← Json.field? Json.strings? default.denied denied
        maxDepth := ← Json.field? Json.nat64? default.maxDepth depth }
  | _ => none

namespace Configuration

def ofJson? (j : Json) : Option Configuration := do
  match ← j.record? [["strict"], ["keep_unresolved"], ["cache"], ["excluded_resolvers"],
      ["security"]] with
  | [strict, keep, cache, excluded, security] =>
    let default : Configuration := {}
    some
      { strict := ← Json.field? Json.bool? default.strict strict
        keepUnresolved := ← Json.field? Json.bool? default.keepUnresolved keep
        cache := ← Json.field? CacheSettings.ofJson? default.cache cache
        excluded := ← Json.field? Json.strings? default.excluded excluded
        policy := ← Json.field? Policy.ofJson? default.policy security }
  | _ => none

def read (text : String) : Except ConfigError Configuration :=
  match (Json.parse? text).bind ofJson? with
  | some c => .ok c
  | none => .error .malformed

def readFlag (key value : String) : Except ConfigError Bool :=
  let word := String.ofList (Text.lowerAscii (Text.trim value.toList))
  if ["1", "true", "yes", "on"].contains word then .ok true
  else if ["0", "false", "no", "off", ""].contains word then .ok false
  else .error (.invalidFlag key word)

def readSeconds (key value : String) : Except ConfigError Nat :=
  match Text.readNat? UInt64.size (Text.trim value.toList) with
  | some n => .ok n
  | none => .error (.invalidSeconds key value)

/-- The value of a variable as `read` takes it, or the default when it is not set. -/
def override {α : Type} (environment : String → Option String) (key : String)
    (read : String → String → Except ConfigError α) (default : α) : Except ConfigError α :=
  match environment key with
  | some value => read key value
  | none => .ok default

def environmentNames : List String :=
  ["MUSTACHE_STRICT", "MUSTACHE_KEEP_UNRESOLVED", "MUSTACHE_CACHE_ENABLED", "MUSTACHE_CACHE_TTL"]

def withEnvironment (c : Configuration) (environment : String → Option String) :
    Except ConfigError Configuration := do
  let strict ← override environment "MUSTACHE_STRICT" readFlag c.strict
  let keep ← override environment "MUSTACHE_KEEP_UNRESOLVED" readFlag c.keepUnresolved
  let enabled ← override environment "MUSTACHE_CACHE_ENABLED" readFlag c.cache.enabled
  let ttl ← override environment "MUSTACHE_CACHE_TTL" readSeconds c.cache.ttl
  .ok { c with
    strict := strict
    keepUnresolved := keep
    cache := { c.cache with enabled := enabled, ttl := ttl } }

def knownResolvers : List String :=
  ["temporal", "null_coalesce", "function", "math", "variable", "dynamic", "collection",
    "relation", "model", "table"]

def validate (c : Configuration) : Except ConfigError Unit :=
  if c.policy.maxDepth = 0 then .error .zeroDepth
  else
    let known := knownResolvers ++ c.resolvers.map Resolver.name
    match c.excluded.find? fun name => !known.contains name with
    | some name => .error (.missingResolver name)
    | none => .ok ()

/-- The resolver of calls comes before the resolvers of the host, if the host has any functions. -/
def plan (c : Configuration) : Pipeline.Plan :=
  let base : Pipeline.Plan :=
    if c.functions.isEmpty then {}
    else Pipeline.Plan.add {} (.function c.functions Formatters.builtIn)
  (c.resolvers.foldl .add base).exclude c.excluded

def pipeline (c : Configuration) (k : Clock) : Pipeline :=
  c.plan.build k

def translator (c : Configuration) (k : Clock) : Except ConfigError Translator := do
  c.validate
  let tr : Translator :=
    { pipeline := c.pipeline k
      strict := c.strict
      keepUnresolved := c.keepUnresolved
      policy := c.policy }
  .ok <|
    if c.cache.enabled then
      tr.withCache .empty c.cache.label (c.cache.seconds?.map (· * Cache.second))
    else tr

end Configuration

end Placeholder
