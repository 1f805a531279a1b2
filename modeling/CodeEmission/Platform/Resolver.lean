import CodeEmission.Platform.Profile
import CodeEmission.Platform.Registry

/-!
# Resolving Platform Names

A profile cache builds the profile of each bucket once and hands out the same slot ever after. A
resolver joins a registry and a cache: a platform name resolves when it can be read, a registered
pattern matches it and its architecture has conventions.

Fetching is a function from a cache to a cache, and a failed fetch leaves the cache as it was.
-/

namespace CodeEmission

/-- Profiles by bucket, in the order in which they were built, all under one set of conventions. -/
structure ProfileCache where
  /-- The choices that enter every profile. -/
  conventions : Conventions
  /-- The profiles built so far. -/
  entries : List (Bucket × Profile) := []
  deriving Repr, Inhabited

/-- A profile together with its place in the cache. Equal places mean the very same profile. -/
structure Fetched where
  /-- The place in the cache. -/
  slot : Nat
  /-- The profile. -/
  profile : Profile
  deriving DecidableEq, Repr

namespace ProfileCache

/-- The number of profiles built so far. -/
def size (c : ProfileCache) : Nat :=
  c.entries.length

/-- The profile of a bucket, if it was built before. -/
def find? (c : ProfileCache) (b : Bucket) : Option Fetched :=
  match c.entries.findIdx? fun e => e.1 = b with
  | none => none
  | some i => (c.entries[i]?).map fun e => ⟨i, e.2⟩

/-- The profile of a platform, built on first use, and the cache after that. -/
def get (c : ProfileCache) (t : Triple) : Except ProfileError (Fetched × ProfileCache) :=
  match c.find? t.bucket with
  | some found => .ok (found, c)
  | none =>
    match Profile.ofBucket t.bucket c.conventions with
    | .error e => .error e
    | .ok p => .ok (⟨c.entries.length, p⟩, { c with entries := c.entries ++ [(t.bucket, p)] })

end ProfileCache

/-- Why a platform name did not resolve. -/
inductive ResolveError where
  | badTriple (cause : TripleError)
  | noMatch (triple : Triple)
  | noProfile (cause : ProfileError)
  deriving DecidableEq, Repr

/-- The wording of a failure. -/
def ResolveError.message : ResolveError → String
  | badTriple cause => "unknown or unsupported target: " ++ cause.message
  | noMatch t => "unknown or unsupported target: " ++ t.render
  | noProfile cause => "unknown or unsupported target: " ++ cause.message

/-- A registry and the profiles built for it so far. -/
structure Resolver (α : Type) where
  /-- The targets that are known. -/
  registry : Registry α
  /-- The profiles built so far. -/
  cache : ProfileCache
  deriving Repr, Inhabited

/-- What a platform name resolves to. -/
structure Resolved (α : Type) where
  /-- The registration that matched. -/
  registration : Registration α
  /-- The profile of the platform. -/
  fetched : Fetched

namespace Resolver

variable {α : Type}

/-- A resolver that has built no profile yet. -/
def ofRegistry (registry : Registry α) (conventions : Conventions) : Resolver α :=
  { registry, cache := { conventions } }

/-- Resolve a platform name. A failure leaves the resolver as it was. -/
def resolve (r : Resolver α) (name : String) : Except ResolveError (Resolved α × Resolver α) :=
  match Triple.parse name with
  | .error cause => .error (.badTriple cause)
  | .ok t =>
    match r.registry.lookup t with
    | none => .error (.noMatch t)
    | some registration =>
      match r.cache.get t with
      | .error cause => .error (.noProfile cause)
      | .ok (fetched, cache) => .ok (⟨registration, fetched⟩, { r with cache })

/-- The profile of a platform name alone. -/
def profile (r : Resolver α) (name : String) : Except ResolveError (Fetched × Resolver α) :=
  (r.resolve name).map fun (resolved, r) => (resolved.fetched, r)

end Resolver

end CodeEmission
