import SqlMapping.Error

/-!
# Settings

Settings of the plan cache and of the row mapper, and the check that the cache can work with them.
-/

namespace SqlMapping

structure CacheConfig where
  /-- A collection runs at every so many new plans. -/
  collectEvery : Nat := 1000
  /-- A collection drops the plans with at most this many hits. -/
  minHits : Nat := 0
  deriving DecidableEq

structure MapperConfig where
  cache : CacheConfig := {}
  /-- Whether a column without a member is an error. -/
  strictColumns : Bool := false
  /-- Whether members are also found by names of another case. -/
  caseInsensitiveMembers : Bool := true
  deriving DecidableEq

namespace CacheConfig

def check (c : CacheConfig) : Except Error Unit :=
  if c.collectEvery = 0 then .error (.invalidArgument .zeroInterval) else .ok ()

end CacheConfig

end SqlMapping
