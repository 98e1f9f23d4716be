/-
Module: ComponentAtlas.Cache.Stats
Purpose: Shares as they appear in the statistics of caches.
Main exports:
  shareOf
-/

namespace ComponentAtlas.Cache

/-- A part of a whole as a float; zero when there is no whole. -/
def shareOf (part whole : Nat) : Float :=
  if whole = 0 then 0 else Float.ofNat part / Float.ofNat whole

end ComponentAtlas.Cache
