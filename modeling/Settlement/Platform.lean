/-!
What the interpreter and the libraries beneath a program decide, each with a limit or a habit of its own.
-/

namespace Settlement

class Platform where
  -- how many brackets of JSON text may be open at once
  jsonDepth : Nat
  -- how many collections of YAML text may be open at once
  yamlDepth : Nat
  -- how many merges of YAML mappings may be open at once
  mergeDepth : Nat
  -- whether an address in letters of both cases has to carry its checksum
  checksums : Bool
  -- whether requests may hold `NaN` and infinities
  postsNonFinite : Bool
  -- whether requests may hold half a surrogate pair
  postsHalves : Bool
  sixteen_le_jsonDepth : 16 ≤ jsonDepth

namespace Platform

def recursionError : String := "maximum recursion depth exceeded"

@[reducible]
def standard : Platform where
  jsonDepth := 990
  yamlDepth := 470
  mergeDepth := 940
  checksums := false
  postsNonFinite := true
  postsHalves := true
  sixteen_le_jsonDepth := by decide

end Platform

end Settlement
