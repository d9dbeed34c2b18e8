import TreeCompiler.Hash.Sha256
import TreeCompiler.Tree.Unit
import TreeCompiler.Code.Program

/-!
# Digests of units

`unitDigest` identifies the result of compiling a unit: its encoded bytes, the digest of the settings that change
programs, and the versions of every format that the cache stores. Each part stands behind a zero octet.
-/

namespace TreeCompiler

/-- The version of cache entries. -/
def cacheSchema : Nat := 1

def combinedDigest (content : Bytes) (parts : List String) : Bytes :=
  Sha256.hash (content ++ parts.flatMap fun p => 0 :: Utf8.encode p)

def unitDigest (content : Bytes) (configDigest : String) : Bytes :=
  combinedDigest content [configDigest, toString unitVersion, toString programVersion, toString cacheSchema]

end TreeCompiler
