import Vetting.Digest.Sha256

/-!
Keyed hashes: HMAC over SHA-256. Keys may have any length; a long key stands for its hash.
-/

namespace Vetting.Digest

open Text (Bytes)

/-- The bytes of a block of the hash function. -/
def blockSize : Nat := 64

/-- The key, filled with zeros to one block. -/
def blockKey (key : Bytes) : Bytes :=
  let key := if key.length > blockSize then sha256 key else key
  key ++ List.replicate (blockSize - key.length) 0

def hmac (key message : Bytes) : Bytes :=
  let inner := (blockKey key).map (· ^^^ 0x36)
  let outer := (blockKey key).map (· ^^^ 0x5C)
  sha256 (outer ++ sha256 (inner ++ message))

end Vetting.Digest
