import LayeredTags.Path

/-!
# Keys of artifacts

The key of a list of paths is a hash of their texts. It does not change from one run of the program
to the next, so it can name a file.

* `hashBytes`: the hash of bytes, one step of exclusive or and multiplication for each.
* `cacheKey`: the key, sixteen hexadecimal digits.
-/

namespace LayeredTags

def hashOffset : UInt64 := 0xcbf29ce484222325

def hashPrime : UInt64 := 0x100000001b3

def hashByte (hash : UInt64) (byte : UInt8) : UInt64 :=
  (hash ^^^ byte.toUInt64) * hashPrime

def hashBytes (hash : UInt64) (bytes : List UInt8) : UInt64 :=
  bytes.foldl hashByte hash

def utf8Bytes (s : String) : List UInt8 :=
  s.toList.flatMap String.utf8EncodeChar

/-- The bytes of a list of paths: the text of each and a zero byte. -/
def identityBytes (identity : List Path) : List UInt8 :=
  identity.flatMap fun p => utf8Bytes p.text ++ [0]

def hexWord (n : UInt64) : String :=
  let digits := Nat.toDigits 16 n.toNat
  String.ofList (List.replicate (16 - digits.length) '0' ++ digits)

def cacheKey (identity : List Path) : String :=
  hexWord (hashBytes hashOffset (identityBytes identity))

end LayeredTags
