/-!
# Words

Rotations of 32-bit words and their little-endian bytes, shared by the digest and the random stream.
-/

namespace SourceEvolution

namespace Word

/-- The word rotated right; the distance is between 1 and 31. -/
def rotateRight (x : UInt32) (distance : UInt32) : UInt32 :=
  (x >>> distance) ||| (x <<< (32 - distance))

/-- The word rotated left; the distance is between 1 and 31. -/
def rotateLeft (x : UInt32) (distance : UInt32) : UInt32 :=
  rotateRight x (32 - distance)

/-- The word with the given bytes, the lowest first. -/
def ofBytes (a b c d : UInt8) : UInt32 :=
  a.toUInt32 ||| (b.toUInt32 <<< 8) ||| (c.toUInt32 <<< 16) ||| (d.toUInt32 <<< 24)

/-- The bytes of a word, the lowest first. -/
def toBytes (x : UInt32) : List UInt8 :=
  [x.toUInt8, (x >>> 8).toUInt8, (x >>> 16).toUInt8, (x >>> 24).toUInt8]

/-- The bytes of a 64-bit word, the lowest first. -/
def toBytes64 (x : UInt64) : List UInt8 :=
  toBytes x.toUInt32 ++ toBytes (x >>> 32).toUInt32

end Word

end SourceEvolution
