import SourceEvolution.Digest.Blake3
import SourceEvolution.Json.Value

/-!
# Digests

The digest of a value is the hash of its compact JSON text. Two values with one digest therefore
have one text, unless the hash itself collides.
-/

namespace SourceEvolution

/-- A digest of 32 bytes. -/
structure Digest where
  /-- The digest as eight words. -/
  words : Blake3.Chaining

namespace Digest

/-- The digest of a list of bytes. -/
def ofBytes (bytes : List UInt8) : Digest :=
  ⟨Blake3.hash bytes⟩

/-- The bytes of a text. -/
def textBytes (text : String) : List UInt8 :=
  text.toUTF8.toList

/-- The digest of a text. -/
def ofText (text : String) : Digest :=
  ofBytes (textBytes text)

/-- The digest of a value. -/
def ofJson (json : Json) : Digest :=
  ofText json.compact

/-- The bytes of a digest. -/
def toBytes (digest : Digest) : List UInt8 :=
  digest.words.toList.flatMap Word.toBytes

/-- The two hexadecimal digits of a byte. -/
def hexByte (byte : UInt8) : List Char :=
  [Hexadecimal.digitChar (byte.toNat / 16), Hexadecimal.digitChar (byte.toNat % 16)]

/-- The digest in hexadecimal digits. -/
def hex (digest : Digest) : String :=
  String.ofList (digest.toBytes.flatMap hexByte)

/-- The first sixteen hexadecimal digits, enough to tell digests apart by eye. -/
def short (digest : Digest) : String :=
  String.ofList ((digest.toBytes.take 8).flatMap hexByte)

/-- The first eight bytes as a number, the lowest byte first. -/
def leadingWord (digest : Digest) : UInt64 :=
  (digest.toBytes.take 8).foldr (fun byte word => (word <<< 8) ||| byte.toUInt64) 0

end Digest

end SourceEvolution
