/-!
# DeriveKit.Naming.TagHash

The number by which a tag of a polymorphic variant is known when the program runs (`tagHash`). The
bytes of the tag are read as digits to the base 223, in words of 64 bits that wrap around
(`tagWord`); the low 31 bits are kept, and the highest of them is the sign.
-/

namespace DeriveKit

/-- The bytes of a tag as the digits of a number to the base 223, in signed words of 64 bits, where
long tags wrap around. -/
def tagWord (tag : String) : Int64 :=
  tag.toUTF8.data.toList.foldl (fun acc byte => acc * 223 + byte.toUInt64.toInt64) 0

/-- The low 31 bits of the word, with the highest of them for a sign. -/
def tagHash (tag : String) : Int :=
  let low := tagWord tag &&& 0x7fffffff
  (if low > 0x3fffffff then low - 0x80000000 else low).toInt

end DeriveKit
