import Mathlib.Data.List.Basic
import Mathlib.Data.Vector.Basic

/-!
# Digests in hexadecimal

The digest of a text is a row of 32 bytes. Of its hexadecimal digits as many as are
asked for are kept: they are a text of fixed length, without any separator in it.
-/

namespace Digests

/-- The bytes of SHA-256 of the UTF-8 of a text. -/
abbrev Digest := String → List.Vector UInt8 32

def hexChars (b : UInt8) : List Char :=
  [Nat.digitChar (b.toNat / 16), Nat.digitChar (b.toNat % 16)]

/-- `hexdigest`. -/
def hexdigest (digest : Digest) (text : String) : List Char :=
  (digest text).toList.flatMap hexChars

theorem length_flatMap_hexChars (bytes : List UInt8) :
    (bytes.flatMap hexChars).length = 2 * bytes.length := by
  induction bytes with
  | nil => rfl
  | cons b bytes ih =>
      rw [List.flatMap_cons, List.length_append, ih, List.length_cons]
      show 2 + 2 * bytes.length = 2 * (bytes.length + 1)
      omega

theorem length_hexdigest (digest : Digest) (text : String) :
    (hexdigest digest text).length = 64 := by
  rw [hexdigest, length_flatMap_hexChars, List.Vector.toList_length]

/-- `hexdigest()[:16]`. -/
def shortDigest (digest : Digest) (text : String) : List Char :=
  (hexdigest digest text).take 16

theorem length_shortDigest (digest : Digest) (text : String) :
    (shortDigest digest text).length = 16 := by
  rw [shortDigest, List.length_take, length_hexdigest]
  rfl

end Digests
