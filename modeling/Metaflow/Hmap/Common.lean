/-!
# Fixed-width arithmetic of the hash maps

The maps of `hmap` keep positions and hash values in `int32`.
-/

namespace Metaflow.Hmap

/-- Conversion to `int32`. -/
def int32 (value : Int) : Int :=
  (value + 2147483648) % 4294967296 - 2147483648

/-- `hash & (hashSlots - 1)`, the slot of a hash value. -/
def hashSlot (hash : BitVec 32) (hashSlots : Int) : Int :=
  (hash &&& BitVec.ofInt 32 (hashSlots - 1)).toInt

end Metaflow.Hmap
