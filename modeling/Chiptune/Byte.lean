/-!
# Fields of a register byte

A register value packs flags and small numbers into eight bits. `Byte.bit` reads a flag,
`Byte.field` a run of bits as a number below `1 <<< width`.
-/

set_option autoImplicit false

namespace Chiptune.Byte

/-- Whether bit `i` is set. -/
def bit (value : UInt8) (i : Nat) : Bool := value.toNat.testBit i

/-- The number held by the `width` bits from bit `low` up. -/
def field (value : UInt8) (low width : Nat) : Nat := (value.toNat >>> low) % (1 <<< width)

theorem field_lt (value : UInt8) (low width : Nat) : field value low width < 1 <<< width := by
  rw [field, Nat.one_shiftLeft]
  exact Nat.mod_lt _ (Nat.two_pow_pos width)

end Chiptune.Byte
