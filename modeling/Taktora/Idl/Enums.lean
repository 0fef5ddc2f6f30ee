import Taktora.Idl.RoundTrip

namespace Taktora.Idl

open Checked Outcome List

def Packs (signed : Bool) (bitLen : Nat) (n : Int) : Prop := if signed then InRange bitLen n else 0 ≤ n ∧ n < 2 ^ bitLen

/-- What lowering leaves unchecked: the entries fit the bits of the signal, and no value or identifier has two entries.
-/
def DbcValueTable.Legal (naming : Naming) (table : DbcValueTable) (sig : DbcSignal) : Prop :=
  (∀ entry ∈ table.entries, Packs (sig.signed || table.entries.any (·.1 < 0)) sig.bitLen entry.1) ∧
    (table.entries.map Prod.fst).Nodup ∧ (table.entries.map fun entry => naming.variantIdent entry.2).Nodup

variable {s : Scalar} {signed : Bool} {bitLen : Nat} {n : Int}

theorem Packs.holds
    (packs : Packs signed bitLen n)
    (found : Scalar.integerForBits bitLen signed = some s) : s.Holds n ∧ s.cast n = n := by
  obtain ⟨⟨_, narrow, _⟩, _, sign⟩ := Scalar.integerForBits_eq_some found
  have integer : s ≠ .bool := by
    cases signed <;> grind [Scalar.integerForBits]
  unfold Scalar.Holds Scalar.cast
  rw [if_neg integer, sign]
  cases signed with
  | true =>
    have wide := InRange.mono packs narrow
    exact ⟨wide, (BitVec.toInt_ofInt n).symm.trans (BitVec.toInt_ofInt_eq_self (by omega) wide.1 wide.2)⟩
  | false =>
    have wide : n < 2 ^ s.bitWidth := lt_of_lt_of_le packs.2 (by exact_mod_cast Nat.pow_le_pow_right (by decide) narrow)
    exact ⟨⟨packs.1, wide⟩, Int.emod_eq_of_lt packs.1 wide⟩

def gear (entries : List (Int × String)) : EnumDef :=
  ⟨"Engine_Gear", .u8, entries.map fun (value, name) => ⟨name, value⟩⟩

end Taktora.Idl
