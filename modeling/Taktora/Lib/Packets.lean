import Mathlib.Data.List.TakeDrop
import Taktora.Lib.Checked

universe u

namespace Packets

open List

variable {α : Type u}

def packet (c : Nat) (message : List α) (p : Nat) : List α := (message.drop ((p - 1) * c)).take c

def padded (c : Nat) (filler : α) (bytes : List α) : List α := bytes ++ List.replicate (c - bytes.length) filler

theorem packet_length (c : Nat) (message : List α) (p : Nat) :
    (packet c message p).length = min c (message.length - (p - 1) * c) := by
  simp [packet]

variable {c n : Nat} {filler : α} {bytes message : List α}

theorem padded_length (short : bytes.length ≤ c) : (padded c filler bytes).length = c := by
  simp only [padded, length_append, length_replicate]
  omega

theorem take_padded (short : n ≤ bytes.length) : (padded c filler bytes).take n = bytes.take n :=
  take_append_of_le_length short

theorem take_padded_packet (c : Nat) (filler : α) (message : List α) (p : Nat) :
    (padded c filler (packet c message p)).take (min (message.length - (p - 1) * c) c) = packet c message p := by
  rw [min_comm, ← packet_length, take_padded (le_refl _), take_length]

theorem take_append_packet (c n : Nat) (message : List α) :
    message.take (n * c) ++ packet c message (n + 1) = message.take ((n + 1) * c) := by
  rw [packet, Nat.add_sub_cancel, Nat.succ_mul, take_add]

theorem take_complete (covered : message.length ≤ n * c) : message.take (n * c) = message := take_of_length_le covered

theorem slice_packet {p : Nat} (inside : (p - 1) * c ≤ message.length) :
    Checked.slice message ((p - 1) * c) (min ((p - 1) * c + c) message.length) = .ok (packet c message p) := by
  rw [Checked.slice_ok (by omega) (min_le_right _ _)]
  refine congrArg Except.ok (take_eq_take_iff.mpr ?_)
  rw [length_drop]
  omega

end Packets
