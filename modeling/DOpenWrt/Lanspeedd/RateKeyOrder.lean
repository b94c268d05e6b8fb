import DOpenWrt.Lanspeedd.Aggregate

/-!
# The order of the rate keys

The maps of `connection_details.rs` are ordered by the derived order of their keys, which is lexicographic.
-/

namespace Lanspeedd

open Std

/-- A comparison that is another one of images. -/
theorem transOrd_of_compare {α β : Type*} [Ord α] [Ord β] [TransOrd β] (f : α → β)
    (h : ∀ a b : α, compare a b = compare (f a) (f b)) : TransOrd α where
  eq_swap {a b} := by rw [h, h, OrientedOrd.eq_swap]
  isLE_trans {a b c} := by
    rw [h, h, h]
    exact TransOrd.isLE_trans

theorem lawfulEqOrd_of_compare {α β : Type*} [Ord α] [Ord β] [LawfulEqOrd β] {f : α → β}
    (hf : Function.Injective f) (h : ∀ a b : α, compare a b = compare (f a) (f b)) : LawfulEqOrd α where
  compare_self {a} := by rw [h, ReflOrd.compare_self]
  eq_of_compare {a b} hab := by
    rw [h] at hab
    exact hf (LawfulEqOrd.eq_of_compare hab)

attribute [local instance] lexOrd

def IpAddr.rank : IpAddr → Nat × Option (BitVec 32) × Option (BitVec 128)
  | v4 addr => (0, some addr, none)
  | v6 addr => (1, none, some addr)

theorem IpAddr.rank_injective : Function.Injective rank := by
  rintro (a | a) (b | b) h
  · cases h
    rfl
  · cases h
  · cases h
  · cases h
    rfl

theorem IpAddr.compare_rank (a b : IpAddr) : compare a b = compare a.rank b.rank := by
  cases a <;> cases b
  · exact Ordering.then_eq.trans Ordering.then_eq.symm
  · rfl
  · rfl
  · exact Ordering.then_eq

instance : TransOrd IpAddr := transOrd_of_compare IpAddr.rank IpAddr.compare_rank
instance : LawfulEqOrd IpAddr := lawfulEqOrd_of_compare IpAddr.rank_injective IpAddr.compare_rank

def RateProtocol.rank : RateProtocol → Nat × Option (BitVec 8)
  | tcp => (0, none)
  | udp => (1, none)
  | other number => (2, some number)

theorem RateProtocol.rank_injective : Function.Injective rank := by
  rintro (_ | _ | a) (_ | _ | b) h
  · rfl
  · cases h
  · cases h
  · cases h
  · rfl
  · cases h
  · cases h
  · cases h
  · cases h
    rfl

theorem RateProtocol.compare_rank (a b : RateProtocol) : compare a b = compare a.rank b.rank := by
  cases a <;> cases b
  case other.other => exact Ordering.then_eq
  all_goals rfl

instance : TransOrd RateProtocol := transOrd_of_compare RateProtocol.rank RateProtocol.compare_rank
instance : LawfulEqOrd RateProtocol := lawfulEqOrd_of_compare RateProtocol.rank_injective RateProtocol.compare_rank

theorem ConnectionDirection.ctorIdx_injective : Function.Injective ConnectionDirection.ctorIdx := by
  rintro (_ | _) (_ | _) h
  · rfl
  · cases h
  · cases h
  · rfl

instance : TransOrd ConnectionDirection := transOrd_of_compare ConnectionDirection.ctorIdx fun _ _ => rfl
instance : LawfulEqOrd ConnectionDirection :=
  lawfulEqOrd_of_compare ConnectionDirection.ctorIdx_injective fun _ _ => rfl

namespace ConnectionRateKey

def fields (key : ConnectionRateKey) : Option (BitVec 32) × Option (BitVec 16) × String × IpAddr × BitVec 16 ×
    Option IpAddr × BitVec 16 × RateProtocol × ConnectionDirection :=
  (key.conntrackId, key.conntrackZone, key.identityKey, key.clientIp, key.clientPort, key.remoteIp, key.remotePort,
    key.protocol, key.direction)

theorem fields_injective : Function.Injective fields := by
  rintro ⟨⟩ ⟨⟩ h
  cases h
  rfl

theorem compare_fields (a b : ConnectionRateKey) : compare a b = compare a.fields b.fields := by
  obtain ⟨a1, a2, a3, a4, a5, a6, a7, a8, a9⟩ := a
  obtain ⟨b1, b2, b3, b4, b5, b6, b7, b8, b9⟩ := b
  show (compare a1 b1).then ((compare a2 b2).then ((compare a3 b3).then ((compare a4 b4).then ((compare a5 b5).then
    ((compare a6 b6).then ((compare a7 b7).then ((compare a8 b8).then ((compare a9 b9).then .eq)))))))) = _
  rw [Ordering.then_eq]
  rfl

instance : TransOrd ConnectionRateKey := transOrd_of_compare fields compare_fields
instance : LawfulEqOrd ConnectionRateKey := lawfulEqOrd_of_compare fields_injective compare_fields

end ConnectionRateKey

end Lanspeedd
