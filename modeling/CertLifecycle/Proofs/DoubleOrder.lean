import CertLifecycle.Proofs.DoubleSigns

namespace CertLifecycle.Double

open Float.Model Float.Model.UnpackedFloat

variable {u v : UnpackedFloat}

theorem swap_compare_then (e k : Int) (m n : Nat) :
    ((compare e k).then (compare m n)).swap = (compare k e).then (compare n m) := by
  rw [Ordering.swap_then, Int.compare_swap, Nat.compare_swap]

theorem compare_swap (u v : UnpackedFloat) :
    (UnpackedFloat.compare u v).map Ordering.swap = UnpackedFloat.compare v u := by
  rcases u with ⟨_ | _⟩ | _ | _ | ⟨_ | _, m, e, hm⟩ <;>
    rcases v with ⟨_ | _⟩ | _ | _ | ⟨_ | _, n, k, hn⟩
  case finite.negative.finite.negative =>
    exact congrArg (fun o => some o.swap) (swap_compare_then e k m n)
  case finite.positive.finite.positive => exact congrArg some (swap_compare_then e k m n)
  all_goals rfl

theorem compare_eq_none_iff :
    UnpackedFloat.compare u v = none ↔ u = .notANumber ∨ v = .notANumber := by
  rcases u with ⟨_ | _⟩ | _ | _ | ⟨_ | _, _, _, _⟩ <;>
    rcases v with ⟨_ | _⟩ | _ | _ | ⟨_ | _, _, _, _⟩ <;> simp [UnpackedFloat.compare]

theorem lt_eq_false (h : u = .notANumber ∨ v = .notANumber) : UnpackedFloat.lt u v = false := by
  rw [UnpackedFloat.lt, compare_eq_none_iff.mpr h]
  rfl

theorem le_eq_false (h : u = .notANumber ∨ v = .notANumber) : UnpackedFloat.le u v = false := by
  rw [UnpackedFloat.le, compare_eq_none_iff.mpr h]
  rfl

theorem le_eq_not_lt (hu : u ≠ .notANumber) (hv : v ≠ .notANumber) :
    UnpackedFloat.le u v = !UnpackedFloat.lt v u := by
  unfold UnpackedFloat.le UnpackedFloat.lt
  rw [← compare_swap u v]
  cases h : UnpackedFloat.compare u v with
  | none => exact absurd (compare_eq_none_iff.mp h) (not_or.mpr ⟨hu, hv⟩)
  | some o => cases o <;> rfl

section Float

variable {a b : Float}

theorem unpack_eq_notANumber_iff : a.toModel.unpack = .notANumber ↔ a = .nan := by
  rw [← UnpackedFloat.isNaN_iff]
  exact Bool.eq_iff_iff.mp Float.isNaN_eq_decide_eq_nan |>.trans decide_eq_true_iff

theorem lt_iff : a < b ↔ UnpackedFloat.lt a.toModel.unpack b.toModel.unpack = true :=
  decide_eq_true_iff

theorem le_iff_not_lt (ha : a ≠ .nan) (hb : b ≠ .nan) : a ≤ b ↔ ¬ b < a := by
  rw [le_iff, lt_iff, le_eq_not_lt (mt unpack_eq_notANumber_iff.mp ha)
    (mt unpack_eq_notANumber_iff.mp hb), Bool.not_eq_true, Bool.not_eq_true']

theorem not_le_nan (a : Float) : ¬ a ≤ .nan := by
  rw [le_iff, le_eq_false (.inr (unpack_eq_notANumber_iff.mpr rfl))]
  exact Bool.false_ne_true

theorem not_nan_lt (a : Float) : ¬ .nan < a := by
  rw [lt_iff, lt_eq_false (.inl (unpack_eq_notANumber_iff.mpr rfl))]
  exact Bool.false_ne_true

theorem not_lt_nan (a : Float) : ¬ a < .nan := by
  rw [lt_iff, lt_eq_false (.inr (unpack_eq_notANumber_iff.mpr rfl))]
  exact Bool.false_ne_true

end Float

end CertLifecycle.Double
