import Abacus.Proofs.Number.Sign
import Abacus.Proofs.Session.Apply
import Abacus.Proofs.Value.Finite
import Abacus.Value.Format

/-!
# The two zeros

Two doubles are zeros, one with each sign. As an operand either one gives the same text or the same
fault: what does not depend on the sign is the same number, and what does is a zero again.
-/

namespace Abacus

open Binary64 (format isZero pack unpack)
open Float.Model (UnpackedFloat)

variable {op : Operation} {x y z z' : Float} {precision : ℕ}

theorem formatFloat_of_isZero (hz : isZero z = true) : Value.formatFloat z precision = ['0'] := by
  obtain ⟨s, hs⟩ := Binary64.isZero_iff.1 hz
  rw [Value.formatFloat, Binary64.reading, hs]
  rfl

/-- A double that only depends on a zero: a zero itself, or the same finite one for both. -/
def IgnoresSign (f : Float → Float) : Prop :=
  (∀ z, isZero z = true → isZero (f z) = true) ∨
    ∃ w : Float, w.isFinite = true ∧ ∀ z, isZero z = true → f z = w

theorem IgnoresSign.isFinite {f : Float → Float} (h : IgnoresSign f) (hz : isZero z = true) :
    (f z).isFinite = true := by
  rcases h with hzero | ⟨w, hw, hsame⟩
  · exact Binary64.isFinite_of_isZero (hzero z hz)
  · rw [hsame z hz]
    exact hw

theorem IgnoresSign.formatFloat_eq {f : Float → Float} (h : IgnoresSign f) (hz : isZero z = true)
    (hz' : isZero z' = true) (precision : ℕ) :
    Value.formatFloat (f z) precision = Value.formatFloat (f z') precision := by
  rcases h with hzero | ⟨w, -, hsame⟩
  · rw [formatFloat_of_isZero (hzero z hz), formatFloat_of_isZero (hzero z' hz')]
  · rw [hsame z hz, hsame z' hz']

theorem ignoresSign_of_zero (g : UnpackedFloat → UnpackedFloat → UnpackedFloat) {v : UnpackedFloat}
    (hy : unpack y = v) (h : ∀ s, ∃ t, g (.zero s) v = .zero t) :
    IgnoresSign fun z => pack (g (unpack z) (unpack y)) := by
  refine Or.inl fun z hz => ?_
  obtain ⟨s, hs⟩ := Binary64.isZero_iff.1 hz
  obtain ⟨t, ht⟩ := h s
  simp only [hs, hy, ht]
  exact Binary64.isZero_pack_zero t

theorem ignoresSign_of_finite (g : UnpackedFloat → UnpackedFloat → UnpackedFloat)
    {v : UnpackedFloat} {t : UnpackedFloat.Sign} {m : ℕ} {e : ℤ} {hm : 0 < m} (hy : unpack y = v)
    (he : e ≤ 971) (h : ∀ s, g (.zero s) v = .finite t m e hm) :
    IgnoresSign fun z => pack (g (unpack z) (unpack y)) := by
  refine Or.inr ⟨pack (.finite t m e hm), Binary64.isFinite_pack_finite he, ?_⟩
  intro z hz
  obtain ⟨s, hs⟩ := Binary64.isZero_iff.1 hz
  simp only [hs, hy, h]

/-- Zero as the first operand. -/
theorem ignoresSign_left (hop : op ≠ .power) (hy : y.isFinite = true)
    (hdivisor : op = .divide ∨ op = .remainder → isZero y = false) :
    IgnoresSign fun z => op.double z y := by
  have hnonzero : op = .divide ∨ op = .remainder → ∀ s, unpack y ≠ .zero s := by
    intro h s hs
    have hzero := hdivisor h
    rw [Binary64.isZero_iff.2 ⟨s, hs⟩] at hzero
    cases hzero
  obtain ⟨t, hy⟩ | ⟨t, m, e, hm, hy, -, he⟩ := Binary64.unpack_cases hy
  · cases op with
    | add =>
        exact ignoresSign_of_zero (UnpackedFloat.add format) hy
          fun s => by cases s <;> cases t <;> exact ⟨_, rfl⟩
    | subtract =>
        exact ignoresSign_of_zero (UnpackedFloat.sub format) hy
          fun s => by cases s <;> cases t <;> exact ⟨_, rfl⟩
    | multiply => exact ignoresSign_of_zero (UnpackedFloat.mul format) hy fun s => ⟨_, rfl⟩
    | divide => exact absurd hy (hnonzero (Or.inl rfl) t)
    | remainder => exact absurd hy (hnonzero (Or.inr rfl) t)
    | power => exact absurd rfl hop
  · cases op with
    | add => exact ignoresSign_of_finite (UnpackedFloat.add format) hy he fun s => rfl
    | subtract => exact ignoresSign_of_finite (UnpackedFloat.sub format) hy he fun s => rfl
    | multiply => exact ignoresSign_of_zero (UnpackedFloat.mul format) hy fun s => ⟨_, rfl⟩
    | divide => exact ignoresSign_of_zero (UnpackedFloat.div format) hy fun s => ⟨_, rfl⟩
    | remainder => exact ignoresSign_of_zero (Binary.remainder format) hy fun s => ⟨_, rfl⟩
    | power => exact absurd rfl hop

/-- Zero as the second operand. -/
theorem ignoresSign_right (hop : op = .add ∨ op = .subtract ∨ op = .multiply)
    (hx : x.isFinite = true) : IgnoresSign fun z => op.double x z := by
  obtain ⟨t, hx⟩ | ⟨t, m, e, hm, hx, -, he⟩ := Binary64.unpack_cases hx
  · rcases hop with rfl | rfl | rfl
    · exact ignoresSign_of_zero (fun v u => UnpackedFloat.add format u v) hx
        fun s => by cases s <;> cases t <;> exact ⟨_, rfl⟩
    · exact ignoresSign_of_zero (fun v u => UnpackedFloat.sub format u v) hx
        fun s => by cases s <;> cases t <;> exact ⟨_, rfl⟩
    · exact ignoresSign_of_zero (fun v u => UnpackedFloat.mul format u v) hx fun s => ⟨_, rfl⟩
  · rcases hop with rfl | rfl | rfl
    · exact ignoresSign_of_finite (fun v u => UnpackedFloat.add format u v) hx he fun s => rfl
    · exact ignoresSign_of_finite (fun v u => UnpackedFloat.sub format u v) hx he fun s => rfl
    · exact ignoresSign_of_zero (fun v u => UnpackedFloat.mul format u v) hx fun s => ⟨_, rfl⟩

theorem applyFloats_of_error {e : ArithmeticError} (h : floatResult op x y = .error e) :
    applyFloats op x y = .error e := by
  rw [applyFloats, h]
  rfl

theorem applyFloats_zero_divisor (hop : op = .divide ∨ op = .remainder) (hz : isZero z = true)
    (x : Float) : applyFloats op x z = .error .divisionByZero := by
  apply applyFloats_of_error
  rcases hop with rfl | rfl
  · exact if_pos hz
  · exact if_pos hz

theorem floatPower_of_isFinite (hfinite : (Binary64.pow x y).isFinite = true) :
    floatPower x y = .ok (Binary64.pow x y) := by
  have hnan := Binary64.isNaN_of_isFinite hfinite
  simp only [floatPower, hnan, hfinite, Bool.not_true, Bool.false_and, Bool.false_eq_true, if_false]

theorem applyFloats_power_of_isFinite (hfinite : (Binary64.pow x y).isFinite = true) :
    applyFloats .power x y = .ok (.decimal (Binary64.pow x y)) :=
  applyFloats_eq_ok.2 ⟨_, floatPower_of_isFinite hfinite, Binary64.isNaN_of_isFinite hfinite,
    hfinite, rfl⟩

theorem applyFloats_power_zero (hz : isZero z = true) (x : Float) :
    applyFloats .power x z = .ok (.decimal (Binary64.ofInt 1)) := by
  have hpow := Binary64.pow_of_isZero_exponent hz x
  have hfinite : (Binary64.pow x z).isFinite = true := by
    rw [hpow]
    rfl
  rw [applyFloats_power_of_isFinite hfinite, hpow]

/-- A power of zero with a negative exponent is infinite, and is reported as a division by zero. -/
theorem floatPower_zero_of_isNegative (hz : isZero z = true) (hy : y.isFinite = true)
    (hsign : Binary64.isNegative y = true) : floatPower z y = .error .divisionByZero := by
  obtain ⟨s, hpow⟩ := Binary64.exists_pow_of_isZero_base hz hy (Binary64.isZero_of_isNegative hsign)
  have hinfinite : Binary64.pow z y = pack (.infinity s) := by
    rw [hpow, hsign]
    rfl
  have hnan : (pack (.infinity s)).isNaN = false := by
    cases s <;> rfl
  have hfinite : (pack (.infinity s)).isFinite = false := by
    cases s <;> rfl
  have hbase := Binary64.isFinite_of_isZero hz
  simp only [floatPower, hinfinite, hnan, hfinite, hbase, hy, hz, hsign, Bool.not_false,
    Bool.false_and, Bool.and_self, Bool.false_eq_true, if_true, if_false]

/-- A power of zero with an exponent that is not zero. -/
theorem format_zero_power (hz : isZero z = true) (hy : y.isFinite = true)
    (hnonzero : isZero y = false) :
    (applyFloats .power z y).map (Value.format precision) =
      if Binary64.isNegative y then .error .divisionByZero else .ok "0" := by
  obtain ⟨s, hpow⟩ := Binary64.exists_pow_of_isZero_base hz hy hnonzero
  cases hsign : Binary64.isNegative y with
  | true =>
      have hpower : floatResult .power z y = .error .divisionByZero :=
        floatPower_zero_of_isNegative hz hy hsign
      rw [applyFloats_of_error hpower]
      rfl
  | false =>
      have hzero : Binary64.pow z y = pack (.zero s) := by
        rw [hpow, hsign]
        rfl
      have hresult : isZero (Binary64.pow z y) = true := by
        rw [hzero]
        exact Binary64.isZero_pack_zero s
      rw [applyFloats_power_of_isFinite (Binary64.isFinite_of_isZero hresult)]
      simp only [Except.map, Value.format, formatFloat_of_isZero hresult]
      rfl

theorem format_applyFloats_left (hz : isZero z = true) (hz' : isZero z' = true)
    (hy : y.isFinite = true) :
    (applyFloats op z y).map (Value.format precision) =
      (applyFloats op z' y).map (Value.format precision) := by
  by_cases hop : op = .power
  · subst hop
    cases hzero : isZero y with
    | true => rw [applyFloats_power_zero hzero, applyFloats_power_zero hzero]
    | false => rw [format_zero_power hz hy hzero, format_zero_power hz' hy hzero]
  by_cases hdivisor : (op = .divide ∨ op = .remainder) ∧ isZero y = true
  · rw [applyFloats_zero_divisor hdivisor.1 hdivisor.2,
      applyFloats_zero_divisor hdivisor.1 hdivisor.2]
  · have hnonzero : op = .divide ∨ op = .remainder → isZero y = false := by
      intro h
      exact Bool.eq_false_iff.2 fun hzero => hdivisor ⟨h, hzero⟩
    have hignores := ignoresSign_left hop hy hnonzero
    rw [applyFloats_eq_double hop hnonzero (hignores.isFinite hz),
      applyFloats_eq_double hop hnonzero (hignores.isFinite hz')]
    have hsame := hignores.formatFloat_eq hz hz' precision
    simp only [Except.map, Value.format, hsame]

theorem format_applyFloats_right (hx : x.isFinite = true) (hz : isZero z = true)
    (hz' : isZero z' = true) :
    (applyFloats op x z).map (Value.format precision) =
      (applyFloats op x z').map (Value.format precision) := by
  by_cases hpower : op = .power
  · subst hpower
    rw [applyFloats_power_zero hz, applyFloats_power_zero hz']
  by_cases hdivisor : op = .divide ∨ op = .remainder
  · rw [applyFloats_zero_divisor hdivisor hz, applyFloats_zero_divisor hdivisor hz']
  · have hrest : op = .add ∨ op = .subtract ∨ op = .multiply := by
      cases op <;> simp_all
    have hignores := ignoresSign_right hrest hx
    have hnone : ∀ z, op = .divide ∨ op = .remainder → isZero z = false :=
      fun z h => absurd h hdivisor
    rw [applyFloats_eq_double hpower (hnone z) (hignores.isFinite hz),
      applyFloats_eq_double hpower (hnone z') (hignores.isFinite hz')]
    have hsame := hignores.formatFloat_eq hz hz' precision
    simp only [Except.map, Value.format, hsame]

/-- Values that are the same up to the sign of a zero. -/
def Value.Alike (v w : Value) : Prop :=
  v = w ∨ ∃ x y, v = .decimal x ∧ w = .decimal y ∧ Binary64.isZero x = true ∧
    Binary64.isZero y = true

section Values

variable {mode : NumberMode} {v v' w w' : Value}

theorem apply_decimal_left (mode : NumberMode) (x : Float) (w : Value) :
    op.apply mode (.decimal x) w = applyFloats op x w.toFloat := by
  cases mode <;> rfl

theorem apply_decimal_right (mode : NumberMode) (v : Value) (y : Float) :
    op.apply mode v (.decimal y) = applyFloats op v.toFloat y := by
  cases mode <;> cases v <;> rfl

theorem format_apply_left (h : v.Alike v') (hw : w.IsFinite) :
    (op.apply mode v w).map (Value.format precision) =
      (op.apply mode v' w).map (Value.format precision) := by
  obtain rfl | ⟨x, y, rfl, rfl, hx, hy⟩ := h
  · rfl
  · rw [apply_decimal_left, apply_decimal_left]
    exact format_applyFloats_left hx hy (Value.isFinite_toFloat hw)

theorem format_apply_right (hv : v.IsFinite) (h : w.Alike w') :
    (op.apply mode v w).map (Value.format precision) =
      (op.apply mode v w').map (Value.format precision) := by
  obtain rfl | ⟨x, y, rfl, rfl, hx, hy⟩ := h
  · rfl
  · rw [apply_decimal_right, apply_decimal_right]
    exact format_applyFloats_right (Value.isFinite_toFloat hv) hx hy

/-- An operation gives the same text, or fails in the same way, for operands that are the same up to
the sign of a zero. -/
theorem format_apply (hv : v.Alike v') (hw : w.Alike w') (hfinite : v'.IsFinite)
    (hfinite' : w.IsFinite) :
    (op.apply mode v w).map (Value.format precision) =
      (op.apply mode v' w').map (Value.format precision) :=
  (format_apply_left hv hfinite').trans (format_apply_right hfinite hw)

end Values

end Abacus
