/-!
# Machine words

Integers of a fixed width, signed or unsigned. A word is an integer in the range of its width.
The total operations give the representative in range of the exact result modulo `2 ^ bits`; the
checked ones give the exact result, or nothing where it is out of range.
-/

namespace Abacus

/-- A fixed-width integer format: its number of bits and whether one of them is a sign. -/
structure Width where
  bits : Nat
  signed : Bool
  two_le_bits : 2 ≤ bits := by decide
deriving DecidableEq

namespace Width

def signedBits (bits : Nat) (h : 2 ≤ bits := by decide) : Width := ⟨bits, true, h⟩

def unsignedBits (bits : Nat) (h : 2 ≤ bits := by decide) : Width := ⟨bits, false, h⟩

def modulus (w : Width) : Int := ((Nat.pow 2 w.bits : Nat) : Int)

def least (w : Width) : Int := if w.signed then -((Nat.pow 2 (w.bits - 1) : Nat) : Int) else 0

def greatest (w : Width) : Int := w.least + w.modulus - 1

theorem four_le_modulus (w : Width) : 4 ≤ w.modulus := by
  have h : 4 ≤ Nat.pow 2 w.bits := Nat.pow_le_pow_right (n := 2) (by decide) w.two_le_bits
  unfold modulus
  omega

theorem two_mul_least (w : Width) (h : w.signed = true) : 2 * w.least = -w.modulus := by
  have hb := w.two_le_bits
  have hpow : Nat.pow 2 w.bits = Nat.pow 2 (w.bits - 1) * 2 := by
    obtain ⟨n, hn⟩ : ∃ n, w.bits = n + 1 := ⟨w.bits - 1, by omega⟩
    rw [hn]
    rfl
  simp only [least, modulus, h, if_true, hpow]
  omega

theorem least_le_zero (w : Width) : w.least ≤ 0 := by
  have hm := w.four_le_modulus
  cases hs : w.signed with
  | true =>
    have := w.two_mul_least hs
    omega
  | false => simp [least, hs]

theorem one_le_greatest (w : Width) : 1 ≤ w.greatest := by
  have hm := w.four_le_modulus
  unfold greatest
  cases hs : w.signed with
  | true =>
    have := w.two_mul_least hs
    omega
  | false =>
    have : w.least = 0 := by simp [least, hs]
    omega

end Width

/-- An integer in the range of a width. -/
structure Word (w : Width) where
  val : Int
  least_le : w.least ≤ val
  le_greatest : val ≤ w.greatest

namespace Word

variable {w : Width}

@[ext] theorem ext {a b : Word w} (h : a.val = b.val) : a = b := by
  cases a
  cases b
  simp_all

instance : DecidableEq (Word w) := fun a b =>
  if h : a.val = b.val then isTrue (ext h) else isFalse fun hab => h (by rw [hab])

def ofInt? (w : Width) (n : Int) : Option (Word w) :=
  if h : w.least ≤ n ∧ n ≤ w.greatest then some ⟨n, h.1, h.2⟩ else none

/-- The word congruent to a given integer modulo the number of values of the width. -/
def wrap (w : Width) (n : Int) : Word w where
  val := w.least + (n - w.least) % w.modulus
  least_le := by
    have hm := w.four_le_modulus
    have := Int.emod_nonneg (n - w.least) (show w.modulus ≠ 0 by omega)
    omega
  le_greatest := by
    have hm := w.four_le_modulus
    have := Int.emod_lt_of_pos (n - w.least) (show 0 < w.modulus by omega)
    unfold Width.greatest
    omega

def zero : Word w := ⟨0, w.least_le_zero, Int.le_trans (by decide) w.one_le_greatest⟩

def one : Word w := ⟨1, Int.le_trans w.least_le_zero (by decide), w.one_le_greatest⟩

instance : Inhabited (Word w) := ⟨zero⟩

def add (a b : Word w) : Word w := wrap w (a.val + b.val)

def sub (a b : Word w) : Word w := wrap w (a.val - b.val)

def mul (a b : Word w) : Word w := wrap w (a.val * b.val)

def add? (a b : Word w) : Option (Word w) := ofInt? w (a.val + b.val)

def sub? (a b : Word w) : Option (Word w) := ofInt? w (a.val - b.val)

def mul? (a b : Word w) : Option (Word w) := ofInt? w (a.val * b.val)

/-- The quotient rounded toward zero. The least integer has no quotient by minus one. -/
def div? (a b : Word w) : Option (Word w) :=
  if b.val = 0 then none else ofInt? w (a.val.tdiv b.val)

/-- What the quotient leaves, with the sign of the dividend; nothing where there is no quotient. -/
def rem? (a b : Word w) : Option (Word w) :=
  (div? a b).bind fun _ => ofInt? w (a.val.tmod b.val)

/-- `acc * base ^ exponent` by repeated squaring. A square is only taken where a later bit of the
exponent uses it, so nothing overflows unless the power itself does. -/
def mulPow? (acc base : Word w) (exponent : Nat) : Option (Word w) :=
  if h : exponent < 2 then
    if exponent = 0 then some acc else mul? acc base
  else do
    let acc ← if exponent % 2 = 1 then mul? acc base else some acc
    mulPow? acc (← mul? base base) (exponent / 2)
termination_by exponent

def pow? (base : Word w) (exponent : Nat) : Option (Word w) :=
  mulPow? one base exponent

def abs? (a : Word w) : Option (Word w) := ofInt? w a.val.natAbs

end Word

abbrev Width.int64 : Width := signedBits 64

abbrev Width.word64 : Width := unsignedBits 64

abbrev Integer := Word Width.int64

end Abacus
