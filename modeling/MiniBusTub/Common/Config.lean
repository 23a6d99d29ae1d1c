import Mathlib.Algebra.Group.Nat.Basic
import Mathlib.Algebra.Group.Int

namespace bustub

/-- `INVALID_PAGE_ID`: the page id that stands for "no page". -/
def INVALID_PAGE_ID : Int := -1

/-- `BUSTUB_PAGE_SIZE`: bytes per page, in memory and on disk. -/
def BUSTUB_PAGE_SIZE : Nat := 4096

/-- `a << s` on a 32-bit operand. The hardware takes the amount modulo 32; C++ leaves every
    amount from 32 on undefined, which `ShiftDefined` records. -/
def shl32 (a s : Nat) : Nat := (a <<< (s % 32)) % 2 ^ 32

/-- `a >> s` on a 32-bit operand, the amount again taken modulo 32. -/
def shr32 (a s : Nat) : Nat := a >>> (s % 32)

/-- A shift amount that C++ defines on a 32-bit operand. -/
def ShiftDefined (s : Nat) : Prop := s < 32

instance (s : Nat) : Decidable (ShiftDefined s) := inferInstanceAs (Decidable (s < 32))

/-- The `uint32_t` value of a signed integer, as `static_cast<uint32_t>` computes it. -/
def u32 (x : Int) : Nat := (x % 2 ^ 32).toNat

/-- The `int` (`page_id_t`, `frame_id_t`) value of an integer, wrapping as two's complement
    does. -/
def toInt32 (x : Int) : Int := (x + 2 ^ 31) % 2 ^ 32 - 2 ^ 31

/-- `++x` on an unsigned `w`-bit integer (`uint8_t`, `uint32_t`, `size_t`). -/
def incMod (w x : Nat) : Nat := (x + 1) % 2 ^ w

/-- `--x` on an unsigned `w`-bit integer. -/
def decMod (w x : Nat) : Nat := (x + (2 ^ w - 1)) % 2 ^ w

/-- `a - b` on unsigned `w`-bit integers, for `b` below `2 ^ w`. -/
def subMod (w a b : Nat) : Nat := (a + (2 ^ w - b)) % 2 ^ w

/-- `a[i] = v` on an array (or a page store) modelled as a function of the index. -/
def updateAt {ι α : Type} [DecidableEq ι] (f : ι → α) (i : ι) (v : α) : ι → α :=
  fun j => if j = i then v else f j

@[simp] theorem updateAt_apply {ι α : Type} [DecidableEq ι] (f : ι → α) (i j : ι) (v : α) :
    updateAt f i v j = if j = i then v else f j := rfl

@[simp] theorem except_ok_bind {ε α β : Type} (a : α) (f : α → Except ε β) :
    (Except.ok a >>= f : Except ε β) = f a := rfl

@[simp] theorem except_pure {ε α : Type} (a : α) : (pure a : Except ε α) = Except.ok a := rfl

@[simp] theorem except_ok_map {ε α β : Type} (f : α → β) (a : α) :
    (f <$> Except.ok a : Except ε β) = Except.ok (f a) := rfl

@[simp] theorem except_error_bind {ε α β : Type} (e : ε) (f : α → Except ε β) :
    (Except.error e >>= f : Except ε β) = .error e := rfl

@[simp] theorem except_mapError_eq_ok {ε ε' α : Type} {x : Except ε α} {f : ε → ε'} {a : α} :
    x.mapError f = .ok a ↔ x = .ok a := by
  cases x <;> simp [Except.mapError]

theorem except_bind_eq_ok {ε α β : Type} {x : Except ε α} {g : α → Except ε β} {y : β} :
    (x >>= g) = .ok y ↔ ∃ a, x = .ok a ∧ g a = .ok y := by
  cases x <;> simp [bind, Except.bind]

theorem except_map_eq_ok {ε α β : Type} {x : Except ε α} {f : α → β} {b : β} :
    (f <$> x) = .ok b ↔ ∃ a, x = .ok a ∧ f a = b := by
  cases x <;> simp [Functor.map, Except.map]

theorem shl32_one {s : Nat} (h : s < 32) : shl32 1 s = 2 ^ s := by
  have hlt : 2 ^ s < 2 ^ 32 := Nat.pow_lt_pow_right (by decide) h
  rw [shl32, Nat.mod_eq_of_lt h, Nat.shiftLeft_eq, Nat.one_mul, Nat.mod_eq_of_lt hlt]

theorem shl32_one_inj {s t : Nat} (hs : s < 32) (ht : t < 32) :
    shl32 1 s = shl32 1 t ↔ s = t := by
  rw [shl32_one hs, shl32_one ht]
  exact Nat.pow_right_injective (le_refl 2) |>.eq_iff

theorem toInt32_of_lt {x : Int} (h₁ : -2 ^ 31 ≤ x) (h₂ : x < 2 ^ 31) : toInt32 x = x := by
  unfold toInt32
  rw [Int.emod_eq_of_lt (by omega) (by omega)]
  omega

/-- Wrapping once more after an addition changes nothing: `int` arithmetic is arithmetic
    modulo `2 ^ 32`. -/
theorem toInt32_add_toInt32 (a b : Int) : toInt32 (toInt32 a + b) = toInt32 (a + b) := by
  unfold toInt32
  omega

theorem toInt32_toInt32 (a : Int) : toInt32 (toInt32 a) = toInt32 a := by
  unfold toInt32
  omega

theorem incMod_of_lt {w x : Nat} (h : x + 1 < 2 ^ w) : incMod w x = x + 1 :=
  Nat.mod_eq_of_lt h

theorem decMod_of_pos {w x : Nat} (h : 0 < x) (hx : x < 2 ^ w) : decMod w x = x - 1 := by
  have hw := Nat.two_pow_pos w
  unfold decMod
  rw [show x + (2 ^ w - 1) = (x - 1) + 2 ^ w by omega, Nat.add_mod_right]
  exact Nat.mod_eq_of_lt (by omega)

theorem subMod_of_le {w a b : Nat} (h : b ≤ a) (ha : a < 2 ^ w) : subMod w a b = a - b := by
  unfold subMod
  rw [show a + (2 ^ w - b) = (a - b) + 2 ^ w by omega, Nat.add_mod_right]
  exact Nat.mod_eq_of_lt (by omega)

end bustub
