import Mathlib.Data.List.Basic
import Mathlib.Tactic.Ring

namespace RenesasDemo.Framework

def toBytes : Nat → Nat → List UInt8
  | 0, _ => []
  | w + 1, x => UInt8.ofNat x :: toBytes w (x / 256)

def ofBytes : List UInt8 → Nat
  | [] => 0
  | b :: bs => 256 * ofBytes bs + b.toNat

@[simp] theorem toBytes_length (w x : Nat) : (toBytes w x).length = w := by
  induction w generalizing x with
  | zero => rfl
  | succ w ih => simp [toBytes, ih]

theorem ofBytes_toBytes {w x : Nat} (hx : x < 256 ^ w) : ofBytes (toBytes w x) = x := by
  induction w generalizing x with
  | zero =>
    have hzero : x = 0 := by simpa using hx
    simp [toBytes, ofBytes, hzero]
  | succ w ih =>
    have hdiv : x / 256 < 256 ^ w := by
      apply Nat.div_lt_of_lt_mul
      rw [← Nat.pow_succ']
      exact hx
    have hlow : (UInt8.ofNat x).toNat = x % 256 := UInt8.toNat_ofNat'
    simp only [toBytes, ofBytes, ih hdiv, hlow]
    omega

theorem ofBytes_append (as bs : List UInt8) :
    ofBytes (as ++ bs) = ofBytes as + 256 ^ as.length * ofBytes bs := by
  induction as with
  | nil => simp [ofBytes]
  | cons a as ih =>
    rw [List.cons_append, ofBytes, ofBytes, ih, List.length_cons, Nat.pow_succ]
    ring

theorem take_toBytes {k w : Nat} (x : Nat) (hk : k ≤ w) : (toBytes w x).take k = toBytes k x := by
  induction k generalizing w x with
  | zero => rfl
  | succ k ih =>
    obtain ⟨w, rfl⟩ := Nat.exists_eq_add_of_le' (Nat.lt_of_lt_of_le (Nat.zero_lt_succ k) hk)
    rw [toBytes, toBytes, List.take_succ_cons, ih (x / 256) (Nat.le_of_succ_le_succ hk)]

theorem toBytes_mod (w x : Nat) : toBytes w (x % 256 ^ w) = toBytes w x := by
  induction w generalizing x with
  | zero => rfl
  | succ w ih =>
    have hlow : UInt8.ofNat (x % 256 ^ (w + 1)) = UInt8.ofNat x := by
      apply UInt8.toNat_inj.mp
      have hdvd : 256 ∣ 256 ^ (w + 1) := Dvd.intro_left _ (Nat.pow_succ ..).symm
      rw [UInt8.toNat_ofNat', UInt8.toNat_ofNat']
      exact Nat.mod_mod_of_dvd x hdvd
    have hhigh : x % 256 ^ (w + 1) / 256 = x / 256 % 256 ^ w := by
      rw [Nat.pow_succ', Nat.mod_mul_right_div_self]
    rw [toBytes, toBytes, hlow, hhigh, ih]

theorem toBytes_ofBytes (bs : List UInt8) : toBytes bs.length (ofBytes bs) = bs := by
  induction bs with
  | nil => rfl
  | cons b bs ih =>
    have hlow : UInt8.ofNat (256 * ofBytes bs + b.toNat) = b := by
      apply UInt8.toNat_inj.mp
      have hb := b.toNat_lt
      rw [UInt8.toNat_ofNat']
      omega
    have hhigh : (256 * ofBytes bs + b.toNat) / 256 = ofBytes bs := by
      have hb := b.toNat_lt
      omega
    rw [List.length_cons, ofBytes, toBytes, hlow, hhigh, ih]

theorem ofBytes_lt (bs : List UInt8) : ofBytes bs < 256 ^ bs.length := by
  induction bs with
  | nil => exact Nat.one_pos
  | cons b bs ih =>
    have hb := b.toNat_lt
    rw [List.length_cons, ofBytes, Nat.pow_succ]
    omega

end RenesasDemo.Framework
