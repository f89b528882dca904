import MailRoom.Value.Basic

/-! The limits a program runs under. -/
namespace MailRoom

/-- Size of the floor, the bound on results, and how many steps are allowed. -/
structure Config where
  floorSize : Nat
  numberBound : Nat
  stepLimit : Nat
  bound_fits : numberBound ≤ 2147483647
  limit_pos : 0 < stepLimit
  deriving DecidableEq

inductive ConfigError where
  | negativeFloor (size : Int)
  | boundOutside (bound : Int)
  | limitNotPositive (limit : Int)
  deriving DecidableEq

def ConfigError.message : ConfigError → String
  | negativeFloor size => "floor_size must not be negative, got " ++ toString size
  | boundOutside bound =>
    "number_bound must be in [0, " ++ toString Number.max ++ "], got " ++ toString bound
  | limitNotPositive limit => "step_limit must be positive, got " ++ toString limit

namespace Config

theorem bound_le (config : Config) : (config.numberBound : Int) ≤ 2147483647 :=
  Int.ofNat_le.mpr config.bound_fits

def ofInts (floorSize numberBound stepLimit : Int) : Except ConfigError Config :=
  if floorSize < 0 then .error (.negativeFloor floorSize)
  else if fits : 0 ≤ numberBound ∧ numberBound ≤ Number.max then
    if positive : 0 < stepLimit then
      .ok {
        floorSize := floorSize.toNat
        numberBound := numberBound.toNat
        stepLimit := stepLimit.toNat
        bound_fits := by have := fits.2; simp only [Number.max] at this; omega
        limit_pos := by omega }
    else .error (.limitNotPositive stepLimit)
  else .error (.boundOutside numberBound)

end Config

end MailRoom
