import SpriteEngine.Json.Scan

/-!
# Settings

`Config` says how much of the hardware may be used. `Config.validate` compares it with what there
is, in a fixed order: tiles, slots, affine groups. The text form of a config is read in
`Config.Reader`.
-/

namespace SpriteEngine

/-- How many tiles, descriptor slots and affine groups may be used: by default all there are. -/
structure Config where
  tileUnits : Nat := 1024
  oamSlots : Nat := 128
  affineSlots : Nat := 32
deriving DecidableEq, Repr

/-- Why a config is refused. -/
inductive ConfigError where
  | unreadable (cause : ReadError)
  | tooManyTiles (requested : Nat)
  | tooManySlots (requested : Nat)
  | tooManyAffine (requested : Nat)
deriving DecidableEq, Repr

/-- The text of a config error. -/
def ConfigError.message : ConfigError → String
  | .unreadable _ => "ConfigError: Can't parse config: "
  | .tooManyTiles n => s!"ConfigError: {n} tiles requested, but at most 1024 are addressable"
  | .tooManySlots n => s!"ConfigError: {n} OAM slots requested, but the hardware has 128"
  | .tooManyAffine n => s!"ConfigError: {n} affine slots requested, but the hardware has 32"

/-- Check a config against the hardware. -/
def Config.validate (c : Config) : Except ConfigError Unit :=
  if 1024 < c.tileUnits then .error (.tooManyTiles c.tileUnits)
  else if 128 < c.oamSlots then .error (.tooManySlots c.oamSlots)
  else if 32 < c.affineSlots then .error (.tooManyAffine c.affineSlots)
  else .ok ()

theorem Config.validate_eq_ok_iff {c : Config} :
    c.validate = .ok () ↔ c.tileUnits ≤ 1024 ∧ c.oamSlots ≤ 128 ∧ c.affineSlots ≤ 32 := by
  rw [Config.validate]
  split
  · simp
    omega
  · split
    · simp
      omega
    · split <;> simp <;> omega

end SpriteEngine
