import SpriteEngine.Config
import SpriteEngine.Json.Value

/-!
# The text of a config

A config is written as a JSON object with up to three members, in any order, each at most once. A
field that is left out keeps its default. It can also be written as an array of up to three numbers,
in the order of the fields.

`Config.read` reads the text and `Config.parse` also checks the config against the hardware.
-/

namespace SpriteEngine

open Json

namespace Config

/-- A field of a config. -/
inductive Field where
  | tileUnits
  | oamSlots
  | affineSlots
deriving DecidableEq, Repr

namespace Field

/-- The fields in order. -/
def all : List Field :=
  [.tileUnits, .oamSlots, .affineSlots]

/-- The key of a field. -/
def key : Field → String
  | .tileUnits => "tile_units"
  | .oamSlots => "oam_slots"
  | .affineSlots => "affine_slots"

/-- The largest number that can be written in a field: one of 16 bits for tiles, else one of 64. -/
def limit : Field → Nat
  | .tileUnits => 65535
  | .oamSlots | .affineSlots => 18446744073709551615

end Field

/-- Set a field. -/
def set (c : Config) (n : Nat) : Field → Config
  | .tileUnits => { c with tileUnits := n }
  | .oamSlots => { c with oamSlots := n }
  | .affineSlots => { c with affineSlots := n }

/-! ### Objects -/

/-- Read the next key of an object, or its closing brace. All keys but the first follow a comma. -/
def nextKey (first : Bool) (s : List Char) : Except ReadError (Option (List Char) × List Char) :=
  match skipBlanks s with
  | [] => .error .endOfText
  | '}' :: rest => .ok (none, rest)
  | c :: rest =>
    if first then
      if c = '"' then (quoted rest).map fun (key, rest) => (some key, rest) else .error .malformed
    else if c = ',' then do
      let (key, rest) ← quoted (← expect '"' rest)
      .ok (some key, rest)
    else
      .error .malformed

/-- Read the members of an object after its opening brace, each with one of the keys that are left.
-/
def members (left : List Field) (first : Bool) (c : Config) (s : List Char) :
    Except ReadError (Config × List Char) :=
  match nextKey first s with
  | .error e => .error e
  | .ok (none, rest) => .ok (c, rest)
  | .ok (some key, rest) =>
    match h : left.find? fun f => f.key.toList == key with
    | none => .error .mismatch
    | some f =>
      match expect ':' rest with
      | .error e => .error e
      | .ok rest =>
        match unsigned f.limit rest with
        | .error e => .error e
        | .ok (n, rest) =>
          have : (left.erase f).length < left.length := by
            have hmem := List.mem_of_find?_eq_some h
            have hpos := List.length_pos_of_mem hmem
            rw [List.length_erase_of_mem hmem]
            omega
          members (left.erase f) false (c.set n f) rest
termination_by left.length

/-! ### Arrays -/

/-- Read the elements of an array after its opening bracket, one for each field at most. All
elements but the first follow a comma. -/
def elements (first : Bool) :
    List Field → Config → List Char → Except ReadError (Config × List Char)
  | [], c, s => do
    return (c, ← expect ']' s)
  | f :: fs, c, s =>
    match skipBlanks s with
    | [] => .error .endOfText
    | ']' :: rest => .ok (c, rest)
    | d :: rest =>
      if first then do
        let (n, rest) ← unsigned f.limit (d :: rest)
        elements false fs (c.set n f) rest
      else if d = ',' then do
        let (n, rest) ← unsigned f.limit rest
        elements false fs (c.set n f) rest
      else
        .error .malformed

/-! ### The whole text -/

/-- Read a config from the front of a text. -/
def readFront (s : List Char) : Except ReadError (Config × List Char) :=
  match skipBlanks s with
  | '[' :: rest => elements true Field.all {} rest
  | '{' :: rest => members Field.all true {} rest
  | s => .error (refuse s)

/-- Read a text that has nothing but a config. -/
def read (text : String) : Except ReadError Config := do
  let (c, rest) ← readFront text.toList
  if (skipBlanks rest).isEmpty then .ok c else .error .malformed

/-- Read a config and check it against the hardware. -/
def parse (text : String) : Except ConfigError Config := do
  let c ← (read text).mapError .unreadable
  c.validate
  return c

end Config

end SpriteEngine
