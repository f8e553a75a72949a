import Mathlib.Data.Int.Notation

/-!
# Map tiles

What the item handlers ask of a map: how far two tiles are apart, what a tile is, and
whether it can be walked on.
-/

namespace ArenaServ

/-- `Map_Tile::TileSpec`. -/
inductive TileSpec where
  | none | wall | chairDown | chairLeft | chairRight | chairUp | chairDownRight | chairUpLeft
  | chairAll | door | chest | unknown1 | unknown2 | unknown3 | unknown4 | unknown5 | unknown6
  | bankVault | npcBoundary | mapEdge | fakeWall | board1 | board2 | board3 | board4 | board5
  | board6 | board7 | board8 | jukebox | jump | water | unknown7 | arena | ambientSource
  | spikes1 | spikes2 | spikes3
  deriving DecidableEq, Repr

/-- `Map_Tile::Walkable`, for a player. -/
def TileSpec.walkable : TileSpec → Bool
  | .wall | .chairDown | .chairLeft | .chairRight | .chairUp | .chairDownRight | .chairUpLeft
  | .chairAll | .chest | .bankVault | .mapEdge | .board1 | .board2 | .board3 | .board4 | .board5
  | .board6 | .board7 | .board8 | .jukebox => false
  | _ => true

/-- A map's size, its tiles, and where characters and living NPCs stand. -/
structure MapTiles where
  width : UInt8
  height : UInt8
  tilespec : UInt8 → UInt8 → TileSpec
  occupied : UInt8 → UInt8 → Bool

namespace MapTiles

def inBounds (m : MapTiles) (x y : UInt8) : Bool := !(x ≥ m.width || y ≥ m.height)

def getSpec (m : MapTiles) (x y : UInt8) : TileSpec :=
  if m.inBounds x y then m.tilespec x y else .none

def walkable (ghostArena : Bool) (m : MapTiles) (x y : UInt8) : Bool :=
  if !m.inBounds x y || !(m.tilespec x y).walkable then false
  else if ghostArena && m.tilespec x y = .arena && m.occupied x y then false
  else true

end MapTiles

/-- `util::path_length`. -/
def pathLength (x1 y1 x2 y2 : ℤ) : ℤ := (x1 - x2).natAbs + (y1 - y2).natAbs

def pathLengthOf (x1 y1 x2 y2 : UInt8) : ℤ := pathLength x1.toNat y1.toNat x2.toNat y2.toNat

end ArenaServ
