import Mathlib.Data.FinEnum

/-!
# Packet families and actions

The enumerators of `fwd/packet.hpp` with their values. A packet id is the
family in the low byte and the action in the high byte.
-/

namespace ArenaServ

inductive PacketFamily where
  | internal | connection | account | character | login | welcome | walk | face | chair | emote
  | attack | spell | shop | item | statskill | global | talk | warp | jukebox | players
  | avatar | party | refresh | npc | playerRange | npcRange | range | paperdoll | effect
  | trade | chest | door | message | bank | locker | barber | guild | music | sit | recover
  | board | cast | arena | priest | marriage | admininteract | citizen | quest | book | fInit
  deriving DecidableEq, Repr

/-- The underlying `unsigned char`. -/
def PacketFamily.toByte : PacketFamily → UInt8
  | .internal => 0
  | .connection => 1
  | .account => 2
  | .character => 3
  | .login => 4
  | .welcome => 5
  | .walk => 6
  | .face => 7
  | .chair => 8
  | .emote => 9
  | .attack => 11
  | .spell => 12
  | .shop => 13
  | .item => 14
  | .statskill => 16
  | .global => 17
  | .talk => 18
  | .warp => 19
  | .jukebox => 21
  | .players => 22
  | .avatar => 23
  | .party => 24
  | .refresh => 25
  | .npc => 26
  | .playerRange => 27
  | .npcRange => 28
  | .range => 29
  | .paperdoll => 30
  | .effect => 31
  | .trade => 32
  | .chest => 33
  | .door => 34
  | .message => 35
  | .bank => 36
  | .locker => 37
  | .barber => 38
  | .guild => 39
  | .music => 40
  | .sit => 41
  | .recover => 42
  | .board => 43
  | .cast => 44
  | .arena => 45
  | .priest => 46
  | .marriage => 47
  | .admininteract => 48
  | .citizen => 49
  | .quest => 50
  | .book => 51
  | .fInit => 255

inductive PacketAction where
  | request | accept | reply | remove | agree | create | add | player | take | use | buy | sell
  | open | close | msg | spec | admin | list | tell | report | announce | server | drop | junk
  | obtain | get | kick | rank | targetSelf | targetOther | targetGroup | dialog | internalNull
  | internalWarp | ping | pong | net3 | aInit
  deriving DecidableEq, Repr

/-- The underlying `unsigned char`. -/
def PacketAction.toByte : PacketAction → UInt8
  | .request => 1
  | .accept => 2
  | .reply => 3
  | .remove => 4
  | .agree => 5
  | .create => 6
  | .add => 7
  | .player => 8
  | .take => 9
  | .use => 10
  | .buy => 11
  | .sell => 12
  | .open => 13
  | .close => 14
  | .msg => 15
  | .spec => 16
  | .admin => 17
  | .list => 18
  | .tell => 20
  | .report => 21
  | .announce => 22
  | .server => 23
  | .drop => 24
  | .junk => 25
  | .obtain => 26
  | .get => 27
  | .kick => 28
  | .rank => 29
  | .targetSelf => 30
  | .targetOther => 31
  | .targetGroup => 33
  | .dialog => 34
  | .internalNull => 128
  | .internalWarp => 129
  | .ping => 240
  | .pong => 241
  | .net3 => 242
  | .aInit => 255

namespace PacketProcessor

/-- `PID`, an `unsigned short`. -/
def pid (family : PacketFamily) (action : PacketAction) : ℕ :=
  family.toByte.toNat ||| (action.toByte.toNat <<< 8)

/-- `EPID`: action first, then family. -/
def epid (pid : ℕ) : UInt8 × UInt8 := (UInt8.ofNat (pid >>> 8), UInt8.ofNat (pid &&& 0xFF))

theorem pid_eq (family : PacketFamily) (action : PacketAction) :
    pid family action = action.toByte.toNat * 256 + family.toByte.toNat := by
  have hlt : family.toByte.toNat < 2 ^ 8 := family.toByte.toNat_lt
  rw [pid, Nat.or_comm, ← Nat.shiftLeft_add_eq_or_of_lt hlt, Nat.shiftLeft_eq]

theorem epid_pid (family : PacketFamily) (action : PacketAction) :
    epid (pid family action) = (action.toByte, family.toByte) := by
  have hf : family.toByte.toNat < 256 := family.toByte.toNat_lt
  have hand : pid family action &&& 0xFF = pid family action % 2 ^ 8 :=
    Nat.and_two_pow_sub_one_eq_mod _ 8
  rw [epid, hand, Nat.shiftRight_eq_div_pow, pid_eq]
  refine Prod.ext ?_ ?_
  · rw [show (action.toByte.toNat * 256 + family.toByte.toNat) / 2 ^ 8 = action.toByte.toNat by
      omega]
    exact UInt8.ofNat_toNat
  · rw [show (action.toByte.toNat * 256 + family.toByte.toNat) % 2 ^ 8 = family.toByte.toNat by
      omega]
    exact UInt8.ofNat_toNat

/-- No enumerator of `PacketAction` is zero, so the id 0 that `SetID` replaces is never built. -/
theorem pid_ne_zero (family : PacketFamily) (action : PacketAction) : pid family action ≠ 0 := by
  have haction : action.toByte.toNat ≠ 0 := by cases action <;> decide
  rw [pid_eq]
  omega

end PacketProcessor

end ArenaServ
