import Kinetic.L1Wire.Proto

/-!
# A small codec

The protobuf wire format of the fields that authentication, numbering and
statuses need, for numbers below 128 (one byte each): enough to run sessions on.
`Codec.lib` is the instance of `Lib` it makes with a given MAC, `Codec.plain` the
one for sessions that authenticate nothing.
-/
open Kinetic.Core

namespace Kinetic.L1.Codec

def putInt (number : Nat) : Option Int → Bytes
  | none => []
  | some n => [UInt8.ofNat (8 * number), UInt8.ofNat n.toNat]

def putBytes (number : Nat) : Option Bytes → Bytes
  | none => []
  | some b => UInt8.ofNat (8 * number + 2) :: UInt8.ofNat b.length :: b

def split : Nat → Bytes → Option (List (Nat × Bytes))
  | _, [] => some []
  | fuel + 1, tag :: x :: rest =>
    if tag.toNat % 8 = 0 then
      (split fuel rest).map ((tag.toNat / 8, [x]) :: ·)
    else if tag.toNat % 8 = 2 ∧ x.toNat ≤ rest.length then
      (split fuel (rest.drop x.toNat)).map ((tag.toNat / 8, rest.take x.toNat) :: ·)
    else none
  | _, _ => none

def getBytes (number : Nat) (fields : List (Nat × Bytes)) : Option Bytes :=
  (fields.find? (·.1 == number)).map Prod.snd

def getInt (number : Nat) (fields : List (Nat × Bytes)) : Option Int :=
  (getBytes number fields).map fun b => (b.foldl (fun n x => n * 256 + x.toNat) 0 : Nat)

def AuthType.number : AuthType → Int
  | .invalidAuthType => -1
  | .hmacAuth => 1
  | .pinAuth => 2
  | .unsolicitedStatus => 3

def AuthType.ofNumber : Int → AuthType
  | 1 => .hmacAuth
  | 2 => .pinAuth
  | 3 => .unsolicitedStatus
  | _ => .invalidAuthType

def serializeMessage (m : Message) : Bytes :=
  putInt 4 (m.authType.map AuthType.number) ++
    putBytes 5 (m.hmacAuth.map fun a => putInt 1 a.identity ++ putBytes 2 a.hmac) ++
    putBytes 7 m.commandBytes

def parseMessage (b : Bytes) : Bool × Message :=
  match split b.length b with
  | none => (false, {})
  | some fields => (true, {
      authType := (getInt 4 fields).map AuthType.ofNumber
      hmacAuth := (getBytes 5 fields).map fun a =>
        let fields := (split a.length a).getD []
        { identity := getInt 1 fields, hmac := getBytes 2 fields }
      commandBytes := getBytes 7 fields })

/-- `SUCCESS` is 1. -/
def serializeStatus (s : Status) : Bytes :=
  putInt 1 (s.code.map fun c => if c = .success then 1 else 0)

def serializeCommand (c : Command) : Bytes :=
  putBytes 1 (c.header.map fun h =>
    putInt 3 h.connectionId ++ putInt 4 h.sequence ++ putInt 6 h.ackSequence) ++
  putBytes 3 (c.status.map serializeStatus)

def parseCommand (b : Bytes) : Bool × Command :=
  match split b.length b with
  | none => (false, {})
  | some fields => (true, {
      header := (getBytes 1 fields).map fun h =>
        let fields := (split h.length h).getD []
        { connectionId := getInt 3 fields, sequence := getInt 4 fields,
          ackSequence := getInt 6 fields }
      status := (getBytes 3 fields).map fun s =>
        let fields := (split s.length s).getD []
        { code := (getInt 1 fields).map fun n =>
            if n = 1 then .success else .other n.toNat } })

def lib (mac : Bytes → Bytes → Bytes) : Lib where
  serializeToString _ := true
  serializeMessage := serializeMessage
  parseMessage := parseMessage
  serializeCommand := serializeCommand
  parseCommand := parseCommand
  hmacSha1 := mac

def plain : Lib := lib fun _ _ => []

end Kinetic.L1.Codec
