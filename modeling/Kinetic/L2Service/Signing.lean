import Kinetic.L1Wire.Codec
import Kinetic.L2Service.Service

/-!
# Signing and verification

`Enqueue` fills in the header of the Command first, serializes it into
`commandbytes`, sets the identity and only then computes the MAC; what it queues
is what `ValidateHmac` accepts. The MAC binds `commandbytes`: its input
determines them (`macInput_injective`).
-/
open Kinetic.Core

namespace Kinetic.L2

open L1

def stamped (c : Command) (connectionId sequence : Int) : Command :=
  c.modifyHeader fun h => { h with connectionId := some connectionId, sequence := some sequence }

/-- **Enqueue** signs the Command it queues. -/
theorem enqueue_signs (lib : Lib) (m : Message) (c : Command) (v : Bytes) (h key : Nat)
    (s : NonblockingPacketService) (hm : m.getAuthType = .hmacAuth) :
    ∃ r, (NonblockingSender.enqueue lib m c v h key s).sender.requestQueue =
        s.sender.requestQueue ++ [r] ∧
      r.command = stamped c s.receiver.connectionId s.sender.sequenceNumber ∧
      r.message.commandBytes = some (lib.serializeCommand r.command) ∧
      r.message.hmacAuth = some {
        identity := some s.sender.userId
        hmac := some (computeHmac lib r.message s.sender.hmacKey) } ∧
      validateHmac lib r.message s.sender.hmacKey = true := by
  refine ⟨_, rfl, rfl, ?_, ?_, ?_⟩
  all_goals dsimp only
  · split <;> rfl
  · split
    · rfl
    · contradiction
  · rw [validateHmac_eq_true]
    split
    · exact ⟨rfl, rfl⟩
    · contradiction

/-- What signing and verification promise for a given MAC. -/
structure Binds (lib : Lib) : Prop where
  /-- A queued HMACAUTH message carries the final Command and is accepted under
  the key it was signed with. -/
  signed : ∀ m c v h key s, Message.getAuthType m = .hmacAuth →
    ∃ r, (NonblockingSender.enqueue lib m c v h key s).sender.requestQueue =
        s.sender.requestQueue ++ [r] ∧
      r.command = stamped c s.receiver.connectionId s.sender.sequenceNumber ∧
      r.message.commandBytes = some (lib.serializeCommand r.command) ∧
      validateHmac lib r.message s.sender.hmacKey = true
  /-- A message is accepted exactly when it carries its own MAC. -/
  verified : ∀ m key, validateHmac lib m key = true ↔
    m.hmacAuth.isSome ∧ m.getHmac = computeHmac lib m key
  /-- A message that carries the MAC of another one is accepted only if its
  `commandbytes` are the same. -/
  bound : ∀ key, Function.Injective (lib.hmacSha1 key) → ∀ m m' : Message,
    m'.getHmac = computeHmac lib m key → validateHmac lib m' key = true →
    m'.getCommandBytes = m.getCommandBytes

/-- **Signing and verification match** and bind the command bytes. -/
theorem binds (lib : Lib) : Binds lib := by
  refine ⟨fun m c v h key s hm => ?_, validateHmac_eq_true lib, fun key hinj m m' hc hv => ?_⟩
  · obtain ⟨r, h1, h2, h3, -, h5⟩ := enqueue_signs lib m c v h key s hm
    exact ⟨r, h1, h2, h3, h5⟩
  · have he := ((validateHmac_eq_true lib m' key).1 hv).2
    rw [hc, computeHmac_eq, computeHmac_eq] at he
    exact (macInput_injective (hinj he)).symm

theorem binds_identity :
    let lib := Codec.lib fun _ input => input
    let m : Message := { commandBytes := some [7] }
    let m' : Message := { m with hmacAuth := some { hmac := some [0, 0, 0, 1, 7] } }
    validateHmac lib m' [1] = true ∧ m'.getCommandBytes = m.getCommandBytes := by
  intro lib m m'
  have hv : validateHmac lib m' [1] = true := by decide +kernel
  exact ⟨hv, (binds lib).bound [1] (fun _ _ h => h) m m' (by decide +kernel) hv⟩

end Kinetic.L2
