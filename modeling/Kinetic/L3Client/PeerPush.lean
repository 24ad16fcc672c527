import Kinetic.L3Client.Commands

/-!
# Peer-to-peer requests on the wire

A `P2PPushRequest` is a tree: a list of operations, each with an optional request
for the drive it is pushed to. `PopulateP2PMessage` writes it into a message of
the same shape, leaving `newkey` out where it would say nothing new. Reading the
message back gives the tree with the target key of every operation written out
(`populate_lossless`).
-/
open Kinetic.Core

namespace Kinetic.L3

open L1

/-- The key that an operation pushes to: blank means the same key. -/
def targetKey (key newKey : Bytes) : Bytes := if newKey = [] then key else newKey

mutual

/-- The request with every target key written out. -/
def P2PPushRequest.explicit : P2PPushRequest → P2PPushRequest
  | .mk host port operations => .mk host port (explicitOperations operations)

def explicitOperations : List P2PPushOperation → List P2PPushOperation
  | [] => []
  | op :: ops => op.explicit :: explicitOperations ops

def P2PPushOperation.explicit : P2PPushOperation → P2PPushOperation
  | .mk key version newKey force request =>
    .mk key version (targetKey key newKey) force (explicitRequest request)

def explicitRequest : Option P2PPushRequest → Option P2PPushRequest
  | none => none
  | some request => some request.explicit

end

mutual

/-- Read a message: the target key is `newkey` when present and `key` otherwise;
a message that lacks any other field is not one. -/
def decode : P2POperation → Option P2PPushRequest
  | .mk peer operations => do
    let peer ← peer
    let host ← peer.hostname
    let port ← peer.port
    let operations ← decodeOperations operations
    return .mk host port operations

def decodeOperations : List P2POperationOperation → Option (List P2PPushOperation)
  | [] => some []
  | op :: ops => do
    let op ← decodeOperation op
    let ops ← decodeOperations ops
    return op :: ops

def decodeOperation : P2POperationOperation → Option P2PPushOperation
  | .mk key version newKey force _ p2pop => do
    let key ← key
    let version ← version
    let force ← force
    let request ← decodeRequest p2pop
    return .mk key version (newKey.getD key) force request

def decodeRequest : Option P2POperation → Option (Option P2PPushRequest)
  | none => some none
  | some p2pop => do
    let request ← decode p2pop
    return some request

end

mutual

/-- Nowhere in the message does a `newkey` repeat its `key`. -/
def Sparse : P2POperation → Prop
  | .mk _ operations => SparseOperations operations

def SparseOperations : List P2POperationOperation → Prop
  | [] => True
  | op :: ops => SparseOperation op ∧ SparseOperations ops

def SparseOperation : P2POperationOperation → Prop
  | .mk key _ newKey _ _ p2pop => (∀ k, newKey = some k → key ≠ some k) ∧ SparseNested p2pop

def SparseNested : Option P2POperation → Prop
  | none => True
  | some p2pop => Sparse p2pop

end

/-! ## Round trip -/

theorem getD_newKey (key newKey : Bytes) :
    (if newKey ≠ [] ∧ newKey ≠ key then some newKey else none).getD key = targetKey key newKey := by
  unfold targetKey
  by_cases h : newKey = []
  · simp [h]
  · by_cases hk : newKey = key <;> simp [h, hk]

mutual

theorem decode_populate : ∀ request : P2PPushRequest,
    decode (populateP2PMessage request) = some request.explicit
  | .mk host port operations => by
    have ih := decode_populateOperations operations
    simp only [populateP2PMessage, decode, P2PPushRequest.explicit, ih, Option.bind_eq_bind,
      Option.bind_some, Option.pure_def]

theorem decode_populateOperations : ∀ operations : List P2PPushOperation,
    decodeOperations (populateOperations operations) = some (explicitOperations operations)
  | [] => rfl
  | op :: ops => by
    have ih := decode_populateOperation op
    have ihs := decode_populateOperations ops
    simp only [populateOperations, decodeOperations, explicitOperations, ih, ihs,
      Option.bind_eq_bind, Option.bind_some, Option.pure_def]

theorem decode_populateOperation : ∀ operation : P2PPushOperation,
    decodeOperation (populateOperation operation) = some operation.explicit
  | .mk key version newKey force request => by
    have ih := decode_populateRequest request
    simp only [populateOperation, decodeOperation, P2PPushOperation.explicit, ih, getD_newKey,
      Option.bind_eq_bind, Option.bind_some, Option.pure_def]

theorem decode_populateRequest : ∀ request : Option P2PPushRequest,
    decodeRequest (populateRequest request) = some (explicitRequest request)
  | none => rfl
  | some request => by
    have ih := decode_populate request
    simp only [populateRequest, decodeRequest, explicitRequest, ih, Option.bind_eq_bind,
      Option.bind_some, Option.pure_def]

end

mutual

theorem populate_sparse : ∀ request : P2PPushRequest, Sparse (populateP2PMessage request)
  | .mk _ _ operations => by
    simpa only [populateP2PMessage, Sparse] using populateOperations_sparse operations

theorem populateOperations_sparse : ∀ operations : List P2PPushOperation,
    SparseOperations (populateOperations operations)
  | [] => trivial
  | op :: ops => ⟨populateOperation_sparse op, populateOperations_sparse ops⟩

theorem populateOperation_sparse : ∀ operation : P2PPushOperation,
    SparseOperation (populateOperation operation)
  | .mk key version newKey force request => by
    refine ⟨fun k hk he => ?_, populateRequest_sparse request⟩
    split at hk
    · rename_i hn
      exact hn.2 ((Option.some.inj hk).trans (Option.some.inj he).symm)
    · cases hk

theorem populateRequest_sparse : ∀ request : Option P2PPushRequest,
    SparseNested (populateRequest request)
  | none => trivial
  | some request => populate_sparse request

end

/-- **The encoding loses nothing** at any depth: the Command that `P2PPush`
submits carries a message from which the request is read back with every host,
port, key, version, force and nested request in its place and the target keys
written out, and in which a `newkey` is present only where it differs from `key`. -/
theorem populate_lossless (n : NonblockingKineticConnection) (request : P2PPushRequest) :
    ∃ submission body message, n.p2pPush (some request) = some submission ∧
      submission.command.body = some body ∧ body.p2pOperation = some message ∧
      message = populateP2PMessage request ∧
      decode message = some request.explicit ∧ Sparse message :=
  ⟨_, _, _, rfl, rfl, rfl, rfl, decode_populate request, populate_sparse request⟩

end Kinetic.L3
