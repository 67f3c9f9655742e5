import Keyring.Service.Transforms

/-!
# Calls of the service as values

Every call that a client can make, with its arguments, and what making it does.
Sequences of calls are lists of these values.

## Main definitions

* `Call` — the calls, `Reply` — what they answer.
* `Call.make` — one call.
-/

namespace Keyring

/-- A call of the service. -/
inductive Call where
  | certificateCreate (encoding : Bytes)
  | certificateCopyPublicKey (certificate : Ref)
  | keyCreate (attributes : KeyAttributes) (encoding : Bytes)
  | keyEncrypt (key : Ref) (capacity : Nat) (input : Bytes)
  | keyDecrypt (key : Ref) (capacity : Nat) (input : Bytes)
  | dataCreate (bytes : Bytes)
  | numberCreate (value : Int)
  | transformCreate (kind : TransformKind) (key : Ref) (signature : Option Ref)
  | transformSet (transform : Ref) (value : Attribute)
  | transformExecute (transform : Ref)
  | dataBytes (data : Ref)
  | booleanValue (value : Ref)
  | release (object : Ref)

/-- What a call answers. -/
inductive Reply where
  /-- Nothing. -/
  | done
  /-- A reference, which the caller owns. -/
  | ref (x : Ref)
  /-- A byte string. -/
  | bytes (b : Bytes)
  /-- A truth value. -/
  | boolean (v : Bool)

/-- The answer of a call, of a known form. -/
def Service.reply {α : Type} (f : α → Reply) (s : Service α) : Service Reply :=
  EStateM.map (Except.map f) s

/-- Makes a call; `e` is what it may draw random bytes from. -/
def Call.make (P : Provider) (e : Entropy) : Call → Service Reply
  | certificateCreate b => (Service.certificateCreate P b).reply .ref
  | certificateCopyPublicKey x => (Service.certificateCopyPublicKey x).reply .ref
  | keyCreate a b => (Service.keyCreate P a b).reply .ref
  | keyEncrypt x n b => (Service.keyEncrypt P x n e b).reply .bytes
  | keyDecrypt x n b => (Service.keyDecrypt P x n b).reply .bytes
  | dataCreate b => (Service.dataCreate b).reply .ref
  | numberCreate v => (Service.numberCreate v).reply .ref
  | transformCreate kind x s => (Service.transformCreate kind x s).reply .ref
  | transformSet x a => (Service.transformSet x a).reply fun _ => .done
  | transformExecute x => (Service.transformExecute P x e).reply .ref
  | dataBytes x => (Service.dataBytes x).reply .bytes
  | booleanValue x => (Service.booleanValue x).reply .boolean
  | release x => EStateM.map (fun _ => .ok .done) (Service.release x)

end Keyring
