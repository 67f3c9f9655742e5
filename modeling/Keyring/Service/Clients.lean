import Keyring.Service.Call

/-!
# Clients of the service

Many clients use the service at a time.  A call has the registry for itself, but does not keep
it while it computes: executing a transform and the RSA operations of keys take what they need,
let go of the registry, and come back with what they have computed.  In between, other calls are
made.

## Main definitions

* `Activity` — what a call computes without the registry.
* `Call.begin`, `Activity.finish` — the two steps of a call that computes.
* `World` — the registry with the clients on it.
* `World.step`, `World.run` — one move of a client, and any number of them.
-/

namespace Keyring

/-! ### Calls in two steps -/

/-- What a call computes without the registry, with all that it has taken for it. -/
inductive Activity where
  | executing (c : Service.Captured)
  | encrypting (key : KeyObject) (capacity : Nat) (input : Bytes)
  | decrypting (key : KeyObject) (capacity : Nat) (input : Bytes)

/-- What a call takes from the registry for its computation, unless that fails; a call that does
not compute takes nothing. -/
def Call.begin (r : Registry) : Call → Option (Except ServiceError Activity)
  | transformExecute x => some ((Service.capture r x).map .executing)
  | keyEncrypt x n b => some ((r.key x).map (.encrypting · n b))
  | keyDecrypt x n b => some ((r.key x).map (.decrypting · n b))
  | _ => none

variable (P : Provider)

/-- What a call comes back with. -/
def Activity.finish (e : Entropy) : Activity → Service Reply
  | executing c => (Service.create fun _ => c.run P e).reply .ref
  | encrypting k n b => (Service.query fun _ => Service.encryptWith P k .pkcs1 n e b).reply .bytes
  | decrypting k n b => (Service.query fun _ => Service.decryptWith P k .pkcs1 n b).reply .bytes

/-! ### Clients -/

/-- A client, by number. -/
abbrev Client := Nat

/-- A call that computes. -/
structure Pending where
  client : Client
  call : Call
  /-- What it has taken. -/
  activity : Activity

/-- A call that was answered. -/
structure Event where
  client : Client
  call : Call
  /-- The registry just before the answer. -/
  registry : Registry
  reply : Except ServiceError Reply

/-- The service with its clients. -/
structure World where
  registry : Registry := {}
  /-- Which client owns what, once for every time it was handed out. -/
  owned : List (Client × Ref) := []
  /-- The calls that have begun to compute, by number. -/
  begun : Nat := 0
  /-- Those of them that are not answered yet. -/
  pending : Nat → Option Pending := fun _ => none
  /-- What was answered, in order. -/
  log : List Event := []

/-- A move of a client. -/
inductive Move where
  /-- A call is made.  It is answered at once or begins to compute. -/
  | call (client : Client) (call : Call) (e : Entropy)
  /-- A call that computes is answered. -/
  | finish (number : Nat) (e : Entropy)

namespace World

/-- Clients only give back what they own. -/
def allows (w : World) (a : Client) : Call → Bool
  | .release x => (a, x) ∈ w.owned
  | _ => true

/-- Who owns what when a client has given back what a call takes. -/
def kept (w : World) (a : Client) : Call → List (Client × Ref)
  | .release x => w.owned.erase (a, x)
  | _ => w.owned

/-- Who owns what after an answer. -/
def ownedAfter (w : World) (a : Client) (c : Call) :
    Except ServiceError Reply → List (Client × Ref)
  | .ok (.ref y) => (a, y) :: w.kept a c
  | _ => w.kept a c

/-- A call is answered. -/
def answer (w : World) (a : Client) (c : Call) (reply : Except ServiceError Reply)
    (r : Registry) : World :=
  { w with
    registry := r
    owned := w.ownedAfter a c reply
    log := w.log ++ [⟨a, c, w.registry, reply⟩] }

/-- A call begins to compute. -/
def start (w : World) (p : Pending) : World :=
  { w with
    begun := w.begun + 1
    pending := fun n => if n = w.begun then some p else w.pending n }

/-- A call has computed. -/
def stop (w : World) (n : Nat) : World :=
  { w with pending := fun m => if m = n then none else w.pending m }

/-- One move, unless a client may not make it. -/
def step (w : World) : Move → Option World
  | .call a c e =>
    if w.allows a c then
      match c.begin w.registry with
      | some (.ok activity) => some (w.start ⟨a, c, activity⟩)
      | some (.error err) => some (w.answer a c (.error err) w.registry)
      | none =>
        match c.make P e w.registry with
        | .ok reply r => some (w.answer a c reply r)
        | .error _ _ => none
    else none
  | .finish n e => do
    let p ← w.pending n
    match p.activity.finish P e w.registry with
    | .ok reply r => some ((w.stop n).answer p.client p.call reply r)
    | .error _ _ => none

/-- Any number of moves. -/
def run (w : World) (moves : List Move) : Option World := moves.foldlM (step P) w

end World

end Keyring
