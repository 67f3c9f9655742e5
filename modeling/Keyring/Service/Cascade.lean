import Keyring.Service.Call

/-!
# Giving a reference back, one call within the other

The last owner of a transform takes with it an owner of everything that the transform held on to:
giving a reference back then goes on to give others back, each by a call within the first one.
Here the calls are made as they come, with room for so many of them, one within the other, and no
more.  Whether a reference without an object stops them is left open, and so is what the registry
holds: slots may name transforms, each other in a circle, or nothing that there is.

## Main definitions

* `Registry.Stop` — why references are not given back.
* `Registry.giveBack` — gives a reference back, in the room that there is for calls.
* `Call.carryOut` — a call of the service that gives references back in this way.
-/

namespace Keyring

namespace Registry

/-- Why references are not given back. -/
inductive Stop where
  /-- The call is abandoned. -/
  | halt (h : Halt)
  /-- An entry has no owner to give up. -/
  | ownerless
  /-- There is no room for one more call. -/
  | tooDeep
  deriving DecidableEq, Repr

/-- What a call does that gives a reference back; the calls within it are made by `inner`.  A
`strict` call is abandoned if there is no object; another one passes over it. -/
def giveBackBy (strict : Bool) (inner : Ref → EStateM Stop Registry Unit) (x : Ref) :
    EStateM Stop Registry Unit := fun r =>
  match r.find? x with
  | none => if strict then .error (.halt .overRelease) r else .ok () r
  | some e =>
    match e.count with
    | 0 => .error .ownerless r
    -- the last owner is gone, and then what the object held on to is given back
    | 1 => e.object.retained.forM inner (r.erase x)
    | _ + 2 => .ok () (r.modify x Entry.disown)

/-- Gives a reference back, with room for `room` calls, one within the other. -/
def giveBack (strict : Bool) : Nat → Ref → EStateM Stop Registry Unit
  | 0, _ => fun r => .error .tooDeep r
  | room + 1, x => giveBackBy strict (giveBack strict room) x

end Registry

open Registry

/-- How a call of the service ends, with its reasons to be abandoned among those to stop. -/
def Service.liftHalt {α : Type} :
    EStateM.Result Halt Registry α → EStateM.Result Stop Registry α
  | .ok a r => .ok a r
  | .error h r => .error (.halt h) r

/-- Makes a call that gives references back by calls within each other, with room for one more than
there are objects. -/
def Call.carryOut (P : Provider) (e : Entropy) (strict : Bool) (c : Call) :
    EStateM Stop Registry (Except ServiceError Reply) := fun r =>
  let back := giveBack strict (r.size + 1)
  match c with
  | release x => (back x).map (fun _ => .ok .done) r
  | transformSet x a =>
    match Service.setting r x a with
    | .error err => .ok (.error err) r
    | .ok s =>
      let held := s.gained.toList.foldl Registry.retain r
      (s.lost.toList.forM back).map (fun _ => .ok .done) (held.replace x (.transform s.transform))
  | c => Service.liftHalt (c.make P e r)

end Keyring
