import Reclaim.Tracking.Record

/-!
Owners and who holds them. An owner lives as long as a name stands for it or another living owner
holds it; its own end releases what it holds. An owner that holds itself outlives its name and is
found only by a collection, which reclaims all owners that no name leads to.
-/

namespace Reclaim

structure HeldOwner where
  owner : Owner
  holds : List Nat
deriving DecidableEq, Repr

structure Ownership where
  -- the living owners, oldest first
  living : List HeldOwner
  names : List (String × Nat)
  nextOwner : Nat
deriving DecidableEq, Repr

namespace Ownership

def empty : Ownership := ⟨[], [], 0⟩

def find? (o : Ownership) (name : String) : Option Owner :=
  match o.names.lookup name with
  | none => none
  | some id => (o.living.find? fun h => h.owner.id = id).map (·.owner)

def isNamed (o : Ownership) (id : Nat) : Bool :=
  o.names.any fun n => n.2 = id

def isHeld (o : Ownership) (id : Nat) : Bool :=
  o.living.any fun h => h.holds.contains id

/-- Lets go of owners one after another. Each that nothing keeps is reclaimed, and then what it
holds is let go of. The answer lists the reclaimed owners in order. -/
def letGo : Nat → List Nat → Ownership → Ownership × List Nat
  | 0, _, o => (o, [])
  | _, [], o => (o, [])
  | fuel + 1, id :: rest, o =>
      if o.isNamed id || o.isHeld id then letGo fuel rest o
      else match o.living.find? fun h => h.owner.id = id with
        | none => letGo fuel rest o
        | some gone =>
            let living := o.living.filter fun h => h.owner.id ≠ id
            let (o, reclaimed) := letGo fuel (gone.holds ++ rest) { o with living }
            (o, id :: reclaimed)

def bound (o : Ownership) : Nat :=
  o.living.foldl (fun n h => n + h.holds.length + 1) 1

def create (o : Ownership) (name : String) (unwatchable : Option String) (cyclic : Bool)
    (holds : List Nat) : Ownership × List Nat :=
  let id := o.nextOwner
  let made : HeldOwner := ⟨⟨id, unwatchable⟩, (if cyclic then [id] else []) ++ holds⟩
  let old := (o.names.lookup name).toList
  let o : Ownership :=
    { living := o.living ++ [made]
      names := (name, id) :: o.names.filter fun n => n.1 ≠ name
      nextOwner := id + 1 }
  letGo o.bound old o

def drop (o : Ownership) (name : String) : Option (Ownership × List Nat) :=
  match o.names.lookup name with
  | none => none
  | some id =>
      let o := { o with names := o.names.filter fun n => n.1 ≠ name }
      some (letGo o.bound [id] o)

def reach (o : Ownership) : Nat → List Nat → List Nat
  | 0, found => found
  | n + 1, found =>
      let next := o.living.flatMap fun h => if found.contains h.owner.id then h.holds else []
      reach o n (found ++ next.filter fun id => !found.contains id).eraseDups

def collect (o : Ownership) : Ownership × List Nat :=
  let kept := o.reach o.living.length (o.names.map (·.2))
  let (living, gone) := o.living.partition fun h => kept.contains h.owner.id
  ({ o with living }, gone.map (·.owner.id))

end Ownership
end Reclaim
