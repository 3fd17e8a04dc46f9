import Dataflow.TypeRegistry

/-! How far a type is from its ancestors: the number of steps to a parent on a shortest way. A walk
looks at types in the order in which it meets them, so that of several ways to a type the shortest
comes first; it goes on from no type twice, and never from the root. -/

namespace Dataflow

namespace TypeRegistry

/-- The parents a walk goes on to. -/
def above (r : TypeRegistry) (t : TypeName) : List TypeName :=
  if t = r.root then [] else r.parents t

/-- Enough steps for every walk: each type that is gone on from adds its parents to the queue. -/
def walkFuel (r : TypeRegistry) : Nat := 1 + (r.entries.flatMap Prod.snd).length

end TypeRegistry

/-- Types with their distances, nearest first. -/
abbrev Distances := List (TypeName × Nat)

namespace Distances

def distance? (ds : Distances) (t : TypeName) : Option Nat :=
  (ds.find? fun e => e.1 == t).map Prod.snd

/-- Work off a queue of types with their distances. -/
def walk (r : TypeRegistry) : Nat → List (TypeName × Nat) → Distances → Distances
  | 0, _, found | _, [], found => found
  | fuel + 1, (t, d) :: queue, found =>
    if (distance? found t).isSome then walk r fuel queue found
    else
      let fresh := (r.above t).filter fun p => (distance? found p).isNone
      walk r fuel (queue ++ fresh.map (·, d + 1)) (found ++ [(t, d)])

end Distances

namespace TypeRegistry

/-- The distances from a type to itself and all its ancestors. -/
def distances (r : TypeRegistry) (t : TypeName) : Distances :=
  Distances.walk r r.walkFuel [(t, 0)] []

/-- Work off a queue of types, without distances. -/
def collect (r : TypeRegistry) : Nat → List TypeName → List TypeName → List TypeName
  | 0, _, seen | _, [], seen => seen
  | fuel + 1, t :: queue, seen =>
    if seen.contains t then collect r fuel queue seen
    else collect r fuel (queue ++ r.above t) (seen ++ [t])

/-- A type and its ancestors, nearest first. -/
def ancestry (r : TypeRegistry) (t : TypeName) : List TypeName := r.collect r.walkFuel [t] []

end TypeRegistry

/-- A registry that remembers the distances it was asked for. -/
structure Lattice where
  registry : TypeRegistry
  known : List (TypeName × Distances)

namespace Lattice

def new (r : TypeRegistry) : Lattice := ⟨r, []⟩

/-- The distances from a type, looked up or computed and remembered. -/
def distances (l : Lattice) (t : TypeName) : Distances × Lattice :=
  match l.known.find? fun e => e.1 == t with
  | some e => (e.2, l)
  | none =>
    let ds := l.registry.distances t
    (ds, { l with known := (t, ds) :: l.known })

end Lattice

end Dataflow
