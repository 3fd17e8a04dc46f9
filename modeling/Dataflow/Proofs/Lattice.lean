import Dataflow.Lattice
import Mathlib.Data.List.Nodup
import Mathlib.Data.Nat.Find
import Mathlib.Order.Bounds.Basic

/-! The distance of an ancestor is the length of a shortest way up to it. A walk has what it found and
what it queued in order of distance, and what is a step above a type that it found is found or queued
at most one further away. Its fuel lasts until the queue is empty. -/

namespace Dataflow

namespace TypeRegistry

/-- A way up from a type to another, of so many steps to a parent. None goes on from the root. -/
inductive Climbs (r : TypeRegistry) (t : TypeName) : Nat → TypeName → Prop
  | refl : Climbs r t 0 t
  | step {n : Nat} {u p : TypeName} (climbs : Climbs r t n u) (ne : u ≠ r.root)
      (parent : p ∈ r.parents u) : Climbs r t (n + 1) p

theorem mem_above {r : TypeRegistry} {t p : TypeName} :
    p ∈ r.above t ↔ t ≠ r.root ∧ p ∈ r.parents t := by
  unfold above
  split <;> simp [*]

theorem length_above_le (r : TypeRegistry) (t : TypeName) :
    (r.above t).length ≤ (r.parents t).length := by
  unfold above
  split <;> simp

/-- The parents that a walk may still queue, if it went on from some types already. -/
def pending (entries : List (TypeName × List TypeName)) (seen : List TypeName) : Nat :=
  ((entries.filter fun e => !seen.contains e.1).flatMap Prod.snd).length

theorem pending_nil (entries : List (TypeName × List TypeName)) :
    pending entries [] = (entries.flatMap Prod.snd).length := by
  have all : (entries.filter fun e => !([] : List TypeName).contains e.1) = entries :=
    List.filter_eq_self.2 fun _ _ => rfl
  rw [pending, all]

/-- A type that is gone on from has queued its parents, and never does so again. -/
theorem pending_append (r : TypeRegistry) {seen : List TypeName} {u : TypeName} (new : u ∉ seen) :
    (r.parents u).length + pending r.entries (seen ++ [u]) ≤ pending r.entries seen := by
  obtain ⟨root, entries⟩ := r
  simp only [parents, parents?]
  induction entries with
  | nil => exact Nat.le_refl _
  | cons e es ih =>
    have fewer : pending es (seen ++ [u]) ≤ pending es seen := Nat.le_trans (Nat.le_add_left ..) ih
    have grown (v : TypeName) : (!(seen ++ [u]).contains v) = (!seen.contains v && v != u) := by
      rw [Bool.eq_iff_iff]
      simp
    simp only [pending, grown] at ih fewer ⊢
    by_cases same : e.1 = u
    · rw [List.find?_cons_of_pos (by simpa using same), List.filter_cons_of_neg (by simp [same]),
        List.filter_cons_of_pos (by simpa [same] using new), List.flatMap_cons, List.length_append]
      exact Nat.add_le_add_left fewer _
    · rw [List.find?_cons_of_neg (by simpa using same)]
      by_cases listed : e.1 ∈ seen
      · rwa [List.filter_cons_of_neg (by simp [listed]), List.filter_cons_of_neg (by simp [listed])]
      · rw [List.filter_cons_of_pos (by simp [listed, same]),
          List.filter_cons_of_pos (by simp [listed])]
        simp only [List.flatMap_cons, List.length_append]
        omega

end TypeRegistry

namespace Distances

open TypeRegistry (Climbs pending pending_nil pending_append)

variable {r : TypeRegistry} {t u : TypeName} {d n : Nat} {found : Distances}
  {queue : List (TypeName × Nat)}

theorem mem_of_distance? (near : distance? found u = some d) : (u, d) ∈ found := by
  obtain ⟨e, first, rfl⟩ := Option.map_eq_some_iff.1 near
  obtain rfl : e.1 = u := by simpa using List.find?_some first
  exact List.mem_of_find?_eq_some first

theorem distance?_eq_none_iff_not_mem : distance? found u = none ↔ u ∉ found.map Prod.fst := by
  simp only [distance?, Option.map_eq_none_iff, List.find?_eq_none, beq_iff_eq, List.mem_map,
    not_exists, not_and]

/-- A type is listed at most so far away. -/
def Within (es : List (TypeName × Nat)) (u : TypeName) (n : Nat) : Prop := ∃ d ≤ n, (u, d) ∈ es

theorem Within.mono {es es' : List (TypeName × Nat)} (within : Within es u n) (le : es ⊆ es') :
    Within es' u n := by
  obtain ⟨d, near, listed⟩ := within
  exact ⟨d, near, le listed⟩

/-- What holds of a walk from a type at any time. -/
structure Sweep (r : TypeRegistry) (t : TypeName) (queue : List (TypeName × Nat))
    (found : Distances) : Prop where
  climbs : ∀ e ∈ found ++ queue, r.Climbs t e.2 e.1
  start : Within (found ++ queue) t 0
  closed : ∀ e ∈ found, ∀ p ∈ r.above e.1, Within (found ++ queue) p (e.2 + 1)
  ordered : (found ++ queue).Pairwise fun a b => a.2 ≤ b.2
  close : ∀ a ∈ queue, ∀ b ∈ queue, b.2 ≤ a.2 + 1
  distinct : (found.map Prod.fst).Nodup

theorem sweep_start (r : TypeRegistry) (t : TypeName) : Sweep r t [(t, 0)] [] where
  climbs e he := by
    obtain rfl := List.mem_singleton.1 he
    exact .refl
  start := ⟨0, Nat.le_refl _, List.mem_singleton.2 rfl⟩
  closed e he := by cases he
  ordered := List.pairwise_singleton ..
  close a ha b hb := by
    obtain rfl := List.mem_singleton.1 ha
    obtain rfl := List.mem_singleton.1 hb
    exact Nat.le_succ _
  distinct := .nil

/-- A type that was found already is found no further away than it is queued. -/
theorem Sweep.skip (sweep : Sweep r t ((u, d) :: queue) found)
    (known : (distance? found u).isSome = true) : Sweep r t queue found := by
  have sub : found ++ queue ⊆ found ++ (u, d) :: queue :=
    (List.Sublist.append_left (List.sublist_cons_self ..) found).subset
  have carry : ∀ {v n}, Within (found ++ (u, d) :: queue) v n → Within (found ++ queue) v n := by
    rintro v n ⟨m, near, listed⟩
    rcases List.mem_append.1 listed with listed | listed
    · exact ⟨m, near, List.mem_append_left _ listed⟩
    · rcases List.mem_cons.1 listed with same | listed
      · cases same
        obtain ⟨k, hk⟩ := Option.isSome_iff_exists.1 known
        have earlier := mem_of_distance? hk
        have le : k ≤ d := (List.pairwise_append.1 sweep.ordered).2.2 _ earlier _
          (List.mem_cons_self ..)
        exact ⟨k, Nat.le_trans le near, List.mem_append_left _ earlier⟩
      · exact ⟨m, near, List.mem_append_right _ listed⟩
  constructor
  case climbs => exact fun e he => sweep.climbs e (sub he)
  case start => exact carry sweep.start
  case closed => exact fun e he p hp => carry (sweep.closed e he p hp)
  case ordered =>
    exact sweep.ordered.sublist (List.Sublist.append_left (List.sublist_cons_self ..) found)
  case close =>
    exact fun a ha b hb =>
      sweep.close a (List.mem_cons_of_mem _ ha) b (List.mem_cons_of_mem _ hb)
  case distinct => exact sweep.distinct

/-- A type that was not found yet is found, and its parents are queued one further away. -/
theorem Sweep.expand (sweep : Sweep r t ((u, d) :: queue) found) (new : distance? found u = none) :
    Sweep r t (queue ++ ((r.above u).filter fun p => (distance? found p).isNone).map (·, d + 1))
      (found ++ [(u, d)]) := by
  let fresh := (r.above u).filter fun p => (distance? found p).isNone
  have sub : found ++ (u, d) :: queue ⊆ (found ++ [(u, d)]) ++ (queue ++ fresh.map (·, d + 1)) := by
    intro e
    simp only [List.mem_append, List.mem_cons, List.not_mem_nil, or_false]
    tauto
  obtain ⟨_, ordered, before⟩ := List.pairwise_append.1 sweep.ordered
  obtain ⟨first, ordered'⟩ := List.pairwise_cons.1 ordered
  have here := sweep.climbs (u, d) (List.mem_append_right _ (List.mem_cons_self ..))
  constructor
  case climbs =>
    intro e he
    rw [List.append_assoc, List.singleton_append, ← List.cons_append, ← List.append_assoc,
      List.mem_append] at he
    rcases he with he | he
    · exact sweep.climbs e he
    · obtain ⟨p, hp, rfl⟩ := List.mem_map.1 he
      obtain ⟨ne, parent⟩ := TypeRegistry.mem_above.1 (List.mem_filter.1 hp).1
      exact here.step ne parent
  case start => exact sweep.start.mono sub
  case closed =>
    intro e he p hp
    rcases List.mem_append.1 he with he | he
    · exact (sweep.closed e he p hp).mono sub
    · obtain rfl := List.mem_singleton.1 he
      cases near : distance? found p with
      -- a parent that was found before is not queued, but it is no further away
      | some k =>
        have listed := mem_of_distance? near
        have le : k ≤ d := before _ listed _ (List.mem_cons_self ..)
        exact ⟨k, Nat.le_succ_of_le le, sub (List.mem_append_left _ listed)⟩
      | none =>
        refine ⟨d + 1, Nat.le_refl _, List.mem_append_right _ (List.mem_append_right _ ?_)⟩
        exact List.mem_map.2 ⟨p, List.mem_filter.2 ⟨hp, by rw [near]; rfl⟩, rfl⟩
  case ordered =>
    have late : ∀ e ∈ fresh.map (·, d + 1), e.2 = d + 1 := fun e he => by
      obtain ⟨p, -, rfl⟩ := List.mem_map.1 he
      rfl
    rw [List.append_assoc, List.singleton_append, ← List.cons_append, ← List.append_assoc]
    refine List.pairwise_append.2 ⟨sweep.ordered, ?_, fun a ha b hb => ?_⟩
    · exact List.pairwise_iff_forall_sublist.2 fun {a b} h =>
        Nat.le_of_eq ((late a (h.subset (by simp))).trans (late b (h.subset (by simp))).symm)
    · rw [late b hb]
      rcases List.mem_append.1 ha with ha | ha
      · exact Nat.le_succ_of_le (before a ha _ (List.mem_cons_self ..))
      · exact sweep.close _ (List.mem_cons_self ..) a ha
  case close =>
    -- all that is queued is at the distance of the first one, or one more
    have range : ∀ e ∈ queue ++ fresh.map (·, d + 1), d ≤ e.2 ∧ e.2 ≤ d + 1 := fun e he => by
      rcases List.mem_append.1 he with he | he
      · exact ⟨first e he, sweep.close _ (List.mem_cons_self ..) e (List.mem_cons_of_mem _ he)⟩
      · obtain ⟨p, -, rfl⟩ := List.mem_map.1 he
        exact ⟨Nat.le_succ d, Nat.le_refl _⟩
    exact fun a ha b hb => Nat.le_trans (range b hb).2 (Nat.succ_le_succ (range a ha).1)
  case distinct =>
    rw [List.map_append, List.nodup_append]
    refine ⟨sweep.distinct, List.pairwise_singleton .., fun a ha b hb => ?_⟩
    obtain rfl := List.mem_singleton.1 hb
    rintro rfl
    exact distance?_eq_none_iff_not_mem.1 new ha

/-- A walk that works off its queue, however many turns that takes. -/
inductive Worked (r : TypeRegistry) : List (TypeName × Nat) → Distances → Distances → Prop
  | done {found : Distances} : Worked r [] found found
  | skip {t : TypeName} {d : Nat} {queue : List (TypeName × Nat)} {found ds : Distances}
      (known : (distance? found t).isSome = true) (rest : Worked r queue found ds) :
      Worked r ((t, d) :: queue) found ds
  | expand {t : TypeName} {d : Nat} {queue : List (TypeName × Nat)} {found ds : Distances}
      (new : distance? found t = none)
      (rest : Worked r
        (queue ++ ((r.above t).filter fun p => (distance? found p).isNone).map (·, d + 1))
        (found ++ [(t, d)]) ds) :
      Worked r ((t, d) :: queue) found ds

/-- With fuel for all that is queued and that may still be, a walk ends with an empty queue. -/
theorem worked_walk {fuel : Nat}
    (enough : queue.length + pending r.entries (found.map Prod.fst) ≤ fuel) :
    Worked r queue found (walk r fuel queue found) := by
  induction fuel generalizing queue found with
  | zero =>
    obtain rfl : queue = [] := List.length_eq_zero_iff.1 (by omega)
    exact .done
  | succ fuel ih =>
    cases queue with
    | nil => exact .done
    | cons e queue =>
      obtain ⟨u, d⟩ := e
      rw [Distances.walk]
      rw [List.length_cons] at enough
      split
      · next known => exact .skip known (ih (by omega))
      · next known =>
        have new : distance? found u = none := by simpa using known
        refine .expand new (ih ?_)
        have spent := pending_append r (distance?_eq_none_iff_not_mem.1 new)
        have above := r.length_above_le u
        have fresh := (r.above u).length_filter_le fun p => (distance? found p).isNone
        rw [List.length_append, List.length_map, List.map_append, List.map_cons, List.map_nil]
        dsimp only
        omega

theorem worked_distances (r : TypeRegistry) (t : TypeName) :
    Worked r [(t, 0)] [] (r.distances t) :=
  worked_walk (Nat.le_of_eq (by rw [List.map_nil, pending_nil]; rfl))

theorem Sweep.worked {ds : Distances} (worked : Worked r queue found ds)
    (sweep : Sweep r t queue found) : Sweep r t [] ds := by
  induction worked with
  | done => exact sweep
  | skip known _ ih => exact ih (sweep.skip known)
  | expand new _ ih => exact ih (sweep.expand new)

theorem sweep_distances (r : TypeRegistry) (t : TypeName) : Sweep r t [] (r.distances t) :=
  (sweep_start r t).worked (worked_distances r t)

/-- What can be climbed to is found no further away. -/
theorem Sweep.within (sweep : Sweep r t [] found) (climbs : r.Climbs t n u) : Within found u n := by
  induction climbs with
  | refl => simpa using sweep.start
  | @step n u p _ ne parent ih =>
    obtain ⟨d, near, listed⟩ := ih
    obtain ⟨k, le, listed⟩ := sweep.closed _ listed p (TypeRegistry.mem_above.2 ⟨ne, parent⟩)
    exact ⟨k, Nat.le_trans le (Nat.succ_le_succ near), by simpa using listed⟩

/-- The distances from a type are the lengths of the shortest ways up from it. -/
theorem distance?_eq_some_iff :
    (r.distances t).distance? u = some d ↔ IsLeast {n | r.Climbs t n u} d := by
  have sweep := sweep_distances r t
  have least : ∀ {d}, (r.distances t).distance? u = some d → IsLeast {n | r.Climbs t n u} d := by
    intro d near
    have listed := mem_of_distance? near
    refine ⟨sweep.climbs (u, d) (List.mem_append_left _ listed), fun n climbs => ?_⟩
    obtain ⟨k, le, listed'⟩ := sweep.within climbs
    have same : (u, d) = (u, k) := List.inj_on_of_nodup_map sweep.distinct listed listed' rfl
    cases same
    exact le
  refine ⟨least, fun isLeast => ?_⟩
  obtain ⟨k, -, listed⟩ := sweep.within isLeast.1
  cases near : (r.distances t).distance? u with
  | none => exact absurd (List.mem_map_of_mem listed) (distance?_eq_none_iff_not_mem.1 near)
  | some k => rw [(least near).unique isLeast]

theorem distance?_eq_none_iff :
    (r.distances t).distance? u = none ↔ ∀ n, ¬ r.Climbs t n u := by
  constructor
  · intro none n climbs
    obtain ⟨d, -, listed⟩ := (sweep_distances r t).within climbs
    exact distance?_eq_none_iff_not_mem.1 none (List.mem_map_of_mem listed)
  · intro unrelated
    cases near : (r.distances t).distance? u with
    | none => rfl
    | some d => exact absurd (distance?_eq_some_iff.1 near).1 (unrelated d)

theorem distance?_self (r : TypeRegistry) (t : TypeName) : (r.distances t).distance? t = some 0 :=
  distance?_eq_some_iff.2 ⟨.refl, fun _ _ => Nat.zero_le _⟩

theorem eq_of_distance?_eq_zero (near : (r.distances t).distance? u = some 0) : u = t := by
  obtain ⟨climbs, -⟩ := distance?_eq_some_iff.1 near
  cases climbs
  rfl

end Distances

namespace Lattice

/-- What a lattice remembers is what it would compute. -/
def Faithful (l : Lattice) : Prop := ∀ e ∈ l.known, e.2 = l.registry.distances e.1

theorem faithful_new (r : TypeRegistry) : (new r).Faithful := fun _ he => by cases he

theorem Faithful.distances {l : Lattice} (faithful : l.Faithful) (t : TypeName) :
    (l.distances t).1 = l.registry.distances t ∧ (l.distances t).2.registry = l.registry ∧
      (l.distances t).2.Faithful := by
  unfold Lattice.distances
  cases known : l.known.find? fun e => e.1 == t with
  | some e =>
    obtain rfl : e.1 = t := by simpa using List.find?_some known
    exact ⟨faithful e (List.mem_of_find?_eq_some known), rfl, faithful⟩
  | none =>
    refine ⟨rfl, rfl, fun e he => ?_⟩
    rcases List.mem_cons.1 he with rfl | he
    · rfl
    · exact faithful e he

end Lattice

end Dataflow
