import Dataflow.Proofs.Lattice
import Mathlib.Data.List.Perm.Subperm

/-! The list of the ancestors of a type is the list of those that have a distance from it, in the same
order. Both walks work off a queue; the one that counts steps leaves out what it found already when it
queues parents, the other only when their turn comes. What is still new in their queues is the same at
any time, and that is all that counts. A lattice gives the distances of its registry whatever it was
asked before. -/

namespace Dataflow

namespace TypeRegistry

variable {r : TypeRegistry} {t u : TypeName} {d : Nat} {queue seen ts ts' : List TypeName}

/-- A collection that works off its queue, however many turns that takes. -/
inductive Collected (r : TypeRegistry) : List TypeName → List TypeName → List TypeName → Prop
  | done {seen : List TypeName} : Collected r [] seen seen
  | skip {t : TypeName} {queue seen ts : List TypeName} (known : t ∈ seen)
      (rest : Collected r queue seen ts) : Collected r (t :: queue) seen ts
  | expand {t : TypeName} {queue seen ts : List TypeName} (new : t ∉ seen)
      (rest : Collected r (queue ++ r.above t) (seen ++ [t]) ts) : Collected r (t :: queue) seen ts

/-- With fuel for all that is queued and that may still be, a collection ends with an empty queue. -/
theorem collected_collect {fuel : Nat} (enough : queue.length + pending r.entries seen ≤ fuel) :
    Collected r queue seen (r.collect fuel queue seen) := by
  induction fuel generalizing queue seen with
  | zero =>
    obtain rfl : queue = [] := List.length_eq_zero_iff.1 (by omega)
    exact .done
  | succ fuel ih =>
    cases queue with
    | nil => exact .done
    | cons u queue =>
      rw [collect]
      rw [List.length_cons] at enough
      split
      · next known => exact .skip (List.contains_iff_mem.1 known) (ih (by omega))
      · next known =>
        have new : u ∉ seen := fun listed => known (List.contains_iff_mem.2 listed)
        refine .expand new (ih ?_)
        have spent := pending_append r new
        have above := r.length_above_le u
        rw [List.length_append]
        omega

theorem collected_ancestry (r : TypeRegistry) (t : TypeName) :
    Collected r [t] [] (r.ancestry t) :=
  collected_collect (Nat.le_of_eq (by rw [pending_nil]; rfl))

theorem Collected.unique (one : Collected r queue seen ts) (other : Collected r queue seen ts') :
    ts = ts' := by
  induction one with
  | done =>
    cases other
    rfl
  | skip known _ ih =>
    cases other with
    | skip _ rest => exact ih rest
    | expand new _ => exact absurd known new
  | expand new _ ih =>
    cases other with
    | skip known _ => exact absurd known new
    | expand _ rest => exact ih rest

theorem Collected.append {front : List TypeName} (known : ∀ u ∈ front, u ∈ seen)
    (rest : Collected r queue seen ts) : Collected r (front ++ queue) seen ts := by
  induction front with
  | nil => exact rest
  | cons u front ih =>
    obtain ⟨first, known⟩ := List.forall_mem_cons.1 known
    exact .skip first (ih known)

/-- What of a queue was not seen yet. -/
def unseen (seen queue : List TypeName) : List TypeName := queue.filter fun t => !seen.contains t

theorem unseen_append (seen queue more : List TypeName) :
    unseen seen (queue ++ more) = unseen seen queue ++ unseen seen more := List.filter_append ..

theorem unseen_unseen (seen more queue : List TypeName) :
    unseen (seen ++ more) (unseen seen queue) = unseen (seen ++ more) queue := by
  rw [unseen, unseen, List.filter_filter]
  refine List.filter_congr fun t _ => ?_
  rw [Bool.eq_iff_iff]
  simp only [Bool.and_eq_true, Bool.not_eq_true', List.contains_eq_mem, decide_eq_false_iff_not,
    List.mem_append, not_or, and_iff_left_iff_imp]
  exact And.left

theorem unseen_cons_of_mem (known : t ∈ seen) : unseen seen (t :: queue) = unseen seen queue :=
  List.filter_cons_of_neg (by simp [known])

theorem unseen_cons_of_not_mem (new : t ∉ seen) :
    unseen seen (t :: queue) = t :: unseen seen queue :=
  List.filter_cons_of_pos (by simp [new])

end TypeRegistry

namespace Distances

open TypeRegistry (Climbs Collected unseen unseen_append unseen_unseen unseen_cons_of_mem
  unseen_cons_of_not_mem)

variable {r : TypeRegistry} {t u : TypeName} {d k : Nat} {queue : List (TypeName × Nat)}
  {found ds ds' : Distances}

theorem Worked.unique (one : Worked r queue found ds) (other : Worked r queue found ds') :
    ds = ds' := by
  induction one with
  | done =>
    cases other
    rfl
  | skip known _ ih =>
    cases other with
    | skip _ rest => exact ih rest
    | expand new _ => simp [new] at known
  | expand new _ ih =>
    cases other with
    | skip known _ => simp [new] at known
    | expand _ rest => exact ih rest

theorem isSome_distance?_iff : (distance? found u).isSome = true ↔ u ∈ found.map Prod.fst := by
  rw [← not_iff_not, ← distance?_eq_none_iff_not_mem, Bool.not_eq_true, Option.isSome_eq_false_iff,
    Option.isNone_iff_eq_none]

theorem filter_isNone (found : Distances) (us : List TypeName) :
    us.filter (fun p => (distance? found p).isNone) = unseen (found.map Prod.fst) us := by
  refine List.filter_congr fun p _ => ?_
  rw [Bool.eq_iff_iff, Option.isNone_iff_eq_none, distance?_eq_none_iff_not_mem]
  simp

/-- A walk and a collection with as much new in their queues find the same. -/
theorem Worked.collected (worked : Worked r queue found ds) {rest : List TypeName}
    (alike : unseen (found.map Prod.fst) (queue.map Prod.fst) = unseen (found.map Prod.fst) rest) :
    Collected r rest (found.map Prod.fst) (ds.map Prod.fst) := by
  induction worked generalizing rest with
  | @done found =>
    have known : ∀ u ∈ rest, u ∈ found.map Prod.fst := fun u hu => by
      have := List.filter_eq_nil_iff.1 alike.symm u hu
      simpa using this
    rw [← List.append_nil rest]
    exact Collected.done.append known
  | skip known _ ih =>
    refine ih ?_
    rwa [List.map_cons, unseen_cons_of_mem (isSome_distance?_iff.1 known)] at alike
  | @expand t d queue found ds new _ ih =>
    have new := distance?_eq_none_iff_not_mem.1 new
    rw [List.map_cons, unseen_cons_of_not_mem new] at alike
    obtain ⟨front, back, rfl, known, -, alike⟩ := List.filter_eq_cons_iff.1 alike.symm
    refine Collected.append (fun u hu => by simpa using known u hu) (.expand new ?_)
    have seen : (found ++ [(t, d)]).map Prod.fst = found.map Prod.fst ++ [t] := by simp
    rw [seen] at ih
    refine ih ?_
    have queued : ((((r.above t).filter fun p => (distance? found p).isNone).map (·, d + 1)).map
        Prod.fst) = unseen (found.map Prod.fst) (r.above t) := by
      rw [List.map_map, filter_isNone]
      exact List.map_id _
    rw [List.map_append, queued, unseen_append, unseen_append, unseen_unseen,
      ← unseen_unseen _ _ (queue.map Prod.fst), ← unseen_unseen _ _ back]
    exact congrArg (unseen _ · ++ _) alike.symm

/-- Each step of a shortest way up is at a distance of its own. -/
theorem exists_distance?_eq (near : (r.distances t).distance? u = some d) (le : k ≤ d) :
    ∃ v, (r.distances t).distance? v = some k := by
  induction d generalizing u with
  | zero => exact ⟨u, by rwa [Nat.le_zero.1 le]⟩
  | succ d ih =>
    rcases Nat.lt_or_eq_of_le le with lt | rfl
    · obtain ⟨climbs, least⟩ := distance?_eq_some_iff.1 near
      cases climbs with
      | @step _ v _ climbs ne parent =>
        refine ih (distance?_eq_some_iff.2 ⟨climbs, fun n shorter => ?_⟩) (Nat.le_of_lt_succ lt)
        exact Nat.le_of_succ_le_succ (least (Climbs.step shorter ne parent))
    · exact ⟨u, near⟩

end Distances

namespace TypeRegistry

variable {r : TypeRegistry} {t u : TypeName} {d : Nat}

theorem ancestry_eq (r : TypeRegistry) (t : TypeName) :
    r.ancestry t = (r.distances t).map Prod.fst :=
  (collected_ancestry r t).unique ((Distances.worked_distances r t).collected rfl)

theorem mem_ancestry_iff :
    u ∈ r.ancestry t ↔ ((r.distances t).distance? u).isSome = true := by
  rw [ancestry_eq, Distances.isSome_distance?_iff]

theorem nodup_ancestry (r : TypeRegistry) (t : TypeName) : (r.ancestry t).Nodup := by
  rw [ancestry_eq]
  exact (Distances.sweep_distances r t).distinct

/-- The way up to an ancestor is shorter than the list of the ancestors. -/
theorem lt_length_ancestry (near : (r.distances t).distance? u = some d) :
    d < (r.ancestry t).length := by
  have attained : List.range (d + 1) ⊆ (r.distances t).map Prod.snd := fun k hk => by
    obtain ⟨v, at_k⟩ := Distances.exists_distance?_eq near (Nat.lt_succ_iff.1 (List.mem_range.1 hk))
    exact List.mem_map.2 ⟨(v, k), Distances.mem_of_distance? at_k, rfl⟩
  have := (List.subperm_of_subset List.nodup_range attained).length_le
  rwa [List.length_range, List.length_map, ← List.length_map (f := Prod.fst), ← ancestry_eq] at this

/-- What distances from a type and a list of its ancestors are to say. -/
structure Surveyed (r : TypeRegistry) (t : TypeName) (ds : Distances) (ancestors : List TypeName) :
    Prop where
  shortest : ∀ u d, ds.distance? u = some d ↔ IsLeast {n | r.Climbs t n u} d
  unrelated : ∀ u, ds.distance? u = none ↔ ∀ n, ¬ r.Climbs t n u
  listed : ∀ u, u ∈ ancestors ↔ (ds.distance? u).isSome = true
  once : ancestors.Nodup
  nearest : ancestors.Pairwise fun u v =>
    ∀ d e, ds.distance? u = some d → ds.distance? v = some e → d ≤ e
  bounded : ∀ u d, ds.distance? u = some d → d < ancestors.length

theorem surveyed (r : TypeRegistry) (t : TypeName) :
    r.Surveyed t (r.distances t) (r.ancestry t) where
  shortest _ _ := Distances.distance?_eq_some_iff
  unrelated _ := Distances.distance?_eq_none_iff
  listed _ := mem_ancestry_iff
  once := nodup_ancestry r t
  nearest := by
    have sweep := Distances.sweep_distances r t
    have same {u : TypeName} {d e : Nat} (listed : (u, d) ∈ r.distances t)
        (near : (r.distances t).distance? u = some e) : e = d :=
      congrArg Prod.snd
        (List.inj_on_of_nodup_map sweep.distinct (Distances.mem_of_distance? near) listed rfl)
    have ordered := sweep.ordered
    rw [List.append_nil] at ordered
    rw [ancestry_eq, List.pairwise_map]
    refine ordered.imp_of_mem fun {a b} ha hb le d e near near' => ?_
    rw [same ha near, same hb near']
    exact le
  bounded _ _ := lt_length_ancestry

end TypeRegistry

namespace Lattice

/-- A lattice after it was asked for the distances from types. -/
def askedAll (l : Lattice) (ts : List TypeName) : Lattice :=
  ts.foldl (fun l t => (l.distances t).2) l

theorem Faithful.askedAll {l : Lattice} (faithful : l.Faithful) (ts : List TypeName) :
    (l.askedAll ts).registry = l.registry ∧ (l.askedAll ts).Faithful := by
  induction ts generalizing l with
  | nil => exact ⟨rfl, faithful⟩
  | cons t ts ih =>
    obtain ⟨-, same, faithful⟩ := faithful.distances t
    obtain ⟨same', faithful⟩ := ih faithful
    exact ⟨same'.trans same, faithful⟩

/-- The walks of a registry end, a lattice gives shortest distances whatever it was asked before, and
the list of the ancestors agrees with them. -/
theorem surveyed_askedAll (r : TypeRegistry) (asked : List TypeName) (t : TypeName) :
    (∀ ds, Distances.Worked r [(t, 0)] [] ds ↔ ds = (((new r).askedAll asked).distances t).1) ∧
      (∀ ts, r.Collected [t] [] ts ↔ ts = r.ancestry t) ∧
      r.Surveyed t (((new r).askedAll asked).distances t).1 (r.ancestry t) := by
  have answer : (((new r).askedAll asked).distances t).1 = r.distances t := by
    obtain ⟨same, faithful⟩ := (faithful_new r).askedAll asked
    rw [(faithful.distances t).1, same]
    rfl
  have walked := Distances.worked_distances r t
  have collected := TypeRegistry.collected_ancestry r t
  rw [answer]
  refine ⟨fun ds => ⟨fun worked => worked.unique walked, ?_⟩,
    fun ts => ⟨fun other => other.unique collected, ?_⟩, r.surveyed t⟩
  · rintro rfl
    exact walked
  · rintro rfl
    exact collected

end Lattice

end Dataflow
