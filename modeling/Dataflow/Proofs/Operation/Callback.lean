import Dataflow.Callback
import Dataflow.Proofs.Operation.Drawings
import Dataflow.Proofs.Variable.Built
import Dataflow.Proofs.Variable.Copying

/-! Code of packages, which may go on from each answer as it likes. What each call keeps, the code
keeps: stores are at most prepared, and what is held is proper. Code that duplicates nothing only
numbers modules and connections, and what it holds is drawn apart. -/

namespace Dataflow

open Dataflow.Action

namespace Callback

/-- Code goes on where its call left the store. -/
theorem on_run_call (h : Host) (c : Call) (next : Except Error Answer → Callback) (p : Held)
    (s : Store) :
    (run h (.call c next) p).on s = match (c.perform h p).on s with
      | (.ok (a, q), t) => (run h (next (.ok a)) q).on t
      | (.error e, t) => (run h (next (.error e)) p).on t := by
  rcases performed : (c.perform h p).on s with ⟨_ | ⟨a, q⟩, t⟩
  all_goals
    have performed : c.perform h p s = _ := performed
    show run h (.call c next) p s = _
    rw [run]
    simp only [ExceptT.mk, ExceptT.run, bind, StateT.bind, performed]
    rfl

/-- All calls that the code may make, whatever it is answered. -/
def All (P : Call → Prop) : Callback → Prop
  | .call c next => P c ∧ ∀ r, (next r).All P
  | _ => True

theorem all_of_forall {P : Call → Prop} (all : ∀ c, P c) (code : Callback) : code.All P := by
  induction code with
  | call c next ih => exact ⟨all c, ih⟩
  | _ => trivial

theorem All.imp {P Q : Call → Prop} {code : Callback} (all : code.All P) (imp : ∀ c, P c → Q c) :
    code.All Q := by
  induction code with
  | call c next ih => exact ⟨imp c all.1, fun r => ih r (all.2 r)⟩
  | _ => trivial

theorem moves_run {R : Store → Store → Prop} (refl : ∀ s, R s s)
    (trans : ∀ s t u, R s t → R t u → R s u) {h : Host} {code : Callback} (p : Held)
    (calls : code.All fun c => ∀ p, Moves R (c.perform h p)) : Moves R (code.run h p) := by
  induction code generalizing p with
  | fail e => exact moves_throw refl e
  | nothing => exact moves_pure refl _
  | give n => exact Moves.bind trans (moves_ofExcept refl _) fun x => moves_pure refl _
  | call c next ih =>
    intro s
    have first := calls.1 p s
    rw [on_run_call]
    split
    · next a q t performed =>
      rw [performed] at first
      exact trans _ _ _ first (ih (.ok a) q (calls.2 _) t)
    · next e t performed =>
      rw [performed] at first
      exact trans _ _ _ first (ih (.error e) p (calls.2 _) t)

namespace Call

/-- A call that makes a second variable of one that is there, held or written. -/
def IsDuplicate : Call → Prop
  | .copy _ | .restore _ | .clone _ => True
  | _ => False

/-- A call that asks for the variables root. -/
def IsRooted : Call → Prop
  | .copy _ | .restore _ => True
  | _ => False

theorem IsRooted.isDuplicate {c : Call} (rooted : c.IsRooted) : c.IsDuplicate := by
  cases c with
  | copy _ | restore _ => trivial
  | _ => cases rooted

theorem minting_perform {c : Call} (unrooted : ¬ c.IsRooted) (h : Host) (p : Held) :
    Minting (c.perform h p) := by
  cases c with
  | new type => exact minting_pure _
  | constant value type => exact (Variable.minting_constant h value type).bind fun _ => minting_pure _
  | copy x => exact absurd trivial unrooted
  | restore v => exact absurd trivial unrooted
  | clone n => exact (minting_ofExcept _).bind fun _ => minting_pure _
  | inspect n => exact (minting_ofExcept _).bind fun _ => minting_pure _
  | resolve type => exact (minting_ofExcept _).bind fun _ => minting_pure _
  | addModule n type =>
    exact (minting_ofExcept _).bind fun x => (x.minting_addModule type).bind fun _ => minting_pure _
  | setFunction n m port values =>
    exact (minting_ofExcept _).bind fun x => (minting_ofExcept _).bind fun _ => minting_pure _
  | connect n source destination =>
    exact (minting_ofExcept _).bind fun x => (x.minting_connect _ _).bind fun _ => minting_pure _
  | selectOutput n m port =>
    exact (minting_ofExcept _).bind fun x => (minting_ofExcept _).bind fun _ => minting_pure _
  | absorb n k =>
    refine (minting_ofExcept _).bind fun y => (minting_ofExcept _).bind fun x => ?_
    exact (minting_ofExcept _).bind fun _ => minting_pure _
  | setProvenance n record => exact (minting_ofExcept _).bind fun _ => minting_pure _

theorem preparing_perform (c : Call) (h : Host) (p : Held) : h.Preparing (c.perform h p) := by
  have preparing {α : Type} {a : Action α} (ha : Minting a) : h.Preparing a :=
    Host.preparing_of_minting ha
  cases c with
  | copy x => exact (x.preparing_copy h).bind fun _ => preparing (minting_pure _)
  | restore v => exact (Variable.preparing_restore h v).bind fun _ => preparing (minting_pure _)
  | _ => exact preparing (minting_perform id h p)

end Call

/-- Code that takes over what it holds at most once, and builds all else anew. -/
def Linear (code : Callback) : Prop := code.All fun c => ¬ c.IsDuplicate

theorem Linear.minting_run {code : Callback} (linear : code.Linear) (h : Host) (p : Held) :
    Minting (code.run h p) :=
  moves_run .refl (fun _ _ _ => .trans) p <|
    linear.imp fun _ single => Call.minting_perform (mt Call.IsRooted.isDuplicate single) h

/-- Whatever code does, it at most prepares the store. -/
theorem preparing_run (h : Host) (code : Callback) (p : Held) : h.Preparing (code.run h p) :=
  moves_run (R := fun s t => s.Valid → h.Prepares s t) Host.prepares_refl
    (fun _ _ _ => Host.prepares_trans) p (all_of_forall (fun c => c.preparing_perform h) code)

open Variable (Drawings)

variable {h : Host} {p q : Held} {s t u : Store} {n k : Nat} {x y z : Variable}

theorem Held.find_eq_ok (found : p.find n = .ok x) : p.get? n = some x := by
  unfold find at found
  split at found
  · next y known =>
    cases found
    exact known
  · cases found

@[simp] theorem Held.get?_put_self (p : Held) (n : Nat) (x : Variable) :
    (p.put n x).get? n = some x := if_pos rfl

theorem Held.of_put (found : (p.put n x).get? k = some y) :
    k = n ∧ x = y ∨ k ≠ n ∧ p.get? k = some y := by
  simp only [put] at found
  split at found
  · next same => exact .inl ⟨same, Option.some.inj found⟩
  · next other => exact .inr ⟨other, found⟩

theorem Held.of_drop (found : (p.drop n).get? k = some y) : k ≠ n ∧ p.get? k = some y := by
  simp only [drop] at found
  split at found
  · cases found
  · next other => exact ⟨other, found⟩

/-- What a call does that succeeds, by what it calls: to what is held, and to the store. -/
inductive Call.Does (h : Host) (p : Held) (s : Store) : Call → Held → Store → Prop
  | new (type : TypeName) : Does h p s (.new type) (p.push { type }).2 s
  | constant {value : Constant} {type : TypeName} {x : Variable} {t : Store}
      (made : (Variable.constant h value type).on s = (.ok x, t)) :
      Does h p s (.constant value type) (p.push x).2 t
  | copy {source x : Variable} {t : Store} (made : (source.copy h).on s = (.ok x, t)) :
      Does h p s (.copy source) (p.push x).2 t
  | restore {v : VersionId} {x : Variable} {t : Store}
      (made : (Variable.restore h v).on s = (.ok x, t)) : Does h p s (.restore v) (p.push x).2 t
  | clone {n : Nat} {x : Variable} (found : p.get? n = some x) :
      Does h p s (.clone n) (p.push x).2 s
  | inspect (n : Nat) : Does h p s (.inspect n) p s
  | resolve (type : TypeName) : Does h p s (.resolve type) p s
  | addModule {n : Nat} {type : TypeName} {x y : Variable} {m : ModuleId} {t : Store}
      (found : p.get? n = some x) (added : (x.addModule type).on s = (.ok (m, y), t)) :
      Does h p s (.addModule n type) (p.put n y) t
  | setFunction {n : Nat} {m : ModuleId} {port : String} {values : List String} {x y : Variable}
      (found : p.get? n = some x) (set : x.setFunction m port values = .ok y) :
      Does h p s (.setFunction n m port values) (p.put n y) s
  | connect {n : Nat} {source destination : PortRef} {x y : Variable} {t : Store}
      (found : p.get? n = some x) (connected : (x.connect source destination).on s = (.ok y, t)) :
      Does h p s (.connect n source destination) (p.put n y) t
  | selectOutput {n : Nat} {m : ModuleId} {port : String} {x y : Variable}
      (found : p.get? n = some x) (select : x.selectOutput m port = .ok y) :
      Does h p s (.selectOutput n m port) (p.put n y) s
  | absorb {n k : Nat} {x y z : Variable} {output : PortRef} (found : (p.drop k).get? n = some x)
      (taken : p.get? k = some y) (absorbed : x.absorb y = .ok (output, z)) :
      Does h p s (.absorb n k) ((p.drop k).put n z) s
  | setProvenance {n : Nat} {x : Variable} (found : p.get? n = some x) (record : Provenance) :
      Does h p s (.setProvenance n record) (p.put n { x with provenance := some record }) s

theorem does_of_perform {c : Call} {a : Answer} (run : (c.perform h p).on s = (.ok (a, q), t)) :
    c.Does h p s q t := by
  cases c with
  | new type =>
    cases run
    exact .new type
  | constant value type =>
    obtain ⟨y, v, made, rest⟩ := Action.on_bind_eq_ok.1 run
    cases rest
    exact .constant made
  | copy x =>
    obtain ⟨y, v, made, rest⟩ := Action.on_bind_eq_ok.1 run
    cases rest
    exact .copy made
  | restore version =>
    obtain ⟨y, v, made, rest⟩ := Action.on_bind_eq_ok.1 run
    cases rest
    exact .restore made
  | clone n =>
    obtain ⟨x, found, rest⟩ := Action.on_ofExcept_bind_eq_ok.1 run
    cases rest
    exact .clone (Held.find_eq_ok found)
  | inspect n =>
    obtain ⟨x, -, rest⟩ := Action.on_ofExcept_bind_eq_ok.1 run
    cases rest
    exact .inspect n
  | resolve type =>
    obtain ⟨t', -, rest⟩ := Action.on_ofExcept_bind_eq_ok.1 run
    cases rest
    exact .resolve type
  | addModule n type =>
    obtain ⟨x, found, rest⟩ := Action.on_ofExcept_bind_eq_ok.1 run
    obtain ⟨⟨m, y⟩, v, added, rest⟩ := Action.on_bind_eq_ok.1 rest
    cases rest
    exact .addModule (Held.find_eq_ok found) added
  | setFunction n m port values =>
    obtain ⟨x, found, rest⟩ := Action.on_ofExcept_bind_eq_ok.1 run
    obtain ⟨y, set, rest⟩ := Action.on_ofExcept_bind_eq_ok.1 rest
    cases rest
    exact .setFunction (Held.find_eq_ok found) set
  | connect n source destination =>
    obtain ⟨x, found, rest⟩ := Action.on_ofExcept_bind_eq_ok.1 run
    obtain ⟨y, v, connected, rest⟩ := Action.on_bind_eq_ok.1 rest
    cases rest
    exact .connect (Held.find_eq_ok found) connected
  | selectOutput n m port =>
    obtain ⟨x, found, rest⟩ := Action.on_ofExcept_bind_eq_ok.1 run
    obtain ⟨y, select, rest⟩ := Action.on_ofExcept_bind_eq_ok.1 rest
    cases rest
    exact .selectOutput (Held.find_eq_ok found) select
  | absorb n k =>
    obtain ⟨y, taken, rest⟩ := Action.on_ofExcept_bind_eq_ok.1 run
    obtain ⟨x, found, rest⟩ := Action.on_ofExcept_bind_eq_ok.1 rest
    obtain ⟨⟨o, z⟩, absorbed, rest⟩ := Action.on_ofExcept_bind_eq_ok.1 rest
    cases rest
    exact .absorb (Held.find_eq_ok found) (Held.find_eq_ok taken) absorbed
  | setProvenance n record =>
    obtain ⟨x, found, rest⟩ := Action.on_ofExcept_bind_eq_ok.1 run
    cases rest
    exact .setProvenance (Held.find_eq_ok found) record

/-- All that is held is proper. -/
def Held.Proper (p : Held) : Prop := ∀ n x, p.get? n = some x → x.Proper

namespace Held.Proper

theorem of {arguments : List Variable} (proper : ∀ x ∈ arguments, x.Proper) :
    (Held.of arguments).Proper := fun _ x found => proper x (List.mem_of_getElem? found)

theorem put (hp : p.Proper) (hx : x.Proper) : (p.put n x).Proper := fun k y found => by
  obtain ⟨-, rfl⟩ | ⟨-, held⟩ := of_put found
  · exact hx
  · exact hp k y held

theorem push (hp : p.Proper) (hx : x.Proper) : (p.push x).2.Proper := hp.put hx

theorem drop (hp : p.Proper) (n : Nat) : (p.drop n).Proper := fun k y found =>
  hp k y (of_drop found).2

theorem find (hp : p.Proper) (found : p.find n = .ok x) : x.Proper := hp n x (find_eq_ok found)

end Held.Proper

theorem proper_perform {c : Call} {a : Answer} (hp : p.Proper)
    (run : (c.perform h p).on s = (.ok (a, q), t)) : q.Proper := by
  cases does_of_perform run with
  | new type => exact hp.push (.new type)
  | constant made => exact hp.push (.constant made)
  | copy made => exact hp.push (.copy made)
  | restore made => exact hp.push (.restore made)
  | clone found => exact hp.push (hp _ _ found)
  | inspect n => exact hp
  | resolve type => exact hp
  | addModule found added => exact hp.put ((hp _ _ found).addModule added)
  | setFunction found set => exact hp.put ((hp _ _ found).setFunction set)
  | connect found connected => exact hp.put ((hp _ _ found).connect connected)
  | selectOutput found select => exact hp.put ((hp _ _ found).selectOutput select)
  | @absorb n k x y z output found taken absorbed =>
    have kept := hp.drop k
    exact kept.put ((kept _ _ found).absorb (hp _ _ taken) absorbed)
  | setProvenance found record => exact hp.put ((hp _ _ found).provenance record)

theorem proper_run {code : Callback} (hp : p.Proper)
    (run : (code.run h p).on s = (.ok (some x), t)) : x.Proper := by
  induction code generalizing p s with
  | fail e => cases run
  | nothing => cases run
  | give n =>
    obtain ⟨y, found, rest⟩ := Action.on_ofExcept_bind_eq_ok.1 run
    cases rest
    exact hp.find found
  | call c next ih =>
    rw [on_run_call] at run
    rcases performed : (c.perform h p).on s with ⟨e | ⟨a, q⟩, v⟩
    all_goals rw [performed] at run
    · exact ih (.error e) hp run
    · exact ih (.ok a) (proper_perform hp performed) run

/-- The variables that are held draw pipelines that are apart from each other, and were numbered
between two states of a store. -/
structure Held.Drawn (s t : Store) (p : Held) : Prop where
  drawn : ∀ {n x}, p.get? n = some x → ∃ g, x.Drawn g ∧ g.Minted s t
  apart : ∀ {n k x y}, n ≠ k → p.get? n = some x → p.get? k = some y → x.Apart y

namespace Held.Drawn

theorem of {arguments : List Variable} (hd : Drawings s t arguments) :
    (Held.of arguments).Drawn s t where
  drawn found := hd.drawn _ (List.mem_of_getElem? found)
  apart {n k x y} other first second := by
    have pairs := List.pairwise_iff_getElem.1 hd.apart
    obtain ⟨hn, rfl⟩ := List.getElem?_eq_some_iff.1 first
    obtain ⟨hk, rfl⟩ := List.getElem?_eq_some_iff.1 second
    rcases Nat.lt_or_gt_of_ne other with less | more
    · exact pairs n k hn hk less
    · exact fun g g' hg hg' => (pairs k n hk hn more g' g hg' hg).symm

theorem later (hp : p.Drawn s t) (later : t.Precedes u) : p.Drawn s u where
  drawn found := by
    obtain ⟨g, drawn, minted⟩ := hp.drawn found
    exact ⟨g, drawn, minted.later later⟩
  apart := hp.apart

/-- Variables that are held under different numbers, in a list. -/
theorem drawings (hp : p.Drawn s t) {ns : List Nat} {xs : List Variable} (distinct : ns.Nodup)
    (found : List.Forall₂ (fun n x => p.get? n = some x) ns xs) : Drawings s t xs := by
  induction found with
  | nil => exact Variable.drawings_nil
  | @cons n x ns xs here rest ih =>
    obtain ⟨absent, distinct⟩ := List.nodup_cons.1 distinct
    have others := ih distinct
    refine ⟨fun y hy => ?_, List.pairwise_cons.2 ⟨fun y hy => ?_, others.apart⟩⟩
    · rcases List.mem_cons.1 hy with rfl | hy
      · exact hp.drawn here
      · exact others.drawn y hy
    · obtain ⟨i, hi, rfl⟩ := List.mem_iff_getElem.1 hy
      have listed : i < ns.length := by rw [rest.length_eq]; exact hi
      refine hp.apart ?_ here (rest.get listed hi)
      rintro rfl
      exact absent (List.getElem_mem listed)

/-- A variable may take a number, if it is apart from all that have another one. -/
theorem put (hp : p.Drawn s t) (later : t.Precedes u)
    (alone : Drawings s u [y])
    (others : ∀ k z, k ≠ n → p.get? k = some z → Drawings s u [y, z]) :
    (p.put n y).Drawn s u where
  drawn {k z} found := by
    obtain ⟨-, rfl⟩ | ⟨-, held⟩ := of_put found
    · exact alone.drawn _ (List.mem_cons_self ..)
    · exact (hp.later later).drawn held
  apart {k j z w} other first second := by
    have apart : ∀ k z, k ≠ n → p.get? k = some z → y.Apart z := fun k z hk found =>
      (List.pairwise_cons.1 (others k z hk found).apart).1 z (List.mem_cons_self ..)
    obtain ⟨same, rfl⟩ | ⟨hk, held⟩ := of_put first
    · obtain ⟨same', rfl⟩ | ⟨hj, held'⟩ := of_put second
      · exact absurd (same.trans same'.symm) other
      · exact apart j w hj held'
    · obtain ⟨same', rfl⟩ | ⟨hj, held'⟩ := of_put second
      · exact fun g g' hg hg' => (apart k z hk held g' g hg' hg).symm
      · exact hp.apart other held held'

/-- A variable that is held may be changed as it may be beside any others. -/
theorem change (hp : p.Drawn s t) (later : t.Precedes u) (found : p.get? n = some x)
    (step : ∀ zs, Drawings s t (x :: zs) → Drawings s u (y :: zs)) : (p.put n y).Drawn s u := by
  refine hp.put later ?_ fun k z hk hz => ?_
  · exact step [] (hp.drawings (by simp) (.cons found .nil))
  · exact step [z] (hp.drawings (by simp [hk.symm]) (.cons found (.cons hz .nil)))

/-- A variable that was made beside any others may be held. -/
theorem push (hp : p.Drawn s t) (later : t.Precedes u)
    (step : ∀ zs, Drawings s t zs → Drawings s u (y :: zs)) : (p.push y).2.Drawn s u := by
  have placed : (p.put p.next y).Drawn s u := by
    refine hp.put later (step [] Variable.drawings_nil) fun k z hk hz => step [z] ?_
    exact hp.drawings (by simp) (.cons hz .nil)
  exact ⟨placed.drawn, placed.apart⟩

theorem drop (hp : p.Drawn s t) (n : Nat) : (p.drop n).Drawn s t where
  drawn found := hp.drawn (of_drop found).2
  apart other first second := hp.apart other (of_drop first).2 (of_drop second).2

end Held.Drawn

/-- A call that duplicates nothing keeps what is held apart. -/
theorem drawn_perform (before : s.Precedes t) {c : Call} (single : ¬ c.IsDuplicate) {a : Answer}
    (hp : p.Drawn s t) (run : (c.perform h p).on t = (.ok (a, q), u)) : q.Drawn s u := by
  have mints := mints_of_run (Call.minting_perform (mt Call.IsRooted.isDuplicate single) h p) run
  have later := mints.precedes
  cases does_of_perform run with
  | new type => exact hp.push later fun zs hd => hd.new type
  | @constant value type x u made =>
    refine hp.push later fun zs hd => ?_
    exact ((hd.new type).constant before made).sublist (List.sublist_cons_self ..)
  | copy made => exact absurd trivial single
  | restore made => exact absurd trivial single
  | clone found => exact absurd trivial single
  | inspect n => exact hp
  | resolve type => exact hp
  | addModule found added => exact hp.change later found fun zs hd => hd.addModule before added
  | setFunction found set => exact hp.change later found fun zs hd => hd.setFunction set
  | connect found connected => exact hp.change later found fun zs hd => hd.connect before connected
  | selectOutput found select => exact hp.change later found fun zs hd => hd.selectOutput select
  | absorb found taken absorbed =>
    obtain ⟨other, found⟩ := Held.of_drop found
    refine (hp.drop _).put (.refl t) ?_ fun j w hj hw => ?_
    · refine Variable.Drawings.absorb ?_ absorbed
      exact hp.drawings (by simp [other]) (.cons found (.cons taken .nil))
    · obtain ⟨hk, hw⟩ := Held.of_drop hw
      refine Variable.Drawings.absorb ?_ absorbed
      exact hp.drawings (by simp [other, hj.symm, hk.symm])
        (.cons found (.cons taken (.cons hw .nil)))
  | setProvenance found record =>
    exact hp.change later found fun zs hd =>
      hd.congr_head fun g hx => ⟨hx.unwritten, hx.draws, hx.output⟩

/-- What linear code gives draws a pipeline, if its arguments did. -/
theorem drawings_run {code : Callback} (linear : code.Linear) (before : s.Precedes t)
    (hp : p.Drawn s t) (run : (code.run h p).on t = (.ok (some x), u)) : Drawings s u [x] := by
  induction code generalizing p t with
  | fail e => cases run
  | nothing => cases run
  | give n =>
    obtain ⟨y, found, rest⟩ := Action.on_ofExcept_bind_eq_ok.1 run
    cases rest
    exact hp.drawings (by simp) (.cons (Held.find_eq_ok found) .nil)
  | call c next ih =>
    have mints := Call.minting_perform (mt Call.IsRooted.isDuplicate linear.1) h p t
    rw [on_run_call] at run
    rcases performed : (c.perform h p).on t with ⟨e | ⟨a, q⟩, v⟩
    all_goals
      rw [performed] at run mints
      have before' := before.trans mints.precedes
    · exact ih (.error e) (linear.2 _) before' (hp.later mints.precedes) run
    · exact ih (.ok a) (linear.2 _) before' (drawn_perform before linear.1 hp performed) run

end Callback

end Dataflow
