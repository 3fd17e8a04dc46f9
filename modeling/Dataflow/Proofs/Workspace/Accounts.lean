import Dataflow.Proofs.Workspace.RootTag

/-! What the tags of a workspace stand for, whatever the settings are. A tag is on a version that was made
as a variables root, or it is that of a known variable and on its version. So the variables root can be had
as long as no known variable has its tag, and what is drawn can be written below it. -/

namespace Dataflow.Workspace

variable {w w' : Workspace} {tag : String} {v : VersionId} {n : Version}

/-- The tag is on a variables root, or it is that of a known variable and on its version. -/
def Accounted (w : Workspace) (tag : String) (v : VersionId) (n : Version) : Prop :=
  (∃ m < w.store.nextModule, n = w.host.rootVersion m) ∨
    ∃ name x, tag = w.host.settings.variableTag name ∧ w.named.get? name = some x ∧
      x.version = some v

/-- What is tagged is accounted for. -/
structure Accounts (w : Workspace) : Prop where
  valid : w.store.Valid
  tags : ∀ {tag v n}, w.store.Names tag v n → w.Accounted tag v n

theorem Accounts.prepares (accounts : w.Accounts) {u : Store}
    (prepares : w.host.Prepares w.store u) : Accounts { w with store := u } := by
  refine ⟨prepares.valid accounts.valid, fun names => ?_⟩
  obtain before | made := prepares.named accounts.valid names
  · refine (accounts.tags before).imp_left ?_
    rintro ⟨m, numbered, same⟩
    exact ⟨m, Nat.lt_of_lt_of_le numbered prepares.precedes.module, same⟩
  · exact .inl made

/-- Whatever a call does, what is tagged is accounted for. -/
theorem Accounts.effect (accounts : w.Accounts) (effect : w.Effect w') : w'.Accounts := by
  refine ⟨effect.valid accounts.valid, fun {tag v n} names => ?_⟩
  cases effect with
  | prepared _ prepares => exact (accounts.prepares prepares).tags ⟨names.tag, names.live⟩
  | @wrote t u name x g o r base _ _ prepares asked =>
    have rooted := Host.preparing_variablesRoot.prepares (prepares.valid accounts.valid) asked
    have ready := accounts.prepares (prepares.trans rooted)
    obtain ⟨same, rfl, -⟩ | ⟨other, -, before⟩ := (Store.names_tagged _).1 names
    · exact .inr ⟨name, _, same, OrderedMap.get?_insert_self .., rfl⟩
    · have selected := (ready.valid.mints ⟨0, 1, rfl⟩).current r.version
      have before := (Store.names_extended selected _).1 before
      refine (ready.tags ⟨before.tag, before.live⟩).imp_right ?_
      rintro ⟨name', x', rfl, known, version⟩
      refine ⟨name', x', rfl, (OrderedMap.get?_insert_of_ne ?_ ..).trans known, version⟩
      rintro rfl
      exact other rfl
  | @forgot name x v' m known version =>
    obtain ⟨ne, before⟩ := (Store.names_without v' m).1 names
    refine (accounts.tags before).imp_right ?_
    rintro ⟨name', x', rfl, known', version'⟩
    -- the version of the removed name is gone, so the tag is on another one
    have other : name' ≠ name := by
      rintro rfl
      obtain rfl : x' = x := Option.some.inj (known'.symm.trans known)
      exact ne (Option.some.inj (version'.symm.trans version))
    exact ⟨name', x', rfl, OrderedMap.get?_erase_eq_some_iff.2 ⟨other, known'⟩, version'⟩
  | @renamed old new x v' m _ known _ version =>
    obtain ⟨same, rfl, -⟩ | ⟨other, ne, before⟩ := (Store.names_tagged _).1 names
    · exact .inr ⟨new, x, same, OrderedMap.get?_insert_self .., version⟩
    · refine (accounts.tags before).imp_right ?_
      rintro ⟨name', x', rfl, known', version'⟩
      have not_new : name' ≠ new := by
        rintro rfl
        exact other rfl
      have not_old : name' ≠ old := by
        rintro rfl
        obtain rfl : x' = x := Option.some.inj (known'.symm.trans known)
        exact ne (Option.some.inj (version'.symm.trans version))
      exact ⟨name', x', rfl,
        OrderedMap.get?_insert_erase_eq_some_iff.2 (.inr ⟨not_new, not_old, known'⟩), version'⟩
  | restored prepares _ kept =>
    refine ((accounts.prepares prepares).tags names).imp_right ?_
    rintro ⟨name, x, same, known, version⟩
    exact ⟨name, x, same, kept name x known, version⟩
  | @compiled u _ _ prepares =>
    have ready := accounts.prepares prepares
    have selected := ready.valid.current VersionId.root
    have before := (Store.names_extended selected _).1 names
    exact ready.tags ⟨before.tag, before.live⟩

theorem Accounts.reaches (accounts : w.Accounts) (reaches : Reaches w w') :
    w'.Accounts ∧ w'.host = w.host ∧ w'.catalogue = w.catalogue := by
  induction reaches with
  | refl => exact ⟨accounts, rfl, rfl⟩
  | call _ admissible ih =>
    obtain ⟨accounts', host, catalogue⟩ := ih
    have effect := effect_after accounts'.valid admissible
    exact ⟨accounts'.effect effect, effect.host.1.trans host, effect.host.2.trans catalogue⟩

/-- The variables root can be had where no known variable has its tag. Its module is none of those that
were numbered in between. -/
theorem Accounts.on_variablesRoot (accounts : w.Accounts) (clear : ¬ w.Clashes) {type : TypeName}
    (output : w.host.basic "OutputPort" = .ok type) {t : Store} (mints : w.store.Mints t) :
    ∃ r u, w.host.variablesRoot.on t = (.ok r, u) ∧ t.Precedes u ∧
      u.live r.version = .ok (w.host.rootVersion r.module) ∧
      (r.module < w.store.nextModule ∨ t.nextModule ≤ r.module) := by
  have ht := accounts.valid.mints mints
  cases found : w.store.tags.get? w.host.rootTag with
  | none =>
    have absent : t.tags.get? w.host.rootTag = none := mints.tags ▸ found
    have run := Host.on_variablesRoot_of_absent ht absent
    rw [output] at run
    exact ⟨_, _, run, (Host.Prepares.root absent).precedes, (Host.rootAt_withRoot t).live,
      .inr (Nat.le_refl _)⟩
  | some v =>
    obtain ⟨n, names⟩ := accounts.valid.names found
    obtain ⟨m, numbered, rfl⟩ | ⟨name, x, taken, known, -⟩ := accounts.tags names
    · have live : t.live v = .ok (w.host.rootVersion m) := mints.live ▸ names.live
      have run := Host.on_variablesRoot_of_live (r := ⟨v, m⟩) (mints.tags ▸ names.tag) live
        (Host.keys_rootPipeline ..)
      exact ⟨⟨v, m⟩, t, run, .refl t, live, .inl numbered⟩
    · exact absurd ⟨name, x, known, taken.symm⟩ clear

/-- What was drawn can be written where no known variable has the tag of the variables root. -/
theorem Accounts.on_materialize (accounts : w.Accounts) (clear : ¬ w.Clashes) {type : TypeName}
    (known : w.host.basic "OutputPort" = .ok type) {t : Store} (mints : w.store.Mints t)
    {x : Variable} {g : Pipeline} (drawn : x.Drawn g) (minted : g.Minted w.store t) {o : PortRef}
    (output : x.output = some o) (name : String) :
    ∃ (r : VariablesRoot) (u s : Store), (w.host.rootPipeline r.module).Apart g ∧
      g.connections.get? u.nextConnection = none ∧
      (x.materialize w.host name).on t =
        (.ok (u.nextVersion, { x with version := some u.nextVersion, draft := .empty }), s) ∧
      s.Names (w.host.settings.variableTag name) u.nextVersion (x.versionBelow r.version
        (x.edits w.host r.module o u.nextConnection)
        (w.host.variablePipeline r.module g o u.nextConnection)) ∧
      s.live r.version = .ok (w.host.rootVersion r.module) := by
  obtain ⟨r, u, asked, later, live, elsewhere⟩ := accounts.on_variablesRoot clear known mints
  have ht := accounts.valid.mints mints
  have absent : g.modules.contains r.module = false := by
    rw [← Bool.not_eq_true]
    intro there
    obtain ⟨lower, upper⟩ := minted.modules _ there
    obtain below | above := elsewhere
    · exact absurd below (Nat.not_lt_of_le lower)
    · exact absurd upper (Nat.not_lt_of_le above)
  have apart := Host.apart_rootPipeline (h := w.host) absent
  have fresh := (minted.later later).next_connection
  have accepted := Host.applyAll_edits drawn.draws apart (drawn.output output) fresh
  have rooted := Host.preparing_variablesRoot.prepares ht asked
  refine ⟨r, u, x.wrote w.host name u r.version (x.edits w.host r.module o u.nextConnection)
    (w.host.variablePipeline r.module g o u.nextConnection), apart, fresh, ?_,
    ⟨OrderedMap.get?_insert_self .., Variable.live_wrote ..⟩, ?_⟩
  · exact Variable.materialize_of_accepted name drawn.unwritten output asked live accepted
  · obtain ⟨there, whole⟩ := Store.live_eq_ok_iff.1 live
    exact Store.live_eq_ok_iff.2
      ⟨Variable.get?_wrote w.host x name (rooted.valid ht) _ _ _ there, whole⟩

end Dataflow.Workspace
