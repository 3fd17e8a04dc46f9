import Dataflow.Proofs.Pipeline.WellFormed
import Dataflow.Proofs.Store.Runs

/-! What the operations of a store change. Numbering modules and connections changes the counters
and nothing else; a commit adds a version and selects it. -/

namespace Dataflow.Store

/-- Only the counters of modules and connections have moved on. -/
def Mints (s t : Store) : Prop :=
  ∃ m c, t = { s with
    nextModule := s.nextModule + m
    nextConnection := s.nextConnection + c }

namespace Mints

theorem refl (s : Store) : s.Mints s := ⟨0, 0, rfl⟩

theorem trans {s t u : Store} : s.Mints t → t.Mints u → s.Mints u := by
  rintro ⟨m, c, rfl⟩ ⟨n, d, rfl⟩
  exact ⟨m + n, c + d, by simp [Nat.add_assoc]⟩

variable {s t : Store} (h : s.Mints t)
include h

theorem versions : t.versions = s.versions := by obtain ⟨m, c, rfl⟩ := h; rfl

theorem tags : t.tags = s.tags := by obtain ⟨m, c, rfl⟩ := h; rfl

theorem current : t.current = s.current := by obtain ⟨m, c, rfl⟩ := h; rfl

theorem nextVersion : t.nextVersion = s.nextVersion := by obtain ⟨m, c, rfl⟩ := h; rfl

theorem live : t.live = s.live := by obtain ⟨m, c, rfl⟩ := h; rfl

theorem pipeline : t.pipeline = s.pipeline := by obtain ⟨m, c, rfl⟩ := h; rfl

theorem resolveTag : t.resolveTag = s.resolveTag := by obtain ⟨m, c, rfl⟩ := h; rfl

end Mints

/-- Identifiers that were given out in the first state are not given out again in the second. -/
structure Precedes (s t : Store) : Prop where
  module : s.nextModule ≤ t.nextModule
  connection : s.nextConnection ≤ t.nextConnection

theorem Precedes.refl (s : Store) : s.Precedes s := ⟨Nat.le_refl _, Nat.le_refl _⟩

theorem Precedes.trans {s t u : Store} (first : s.Precedes t) (rest : t.Precedes u) :
    s.Precedes u :=
  ⟨Nat.le_trans first.module rest.module, Nat.le_trans first.connection rest.connection⟩

theorem Mints.precedes {s t : Store} (h : s.Mints t) : s.Precedes t := by
  obtain ⟨m, c, rfl⟩ := h
  exact ⟨Nat.le_add_right .., Nat.le_add_right ..⟩

theorem mints_createModule (s : Store) (t : TypeName) : s.Mints (s.createModule t).2 := ⟨1, 0, rfl⟩

theorem mints_createConnection (s : Store) (source destination : PortRef) :
    s.Mints (s.createConnection source destination).2 := ⟨0, 1, rfl⟩

/-- The version that every store starts from is there, all versions are below the next one and hold
well-formed pipelines, and tags name versions that are there and were not pruned. -/
structure Valid (s : Store) : Prop where
  root : ∃ n, s.versions.get? VersionId.root = some n ∧ n.parent = none ∧
    n.pipeline = .empty ∧ n.pruned = false
  bounded : ∀ {v n}, s.versions.get? v = some n → v < s.nextVersion
  wellFormed : ∀ {v n}, s.versions.get? v = some n → n.pipeline.WellFormed
  tagged : ∀ {tag v}, s.tags.get? tag = some v →
    ∃ n, s.versions.get? v = some n ∧ n.pruned = false

theorem get?_new_eq_some_iff {v : VersionId} {n : Version} :
    new.versions.get? v = some n ↔ v = VersionId.root ∧ n = origin := by
  simp [new, OrderedMap.get?_insert_eq_some_iff]

theorem valid_new : new.Valid where
  root := ⟨origin, by simp [new], rfl, rfl, rfl⟩
  bounded h := by
    obtain ⟨rfl, rfl⟩ := get?_new_eq_some_iff.1 h
    exact Nat.one_pos
  wellFormed h := by
    obtain ⟨rfl, rfl⟩ := get?_new_eq_some_iff.1 h
    exact Pipeline.wellFormed_empty
  tagged h := by simp [new] at h

theorem Valid.tag_lt {s : Store} (h : s.Valid) {tag : String} {v : VersionId}
    (found : s.tags.get? tag = some v) : v < s.nextVersion := by
  obtain ⟨n, there, -⟩ := h.tagged found
  exact h.bounded there

theorem Valid.fresh {s : Store} (h : s.Valid) : s.versions.get? s.nextVersion = none := by
  cases found : s.versions.get? s.nextVersion with
  | none => rfl
  | some n => exact absurd (h.bounded found) (Nat.lt_irrefl _)

theorem Valid.mints {s t : Store} (hs : s.Valid) (h : s.Mints t) : t.Valid where
  root := by
    rw [h.versions]
    exact hs.root
  bounded := by
    rw [h.versions, h.nextVersion]
    exact hs.bounded
  wellFormed := by
    rw [h.versions]
    exact hs.wellFormed
  tagged := by
    rw [h.versions, h.tags]
    exact hs.tagged

theorem pipeline_eq_ok_iff {s : Store} {v : VersionId} {p : Pipeline} :
    s.pipeline v = .ok p ↔
      ∃ n, s.versions.get? v = some n ∧ n.pruned = false ∧ n.pipeline = p := by
  unfold pipeline
  cases h : s.live v with
  | error fault =>
    simp only [Except.map, reduceCtorEq, false_iff, not_exists]
    rintro n ⟨found, live, -⟩
    rw [live_eq_ok_iff.2 ⟨found, live⟩] at h
    cases h
  | ok n =>
    obtain ⟨found, live⟩ := live_eq_ok_iff.1 h
    simp only [Except.map, Except.ok.injEq]
    constructor
    · rintro rfl
      exact ⟨n, found, live, rfl⟩
    · rintro ⟨m, hm, -, rfl⟩
      rw [found] at hm
      cases hm
      rfl

theorem select_of_live {s : Store} {v : VersionId} {n : Version} (h : s.live v = .ok n) :
    s.select v = .ok { s with current := v } := by
  simp [select, h, Except.map]

/-- All modules of versions have identifiers that the store gave out. -/
def Numbered (s : Store) : Prop :=
  ∀ {v n}, s.versions.get? v = some n → ∀ id, n.pipeline.modules.contains id = true →
    id < s.nextModule

theorem numbered_new : new.Numbered := by
  intro v n found id listed
  obtain ⟨rfl, rfl⟩ := get?_new_eq_some_iff.1 found
  cases listed

theorem Numbered.mints {s t : Store} (hs : s.Numbered) (h : s.Mints t) : t.Numbered := by
  intro v n found id listed
  rw [h.versions] at found
  exact Nat.lt_of_lt_of_le (hs found id listed) h.precedes.module

/-- The store with one more version, which is selected. -/
def extended (s : Store) (n : Version) : Store :=
  { s with
    versions := s.versions.insert s.nextVersion n
    current := s.nextVersion
    nextVersion := s.nextVersion + 1 }

theorem commit_of_applyAll {s : Store} {base : Version} {edits : List Edit} {p : Pipeline}
    (live : s.live s.current = .ok base) (applies : base.pipeline.applyAll edits = .ok p) :
    s.commit edits =
      .ok (s.nextVersion, s.extended ⟨some s.current, edits, p, ∅, false⟩) := by
  simp [commit, live, applies, bind, Except.bind, pure, Except.pure, extended]

theorem commit_of_refused {s : Store} {base : Version} {edits : List Edit} {fault : HostFault}
    (live : s.live s.current = .ok base) (refused : base.pipeline.applyAll edits = .error fault) :
    s.commit edits = .error fault := by
  simp [commit, live, refused, bind, Except.bind]

theorem get?_extended (s : Store) (n : Version) (v : VersionId) :
    (s.extended n).versions.get? v = if v = s.nextVersion then some n else s.versions.get? v :=
  OrderedMap.get?_insert ..

theorem get?_extended_eq_some_iff {s : Store} {n m : Version} {v : VersionId} :
    (s.extended n).versions.get? v = some m ↔
      v = s.nextVersion ∧ m = n ∨ v ≠ s.nextVersion ∧ s.versions.get? v = some m :=
  OrderedMap.get?_insert_eq_some_iff

theorem Valid.get?_extended {s : Store} (h : s.Valid) (n : Version) {v : VersionId} {m : Version}
    (found : s.versions.get? v = some m) : (s.extended n).versions.get? v = some m :=
  get?_extended_eq_some_iff.2 (.inr ⟨Nat.ne_of_lt (h.bounded found), found⟩)

theorem Valid.extended {s : Store} (h : s.Valid) {n : Version} (made : n.pipeline.WellFormed) :
    (s.extended n).Valid where
  root := by
    obtain ⟨m, found, rest⟩ := h.root
    exact ⟨m, h.get?_extended n found, rest⟩
  bounded found := by
    obtain ⟨rfl, -⟩ | ⟨-, before⟩ := get?_extended_eq_some_iff.1 found
    · exact Nat.lt_succ_self _
    · exact Nat.lt_succ_of_lt (h.bounded before)
  wellFormed found := by
    obtain ⟨-, rfl⟩ | ⟨-, before⟩ := get?_extended_eq_some_iff.1 found
    · exact made
    · exact h.wellFormed before
  tagged found := by
    obtain ⟨m, there, live⟩ := h.tagged found
    exact ⟨m, h.get?_extended n there, live⟩

theorem Valid.current {s : Store} (h : s.Valid) (v : VersionId) :
    Valid { s with current := v } := ⟨h.root, h.bounded, h.wellFormed, h.tagged⟩

theorem Numbered.extended {s : Store} (hs : s.Numbered) {n : Version}
    (numbered : ∀ id, n.pipeline.modules.contains id = true → id < s.nextModule) :
    (s.extended n).Numbered := by
  intro v m found
  obtain ⟨-, rfl⟩ | ⟨-, before⟩ := get?_extended_eq_some_iff.1 found
  · exact numbered
  · exact hs before

/-- A tag for the newest version takes nothing away, if it is new itself. -/
theorem Valid.tags_of_fresh {s : Store} (h : s.Valid) {tag : String}
    (absent : s.tags.get? tag = none) :
    (s.tags.filter fun other w => w != s.nextVersion && other != tag) = s.tags := by
  apply OrderedMap.ext_get?
  intro other
  rw [OrderedMap.get?_filter]
  cases found : s.tags.get? other with
  | none => rfl
  | some w =>
    have ne : other ≠ tag := by
      rintro rfl
      rw [absent] at found
      cases found
    simp [Option.filter, Nat.ne_of_lt (h.tag_lt found), ne]

/-- The store after a live version was tagged. -/
def tagged (s : Store) (v : VersionId) (name : String) : Store :=
  { s with tags := (s.tags.filter fun other w => w != v && other != name).insert name v }

theorem tag_of_live {s : Store} {v : VersionId} {n : Version} (h : s.live v = .ok n)
    (name : String) : s.tag v name = .ok (s.tagged v name) := by
  simp [tag, h, Except.map, tagged]

theorem get?_tagged (s : Store) (v : VersionId) (name other : String) :
    (s.tagged v name).tags.get? other =
      if other = name then some v else (s.tags.get? other).filter fun w => w != v := by
  rw [tagged, OrderedMap.get?_insert, OrderedMap.get?_filter]
  by_cases same : other = name
  · simp [same]
  · simp [same, bne_iff_ne.2 same]

theorem get?_tagged_eq_some_iff {s : Store} {v w : VersionId} {name other : String} :
    (s.tagged v name).tags.get? other = some w ↔
      other = name ∧ w = v ∨ other ≠ name ∧ w ≠ v ∧ s.tags.get? other = some w := by
  rw [get?_tagged]
  by_cases same : other = name
  · simp [same, eq_comm]
  · simp [same, Option.filter_eq_some_iff, and_comm]

/-- The store after a version other than the root was pruned. -/
def without (s : Store) (v : VersionId) (n : Version) : Store :=
  { s with
    versions := s.versions.insert v { n with pruned := true }
    tags := s.tags.filter fun _ w => w != v
    current := if s.current = v then n.parent.getD VersionId.root else s.current }

theorem prune_eq_ok {s t : Store} {v : VersionId} (h : s.prune v = .ok t) :
    v ≠ VersionId.root ∧ ∃ n, s.versions.get? v = some n ∧ t = s.without v n := by
  unfold prune at h
  split at h
  · cases h
  · next ne =>
    split at h
    · cases h
    · next n found => exact ⟨ne, n, found, (Except.ok.inj h).symm⟩

theorem get?_without (s : Store) (v : VersionId) (n : Version) (w : VersionId) :
    (s.without v n).versions.get? w =
      if w = v then some { n with pruned := true } else s.versions.get? w :=
  OrderedMap.get?_insert ..

theorem get?_without_eq_some_iff {s : Store} {v w : VersionId} {n m : Version} :
    (s.without v n).versions.get? w = some m ↔
      w = v ∧ m = { n with pruned := true } ∨ w ≠ v ∧ s.versions.get? w = some m :=
  OrderedMap.get?_insert_eq_some_iff

theorem get?_untagged_eq_some_iff {s : Store} {v w : VersionId} {n : Version} {tag : String} :
    (s.without v n).tags.get? tag = some w ↔ w ≠ v ∧ s.tags.get? tag = some w := by
  rw [without, OrderedMap.get?_filter, Option.filter_eq_some_iff, bne_iff_ne, and_comm]

theorem Valid.without {s : Store} (h : s.Valid) {v : VersionId} {n : Version}
    (ne : v ≠ VersionId.root) (there : s.versions.get? v = some n) : (s.without v n).Valid where
  root := by
    obtain ⟨m, found, rest⟩ := h.root
    exact ⟨m, get?_without_eq_some_iff.2 (.inr ⟨ne.symm, found⟩), rest⟩
  bounded found := by
    obtain ⟨rfl, -⟩ | ⟨-, before⟩ := get?_without_eq_some_iff.1 found
    · exact h.bounded there
    · exact h.bounded before
  wellFormed found := by
    obtain ⟨-, rfl⟩ | ⟨-, before⟩ := get?_without_eq_some_iff.1 found
    · exact (h.wellFormed there : n.pipeline.WellFormed)
    · exact h.wellFormed before
  tagged found := by
    obtain ⟨other, before⟩ := get?_untagged_eq_some_iff.1 found
    obtain ⟨m, known, live⟩ := h.tagged before
    exact ⟨m, get?_without_eq_some_iff.2 (.inr ⟨other, known⟩), live⟩

theorem Valid.tag {s : Store} (h : s.Valid) {v : VersionId} {n : Version}
    (there : s.versions.get? v = some n) (live : n.pruned = false) (name : String) :
    (s.tagged v name).Valid where
  root := h.root
  bounded := h.bounded
  wellFormed := h.wellFormed
  tagged found := by
    obtain ⟨-, rfl⟩ | ⟨-, -, before⟩ := get?_tagged_eq_some_iff.1 found
    · exact ⟨n, there, live⟩
    · exact h.tagged before

end Dataflow.Store

namespace Dataflow.Action

/-- Every run does nothing to a store but number modules and connections. -/
abbrev Minting (a : Action α) : Prop := Moves Store.Mints a

theorem mints_of_run {a : Action α} (minting : Minting a) {s t : Store} {x : Except Error α}
    (run : a.on s = (x, t)) : s.Mints t := by
  have mints := minting s
  rwa [run] at mints

theorem minting_pure (x : α) : Minting (pure x) := moves_pure .refl x

theorem minting_throw (e : Error) : Minting (throw e : Action α) := moves_throw .refl e

theorem minting_ofExcept (r : Except Error α) : Minting (ofExcept r) := moves_ofExcept .refl r

theorem minting_query (f : Store → Except HostFault α) : Minting (query f) := moves_query .refl f

theorem Minting.bind {a : Action α} {f : α → Action β} (ha : Minting a)
    (hf : ∀ x, Minting (f x)) : Minting (a >>= f) :=
  Moves.bind (fun _ _ _ first rest => first.trans rest) ha hf

theorem minting_createModule (type : TypeName) : Minting (createModule type) :=
  fun s => s.mints_createModule type

theorem minting_createConnection (source destination : PortRef) :
    Minting (createConnection source destination) :=
  fun s => s.mints_createConnection source destination

theorem Minting.foldlM {f : β → α → Action β} (hf : ∀ x a, Minting (f x a)) (x : β)
    (as : List α) : Minting (as.foldlM f x) := by
  induction as generalizing x with
  | nil => exact minting_pure x
  | cons a as ih => exact (hf x a).bind ih

end Dataflow.Action
