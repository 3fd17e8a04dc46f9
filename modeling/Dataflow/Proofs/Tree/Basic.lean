import Mathlib.Algebra.Group.Nat.Even
import Mathlib.Data.List.Perm.Basic
import Dataflow.Operation.Builtin
import Dataflow.Proofs.Draft.Copying
import Dataflow.Proofs.Host.VariablesRoot

/-! Trees of literals and operators, as pipelines hold them. A pipeline that consists of the modules
and the wires of a tree unfolds to that tree, when its connections are followed backwards. -/

namespace Dataflow

/-- What the modules with two inputs do. -/
inductive Combiner
  | calculate (op : Arithmetic)
  | join

/-- A tree of values, with the module of each. -/
inductive Tree
  | literal (m : ModuleId) (isNumeric : Bool) (text : String)
  | node (m : ModuleId) (c : Combiner) (left right : Tree)

namespace Combiner

def name : Combiner → String
  | .calculate op => op.symbol
  | .join => Arithmetic.add.symbol

def type (h : Host) : Combiner → TypeName
  | .calculate _ => ⟨h.settings.packages.pythoncalc, "PythonCalc"⟩
  | .join => h.settings.basic "ConcatenateString"

/-- The functions that are set, each to one value. -/
def settings : Combiner → List (String × String)
  | .calculate op => [("op", op.symbol)]
  | .join => []

def functions (c : Combiner) : List Module.Function := c.settings.map fun f => ⟨f.1, [f.2]⟩

def leftPort : Combiner → String
  | .calculate _ => "value1"
  | .join => "str1"

def rightPort : Combiner → String
  | .calculate _ => "value2"
  | .join => "str2"

def isText : Combiner → Bool
  | .calculate _ => false
  | .join => true

/-- The built-in operation that makes the module. -/
def operation (s : Settings) : Combiner → Operation
  | .calculate op => Operation.arithmetic s op
  | .join => Operation.concatenation s

theorem leftPort_ne_rightPort (c : Combiner) : c.leftPort ≠ c.rightPort := by
  cases c <;> simp [leftPort, rightPort]

end Combiner

/-- The type of numbers or of texts. -/
def Host.valueType (h : Host) (isText : Bool) : TypeName :=
  h.settings.basic (if isText then "String" else "Float")

namespace Tree

variable (h : Host)

def isText : Tree → Bool
  | .literal _ isNumeric _ => !isNumeric
  | .node _ c _ _ => c.isText

/-- The module that the tree ends in. -/
def top : Tree → Module
  | .literal m isNumeric text =>
    ⟨m, h.valueType !isNumeric, [⟨h.settings.ports.value, [text]⟩]⟩
  | .node m c _ _ => ⟨m, c.type h, c.functions⟩

def ids : Tree → List ModuleId
  | .literal m _ _ => [m]
  | .node m _ left right => m :: (left.ids ++ right.ids)

/-- The port that has the value of the tree. -/
def output : Tree → PortRef
  | .literal m _ _ => ⟨m, h.settings.ports.value⟩
  | .node m _ _ _ => ⟨m, "value"⟩

def modules : Tree → List Module
  | .literal m isNumeric text => [top h (.literal m isNumeric text)]
  | .node m c left right => top h (.node m c left right) :: (left.modules ++ right.modules)

def wires : Tree → List Wire
  | .literal .. => []
  | .node m c left right =>
    ⟨left.output h, ⟨m, c.leftPort⟩⟩ :: ⟨right.output h, ⟨m, c.rightPort⟩⟩ ::
      (left.wires ++ right.wires)

/-- The same tree with other modules. -/
def moved (f : ModuleId → ModuleId) : Tree → Tree
  | .literal m isNumeric text => .literal (f m) isNumeric text
  | .node m c left right => .node (f m) c (left.moved f) (right.moved f)

end Tree

namespace Pipeline

def wiresInto (p : Pipeline) (m : ModuleId) : List Wire :=
  p.wires.filter fun w => w.destination.module == m

end Pipeline

/-- Following connections backwards from a port, a pipeline unfolds to a tree. -/
inductive Host.Unfolds (h : Host) (p : Pipeline) : PortRef → Tree → Prop
  | literal {m : ModuleId} {isNumeric : Bool} {text : String}
      (found : p.modules.get? m =
        some ⟨m, h.valueType !isNumeric, [⟨h.settings.ports.value, [text]⟩]⟩)
      (fed : p.wiresInto m = []) :
      Unfolds h p ⟨m, h.settings.ports.value⟩ (.literal m isNumeric text)
  | node {m : ModuleId} {c : Combiner} {a b : PortRef} {left right : Tree}
      (found : p.modules.get? m = some ⟨m, c.type h, c.functions⟩)
      (fed : (p.wiresInto m).Perm [⟨a, ⟨m, c.leftPort⟩⟩, ⟨b, ⟨m, c.rightPort⟩⟩])
      (first : Unfolds h p a left) (second : Unfolds h p b right) :
      Unfolds h p ⟨m, "value"⟩ (.node m c left right)

/-- A pipeline that consists of the module of the variables root, and of a tree that feeds it. -/
structure Host.Spans (h : Host) (p : Pipeline) (root : ModuleId) (t : Tree) : Prop where
  modules : p.modules.values.Perm (h.rootModule root :: t.modules h)
  wires : p.wires.Perm (⟨t.output h, ⟨root, h.settings.ports.pipe⟩⟩ :: t.wires h)

theorem Host.valueType_inj {h : Host} {isText isText' : Bool}
    (same : h.valueType isText = h.valueType isText') : isText = isText' := by
  cases isText <;> cases isText' <;> simp_all [Host.valueType, Settings.basic]

namespace Combiner

variable {h : Host}

theorem valueType_ne_type (h : Host) (isText : Bool) (c : Combiner) : h.valueType isText ≠ c.type h := by
  cases isText <;> cases c <;> simp [Host.valueType, type, Settings.basic]

/-- The module of a combiner tells which one it is. -/
theorem eq_of_module {c d : Combiner} (types : c.type h = d.type h)
    (functions : c.functions = d.functions) : c = d := by
  cases c with
  | calculate op =>
    cases d with
    | calculate op' =>
      have same : op.symbol = op'.symbol := by simpa [Combiner.functions, settings] using functions
      have known := congrArg Arithmetic.ofSymbol? same
      rw [Arithmetic.ofSymbol?_symbol, Arithmetic.ofSymbol?_symbol, Option.some.injEq] at known
      rw [known]
    | join => simp [Combiner.functions, settings] at functions
  | join =>
    cases d with
    | calculate op' => simp [Combiner.functions, settings] at functions
    | join => rfl

/-- The wires into the module of a combiner tell what feeds each of its inputs. -/
theorem feeds_unique {c : Combiner} {m : ModuleId} {a b a' b' : PortRef}
    (same : List.Perm [(⟨a, ⟨m, c.leftPort⟩⟩ : Wire), ⟨b, ⟨m, c.rightPort⟩⟩]
      [⟨a', ⟨m, c.leftPort⟩⟩, ⟨b', ⟨m, c.rightPort⟩⟩]) : a = a' ∧ b = b' := by
  have other := c.leftPort_ne_rightPort
  have first := same.subset (List.mem_cons_self ..)
  have second := same.subset (List.mem_cons_of_mem _ (List.mem_cons_self ..))
  simp only [List.mem_cons, Wire.mk.injEq, PortRef.mk.injEq, other, other.symm, and_true,
    and_false, or_false, false_or, List.not_mem_nil] at first second
  exact ⟨first, second⟩

end Combiner

/-- A pipeline unfolds to one tree at most. -/
theorem Host.Unfolds.unique {h : Host} {p : Pipeline} {o o' : PortRef} {t t' : Tree}
    (first : h.Unfolds p o t) (second : h.Unfolds p o' t') (same : o = o') : t = t' := by
  induction first generalizing o' t' with
  | literal found fed =>
    cases second with
    | literal found' fed' =>
      cases same
      simp only [found, Option.some.injEq, Module.mk.injEq, true_and, List.cons.injEq, and_true,
        Module.Function.mk.injEq] at found'
      have numeric := Host.valueType_inj found'.1
      rw [Bool.not_inj_iff] at numeric
      rw [numeric, found'.2]
    | node found' fed' =>
      cases congrArg PortRef.module same
      simp only [found, Option.some.injEq, Module.mk.injEq] at found'
      exact absurd found'.2.1 (Combiner.valueType_ne_type h _ _)
  | node found fed _ _ ih ih' =>
    cases second with
    | literal found' fed' =>
      cases congrArg PortRef.module same
      simp only [found', Option.some.injEq, Module.mk.injEq] at found
      exact absurd found.2.1 (Combiner.valueType_ne_type h _ _)
    | node found' fed' first' second' =>
      cases same
      simp only [found, Option.some.injEq, Module.mk.injEq, true_and] at found'
      obtain rfl := Combiner.eq_of_module found'.1 found'.2
      obtain ⟨rfl, rfl⟩ := Combiner.feeds_unique (fed.symm.trans fed')
      rw [ih first' rfl, ih' second' rfl]

namespace Tree

variable {h : Host} {t : Tree} {f : ModuleId → ModuleId}

theorem map_id_modules (h : Host) (t : Tree) : (t.modules h).map Module.id = t.ids := by
  induction t with
  | literal => rfl
  | node m c left right first second =>
    rw [modules, List.map_cons, List.map_append, first, second]
    rfl

theorem output_mem : (t.output h).module ∈ t.ids := by
  cases t with
  | literal => exact List.mem_singleton.2 rfl
  | node => exact List.mem_cons_self ..

theorem isText_moved : (t.moved f).isText = t.isText := by
  cases t <;> rfl

theorem output_moved : (t.moved f).output h = (t.output h).moved f := by
  cases t <;> rfl

theorem modules_moved : (t.moved f).modules h = (t.modules h).map fun m => m.copied (f m.id) := by
  induction t with
  | literal m isNumeric text =>
    have same : (top h (.literal m isNumeric text)).copied (f m) =
        top h (.literal (f m) isNumeric text) := rfl
    exact congrArg (fun k => [k]) same.symm
  | node m c left right first second =>
    have same : (top h (.node m c left right)).copied (f m) =
        top h (.node (f m) c (left.moved f) (right.moved f)) := by
      cases c <;> rfl
    rw [moved, modules, modules, List.map_cons, List.map_append, first, second]
    exact congrArg (fun k => k :: _) same.symm

theorem wires_moved : (t.moved f).wires h = (t.wires h).map (Wire.moved f) := by
  induction t with
  | literal => rfl
  | node m c left right first second =>
    rw [moved, wires, wires, first, second, output_moved, output_moved, List.map_cons,
      List.map_cons, List.map_append]
    rfl

theorem destination_mem {w : Wire} (hw : w ∈ t.wires h) : w.destination.module ∈ t.ids := by
  induction t with
  | literal => cases hw
  | node m c left right first second =>
    rw [wires, List.mem_cons, List.mem_cons, List.mem_append] at hw
    rw [ids, List.mem_cons, List.mem_append]
    rcases hw with rfl | rfl | hw | hw
    · exact .inl rfl
    · exact .inl rfl
    · exact .inr (.inl (first hw))
    · exact .inr (.inr (second hw))

theorem filter_wires_of_not_mem {k : ModuleId} (absent : k ∉ t.ids) :
    ((t.wires h).filter fun w => w.destination.module == k) = [] := by
  rw [List.filter_eq_nil_iff]
  intro w hw into
  rw [beq_iff_eq] at into
  exact absent (into ▸ destination_mem hw)

theorem filter_wires_node (h : Host) (m : ModuleId) (c : Combiner) (left right : Tree) (k : ModuleId) :
    ((wires h (.node m c left right)).filter fun w => w.destination.module == k) =
      (if m = k then [⟨left.output h, ⟨m, c.leftPort⟩⟩, ⟨right.output h, ⟨m, c.rightPort⟩⟩] else []) ++
        ((left.wires h).filter (fun w => w.destination.module == k) ++
          (right.wires h).filter fun w => w.destination.module == k) := by
  rw [wires, List.filter_cons, List.filter_cons, List.filter_append]
  by_cases same : m = k <;> simp [same]

theorem even_inputs (h : Host) (t : Tree) (k : ModuleId) :
    Even ((t.wires h).filter fun w => w.destination.module == k).length := by
  induction t with
  | literal => exact ⟨0, rfl⟩
  | node m c left right first second =>
    rw [filter_wires_node, List.length_append, List.length_append]
    refine Even.add ?_ (first.add second)
    by_cases same : m = k
    · rw [if_pos same]
      exact ⟨1, rfl⟩
    · rw [if_neg same]
      exact ⟨0, rfl⟩

/-- A pipeline that has the modules of a tree, with just the tree's wires into them, unfolds to the
tree. -/
theorem unfolds {p : Pipeline} (distinct : t.ids.Nodup)
    (found : ∀ m ∈ t.modules h, p.modules.get? m.id = some m)
    (fed : ∀ k ∈ t.ids,
      (p.wiresInto k).Perm ((t.wires h).filter fun w => w.destination.module == k)) :
    h.Unfolds p (t.output h) t := by
  induction t with
  | literal m isNumeric text =>
    exact .literal (found _ (List.mem_singleton.2 rfl))
      (List.perm_nil.1 (fed m (List.mem_singleton.2 rfl)))
  | node m c left right first second =>
    rw [ids, List.nodup_cons, List.mem_append, not_or] at distinct
    obtain ⟨⟨notLeft, notRight⟩, distinct⟩ := distinct
    obtain ⟨distinctLeft, distinctRight, apart⟩ := List.nodup_append.1 distinct
    simp only [filter_wires_node] at fed
    refine .node (found _ (List.mem_cons_self ..)) ?_ (first distinctLeft ?_ fun k hk => ?_)
      (second distinctRight ?_ fun k hk => ?_)
    · have here := fed m (List.mem_cons_self ..)
      rwa [if_pos rfl, filter_wires_of_not_mem notLeft, filter_wires_of_not_mem notRight] at here
    · exact fun k hk => found k (List.mem_cons_of_mem _ (List.mem_append_left _ hk))
    · have here := fed k (List.mem_cons_of_mem _ (List.mem_append_left _ hk))
      have other : m ≠ k := fun same => notLeft (same ▸ hk)
      have notRight : k ∉ right.ids := fun hk' => apart k hk k hk' rfl
      rwa [if_neg other, filter_wires_of_not_mem notRight, List.append_nil] at here
    · exact fun k hk => found k (List.mem_cons_of_mem _ (List.mem_append_right _ hk))
    · have here := fed k (List.mem_cons_of_mem _ (List.mem_append_right _ hk))
      have other : m ≠ k := fun same => notRight (same ▸ hk)
      have notLeft : k ∉ left.ids := fun hk' => apart k hk' k hk rfl
      rwa [if_neg other, filter_wires_of_not_mem notLeft] at here

end Tree

namespace Host.Spans

variable {h : Host} {p : Pipeline} {root : ModuleId} {t : Tree}

theorem distinct (spans : h.Spans p root t) (closed : p.WellFormed) : (root :: t.ids).Nodup := by
  have ids := spans.modules.map Module.id
  rw [List.map_cons, Tree.map_id_modules] at ids
  exact ids.nodup_iff.1 closed.nodup_ids

theorem wiresInto (spans : h.Spans p root t) (k : ModuleId) :
    (p.wiresInto k).Perm ((if root = k then [⟨t.output h, ⟨root, h.settings.ports.pipe⟩⟩] else []) ++
      (t.wires h).filter fun w => w.destination.module == k) := by
  refine (spans.wires.filter _).trans (.of_eq ?_)
  rw [List.filter_cons]
  by_cases same : root = k <;> simp [same]

theorem fed (spans : h.Spans p root t) (closed : p.WellFormed) :
    p.wiresInto root = [⟨t.output h, ⟨root, h.settings.ports.pipe⟩⟩] := by
  have into := spans.wiresInto root
  rw [if_pos rfl, Tree.filter_wires_of_not_mem (List.nodup_cons.1 (spans.distinct closed)).1] at into
  exact List.perm_singleton.1 into

theorem unfolds (spans : h.Spans p root t) (closed : p.WellFormed) :
    h.Unfolds p (t.output h) t := by
  obtain ⟨absent, distinct⟩ := List.nodup_cons.1 (spans.distinct closed)
  refine t.unfolds distinct (fun m hm => ?_) fun k hk => ?_
  · exact closed.mem_values_iff.1 (spans.modules.mem_iff.2 (List.mem_cons_of_mem _ hm))
  · have into := spans.wiresInto k
    have other : root ≠ k := fun same => absent (same ▸ hk)
    rwa [if_neg other] at into

theorem eq_root (spans : h.Spans p root t) {k : ModuleId} {w : Wire} (single : p.wiresInto k = [w]) :
    k = root := by
  by_contra other
  have into := spans.wiresInto k
  rw [if_neg (Ne.symm other), single] at into
  have even := Tree.even_inputs h t k
  rw [← List.nil_append (List.filter _ _), ← into.length_eq] at even
  exact Nat.not_even_one even

end Host.Spans

end Dataflow
